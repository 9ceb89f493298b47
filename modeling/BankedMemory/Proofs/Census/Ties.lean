import BankedMemory.Proofs.Construction.Edits
import BankedMemory.Proofs.Construction.Endings

/-!
# Ties that succeed

Placeholders that are added one bus after the other are all different. Different nets, none of which is replaced yet,
may be replaced in any number of buses. If none of the nets they are replaced by is one of them, every chain ends after
one link, and the netlist may be applied.
-/

namespace BankedMemory

namespace Rewiring

/-- No net is replaced by a net that is replaced itself. -/
def Direct (rewiring : Rewiring) : Prop :=
  ∀ net target, rewiring.target? net = some target → rewiring.target? target = none

theorem Direct.not_endless {rewiring : Rewiring} (direct : rewiring.Direct) (net : Net) :
    rewiring.isEndless net = false := by
  refine isEndless_eq_false_iff.mpr ?_
  cases replaced : rewiring.target? net with
  | none => exact ⟨net, .done replaced⟩
  | some target => exact ⟨target, .link replaced (.done (direct net target replaced))⟩

end Rewiring

theorem Bus.ofSlots_add (start width more : Nat) :
    ofSlots start (width + more) = ofSlots start width ++ ofSlots (start + width) more := by
  rw [ofSlots, ofSlots, ofSlots, ← List.map_append, List.range'_append_1]

theorem Bus.mem_ofSlots {start width : Nat} {net : Net} :
    net ∈ ofSlots start width ↔ ∃ index, start ≤ index ∧ index < start + width ∧ net = .slot index := by
  simp only [ofSlots, List.mem_map, List.mem_range'_1, and_assoc, eq_comm]

theorem Bus.nodup_ofSlots (start width : Nat) : (ofSlots start width).Nodup := by
  refine List.Nodup.map (fun one other same => ?_) (List.nodup_range' (s := start) (n := width))
  exact Net.slot.inj same

namespace Netlist

variable {netlist : Netlist}

theorem exists_rewireAll (netlist : Netlist) {pairs : List (Net × Net)} (distinct : (pairs.map Prod.fst).Nodup)
    (free : ∀ pair ∈ pairs, netlist.rewiring.target? pair.1 = none) : ∃ after, netlist.rewireAll pairs = .ok after := by
  induction pairs generalizing netlist with
  | nil => exact ⟨netlist, rfl⟩
  | cons pair rest ih =>
    obtain ⟨first, others⟩ := List.nodup_cons.mp distinct
    let middle : Netlist := { netlist with rewiring := netlist.rewiring.insert pair.1 pair.2 }
    have rewired : netlist.rewire pair.1 pair.2 = .ok middle := rewire_eq_ok_iff.mpr ⟨free pair List.mem_cons_self, rfl⟩
    have still_free : ∀ other ∈ rest, middle.rewiring.target? other.1 = none := by
      intro other member
      have different : pair.1 ≠ other.1 := fun same => first (same ▸ List.mem_map_of_mem member)
      rw [Rewiring.target?_insert, if_neg different]
      exact free other (List.mem_cons_of_mem pair member)
    obtain ⟨after, done⟩ := ih middle others still_free
    refine ⟨after, ?_⟩
    rw [rewireAll_cons, rewired]
    exact done

/-- Different nets that are not replaced yet may be replaced. -/
theorem exists_rewireBus {source target : Bus} (same : source.length = target.length) (distinct : source.Nodup)
    (free : ∀ net ∈ source, netlist.rewiring.target? net = none) : ∃ after,
      netlist.rewireBus source target = .ok after ∧ after.arena = netlist.arena ∧
        ∀ net goal, after.rewiring.target? net = some goal →
          netlist.rewiring.target? net = some goal ∨ net ∈ source ∧ goal ∈ target := by
  let pairs := (source.zip target).filter fun pair => pair.1 ≠ pair.2
  have firsts : (pairs.map Prod.fst).Sublist source := by
    have all : (source.zip target).map Prod.fst = source := List.map_fst_zip (Nat.le_of_eq same)
    have fewer : (pairs.map Prod.fst).Sublist ((source.zip target).map Prod.fst) := List.filter_sublist.map _
    rwa [all] at fewer
  obtain ⟨after, done⟩ := netlist.exists_rewireAll (distinct.sublist firsts) fun pair member =>
    free pair.1 (firsts.subset (List.mem_map_of_mem member))
  refine ⟨after, ?_, arena_rewireAll done, fun net goal replaced => ?_⟩
  · rw [rewireBus_eq, Size.agree_eq_ok_iff.mpr same]
    exact done
  · refine ((target?_rewireAll done).mp replaced).imp_right fun member => ?_
    exact List.of_mem_zip (List.mem_filter.mp member).1

end Netlist

namespace Storage.Build

variable {bench after : Workbench}

/-- The ties of several buses succeed one after the other. -/
theorem exists_ties (bench : Workbench) (entries : List (Bus × Bus))
    (same : ∀ entry ∈ entries, entry.1.length = entry.2.length)
    (distinct : (entries.map Prod.fst).flatten.Nodup)
    (free : ∀ net ∈ (entries.map Prod.fst).flatten, bench.netlist.rewiring.target? net = none) : ∃ after,
      Ends (entries.forM fun entry => rewireBus entry.1 entry.2) bench () after ∧
        after.netlist.arena = bench.netlist.arena ∧ ∀ net goal, after.netlist.rewiring.target? net = some goal →
          bench.netlist.rewiring.target? net = some goal ∨ ∃ entry ∈ entries, net ∈ entry.1 ∧ goal ∈ entry.2 := by
  induction entries generalizing bench with
  | nil => exact ⟨bench, ends_pure.mpr ⟨rfl, rfl⟩, rfl, fun _ _ replaced => Or.inl replaced⟩
  | cons entry rest ih =>
    rw [List.map_cons, List.flatten_cons] at distinct free
    obtain ⟨here, later, apart⟩ := List.nodup_append.mp distinct
    obtain ⟨netlist, rewired, arena, replaced⟩ := Netlist.exists_rewireBus (same entry List.mem_cons_self) here
      fun net member => free net (List.mem_append_left _ member)
    let middle : Workbench := { bench with netlist }
    have still_free : ∀ net ∈ (rest.map Prod.fst).flatten, middle.netlist.rewiring.target? net = none := by
      intro net member
      refine Option.eq_none_iff_forall_ne_some.mpr fun goal found => ?_
      rcases replaced net goal found with earlier | ⟨at_entry, _⟩
      · rw [free net (List.mem_append_right _ member)] at earlier
        cases earlier
      · exact apart net at_entry net member rfl
    obtain ⟨after, ended, arena', replaced'⟩ :=
      ih middle (fun other member => same other (List.mem_cons_of_mem entry member)) later still_free
    refine ⟨after, ?_, arena'.trans arena, fun net goal found => ?_⟩
    · exact ends_bind.mpr ⟨(), middle, ends_rewireBus.mpr ⟨netlist, rewired, rfl⟩, ended⟩
    · rcases replaced' net goal found with earlier | ⟨other, member, inside⟩
      · refine (replaced net goal earlier).imp_right fun inside => ?_
        exact ⟨entry, List.mem_cons_self, inside⟩
      · exact Or.inr ⟨other, List.mem_cons_of_mem entry member, inside⟩

/-- Placeholders take the next slots, one bus after the other. -/
theorem flatten_of_placeholders {α : Type} {l : List α} {width : Nat} {buses : List Bus}
    (ended : Ends (l.mapM fun _ => addPlaceholders width) bench buses after) :
    buses.flatten = Bus.ofSlots bench.netlist.next (l.length * width) ∧
      after.netlist.next = bench.netlist.next + l.length * width ∧
        after.netlist.rewiring = bench.netlist.rewiring := by
  induction l generalizing bench buses with
  | nil =>
    obtain ⟨rfl, rfl⟩ := ends_pure.mp ended
    simp [Bus.ofSlots]
  | cons x rest ih =>
    rw [List.mapM_cons] at ended
    obtain ⟨first, middle, here, ended⟩ := ends_bind.mp ended
    obtain ⟨others, later, there, ended⟩ := ends_bind.mp ended
    obtain ⟨rfl, rfl⟩ := ends_pure.mp ended
    obtain ⟨_, rfl, rfl⟩ := ends_addPlaceholders.mp here
    obtain ⟨all, next, kept⟩ := ih there
    have longer : (bench.netlist.pushPlaceholders width).2.next = bench.netlist.next + width := by
      rw [Netlist.pushPlaceholders, Netlist.next_enqueue, List.length_replicate]
    have total : (rest.length + 1) * width = width + rest.length * width := by
      rw [Nat.succ_mul, Nat.add_comm]
    rw [longer] at all next
    refine ⟨?_, ?_, kept⟩
    · rw [List.flatten_cons, all, List.length_cons, total, Bus.ofSlots_add]
      rfl
    · rw [next, List.length_cons, total, Nat.add_assoc]

end Storage.Build

end BankedMemory
