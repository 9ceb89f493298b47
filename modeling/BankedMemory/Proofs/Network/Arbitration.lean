import BankedMemory.Proofs.Network.Collisions
import Mathlib.Data.Finset.Option

/-!
# The first writer wins

With arbitration each writer writes with a mask that leaves out the bits that any earlier writer writes to its row.
Where all enables are known, and the addresses of all writers that write, at most one writer is left at each bit of
each row: the first of those that want to write there. So the shares merge what one writer alone writes.
-/

namespace BankedMemory.Storage

open Finset

namespace Traffic

variable (traffic : Traffic)

/-- Whether another writer writes a place of the row of a writer. -/
def clash (i j place : Nat) : Trit := (traffic.mask j place).and (Bits.same (traffic.addr j) (traffic.addr i))

/-- The mask that is left to a writer by the earlier ones. -/
def arbitrated (i place : Nat) : Trit :=
  (traffic.mask i place).and (((List.range i).map fun j => traffic.clash i j place).foldl Trit.or .zero).not

/-- The first writer that writes to a place of a row. -/
def winner (ports : Ports) (row place : Nat) : Option Nat :=
  (List.range ports.writers.length).find? fun i => traffic.Hits ports row place i

variable {traffic} {ports : Ports} {row place : Nat}

theorem winner_eq_some_iff {i : Nat} : traffic.winner ports row place = some i ↔
    i < ports.writers.length ∧ traffic.Hits ports row place i ∧ ∀ j < i, ¬ traffic.Hits ports row place j := by
  unfold winner
  rw [List.find?_range_eq_some]
  simp only [decide_eq_true_eq, List.mem_range, Bool.not_eq_true', decide_eq_false_iff_not]
  tauto

/-- Two known addresses that select the same row are equal. -/
theorem addr_eq_iff (wide : ∀ i < ports.writers.length, (traffic.addr i).length = ports.blueprint.addressWidth)
    {i j : Nat} (hi : i < ports.writers.length) (hj : j < ports.writers.length)
    (hit : ports.rowOf (traffic.addr i) = some row) :
    traffic.addr j = traffic.addr i ↔ ports.rowOf (traffic.addr j) = some row := by
  constructor
  · intro same
    rw [same, hit]
  · intro hit'
    rw [Ports.rowOf_eq_some_iff] at hit hit'
    exact hit'.2.word_unique ((wide j hj).trans (wide i hi).symm) hit.2

variable (decided : traffic.Decided ports)
  (wide : ∀ i < ports.writers.length, (traffic.addr i).length = ports.blueprint.addressWidth)
  (inside : place < ports.blueprint.width)
include decided wide inside

theorem clash_eq {i j : Nat} (hi : i < ports.writers.length) (hj : j < ports.writers.length)
    (written : traffic.mask i place = .one) : traffic.clash i j place =
      if traffic.mask j place = .one ∧ traffic.addr j = traffic.addr i then .one else .zero := by
  unfold clash
  cases mask : traffic.mask j place with
  | unknown => exact absurd mask (decided.enabled j hj place inside)
  | zero => rfl
  | one =>
    have known := decided.addressed i hi ⟨place, inside, written⟩
    have known' := decided.addressed j hj ⟨place, inside, mask⟩
    rw [Bits.same_of_known known' known ((wide j hj).trans (wide i hi).symm)]
    by_cases same : traffic.addr j = traffic.addr i <;> simp [same, Trit.and]

/-- A writer keeps a bit of its mask exactly if no earlier writer writes this bit of the same row. -/
theorem arbitrated_eq {i : Nat} (hi : i < ports.writers.length) : traffic.arbitrated i place =
    if traffic.mask i place = .one ∧ ∀ j < i, ¬ (traffic.mask j place = .one ∧ traffic.addr j = traffic.addr i)
      then .one else .zero := by
  unfold arbitrated
  cases mask : traffic.mask i place with
  | unknown => exact absurd mask (decided.enabled i hi place inside)
  | zero => rfl
  | one =>
    have clashes : (List.range i).map (fun j => traffic.clash i j place) = (List.range i).map fun j =>
        if traffic.mask j place = .one ∧ traffic.addr j = traffic.addr i then .one else .zero := by
      refine List.map_congr_left fun j member => ?_
      exact clash_eq decided wide inside hi (Nat.lt_trans (List.mem_range.mp member) hi) mask
    rw [clashes]
    by_cases earlier : ∀ j < i, ¬ (traffic.mask j place = .one ∧ traffic.addr j = traffic.addr i)
    · have none : ((List.range i).map fun j => if traffic.mask j place = .one ∧ traffic.addr j = traffic.addr i
          then Trit.one else .zero).foldl Trit.or .zero = .zero := by
        rw [Trit.foldl_or_eq_zero_iff]
        refine ⟨rfl, fun bit member => ?_⟩
        obtain ⟨j, at_range, rfl⟩ := List.mem_map.mp member
        exact if_neg (earlier j (List.mem_range.mp at_range))
      rw [none, if_pos ⟨rfl, earlier⟩]
      rfl
    · have some_clash : ((List.range i).map fun j => if traffic.mask j place = .one ∧ traffic.addr j = traffic.addr i
          then Trit.one else .zero).foldl Trit.or .zero = .one := by
        rw [Trit.foldl_or_eq_one_iff]
        push Not at earlier
        obtain ⟨j, before, clash⟩ := earlier
        exact Or.inr (List.mem_map.mpr ⟨j, List.mem_range.mpr before, if_pos clash⟩)
      rw [some_clash, if_neg fun both => earlier both.2]
      rfl

/-- At most one writer is left at each bit: the first one. -/
theorem contenders_arbitrated (row : Nat) :
    Traffic.contenders { traffic with mask := traffic.arbitrated } ports row place =
      (traffic.winner ports row place).toFinset := by
  ext i
  rw [mem_contenders, Option.mem_toFinset, Option.mem_def, winner_eq_some_iff]
  refine and_congr_right fun hi => ?_
  show ports.rowOf (traffic.addr i) = some row ∧ traffic.arbitrated i place = .one ↔ _
  rw [arbitrated_eq decided wide inside hi]
  constructor
  · rintro ⟨hit, kept⟩
    split at kept
    · rename_i both
      refine ⟨⟨hit, both.1⟩, fun j before hits => both.2 j before ⟨hits.2, ?_⟩⟩
      exact (addr_eq_iff wide hi (Nat.lt_trans before hi) hit).mpr hits.1
    · cases kept
  · rintro ⟨⟨hit, written⟩, first⟩
    refine ⟨hit, if_pos ⟨written, fun j before both => first j before ⟨?_, both.1⟩⟩⟩
    exact (addr_eq_iff wide hi (Nat.lt_trans before hi) hit).mp both.2

end Traffic

/-- A cycle in which the first writer to a bit overwrites it, and a reader sees this if it observes that writer. -/
def Store.overwrite (ports : Ports) (traffic : Traffic) (store : Store) : Store :=
  store.cycle ports traffic
    (fun row place => (traffic.winner ports row place).elim (store.bit row place) fun i => traffic.data i place)
    (fun k row place => (traffic.winner ports row place).elim (store.bit row place) fun i =>
      if ports.observes k i then traffic.data i place else store.bit row place)

namespace Shares

variable {ports : Ports} {s : Shares} {store : Store} {traffic : Traffic}

theorem merged_toFinset (i? : Option Nat) (place : Nat) (old : Trit) :
    traffic.merged i?.toFinset place old = i?.elim old fun i => traffic.data i place := by
  cases i? with
  | none => simp [Traffic.merged]
  | some i => simp [Traffic.merged]

theorem merged_seen (i? : Option Nat) (seen : Nat → Bool) (place : Nat) (old : Trit) :
    traffic.merged (i?.toFinset.filter fun i => seen i) place old =
      i?.elim old fun i => if seen i then traffic.data i place else old := by
  cases i? with
  | none => simp [Traffic.merged]
  | some i => by_cases observed : seen i <;> simp [Traffic.merged, filter_singleton, observed]

/-- With the masks that arbitration leaves, a cycle overwrites. -/
theorem Agrees.arbitrate (h : s.Agrees ports store) (orderly : traffic.Orderly ports)
    (wide : ∀ i < ports.writers.length, (traffic.addr i).length = ports.blueprint.addressWidth) :
    (s.advance ports { traffic with mask := traffic.arbitrated }).Agrees ports (store.overwrite ports traffic) := by
  have enabled : ∀ i < ports.writers.length, ∀ place < ports.blueprint.width,
      traffic.arbitrated i place ≠ .unknown := by
    intro i hi place inside
    rw [Traffic.arbitrated_eq orderly.toDecided wide inside hi]
    split <;> exact Trit.noConfusion
  have offered : ∀ row, ∀ place < ports.blueprint.width,
      ∀ i ∈ Traffic.contenders { traffic with mask := traffic.arbitrated } ports row place,
        traffic.data i place ≠ .unknown := by
    intro row place inside i member
    rw [Traffic.contenders_arbitrated orderly.toDecided wide inside, Option.mem_toFinset, Option.mem_def,
      Traffic.winner_eq_some_iff] at member
    exact orderly.known i member.1 ⟨place, inside, member.2.1.2⟩ place inside
  have merges := h.advance enabled offered
  refine ⟨merges.known, fun row row_inside place inside => ?_, fun k place inside => ?_⟩
  · rw [merges.total row row_inside place inside]
    show Traffic.merged _ _ place (store.bit row place) = _
    rw [Traffic.contenders_arbitrated orderly.toDecided wide inside]
    exact merged_toFinset _ place _
  · rw [merges.data k place inside]
    refine latched_congr rfl fun row _ => ?_
    dsimp only
    rw [Traffic.contenders_arbitrated orderly.toDecided wide inside]
    exact merged_seen _ _ place _

end Shares

namespace XorNetwork

variable {network : XorNetwork} {site : Installation network.build} {lanes : List Lane} {state : State}

section Masks

variable (layout : network.Layout site.Has site.Tied site.assembly lanes) (aligned : state.Aligned site.netlist)
  (live : ∀ net ∈ network.ports.nets, site.netlist.Live state (site.resolve net))
include layout aligned live

theorem shows_clash {i j : Nat} {writer other : Writer} (found : network.ports.writers[i]? = some writer)
    (found' : network.ports.writers[j]? = some other) {output : Bus}
    (h : network.Clash site.Has writer other output) :
    site.Shows state output
      (Bits.tabulate network.ports.blueprint.width ((network.trafficIn site state).clash i j)) := by
  obtain ⟨sameRow, compared, written⟩ := h
  have row_shown := compared.shows_equal aligned (shows_writer_addr aligned live found')
    (shows_writer_addr aligned live found)
  obtain ⟨net, rfl⟩ := List.length_eq_one_iff.mp row_shown.length.symm
  have copies : site.Shows state (Bus.repeated [net] network.ports.blueprint.width)
      (Bits.tabulate network.ports.blueprint.width fun _ =>
        Bits.same ((network.trafficIn site state).addr j) ((network.trafficIn site state).addr i)) := by
    rw [repeated_single]
    exact Installation.shows_replicate row_shown _
  have joined := written.shows_gate aligned (shows_writer_mask layout aligned live found') copies
  rwa [Bits.zipWith_tabulate] at joined

end Masks

/-- With arbitration the mask of a lane is what is left to its writer. -/
theorem shows_arbitrated (first_wins : network.arbitration = .lowestIndex)
    (layout : network.Layout site.Has site.Tied site.assembly lanes) (state : State)
    (aligned : state.Aligned site.netlist)
    (live : ∀ net ∈ network.ports.nets, site.netlist.Live state (site.resolve net)) :
    ∀ source ∈ lanes.zipIdx, site.Shows state source.1.mask
      (Bits.tabulate network.ports.blueprint.width ((network.trafficIn site state).arbitrated source.2)) := by
  intro source member
  have found := layout.writer_of_lane member
  have own := shows_writer_mask layout aligned live found
  have arbitrated : network.Arbitrated site.Has source.1.writer (network.ports.writers.take source.2)
      source.1.mask := by
    simpa [MaskedBy, first_wins] using layout.masked source member
  obtain ⟨inside, _⟩ := List.getElem?_eq_some_iff.mp found
  rcases arbitrated with ⟨alone, mask_eq⟩ | ⟨clashes, conflict, free, some_earlier, each, joined, inverted, masked⟩
  · have first : source.2 = 0 := by
      rw [List.take_eq_nil_iff] at alone
      exact alone.resolve_right fun none => by simp [none] at inside
    rw [mask_eq]
    have whole : (network.trafficIn site state).arbitrated source.2 = (network.trafficIn site state).mask source.2 := by
      funext place
      rw [first]
      unfold Traffic.arbitrated
      cases (network.trafficIn site state).mask 0 place <;> rfl
    rwa [whole]
  · have shown : List.Forall₂ (fun bus word =>
        site.Shows state bus (Bits.tabulate network.ports.blueprint.width word)) clashes
        ((List.range source.2).map ((network.trafficIn site state).clash source.2)) := by
      obtain ⟨same, clash⟩ := forall₂_iff_getElem?.mp each
      rw [List.length_take, Nat.min_eq_left (Nat.le_of_lt inside)] at same
      refine forall₂_iff_getElem?.mpr ⟨by simp [same], fun j output word at_output at_word => ?_⟩
      obtain ⟨before, _⟩ := List.getElem?_eq_some_iff.mp at_output
      have found' := List.getElem?_eq_getElem (Nat.lt_trans (same ▸ before) inside)
      have earlier : (network.ports.writers.take source.2)[j]? = _ :=
        (List.getElem?_take_of_lt (same ▸ before)).trans found'
      obtain rfl : (network.trafficIn site state).clash source.2 j = word := by
        simpa [same ▸ before] using at_word
      exact shows_clash layout aligned live found found' (clash j _ output earlier at_output)
    have some_clash : clashes ≠ [] := by
      rintro rfl
      exact some_earlier (List.forall₂_nil_right_iff.mp each)
    have conflict_shown := Installation.shows_joined aligned joined some_clash shown .zero fun bit => by
      cases bit <;> rfl
    have free_shown := inverted.shows_invert aligned conflict_shown
    rw [Bits.invert_tabulate] at free_shown
    have mask_shown := masked.shows_gate aligned own free_shown
    rw [Bits.zipWith_tabulate] at mask_shown
    simp only [List.map_map, Function.comp_def, Gate.apply] at mask_shown
    exact mask_shown

/-- With arbitration the readers read, after every run, what one memory gives in which the first writer wins. -/
theorem reads_overwritten (site : Installation network.build) (first_wins : network.arbitration = .lowestIndex)
    (some_writer : network.ports.writers ≠ []) (accepted : network.ports.blueprint.Accepted)
    (known_rows : ∀ row ∈ network.ports.blueprint.rows, Trit.unknown ∉ row) {actions : List Action} {start : State}
    (run : network.Run site actions start (Traffic.Orderly network.ports)) :
    ∃ last, site.netlist.perform actions start = .ok last ∧
      site.Reads network.ports last
        (Store.run Store.overwrite network.ports (network.history site actions start)).data := by
  obtain ⟨lanes, layout⟩ := exists_layout site some_writer
  have keeps (s : Shares) (store : Store) (state : State) (agrees : s.Agrees network.ports store)
      (orderly : (network.trafficIn site state).Orderly network.ports) :
      (s.advance network.ports (network.maskedTraffic site state (network.trafficIn site state).arbitrated)).Agrees
        network.ports (store.overwrite network.ports (network.trafficIn site state)) :=
    agrees.arbitrate orderly (Ports.length_addr layout.verified)
  obtain ⟨last, s, performed, reads, agrees⟩ := perform_agrees (Shares.Agrees network.ports)
    (Store.overwrite network.ports) Traffic.arbitrated _ layout some_writer accepted
    (shows_arbitrated first_wins layout) keeps _ (Shares.agrees_initial some_writer known_rows) run
  exact ⟨last, performed, reads.congr fun k _ => agrees.data k⟩

def arbitratedPair : Installation (pair .lowestIndex [[.zero]]).build :=
  .atOnce _ pairBoard (by decide +kernel) rewiring_pairBoard
    (fun bit => by cases bit <;> decide +kernel) (by decide +kernel)

/-- Where both writers meet at a zero, the first one overwrites it with its one. -/
theorem pair_reads_overwritten :
    (pair .lowestIndex [[.zero]]).Run arbitratedPair (pairRun [.one, .one, .zero]) (.initial arbitratedPair.netlist)
        (Traffic.Orderly (pair .lowestIndex [[.zero]]).ports) ∧
      ∃ last, arbitratedPair.netlist.perform (pairRun [.one, .one, .zero]) (.initial arbitratedPair.netlist) = .ok last ∧
        arbitratedPair.Reads (pair .lowestIndex [[.zero]]).ports last fun _ _ => .one := by
  have run : (pair .lowestIndex [[.zero]]).Run arbitratedPair (pairRun [.one, .one, .zero])
      (.initial arbitratedPair.netlist) (Traffic.Orderly (pair .lowestIndex [[.zero]]).ports) := by decide +kernel
  obtain ⟨last, performed, stored⟩ := reads_overwritten arbitratedPair rfl (by simp [pair])
    ⟨by decide, by decide, by decide, by decide⟩ (by decide) run
  exact ⟨run, last, performed, reads_pair stored (by decide +kernel)⟩

end XorNetwork

end BankedMemory.Storage
