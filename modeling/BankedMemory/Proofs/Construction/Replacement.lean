import BankedMemory.Proofs.Construction.Growth

/-!
# Queued and applied replacements

A replacement is queued once for each net. After a bus has been rewired, each of its nets is replaced by the net at
its place, unless that is the net itself; the arena and all other replacements stay. Resolving a replaced net is
resolving its target, as long as the chain ends.
-/

namespace BankedMemory

namespace Rewiring

variable {rewiring : Rewiring} {net target : Net}

theorem target?_insert (rewiring : Rewiring) (source target net : Net) :
    target? (rewiring.insert source target) net = if source = net then some target else rewiring.target? net := by
  unfold target?
  rw [Std.TreeMap.getElem?_insert]
  simp only [Std.LawfulEqOrd.compare_eq_iff_eq]

theorem walk_of_end {steps : Nat} (h : rewiring.target? (rewiring.walk steps net) = none) :
    rewiring.walk (steps + 1) net = rewiring.walk steps net := by
  induction steps generalizing net with
  | zero =>
    have last : rewiring.target? net = none := h
    simp [walk, last]
  | succ steps ih =>
    cases next : rewiring.target? net with
    | none => simp [walk, next]
    | some target =>
      have h' : rewiring.target? (rewiring.walk steps target) = none := by simpa [walk, next] using h
      simpa [walk, next] using ih h'

/-- A replaced net resolves to what its target resolves to. -/
theorem resolve_eq_of_target? (ends : rewiring.isEndless net = false) (h : rewiring.target? net = some target) :
    rewiring.resolve net = rewiring.resolve target := by
  have last := target?_resolve ends
  unfold resolve at last ⊢
  cases size : rewiring.size with
  | zero =>
    rw [size] at last
    exact absurd (h.symm.trans last) (Option.some_ne_none target)
  | succ n =>
    rw [size] at last
    have one : rewiring.walk (n + 1) net = rewiring.walk n target := by simp [walk, h]
    rw [one] at last ⊢
    exact (walk_of_end last).symm

end Rewiring

namespace Netlist

variable {netlist after : Netlist}

theorem target?_empty (net : Net) : Rewiring.target? ∅ net = none := Std.TreeMap.getElem?_emptyc

theorem rewire_eq_ok_iff {source target : Net} : netlist.rewire source target = .ok after ↔
    netlist.rewiring.target? source = none ∧
      after = { netlist with rewiring := netlist.rewiring.insert source target } := by
  unfold rewire
  cases netlist.rewiring.target? source with
  | none => simp [eq_comm]
  | some previous => simp

/-- What queuing the replacement of some nets by others does. -/
structure Rewires (pairs : List (Net × Net)) (before after : Netlist) : Prop where
  slots : after.slots = before.slots
  queued : after.queued = before.queued
  kept : ∀ net target, before.rewiring.target? net = some target → after.rewiring.target? net = some target
  other : ∀ net, after.rewiring.target? net = before.rewiring.target? net ∨ net ∈ pairs.map Prod.fst
  each : ∀ pair ∈ pairs, pair.1 = pair.2 ∨ after.rewiring.target? pair.1 = some pair.2

theorem Rewires.refl (netlist : Netlist) : Rewires [] netlist netlist :=
  ⟨rfl, rfl, fun _ _ h => h, fun _ => Or.inl rfl, by simp⟩

/-- A replacement that keeps the net in its place is none. -/
theorem Rewires.cons_same {pairs : List (Net × Net)} (h : Rewires pairs netlist after) {pair : Net × Net}
    (same : pair.1 = pair.2) : Rewires (pair :: pairs) netlist after where
  slots := h.slots
  queued := h.queued
  kept := h.kept
  other net := (h.other net).imp_right fun member => List.mem_cons_of_mem _ member
  each other member := by
    rcases List.mem_cons.mp member with rfl | member
    · exact Or.inl same
    · exact h.each other member

theorem rewires_rewire {source target : Net} (h : netlist.rewire source target = .ok after) :
    Rewires [(source, target)] netlist after := by
  obtain ⟨free, rfl⟩ := rewire_eq_ok_iff.mp h
  refine ⟨rfl, rfl, fun net other before => ?_, fun net => ?_, fun pair member => ?_⟩
  · have different : source ≠ net := by
      rintro rfl
      rw [free] at before
      cases before
    rwa [Rewiring.target?_insert, if_neg different]
  · rw [Rewiring.target?_insert]
    split
    · rename_i here
      exact Or.inr (by simp [here])
    · exact Or.inl rfl
  · obtain rfl := List.mem_singleton.mp member
    exact Or.inr (by rw [Rewiring.target?_insert, if_pos rfl])

theorem Rewires.append {pairs others : List (Net × Net)} {middle : Netlist} (first : Rewires pairs netlist middle)
    (second : Rewires others middle after) : Rewires (pairs ++ others) netlist after where
  slots := second.slots.trans first.slots
  queued := second.queued.trans first.queued
  kept net target h := second.kept net target (first.kept net target h)
  other net := by
    rw [List.map_append, List.mem_append]
    rcases second.other net with same | member
    · exact (first.other net).imp same.trans Or.inl
    · exact Or.inr (Or.inr member)
  each pair member := by
    rcases List.mem_append.mp member with member | member
    · exact (first.each pair member).imp_right (second.kept _ _)
    · exact second.each pair member

theorem rewires_pairs {pairs : List (Net × Net)}
    (h : pairs.foldlM (fun netlist pair =>
      if pair.1 = pair.2 then .ok netlist else netlist.rewire pair.1 pair.2) netlist = .ok after) :
    Rewires pairs netlist after := by
  induction pairs generalizing netlist with
  | nil =>
    cases h
    exact .refl _
  | cons pair rest ih =>
    rw [List.foldlM_cons] at h
    by_cases same : pair.1 = pair.2
    · simp only [same, if_true, bind, Except.bind] at h
      exact (ih h).cons_same same
    · simp only [same, if_false] at h
      cases first : netlist.rewire pair.1 pair.2 with
      | error cause => simp [first, bind, Except.bind] at h
      | ok middle =>
        simp only [first, bind, Except.bind] at h
        exact (rewires_rewire first).append (ih h)

theorem rewireBus_eq_ok {source target : Bus} (h : netlist.rewireBus source target = .ok after) :
    source.length = target.length ∧ Rewires (source.zip target) netlist after := by
  unfold rewireBus Size.agree at h
  by_cases same : source.length = target.length
  · simp only [same, if_true, bind, Except.bind] at h
    exact ⟨same, rewires_pairs h⟩
  · simp [same, bind, Except.bind] at h

theorem Rewires.arena {pairs : List (Net × Net)} (h : Rewires pairs netlist after) : after.arena = netlist.arena := by
  simp [Netlist.arena, h.slots, h.queued]

theorem Rewires.next {pairs : List (Net × Net)} (h : Rewires pairs netlist after) : after.next = netlist.next := by
  simp [Netlist.next, h.slots, h.queued]

/-- Rewiring placeholders only is growth. -/
theorem Rewires.grows {base : Nat} {source target : Bus} (h : Rewires (source.zip target) netlist after)
    (blank : Blank base netlist source) : Grows netlist after where
  next_le := Nat.le_of_eq h.next.symm
  arena index _ := by rw [h.arena]
  rewired := h.kept
  placeholders net := by
    rcases h.other net with same | member
    · exact Or.inl same
    · obtain ⟨⟨replaced, target⟩, at_place, rfl⟩ := List.mem_map.mp member
      obtain ⟨index, _, rfl, found⟩ := blank replaced (List.of_mem_zip at_place).1
      exact Or.inr ⟨index, rfl, by rw [h.arena]; exact found⟩

/-- Applying a netlist puts its whole arena in place, with every operand resolved. -/
theorem apply_eq_ok_iff : netlist.apply = .ok after ↔
    (∀ net ∈ operandsOf netlist.arena, netlist.rewiring.isEndless net = false) ∧
      after = ⟨netlist.arena.map (Slot.map netlist.rewiring.resolve), #[], ∅⟩ := by
  unfold apply
  dsimp only
  rw [← arena]
  cases found : (operandsOf netlist.arena).find? netlist.rewiring.isEndless with
  | some net =>
    have endless := List.find?_some found
    have member := List.mem_of_find?_eq_some found
    constructor
    · intro h
      cases h
    · rintro ⟨none_endless, _⟩
      rw [none_endless net member] at endless
      cases endless
  | none =>
    have none_endless : ∀ net ∈ operandsOf netlist.arena, netlist.rewiring.isEndless net = false := by
      simpa using List.find?_eq_none.mp found
    constructor
    · intro h
      exact ⟨none_endless, (Except.ok.inj h).symm⟩
    · rintro ⟨_, rfl⟩
      rfl

end Netlist

end BankedMemory
