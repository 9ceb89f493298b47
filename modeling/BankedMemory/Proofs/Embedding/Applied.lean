import BankedMemory.Proofs.Construction.Endings
import BankedMemory.Proofs.Construction.Resolution
import BankedMemory.Proofs.Embedding.Inclusion

/-!
# Applying two netlists, one within the other

Applying both netlists keeps the one within the other, and leaves no difference but in the places. So any revisions of
the larger netlist can be made of the smaller one, and once they are applied the larger netlist adds nothing of weight.
-/

namespace BankedMemory

/-- What is picked out of a list is picked out of a longer one, if the elements keep their order in it, and nothing else
there is picked. -/
theorem filterMap_of_strictMono {α β : Type*} {f : α → Option β} {xs ys : List α} {place : Nat → Nat}
    (mono : StrictMono place) (each : ∀ i x, xs[i]? = some x → ∃ y, ys[place i]? = some y ∧ f y = f x)
    (others : ∀ j y, ys[j]? = some y → f y ≠ none → ∃ i < xs.length, place i = j) :
    ys.filterMap f = xs.filterMap f := by
  induction xs generalizing ys place with
  | nil =>
    rw [List.filterMap_nil, List.filterMap_eq_nil_iff]
    intro y member
    obtain ⟨j, found⟩ := List.mem_iff_getElem?.mp member
    by_contra picked
    obtain ⟨i, inside, _⟩ := others j y found picked
    exact absurd inside (Nat.not_lt_zero i)
  | cons x rest ih =>
    obtain ⟨y, found, same⟩ := each 0 x rfl
    obtain ⟨inside, at_place⟩ := List.getElem?_eq_some_iff.mp found
    have early : (ys.take (place 0)).filterMap f = [] := by
      rw [List.filterMap_eq_nil_iff]
      intro z member
      obtain ⟨j, at_j⟩ := List.mem_iff_getElem?.mp member
      rw [List.getElem?_take] at at_j
      split at at_j
      · rename_i before
        by_contra picked
        obtain ⟨i, _, rfl⟩ := others j z at_j picked
        exact absurd (mono.monotone (Nat.zero_le i)) (Nat.not_le_of_lt before)
      · cases at_j
    have later : (ys.drop (place 0 + 1)).filterMap f = rest.filterMap f := by
      have beyond (i : Nat) : place 0 + 1 ≤ place (i + 1) := mono (Nat.succ_pos i)
      have shifted : StrictMono fun i => place (i + 1) - (place 0 + 1) := by
        intro i k lower
        have further : place (i + 1) < place (k + 1) := mono (Nat.succ_lt_succ lower)
        exact Nat.sub_lt_sub_right (beyond i) further
      refine ih shifted ?_ ?_
      · intro i z at_i
        obtain ⟨w, at_w, picked⟩ := each (i + 1) z at_i
        refine ⟨w, ?_, picked⟩
        rw [List.getElem?_drop, Nat.add_sub_cancel' (beyond i), at_w]
      · intro j z at_j picked
        rw [List.getElem?_drop] at at_j
        obtain ⟨i, low, at_i⟩ := others _ z at_j picked
        cases i with
        | zero => omega
        | succ i => exact ⟨i, Nat.lt_of_succ_lt_succ low, by rw [at_i, Nat.add_sub_cancel_left]⟩
    conv_lhs => rw [← List.take_append_drop (place 0) ys, List.drop_eq_getElem_cons inside]
    rw [List.filterMap_append, early, List.nil_append, List.filterMap_cons, List.filterMap_cons, at_place, same, later]

/-- A slot with all that belongs to it at its new place. -/
def Slot.move (place : Nat → Nat) : Slot → Slot
  | placeholder => placeholder
  | continuation start => continuation (place start)
  | cell c => cell (c.map (Net.relocate place))

namespace Netlist.Included

variable {place : Nat → Nat} {small big big' : Netlist} (included : Included place small big)
include included

/-- The chain of replacements from a net is found at the new places. -/
theorem leads_iff {net last' : Net} : big.rewiring.Leads (net.relocate place) last' ↔
    ∃ last, last' = last.relocate place ∧ small.rewiring.Leads net last := by
  constructor
  · intro leads
    generalize same : net.relocate place = net' at leads
    induction leads generalizing net with
    | done kept =>
      subst same
      rw [included.rewiring] at kept
      exact ⟨net, rfl, .done (Option.map_eq_none_iff.mp kept)⟩
    | link replaced rest ih =>
      subst same
      rw [included.rewiring] at replaced
      obtain ⟨target, replaced, moved⟩ := Option.map_eq_some_iff.mp replaced
      obtain ⟨last, last_eq, leads⟩ := ih moved
      exact ⟨last, last_eq, .link replaced leads⟩
  · rintro ⟨last, rfl, leads⟩
    induction leads with
    | done kept => exact .done (by rw [included.rewiring, kept]; rfl)
    | link replaced rest ih => exact .link (by rw [included.rewiring, replaced]; rfl) ih

/-- What a net is replaced by in the end, a net that stands for it is replaced by as well. -/
theorem ends_of_standsFor {net net' : Net} (stands : StandsFor place big net net')
    (ends : big.rewiring.isEndless net' = false) : small.rewiring.isEndless net = false ∧
      big.rewiring.resolve net' = (small.rewiring.resolve net).relocate place := by
  have leads' := Rewiring.leads_iff.mpr ⟨ends, rfl⟩
  have moved : big.rewiring.Leads (net.relocate place) (big.rewiring.resolve net') := by
    rcases stands with rfl | ⟨_, tied⟩
    · exact leads'
    · exact (Rewiring.leads_of_replaced tied).mp leads'
  obtain ⟨last, last_eq, leads⟩ := included.leads_iff.mp moved
  obtain ⟨ends_small, resolved⟩ := Rewiring.leads_iff.mp leads
  exact ⟨ends_small, by rw [last_eq, resolved]⟩

/-- Once both netlists are applied, cells that are alike differ in the places of their operands only. -/
theorem map_resolve {c c' : Cell} (alike : c.Alike (StandsFor place big) c')
    (ends : ∀ net' ∈ c'.nets, big.rewiring.isEndless net' = false) :
    (∀ net ∈ c.nets, small.rewiring.isEndless net = false) ∧
      c'.map big.rewiring.resolve = (c.map small.rewiring.resolve).map (Net.relocate place) := by
  constructor
  · intro net member
    have same := alike (fun net => if small.rewiring.isEndless net then .one else .zero) (fun _ => .zero)
      fun net _ net' member' stands => by
        rw [(included.ends_of_standsFor stands (ends net' member')).1]
        rfl
    have nets := congrArg Cell.nets same
    rw [Cell.nets_map, Cell.nets_map] at nets
    obtain ⟨_, _, zero⟩ := List.mem_map.mp (nets ▸ List.mem_map_of_mem member)
    by_contra endless
    rw [Bool.not_eq_false] at endless
    rw [if_pos endless] at zero
    cases zero
  · rw [Cell.map_map]
    refine (alike (Net.relocate place ∘ small.rewiring.resolve) big.rewiring.resolve ?_).symm
    exact fun net _ net' member' stands => (included.ends_of_standsFor stands (ends net' member')).2.symm

theorem apply (done : big.apply = .ok big') : ∃ small', small.apply = .ok small' ∧ Included place small' big' := by
  obtain ⟨ends, rfl⟩ := apply_eq_ok_iff.mp done
  have operands {index' : Nat} {c' : Cell} (found' : big.arena[index']? = some (.cell c')) :
      ∀ net' ∈ c'.nets, big.rewiring.isEndless net' = false :=
    fun net' member' => ends net' (mem_operandsOf.mpr ⟨c', Array.mem_of_getElem? found', member'⟩)
  refine ⟨_, apply_eq_ok_iff.mpr ⟨fun net member => ?_, rfl⟩, ?_⟩
  · obtain ⟨c, at_cell, at_net⟩ := mem_operandsOf.mp member
    obtain ⟨index, found⟩ := Array.mem_iff_getElem?.mp at_cell
    obtain ⟨slot', found', related⟩ := included.slots index _ found
    cases slot' with
    | cell c' => exact (included.map_resolve related (operands found')).1 net at_net
    | placeholder => cases related
    | continuation start => cases related
  have arena_eq (slots : Array Slot) : (⟨slots, #[], ∅⟩ : Netlist).arena = slots := by simp [arena]
  have next_eq (netlist : Netlist) (f : Slot → Slot) :
      (⟨netlist.arena.map f, #[], ∅⟩ : Netlist).next = netlist.next := by
    rw [← size_arena, arena_eq, Array.size_map, size_arena]
  constructor
  · exact included.mono
  · intro k
    rw [next_eq, next_eq]
    exact included.ahead k
  · intro index slot found
    rw [arena_eq, Array.getElem?_map] at found
    obtain ⟨original, before, rfl⟩ := Option.map_eq_some_iff.mp found
    obtain ⟨slot', found', related⟩ := included.slots index original before
    refine ⟨slot'.map big.rewiring.resolve, by rw [arena_eq, Array.getElem?_map, found', Option.map_some], ?_⟩
    cases original with
    | placeholder => cases slot' <;> exact related
    | continuation start => cases slot' <;> exact related
    | cell c =>
      cases slot' with
      | cell c' =>
        show Cell.Alike _ (c.map small.rewiring.resolve) (c'.map big.rewiring.resolve)
        rw [(included.map_resolve related (operands found')).2]
        exact Cell.alike_map fun net _ => standsFor_relocate net
      | placeholder => exact related
      | continuation start => exact related
  · intro index' slot' found'
    rw [arena_eq, Array.getElem?_map] at found'
    obtain ⟨original, before, rfl⟩ := Option.map_eq_some_iff.mp found'
    refine (included.others index' original before).imp_right fun other => ?_
    rcases other with rfl | ⟨name, bus, rfl⟩
    · exact Or.inl rfl
    · exact Or.inr ⟨name, _, rfl⟩
  · intro net
    rw [target?_empty, target?_empty]
    rfl

theorem revise {revision : Revision} (done : big.revise (revision.map (Net.relocate place)) = .ok big') :
    ∃ small', small.revise revision = .ok small' ∧ Included place small' big' := by
  cases revision with
  | edit change => exact included.edit done
  | apply => exact included.apply done

/-- Whatever is done to the larger netlist can be done to the smaller one. -/
theorem reviseAll {revisions : List Revision}
    (done : big.reviseAll (revisions.map (Revision.map (Net.relocate place))) = .ok big') :
    ∃ small', small.reviseAll revisions = .ok small' ∧ Included place small' big' := by
  induction revisions generalizing small big with
  | nil =>
    cases done
    exact ⟨small, rfl, included⟩
  | cons revision rest ih =>
    obtain ⟨middle', first, later⟩ := reviseAll_cons_eq_ok.mp done
    obtain ⟨middle, first', joint⟩ := included.revise first
    obtain ⟨small', done', included'⟩ := ih joint later
    exact ⟨small', reviseAll_cons_eq_ok.mpr ⟨middle, first', done'⟩, included'⟩

/-! ### Applied netlists -/

variable (applied : small.queued = #[]) (applied' : big.queued = #[]) (settled : big.rewiring = ∅)
include applied applied' settled

/-- Once all replacements have been made, the slots differ in nothing but their places. -/
theorem slots_settled (index : Nat) : big.slots[place index]? = small.slots[index]?.map (Slot.move place) := by
  have exactly {net net' : Net} (stands : StandsFor place big net net') : net' = net.relocate place := by
    rcases stands with same | ⟨_, tied⟩
    · exact same
    · rw [settled, target?_empty] at tied
      cases tied
  have at_arena : small.arena = small.slots := by simp [arena, applied]
  have at_arena' : big.arena = big.slots := by simp [arena, applied']
  rw [← at_arena, ← at_arena']
  cases found : small.arena[index]? with
  | none =>
    rw [Array.getElem?_eq_none_iff, size_arena] at found
    obtain ⟨k, rfl⟩ := Nat.exists_eq_add_of_le found
    rw [included.ahead, Option.map_none, Array.getElem?_eq_none_iff, size_arena]
    exact Nat.le_add_right _ _
  | some slot =>
    obtain ⟨slot', found', alike⟩ := included.slots index slot found
    rw [found', Option.map_some]
    cases slot with
    | placeholder =>
      cases slot' with
      | placeholder => rfl
      | continuation start' => cases alike
      | cell c' => cases alike
    | continuation start =>
      cases slot' with
      | placeholder => cases alike
      | continuation start' => rw [alike.1, Slot.move]
      | cell c' => cases alike
    | cell c =>
      cases slot' with
      | placeholder => cases alike
      | continuation start' => cases alike
      | cell c' =>
        have same : c.map (Net.relocate place) = c'.map id :=
          alike (Net.relocate place) id fun net _ net' _ stands => (exactly stands).symm
        rw [Slot.move, same, Cell.map_id]

/-- In netlists that have been applied, the larger one adds nothing of weight to the smaller one. -/
theorem faithful : Faithful place small big where
  cells index := by
    unfold Netlist.cell?
    rw [included.slots_settled applied applied' settled]
    cases small.slots[index]? with
    | none => rfl
    | some slot => cases slot <;> rfl
  drivers slot index' offset := by
    have start_iff (start : Nat) (found : small.slots[slot]? = some (.continuation start)) :
        place slot - place start = slot - start := by
      have at_arena : small.arena = small.slots := by simp [arena, applied]
      obtain ⟨slot', _, alike⟩ := included.slots slot _ (at_arena ▸ found)
      cases slot' with
      | continuation start' => rw [alike.2.2, Nat.add_sub_cancel_left]
      | placeholder => cases alike
      | cell c' => cases alike
    rw [driver_slot_iff, included.slots_settled applied applied' settled]
    cases found : small.slots[slot]? with
    | none => simp [driver_slot_iff, found]
    | some here =>
      cases here with
      | placeholder => simp [driver_slot_iff, found, Slot.move]
      | cell c => simp [driver_slot_iff, found, Slot.move]
      | continuation start =>
        have contiguous := start_iff start found
        rw [Option.map_some, Slot.move]
        grind [driver_slot_iff]
  memories index' m' found' := by
    have at_slot := cell?_eq_some_iff.mp found'
    have at_arena' : big.arena = big.slots := by simp [arena, applied']
    rcases included.others index' _ (at_arena' ▸ at_slot) with here | other | ⟨name, bus, other⟩
    · exact here
    · cases other
    · cases other
  inputs := by
    rw [State.inputs_initial, State.inputs_initial]
    congr 1
    refine filterMap_of_strictMono included.mono ?_ ?_
    · intro i slot found
      rw [Array.getElem?_toList] at found
      refine ⟨slot.move place, ?_, ?_⟩
      · rw [Array.getElem?_toList, included.slots_settled applied applied' settled, found, Option.map_some]
      · cases slot with
        | cell c => exact c.input?_map _
        | placeholder => rfl
        | continuation start => rfl
    · intro j slot' found' weighs
      rw [Array.getElem?_toList] at found'
      have at_arena' : big.arena = big.slots := by simp [arena, applied']
      rcases included.others j slot' (at_arena' ▸ found') with ⟨index, rfl⟩ | rfl | ⟨name, bus, rfl⟩
      · refine ⟨index, ?_, rfl⟩
        rw [included.slots_settled applied applied' settled] at found'
        obtain ⟨slot, found, _⟩ := Option.map_eq_some_iff.mp found'
        rw [Array.length_toList]
        exact (Array.getElem?_eq_some_iff.mp found).1
      · exact absurd rfl weighs
      · exact absurd rfl weighs

end Netlist.Included

end BankedMemory
