import BankedMemory.Proofs.Construction.Arena
import BankedMemory.Proofs.Construction.Moments
import BankedMemory.Proofs.Embedding.Inclusion

/-!
# Nets that have been handed out

A netlist hands out the nets of its slots, in ascending order. As long as its user only names nets that have been handed
out, nothing in it refers to the slots ahead, so that a label or a placeholder more in one of two netlists moves these
slots and nothing else.
-/

namespace BankedMemory.Netlist

/-- Operands and queued replacements are nets that have been handed out. -/
structure Enclosed (netlist : Netlist) : Prop where
  operands : ∀ (index : Nat) (c : Cell), netlist.arena[index]? = some (.cell c) → ∀ net ∈ c.nets, net.Below netlist.next
  replacements : ∀ source target, netlist.rewiring.target? source = some target →
    source.Below netlist.next ∧ target.Below netlist.next

/-- The edits name nets only that have been handed out before. -/
def Knows : Netlist → List Revision → Prop
  | _, [] => True
  | netlist, revision :: rest =>
    (∀ change, revision = .edit change → ∀ net ∈ change.mentioned, net.Below netlist.next) ∧
      ∀ after, netlist.revise revision = .ok after → after.Knows rest

variable {netlist after : Netlist}

theorem enclosed_empty : Enclosed .empty where
  operands _ _ found := by cases found
  replacements _ _ replaced := by cases replaced

theorem Enclosed.edit (enclosed : netlist.Enclosed) {change : Edit}
    (known : ∀ net ∈ change.mentioned, net.Below netlist.next) (done : netlist.edit change = .ok after) :
    after.Enclosed where
  operands index c found net member := by
    refine Net.Below.mono ?_ (edit_extends done).next_le
    rcases getElem?_arena_edit done found with ⟨_, earlier⟩ | ⟨beyond, latest⟩
    · exact enclosed.operands index c earlier net member
    · have asked : (index, c) ∈ change.cells netlist.next := by
        rw [← Edit.cellsIn_slots]
        exact mem_cellsIn.mpr ⟨beyond, latest⟩
      cases change with
      | add c' =>
        cases List.mem_singleton.mp asked
        exact known net member
      | _ => exact absurd asked List.not_mem_nil
  replacements source target replaced := by
    have longer := (edit_extends done).next_le
    rcases (target?_edit done).mp replaced with earlier | asked
    · obtain ⟨source_known, target_known⟩ := enclosed.replacements source target earlier
      exact ⟨source_known.mono longer, target_known.mono longer⟩
    · have both : source ∈ change.mentioned ∧ target ∈ change.mentioned := by
        cases change with
        | add c => exact absurd asked List.not_mem_nil
        | _ =>
          constructor <;>
          · refine List.mem_flatMap.mpr ⟨(source, target), asked, ?_⟩
            simp
      exact ⟨(known source both.1).mono longer, (known target both.2).mono longer⟩

/-- A chain of replacements does not leave the nets that have been handed out. -/
theorem Enclosed.below_of_leads (enclosed : netlist.Enclosed) {net last : Net} (leads : netlist.rewiring.Leads net last)
    (known : net.Below netlist.next) : last.Below netlist.next := by
  induction leads with
  | done kept => exact known
  | link replaced rest ih => exact ih (enclosed.replacements _ _ replaced).2

theorem Enclosed.apply (enclosed : netlist.Enclosed) (done : netlist.apply = .ok after) : after.Enclosed := by
  have same : after.next = netlist.next := by
    rw [← size_arena, arena_apply done, Array.size_map, size_arena]
  obtain ⟨ends, unfolded⟩ := apply_eq_ok_iff.mp done
  constructor
  · intro index c found net member
    rw [arena_apply done, Array.getElem?_map] at found
    obtain ⟨slot, before, moved⟩ := Option.map_eq_some_iff.mp found
    cases slot with
    | cell original =>
      cases moved
      rw [Cell.nets_map] at member
      obtain ⟨operand, at_cell, rfl⟩ := List.mem_map.mp member
      have ended := ends operand (mem_operandsOf.mpr ⟨original, Array.mem_of_getElem? before, at_cell⟩)
      rw [same]
      exact enclosed.below_of_leads (Rewiring.leads_iff.mpr ⟨ended, rfl⟩)
        (enclosed.operands index original before _ at_cell)
    | placeholder => cases moved
    | continuation start => cases moved
  · intro source target replaced
    rw [unfolded, target?_empty] at replaced
    cases replaced

theorem Enclosed.reviseAll (enclosed : netlist.Enclosed) {revisions : List Revision} (known : netlist.Knows revisions)
    (done : netlist.reviseAll revisions = .ok after) : after.Enclosed := by
  induction revisions generalizing netlist with
  | nil =>
    cases done
    exact enclosed
  | cons revision rest ih =>
    obtain ⟨middle, first, later⟩ := reviseAll_cons_eq_ok.mp done
    refine ih ?_ (known.2 middle first) later
    cases revision with
    | edit change => exact enclosed.edit (known.1 change rfl) first
    | apply => exact enclosed.apply first

/-- A netlist whose user, from the start, names nets only that have been handed out stays within its slots. -/
theorem enclosed_of_knows {revisions : List Revision} (known : Netlist.empty.Knows revisions)
    (done : Netlist.empty.reviseAll revisions = .ok after) : after.Enclosed :=
  enclosed_empty.reviseAll known done

/-! ### One netlist goes ahead -/

/-- The slots from `bound` on move up. -/
def shifted (place : Nat → Nat) (bound extra : Nat) : Nat → Nat :=
  fun index => if index < bound then place index else place index + extra

variable {place : Nat → Nat} {bound extra index : Nat} {small big big' : Netlist}

theorem shifted_of_lt (inside : index < bound) : shifted place bound extra index = place index := if_pos inside

theorem shifted_of_le (outside : bound ≤ index) : shifted place bound extra index = place index + extra :=
  if_neg (Nat.not_lt_of_le outside)

theorem strictMono_shifted (mono : StrictMono place) : StrictMono (shifted place bound extra) := by
  intro i k lower
  have further := mono lower
  unfold shifted
  split <;> split <;> omega

/-- Each netlist is included in itself. -/
theorem Reached.included (reached : netlist.Reached) : Included id netlist netlist where
  mono := strictMono_id
  ahead _ := rfl
  slots index slot found := by
    refine ⟨slot, found, ?_⟩
    cases slot with
    | placeholder => trivial
    | continuation start =>
      obtain ⟨_, _, low, _⟩ := reached.inOrder.all.continuations index start found
      exact ⟨rfl, by omega, by simp only [id]; omega⟩
    | cell c =>
      have alike : c.Alike (StandsFor id netlist) (c.map id) :=
        Cell.alike_map fun net _ => Or.inl (congrFun Net.relocate_id.symm net)
      rwa [Cell.map_id] at alike
  others index' _ _ := Or.inl ⟨index', rfl⟩
  rewiring net := by
    rw [Net.relocate_id]
    exact (Option.map_id_apply).symm

namespace Included

variable (included : Included place small big)
include included

theorem next_le_place (outside : small.next ≤ index) : big.next ≤ place index := by
  obtain ⟨k, rfl⟩ := Nat.exists_eq_add_of_le outside
  rw [included.ahead]
  exact Nat.le_add_right _ _

/-- What stands for a net still does when the slots ahead have moved. -/
theorem standsFor_shifted {net net' : Net} (known : net.Below small.next) (stands : StandsFor place big net net')
    (same : big'.rewiring = big.rewiring) : StandsFor (shifted place small.next extra) big' net net' := by
  have kept : net.relocate (shifted place small.next extra) = net.relocate place :=
    known.relocate_congr fun _ => shifted_of_lt
  rcases stands with here | ⟨foreign, tied⟩
  · exact Or.inl (here.trans kept.symm)
  · refine Or.inr ⟨fun other moved => ?_, by rw [same, tied, kept]⟩
    cases other with
    | const bit => exact foreign (.const bit) moved
    | slot index =>
      by_cases inside : index < small.next
      · exact foreign (.slot index) (by rw [moved, Net.relocate, Net.relocate, shifted_of_lt inside])
      · obtain ⟨k, rfl⟩ := Nat.exists_eq_add_of_le (Nat.le_of_not_lt inside)
        refine foreign (.slot (small.next + (k + extra))) ?_
        rw [moved, Net.relocate, Net.relocate, shifted_of_le (Nat.le_of_not_lt inside), included.ahead, included.ahead,
          Nat.add_assoc]

/-- The larger netlist gets labels or placeholders that the smaller one does without. -/
theorem widen (enclosed : small.Enclosed) {slots : List Slot}
    (light : ∀ slot ∈ slots, slot = .placeholder ∨ ∃ name bus, slot = .cell (.label name bus)) :
    Included (shifted place small.next slots.length) small (big.enqueue slots) where
  mono := strictMono_shifted included.mono
  ahead k := by rw [shifted_of_le (Nat.le_add_right _ _), included.ahead, next_enqueue]; omega
  slots index slot found := by
    have inside := lt_next_of_arena found
    obtain ⟨slot', found', alike⟩ := included.slots index slot found
    refine ⟨slot', ?_, ?_⟩
    · rw [shifted_of_lt inside]
      exact (grows_enqueue big slots).toExtends.slot found'
    · refine alike.mono (fun other low => shifted_of_lt (Nat.lt_of_le_of_lt low inside)) ?_
      rintro c rfl net member net' stands
      exact included.standsFor_shifted (enclosed.operands index c found net member) stands rfl
  others index' slot' found' := by
    by_cases inside : index' < big.next
    · rw [arena_enqueue_left big slots inside] at found'
      refine (included.others index' slot' found').imp_left ?_
      rintro ⟨index, rfl⟩
      refine ⟨index, shifted_of_lt ?_⟩
      by_contra outside
      exact absurd inside (Nat.not_lt_of_le (included.next_le_place (Nat.le_of_not_lt outside)))
    · obtain ⟨k, rfl⟩ := Nat.exists_eq_add_of_le (Nat.le_of_not_lt inside)
      rw [arena_enqueue_right] at found'
      exact Or.inr (light slot' (List.mem_of_getElem? found'))
  rewiring net := by
    show big.rewiring.target? _ = _
    by_cases known : net.Below small.next
    · rw [known.relocate_congr fun _ => shifted_of_lt, included.rewiring]
      refine Option.map_congr fun target replaced => ?_
      exact ((enclosed.replacements net target replaced).2.relocate_congr fun _ => shifted_of_lt).symm
    · -- the slots ahead are replaced neither before nor after they have moved
      have free {net : Net} (ahead : ¬ net.Below small.next) : small.rewiring.target? net = none :=
        Option.eq_none_iff_forall_ne_some.mpr fun target replaced =>
          ahead (enclosed.replacements net target replaced).1
      cases net with
      | const bit => exact absurd trivial known
      | slot index =>
        obtain ⟨k, rfl⟩ := Nat.exists_eq_add_of_le (Nat.le_of_not_lt known)
        have moved : (Net.slot (small.next + k)).relocate (shifted place small.next slots.length) =
            (Net.slot (small.next + (k + slots.length))).relocate place := by
          rw [Net.relocate, Net.relocate, shifted_of_le (Nat.le_add_right _ _), included.ahead, included.ahead,
            Nat.add_assoc]
        have ahead : ¬ (Net.slot (small.next + (k + slots.length))).Below small.next :=
          Nat.not_lt_of_le (Nat.le_add_right _ _)
        rw [moved, included.rewiring, free known, free ahead]
        rfl

/-- The nets of the larger netlist that are at no new place can be replaced in it alone. -/
theorem tie {pairs : List (Net × Net)} (rewires : Rewires pairs big big')
    (foreign : ∀ pair ∈ pairs, ∀ other : Net, pair.1 ≠ other.relocate place) : Included place small big' := by
  have same : big' = { big with rewiring := big'.rewiring } := by
    obtain ⟨slots, queued, rewiring⟩ := big'
    cases rewires.slots
    cases rewires.queued
    rfl
  rw [same]
  refine included.rewired rewires.kept fun net => ?_
  rcases rewires.other (net.relocate place) with kept | member
  · rw [kept, included.rewiring]
  · obtain ⟨pair, at_pair, moved⟩ := List.mem_map.mp member
    exact absurd moved (foreign pair at_pair net)

end Included

end BankedMemory.Netlist
