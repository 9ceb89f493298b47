import BankedMemory.Proofs.Checks
import BankedMemory.Proofs.Construction.Installation

/-!
# Netlists as they are revised

A netlist comes about from nothing by edits, which are queued, and by applying the queue now and then. Each cell that
is added brings all its slots with it, and replacing its operands changes neither its width nor whether they fit
together. So in every netlist that is reached, the slots fall into placeholders and whole cells, and the slots of a
cell are driven by that cell.
-/

namespace BankedMemory

/-- One step in the life of a netlist. -/
inductive Revision where
  | edit (change : Edit)
  | apply

namespace Slot

variable {index k : Nat} {c d : Cell}

theorem ofCell_eq_cell_iff : (ofCell index c)[k]? = some (.cell d) ↔ k = 0 ∧ d = c := by
  cases k with
  | zero => simp [ofCell, eq_comm]
  | succ k => simp [ofCell, List.getElem?_replicate]

theorem ofCell_eq_continuation_iff {start : Nat} : (ofCell index c)[k]? = some (.continuation start) ↔
    start = index ∧ 0 < k ∧ k < c.outputWidth := by
  cases k with
  | zero => simp [ofCell]
  | succ k =>
    simp only [ofCell, List.getElem?_cons_succ, List.getElem?_replicate]
    split
    · simp only [Option.some.injEq, continuation.injEq]
      omega
    · simp only [reduceCtorEq, false_iff]
      omega

end Slot

namespace Netlist

/-- A cell has all its slots. -/
def Stands (slots : Array Slot) (index : Nat) (c : Cell) : Prop :=
  ∀ k slot, (Slot.ofCell index c)[k]? = some slot → slots[index + k]? = some slot

/-- The slots fall into placeholders and whole cells, each of which passes its check. -/
structure Whole (slots : Array Slot) : Prop where
  cells : ∀ (index : Nat) c, slots[index]? = some (.cell c) → c.check = .ok () ∧ Stands slots index c
  continuations : ∀ (index start : Nat), slots[index]? = some (.continuation start) →
    ∃ c, slots[start]? = some (.cell c) ∧ start < index ∧ index < start + c.outputWidth

variable {slots : Array Slot}

theorem whole_empty : Whole #[] := ⟨by simp, by simp⟩

theorem getElem?_append_of_some {index : Nat} {slot : Slot} (found : slots[index]? = some slot)
    (more : Array Slot) : (slots ++ more)[index]? = some slot := by
  obtain ⟨inside, _⟩ := Array.getElem?_eq_some_iff.mp found
  rw [Array.getElem?_append_left inside, found]

theorem Stands.append {index : Nat} {c : Cell} (h : Stands slots index c) (more : Array Slot) :
    Stands (slots ++ more) index c := fun k slot found => getElem?_append_of_some (h k slot found) more

theorem stands_appended (slots : Array Slot) (c : Cell) :
    Stands (slots ++ (Slot.ofCell slots.size c).toArray) slots.size c := by
  intro k slot found
  rw [Array.getElem?_append_right (Nat.le_add_right _ _), Nat.add_sub_cancel_left]
  simpa using found

/-- A slot behind the end is one of those that were appended. -/
theorem getElem?_appended {index : Nat} {slot : Slot} {more : List Slot}
    (found : (slots ++ more.toArray)[index]? = some slot) (beyond : slots.size ≤ index) :
    more[index - slots.size]? = some slot := by
  rw [Array.getElem?_append_right beyond] at found
  simpa using found

theorem Whole.append_cell (whole : Whole slots) {c : Cell} (checked : c.check = .ok ()) :
    Whole (slots ++ (Slot.ofCell slots.size c).toArray) where
  cells index d found := by
    by_cases inside : index < slots.size
    · rw [Array.getElem?_append_left inside] at found
      obtain ⟨fine, stands⟩ := whole.cells index d found
      exact ⟨fine, stands.append _⟩
    · obtain ⟨first, rfl⟩ := Slot.ofCell_eq_cell_iff.mp (getElem?_appended found (by omega))
      obtain rfl : index = slots.size := by omega
      exact ⟨checked, stands_appended slots d⟩
  continuations index start found := by
    by_cases inside : index < slots.size
    · rw [Array.getElem?_append_left inside] at found
      obtain ⟨d, at_start, low, high⟩ := whole.continuations index start found
      exact ⟨d, getElem?_append_of_some at_start _, low, high⟩
    · obtain ⟨rfl, low, high⟩ := Slot.ofCell_eq_continuation_iff.mp (getElem?_appended found (by omega))
      exact ⟨c, stands_appended slots c 0 _ rfl, by omega, by omega⟩

theorem Whole.append_placeholders (whole : Whole slots) (width : Nat) :
    Whole (slots ++ (List.replicate width Slot.placeholder).toArray) where
  cells index d found := by
    by_cases inside : index < slots.size
    · rw [Array.getElem?_append_left inside] at found
      obtain ⟨fine, stands⟩ := whole.cells index d found
      exact ⟨fine, stands.append _⟩
    · have appended := getElem?_appended found (Nat.le_of_not_lt inside)
      simp [List.getElem?_replicate] at appended
  continuations index start found := by
    by_cases inside : index < slots.size
    · rw [Array.getElem?_append_left inside] at found
      obtain ⟨d, at_start, low, high⟩ := whole.continuations index start found
      exact ⟨d, getElem?_append_of_some at_start _, low, high⟩
    · have appended := getElem?_appended found (Nat.le_of_not_lt inside)
      simp [List.getElem?_replicate] at appended

theorem Stands.map {index : Nat} {c : Cell} (h : Stands slots index c) (f : Net → Net) :
    Stands (slots.map (Slot.map f)) index (c.map f) := by
  intro k slot found
  rw [← Slot.map_ofCell, List.getElem?_map, Option.map_eq_some_iff] at found
  obtain ⟨original, found, rfl⟩ := found
  rw [Array.getElem?_map, h k original found, Option.map_some]

theorem Whole.map (whole : Whole slots) (f : Net → Net) : Whole (slots.map (Slot.map f)) where
  cells index d found := by
    rw [Array.getElem?_map, Option.map_eq_some_iff] at found
    obtain ⟨slot, found, mapped⟩ := found
    cases slot with
    | cell c =>
      cases mapped
      obtain ⟨checked, stands⟩ := whole.cells index c found
      exact ⟨Cell.check_map f checked, stands.map f⟩
    | placeholder => cases mapped
    | continuation start => cases mapped
  continuations index start found := by
    rw [Array.getElem?_map, Option.map_eq_some_iff] at found
    obtain ⟨slot, found, mapped⟩ := found
    cases slot with
    | continuation first =>
      cases mapped
      obtain ⟨c, at_start, low, high⟩ := whole.continuations index start found
      exact ⟨c.map f, by rw [Array.getElem?_map, at_start]; rfl, low, by rwa [Cell.outputWidth_map]⟩
    | placeholder => cases mapped
    | cell c => cases mapped

variable {netlist after : Netlist}

def revise (netlist : Netlist) : Revision → Except Fault Netlist
  | .edit change => netlist.edit change
  | .apply => netlist.apply

def reviseAll (netlist : Netlist) (revisions : List Revision) : Except Fault Netlist :=
  revisions.foldlM revise netlist

/-- A netlist that comes about from nothing, revision by revision. -/
def Reached (netlist : Netlist) : Prop := ∃ revisions, Netlist.empty.reviseAll revisions = .ok netlist

theorem reviseAll_cons_eq_ok {revision : Revision} {rest : List Revision} :
    netlist.reviseAll (revision :: rest) = .ok after ↔
      ∃ middle, netlist.revise revision = .ok middle ∧ middle.reviseAll rest = .ok after :=
  Storage.Build.except_bind_eq_ok

/-- What each revision keeps, any number of them keeps. -/
theorem reviseAll_keeps {P : Netlist → Prop}
    (kept : ∀ before revision after, before.revise revision = .ok after → P before → P after)
    {revisions : List Revision} (h : netlist.reviseAll revisions = .ok after) (here : P netlist) : P after := by
  induction revisions generalizing netlist with
  | nil =>
    cases h
    exact here
  | cons revision rest ih =>
    obtain ⟨middle, first, later⟩ := reviseAll_cons_eq_ok.mp h
    exact ih later (kept netlist revision middle first here)

theorem Reached.reviseAll {revisions : List Revision} (reached : netlist.Reached)
    (revised : netlist.reviseAll revisions = .ok after) : after.Reached := by
  obtain ⟨earlier, comes⟩ := reached
  refine ⟨earlier ++ revisions, ?_⟩
  show (earlier ++ revisions).foldlM revise Netlist.empty = .ok after
  rw [List.foldlM_append]
  exact Storage.Build.except_bind_eq_ok.mpr ⟨netlist, comes, revised⟩

theorem Reached.editAll {edits : List Edit} (reached : netlist.Reached) (edited : netlist.editAll edits = .ok after) :
    after.Reached := by
  have revised : netlist.reviseAll (edits.map .edit) = .ok after := by
    show (edits.map Revision.edit).foldlM revise netlist = .ok after
    rw [List.foldlM_map]
    exact edited
  exact reached.reviseAll revised

/-- Both the applied slots and all slots fall into placeholders and whole cells. -/
structure InOrder (netlist : Netlist) : Prop where
  applied : Whole netlist.slots
  all : Whole netlist.arena

theorem InOrder.edit (h : netlist.InOrder) {change : Edit} (done : netlist.edit change = .ok after) :
    after.InOrder := by
  rcases edit_cases done with ⟨c, checked, rfl⟩ | ⟨width, _, rfl⟩ | ⟨pairs, rewires⟩
  · refine ⟨h.applied, ?_⟩
    show Whole (netlist.enqueue _).arena
    rw [arena_enqueue, ← size_arena]
    exact h.all.append_cell checked
  · refine ⟨h.applied, ?_⟩
    show Whole (netlist.enqueue _).arena
    rw [arena_enqueue]
    exact h.all.append_placeholders width
  · exact ⟨by rw [rewires.slots]; exact h.applied, by rw [rewires.arena]; exact h.all⟩

theorem InOrder.revise (h : netlist.InOrder) {revision : Revision} (done : netlist.revise revision = .ok after) :
    after.InOrder := by
  cases revision with
  | edit change => exact h.edit done
  | apply =>
    obtain ⟨_, rfl⟩ := apply_eq_ok_iff.mp done
    have mapped := h.all.map netlist.rewiring.resolve
    exact ⟨mapped, by simpa [arena] using mapped⟩

theorem Reached.inOrder (reached : netlist.Reached) : netlist.InOrder := by
  obtain ⟨revisions, h⟩ := reached
  exact reviseAll_keeps (fun _ _ _ done here => here.revise done) h ⟨whole_empty, whole_empty⟩

theorem Reached.checked (reached : netlist.Reached) {index : Nat} {c : Cell} (found : netlist.cell? index = some c) :
    c.check = .ok () := (reached.inOrder.applied.cells index c (cell?_eq_some_iff.mp found)).1

/-- The output bits of a cell are driven by it. -/
theorem Reached.driver_output (reached : netlist.Reached) {index k : Nat} {c : Cell}
    (found : netlist.cell? index = some c) (inside : k < c.outputWidth) :
    netlist.driver (.slot (index + k)) = .ok (.cell index k) :=
  (driver_of_slots (reached.inOrder.applied.cells index c (cell?_eq_some_iff.mp found)).2).2 k inside

/-- What drives a slot is the cell that it belongs to. -/
theorem Reached.cell_of_driver (reached : netlist.Reached) {slot index offset : Nat}
    (driven : netlist.driver (.slot slot) = .ok (.cell index offset)) :
    ∃ c, netlist.cell? index = some c ∧ slot = index + offset ∧ (offset = 0 ∨ offset < c.outputWidth) := by
  rcases driver_slot_iff.mp driven with ⟨c, found, rfl, rfl⟩ | ⟨found, rfl⟩
  · exact ⟨c, cell?_eq_some_iff.mpr found, rfl, Or.inl rfl⟩
  · obtain ⟨c, at_start, low, high⟩ := reached.inOrder.applied.continuations slot index found
    exact ⟨c, cell?_eq_some_iff.mpr at_start, by omega, Or.inr (by omega)⟩

end Netlist

end BankedMemory
