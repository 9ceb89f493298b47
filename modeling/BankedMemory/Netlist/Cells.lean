import BankedMemory.Netlist.Basic

/-!
# Cells by their slots

A cell is listed under the slot where it starts, and no two cells start at one slot.
-/

namespace BankedMemory.Netlist

theorem cell?_eq_some_iff {netlist : Netlist} {index : Nat} {c : Cell} :
    netlist.cell? index = some c ↔ netlist.slots[index]? = some (.cell c) := by
  unfold cell?
  rw [Option.bind_eq_some_iff]
  constructor
  · rintro ⟨slot, at_place, is_cell⟩
    cases slot with
    | cell d =>
      cases is_cell
      exact at_place
    | placeholder => cases is_cell
    | continuation start => cases is_cell
  · intro at_place
    exact ⟨.cell c, at_place, rfl⟩

theorem mem_cells {netlist : Netlist} {index : Nat} {c : Cell} :
    (index, c) ∈ netlist.cells ↔ netlist.cell? index = some c := by
  unfold cells cell?
  rw [List.mem_filterMap]
  constructor
  · rintro ⟨⟨slot, place⟩, member, found⟩
    have at_place := List.mk_mem_zipIdx_iff_getElem?.mp member
    obtain ⟨_, is_cell, rfl, rfl⟩ : ∃ d, slot.cell? = some d ∧ place = index ∧ d = c := by
      simpa using found
    rw [Array.getElem?_toList] at at_place
    simp [at_place, is_cell]
  · intro found
    obtain ⟨slot, at_place, is_cell⟩ := Option.bind_eq_some_iff.mp found
    refine ⟨(slot, index), List.mk_mem_zipIdx_iff_getElem?.mpr ?_, by simp [is_cell]⟩
    rw [Array.getElem?_toList, at_place]

theorem mem_memories {netlist : Netlist} {index : Nat} {m : Memory} :
    (index, m) ∈ netlist.memories ↔ netlist.cell? index = some (.memory m) := by
  unfold memories
  rw [← mem_cells, List.mem_filterMap]
  constructor
  · rintro ⟨⟨place, c⟩, member, found⟩
    cases c <;> simp_all [Cell.memory?]
  · intro member
    exact ⟨_, member, rfl⟩

theorem slots_cells_sublist (netlist : Netlist) :
    (netlist.cells.map (·.1)).Sublist (netlist.slots.toList.zipIdx.map (·.2)) := by
  unfold cells
  induction netlist.slots.toList.zipIdx with
  | nil => exact List.Sublist.slnil
  | cons entry rest ih =>
    rw [List.filterMap_cons]
    cases entry.1.cell? with
    | none => exact ih.cons _
    | some c => exact ih.cons_cons _

theorem slots_memories_sublist (netlist : Netlist) :
    (netlist.memories.map (·.1)).Sublist (netlist.cells.map (·.1)) := by
  unfold memories
  induction netlist.cells with
  | nil => exact List.Sublist.slnil
  | cons entry rest ih =>
    rw [List.filterMap_cons]
    cases entry.2.memory? with
    | none => exact ih.cons _
    | some m => exact ih.cons_cons _

theorem nodup_cells (netlist : Netlist) : (netlist.cells.map (·.1)).Nodup := by
  apply List.Nodup.sublist netlist.slots_cells_sublist
  rw [List.zipIdx_map_snd]
  exact List.nodup_range'

/-- No two memories start at one slot. -/
theorem nodup_memories (netlist : Netlist) : (netlist.memories.map (·.1)).Nodup :=
  netlist.nodup_cells.sublist netlist.slots_memories_sublist

end BankedMemory.Netlist
