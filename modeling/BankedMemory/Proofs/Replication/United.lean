import BankedMemory.Proofs.Replication.Whole

/-!
# The netlist with one cell

In the netlist with one cell, the whole memory stands behind all other cells, and the banks are gone. All operands
that were bits of the data of a reader are bits of the output of this cell instead; all other cells stay where they
are.
-/

namespace BankedMemory.Storage.Replicated

variable {memory : Replicated} (site : Installation memory.build)

/-- The reader whose data the cell at a slot drives. -/
def bankAt (index : Nat) : Option Nat := site.assembly.readData.idxOf? (site.netlist.outputOf index)

/-- The slot where the whole memory starts. -/
def wholeStart : Nat := site.netlist.slots.size

/-- The net at a place of the output of the whole memory. -/
def wholeNet (k offset : Nat) : Net := .slot (wholeStart site + (k * memory.ports.blueprint.width + offset))

/-- A net of no slot, for all that nothing drives. -/
def nowhere : Net := .slot (wholeStart site + (memory.whole.outputWidth + 1))

/-- The net that carries in the netlist with one cell what a net carries in the netlist with the banks. -/
def moved (net : Net) : Net :=
  match site.netlist.driver net with
  | .ok (.const _) => net
  | .ok (.cell index offset) =>
    match bankAt site index with
    | some k => if offset < memory.ports.blueprint.width then wholeNet site k offset else nowhere site
    | none => net
  | .error _ => nowhere site

/-- A slot with other operands, if it belongs to a cell that is not a bank. -/
def movedSlot (index : Nat) (slot : Slot) : Slot :=
  match site.netlist.driver (.slot index) with
  | .ok (.cell start _) =>
    if bankAt site start = none ∧ (site.netlist.cell? start).isSome then slot.map (moved site) else .placeholder
  | _ => .placeholder

/-- The whole memory with its operands in the netlist with one cell. -/
def wholeCell : Memory := (memory.whole.map site.resolve).map (moved site)

/-- The netlist with one cell in place of all banks. -/
def united : Netlist where
  slots := site.netlist.slots.mapIdx (movedSlot site) ++
    (Slot.ofCell (wholeStart site) (.memory (wholeCell site))).toArray
  queued := #[]
  rewiring := ∅

variable {site}

theorem outputWidth_wholeCell : (wholeCell site).outputWidth = memory.whole.outputWidth := by
  have twice := (Cell.outputWidth_map (moved site) ((Cell.memory memory.whole).map site.resolve)).trans
    (Cell.outputWidth_map site.resolve (.memory memory.whole))
  exact twice

theorem outputWidth_whole :
    memory.whole.outputWidth = memory.ports.readers.length * memory.ports.blueprint.width := by
  have widths : memory.whole.readPorts.map ReadPort.width =
      List.replicate memory.ports.readers.length memory.ports.blueprint.width := by
    rw [whole, List.map_map, List.eq_replicate_iff]
    refine ⟨by simp, fun width member => ?_⟩
    obtain ⟨reader, _, rfl⟩ := List.mem_map.mp member
    rfl
  rw [Memory.outputWidth, widths]
  exact List.sum_replicate_nat

theorem slots_old {index : Nat} {slot : Slot} (found : site.netlist.slots[index]? = some slot) :
    (united site).slots[index]? = some (movedSlot site index slot) := by
  obtain ⟨inside, _⟩ := Array.getElem?_eq_some_iff.mp found
  unfold united
  rw [Array.getElem?_append_left (by simpa using inside), Array.getElem?_mapIdx, found]
  rfl

theorem slots_new {k : Nat} {slot : Slot}
    (found : (Slot.ofCell (wholeStart site) (.memory (wholeCell site)))[k]? = some slot) :
    (united site).slots[wholeStart site + k]? = some slot := by
  unfold united
  rw [Array.getElem?_append_right (by simp [wholeStart])]
  simpa [wholeStart] using found

/-- The whole memory stands at its slots. -/
theorem whole_stands : (united site).cell? (wholeStart site) = some (.memory (wholeCell site)) ∧
    ∀ place < (wholeCell site).outputWidth,
      (united site).driver (.slot (wholeStart site + place)) = .ok (.cell (wholeStart site) place) :=
  Netlist.driver_of_slots fun _ _ found => slots_new found

theorem driver_nowhere (site : Installation memory.build) :
    ∃ cause, (united site).driver (nowhere site) = .error cause := by
  have outside : (united site).slots[wholeStart site + (memory.whole.outputWidth + 1)]? = none := by
    rw [Array.getElem?_eq_none_iff]
    have size : (Slot.ofCell (wholeStart site) (.memory (wholeCell site))).length ≤ memory.whole.outputWidth + 1 := by
      have width : (Cell.memory (wholeCell site)).outputWidth = memory.whole.outputWidth := outputWidth_wholeCell
      simp only [Slot.ofCell, List.length_cons, List.length_replicate, width]
      omega
    simp only [united, Array.size_append, Array.size_mapIdx, List.size_toArray, wholeStart] at size ⊢
    omega
  exact ⟨_, by simp [nowhere, Netlist.driver, Netlist.slot, outside, bind, Except.bind]; rfl⟩

theorem movedSlot_kept {slot index offset : Nat} {place : Slot} {c : Cell}
    (driven : site.netlist.driver (.slot slot) = .ok (.cell index offset)) (other : bankAt site index = none)
    (found : site.netlist.cell? index = some c) : movedSlot site slot place = place.map (moved site) := by
  simp [movedSlot, driven, other, found]

/-- A cell that is not a bank stays where it is. -/
theorem cell_kept {index : Nat} {c : Cell} (other : bankAt site index = none)
    (found : site.netlist.cell? index = some c) : (united site).cell? index = some (c.map (moved site)) := by
  obtain ⟨at_slot, driven⟩ := Netlist.driver_of_cell found
  have there := slots_old at_slot
  rw [movedSlot_kept driven other found] at there
  exact Netlist.cell?_eq_some_iff.mpr there

theorem driver_kept {slot index offset : Nat} {c : Cell}
    (driven : site.netlist.driver (.slot slot) = .ok (.cell index offset)) (other : bankAt site index = none)
    (found : site.netlist.cell? index = some c) :
    (united site).driver (.slot slot) = .ok (.cell index offset) := by
  have kept {place : Slot} (at_slot : site.netlist.slots[slot]? = some place) :
      (united site).slots[slot]? = some (place.map (moved site)) := by
    rw [slots_old at_slot, movedSlot_kept driven other found]
  rw [Netlist.driver_slot_iff] at driven ⊢
  rcases driven with ⟨d, at_slot, same⟩ | ⟨at_slot, same⟩
  · exact Or.inl ⟨_, kept at_slot, same⟩
  · exact Or.inr ⟨kept at_slot, same⟩

/-- Every cell of the netlist with one cell is this cell, or one that stayed where it was. -/
theorem cell_united_cases {index : Nat} {c : Cell} (found : (united site).cell? index = some c) :
    index = wholeStart site ∧ c = .memory (wholeCell site) ∨
      ∃ d, site.netlist.cell? index = some d ∧ bankAt site index = none ∧ c = d.map (moved site) := by
  obtain ⟨at_slot, _⟩ := Netlist.driver_of_cell found
  by_cases inside : index < site.netlist.slots.size
  · right
    have old := slots_old (Array.getElem?_eq_getElem inside)
    rw [old] at at_slot
    have is_cell := Option.some.inj at_slot
    unfold movedSlot at is_cell
    split at is_cell
    · rename_i start offset driven
      split at is_cell
      · rename_i stays
        rcases Netlist.driver_slot_iff.mp driven with ⟨d, at_place, rfl, _⟩ | ⟨at_place, _⟩
        · have place_eq : site.netlist.slots[start] = .cell d :=
            Option.some.inj ((Array.getElem?_eq_getElem inside).symm.trans at_place)
          rw [place_eq] at is_cell
          exact ⟨d, Netlist.cell?_eq_some_iff.mpr at_place, stays.1, (Slot.cell.inj is_cell).symm⟩
        · have place_eq : site.netlist.slots[index] = .continuation start :=
            Option.some.inj ((Array.getElem?_eq_getElem inside).symm.trans at_place)
          rw [place_eq] at is_cell
          cases is_cell
      · cases is_cell
    · cases is_cell
  · left
    obtain ⟨k, rfl⟩ := Nat.exists_eq_add_of_le (Nat.le_of_not_lt inside)
    have new : (Slot.ofCell (wholeStart site) (.memory (wholeCell site)))[k]? = some (.cell c) := by
      unfold united at at_slot
      rw [Array.getElem?_append_right (by simp)] at at_slot
      simpa using at_slot
    cases k with
    | zero => exact ⟨rfl, (Slot.cell.inj (Option.some.inj new)).symm⟩
    | succ k =>
      simp only [Slot.ofCell, List.getElem?_cons_succ, List.getElem?_replicate] at new
      split at new <;> cases new

/-- A slot of the netlist with the banks that something drives afterwards belongs to a cell that stayed. -/
theorem driver_stayed {slot index offset : Nat} (inside : slot < site.netlist.slots.size)
    (driven : (united site).driver (.slot slot) = .ok (.cell index offset)) :
    site.netlist.driver (.slot slot) = .ok (.cell index offset) ∧ bankAt site index = none ∧
      ∃ c, site.netlist.cell? index = some c := by
  have old := slots_old (Array.getElem?_eq_getElem inside)
  have solid : ∃ start offset', site.netlist.driver (.slot slot) = .ok (.cell start offset') ∧
      bankAt site start = none ∧ (site.netlist.cell? start).isSome ∧
      (united site).slots[slot]? = some (site.netlist.slots[slot].map (moved site)) := by
    unfold movedSlot at old
    split at old
    · rename_i start offset' driven'
      split at old
      · rename_i stays
        exact ⟨start, offset', driven', stays.1, stays.2, old⟩
      · rcases Netlist.driver_slot_iff.mp driven with ⟨d, at_slot, _⟩ | ⟨at_slot, _⟩ <;>
          cases old.symm.trans at_slot
    · rcases Netlist.driver_slot_iff.mp driven with ⟨d, at_slot, _⟩ | ⟨at_slot, _⟩ <;>
        cases old.symm.trans at_slot
  obtain ⟨start, offset', driven', other, is_cell, _⟩ := solid
  obtain ⟨c, found⟩ := Option.isSome_iff_exists.mp is_cell
  have kept := driver_kept driven' other found
  obtain ⟨rfl, rfl⟩ : start = index ∧ offset' = offset := by simpa using kept.symm.trans driven
  exact ⟨driven', other, c, found⟩

section Moved

variable {net : Net}

theorem moved_const (bit : Trit) : moved site (.const bit) = .const bit := rfl

theorem isConst_moved (net : Net) : (moved site net).isConst = net.isConst := by
  cases net with
  | const bit => rfl
  | slot index =>
    unfold moved
    split
    · rfl
    · split
      · split <;> rfl
      · rfl
    · rfl

theorem moved_of_bank {slot index offset k : Nat} (driven : site.netlist.driver (.slot slot) = .ok (.cell index offset))
    (bank : bankAt site index = some k) : moved site (.slot slot) =
      if offset < memory.ports.blueprint.width then wholeNet site k offset else nowhere site := by
  simp [moved, driven, bank]

theorem moved_of_other {slot index offset : Nat} (driven : site.netlist.driver (.slot slot) = .ok (.cell index offset))
    (other : bankAt site index = none) : moved site (.slot slot) = .slot slot := by
  simp [moved, driven, other]

theorem moved_of_error {slot : Nat} {cause : Fault} (missing : site.netlist.driver (.slot slot) = .error cause) :
    moved site (.slot slot) = nowhere site := by
  simp [moved, missing]

end Moved

/-- If anything drives the net that a slot was moved to, the slot belongs to a bank or to a cell that stayed. -/
theorem driver_moved_cases {slot index offset : Nat}
    (driven : (united site).driver (moved site (.slot slot)) = .ok (.cell index offset)) :
    (∃ start place k, site.netlist.driver (.slot slot) = .ok (.cell start place) ∧ bankAt site start = some k ∧
        place < memory.ports.blueprint.width ∧ moved site (.slot slot) = wholeNet site k place) ∨
      moved site (.slot slot) = .slot slot ∧ site.netlist.driver (.slot slot) = .ok (.cell index offset) ∧
        bankAt site index = none ∧ ∃ c, site.netlist.cell? index = some c := by
  have somewhere : moved site (.slot slot) ≠ nowhere site := by
    obtain ⟨cause, missing⟩ := driver_nowhere site
    intro lost
    rw [← lost, driven] at missing
    cases missing
  cases origin : site.netlist.driver (.slot slot) with
  | error cause => exact absurd (moved_of_error origin) somewhere
  | ok source =>
    cases source with
    | const bit => exact absurd origin (Netlist.driver_slot_ne_const slot bit)
    | cell start place =>
      cases bank : bankAt site start with
      | some k =>
        left
        have target := moved_of_bank origin bank
        split at target
        · rename_i inside
          exact ⟨start, place, k, rfl, bank, inside, target⟩
        · exact absurd target somewhere
      | none =>
        right
        have target := moved_of_other origin bank
        rw [target] at driven
        obtain ⟨driven', other, stays⟩ := driver_stayed (Netlist.slot_lt_of_driver origin) driven
        exact ⟨target, origin ▸ driven', other, stays⟩

/-- A cell that drives the data of a reader is the bank of this reader. -/
theorem bank_of_data {port : WritePort} {init : Bits} (layout : memory.Layout site.Has site.assembly port init)
    (accepted : memory.ports.blueprint.Accepted) {index k : Nat}
    (data : site.assembly.readData[k]? = some (site.netlist.outputOf index)) :
    ∃ reader, memory.ports.readers[k]? = some reader ∧
      site.netlist.cell? index = some (.memory ((memory.replica port init reader).map site.resolve)) := by
  obtain ⟨reader, found, has⟩ := forall₂_right layout.replicas data
  have wide : 0 < (Cell.memory (memory.replica port init reader)).outputWidth := by
    simpa [Cell.outputWidth, Memory.outputWidth, replica, readPort] using accepted.width_pos
  refine ⟨reader, found, ?_⟩
  cases at_index : site.netlist.cell? index with
  | none =>
    obtain ⟨start, output_eq, _⟩ := has.placed
    have empty : site.netlist.outputOf index = [] := by simp [Netlist.outputOf, at_index]
    rw [empty, Cell.outputWidth_map] at output_eq
    have := congrArg List.length output_eq
    rw [Bus.length_ofSlots, List.length_nil] at this
    omega
  | some c => exact congrArg some (has.cell_eq wide at_index rfl)

/-- Every reader has a bank. -/
theorem exists_bank {port : WritePort} {init : Bits} (layout : memory.Layout site.Has site.assembly port init) {k : Nat}
    {reader : Reader} (found : memory.ports.readers[k]? = some reader) :
    ∃ index, site.assembly.readData[k]? = some (site.netlist.outputOf index) ∧
      site.netlist.outputOf index = Bus.ofSlots index memory.ports.blueprint.width ∧
      site.netlist.cell? index = some (.memory ((memory.replica port init reader).map site.resolve)) ∧
      ∀ offset < memory.ports.blueprint.width,
        site.netlist.driver (.slot (index + offset)) = .ok (.cell index offset) := by
  obtain ⟨output, at_output, has⟩ := forall₂_left layout.replicas found
  obtain ⟨index, output_eq, at_index, driven⟩ := has.placed
  have width : (Cell.map site.resolve (.memory (memory.replica port init reader))).outputWidth =
      memory.ports.blueprint.width := by
    rw [Cell.outputWidth_map]
    simp [Cell.outputWidth, Memory.outputWidth, replica, readPort]
  have output_at : site.netlist.outputOf index = output := by
    rw [output_eq]
    simp [Netlist.outputOf, at_index]
  rw [width] at output_eq driven
  exact ⟨index, output_at ▸ at_output, output_at.trans output_eq, at_index, driven⟩

/-- The data of a reader in the netlist with one cell. -/
theorem slice_whole {k : Nat} (inside : k < memory.ports.readers.length) :
    Positions.slice ((united site).outputOf (wholeStart site)) (some (k * memory.ports.blueprint.width))
        (some ((k + 1) * memory.ports.blueprint.width)) =
      .ok (Bus.ofSlots (wholeStart site + k * memory.ports.blueprint.width) memory.ports.blueprint.width) := by
  have whole_output : (united site).outputOf (wholeStart site) =
      Bus.ofSlots (wholeStart site) (memory.ports.readers.length * memory.ports.blueprint.width) := by
    have width : (Cell.memory (wholeCell site)).outputWidth = _ := outputWidth_wholeCell.trans outputWidth_whole
    simp [Netlist.outputOf, whole_stands.1, width]
  have room : (k + 1) * memory.ports.blueprint.width ≤ memory.ports.readers.length * memory.ports.blueprint.width :=
    Nat.mul_le_mul_right _ inside
  have next : (k + 1) * memory.ports.blueprint.width = k * memory.ports.blueprint.width + memory.ports.blueprint.width :=
    Nat.succ_mul _ _
  rw [whole_output, Positions.slice_eq_ok_iff, Bus.length_ofSlots]
  refine ⟨Nat.mul_le_mul_right _ (Nat.le_succ k), room, ?_⟩
  unfold Bus.ofSlots
  rw [← List.map_drop, ← List.map_take, List.drop_range', List.take_range'_of_length_ge (by omega), next,
    Nat.add_sub_cancel_left, Nat.mul_one]

theorem data_of_bankAt {index k : Nat} (bank : bankAt site index = some k) :
    site.assembly.readData[k]? = some (site.netlist.outputOf index) := by
  obtain ⟨inside, same, _⟩ := List.idxOf?_eq_some_iff.mp bank
  rw [List.getElem?_eq_getElem inside, same]

end BankedMemory.Storage.Replicated
