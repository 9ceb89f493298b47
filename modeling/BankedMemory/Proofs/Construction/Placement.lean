import BankedMemory.Proofs.Evaluation.Cycle
import BankedMemory.Proofs.Construction.Replacement

/-!
# Cells in their places

A cell that was queued stands at its slots once the netlist is applied, with its operands resolved. What its output
shows follows from what its operands show, and for a memory from what it holds.
-/

namespace BankedMemory

theorem Slot.map_ofCell (f : Net → Net) (index : Nat) (c : Cell) :
    (Slot.ofCell index c).map (Slot.map f) = Slot.ofCell index (c.map f) := by
  simp [Slot.ofCell, Slot.map, Cell.outputWidth_map]

theorem Slot.ofCell_head (index : Nat) (c : Cell) : (Slot.ofCell index c)[0]? = some (.cell c) := rfl

theorem Slot.ofCell_tail {index k : Nat} {c : Cell} (inside : k + 1 < c.outputWidth) :
    (Slot.ofCell index c)[k + 1]? = some (.continuation index) := by
  simp only [Slot.ofCell, List.getElem?_cons_succ]
  exact List.getElem?_replicate_of_lt (by omega)

theorem Bus.ofSlots_getElem? {start width i : Nat} {net : Net} (h : (Bus.ofSlots start width)[i]? = some net) :
    i < width ∧ net = .slot (start + i) := by
  simp only [Bus.ofSlots, List.getElem?_map, Option.map_eq_some_iff] at h
  obtain ⟨index, found, rfl⟩ := h
  obtain ⟨inside, rfl⟩ := List.getElem?_eq_some_iff.mp found
  simp only [List.length_range'] at inside
  exact ⟨inside, by simp⟩

namespace Netlist

variable {netlist : Netlist} {state : State}

/-- A cell stands in an applied netlist and drives a bus. -/
def Placed (netlist : Netlist) (output : Bus) (c : Cell) : Prop :=
  ∃ index, output = Bus.ofSlots index c.outputWidth ∧ netlist.cell? index = some c ∧
    ∀ k < c.outputWidth, netlist.driver (.slot (index + k)) = .ok (.cell index k)

/-- A cell that takes its slots drives them. -/
theorem driver_of_slots {index : Nat} {c : Cell}
    (slots : ∀ k slot, (Slot.ofCell index c)[k]? = some slot → netlist.slots[index + k]? = some slot) :
    netlist.cell? index = some c ∧
      ∀ k < c.outputWidth, netlist.driver (.slot (index + k)) = .ok (.cell index k) := by
  have head := slots 0 _ (Slot.ofCell_head index c)
  refine ⟨cell?_eq_some_iff.mpr head, fun k inside => ?_⟩
  cases k with
  | zero =>
    have head' : netlist.slots[index]? = some (.cell c) := head
    simp [driver, slot, head', bind, Except.bind, pure, Except.pure]
  | succ k =>
    have tail := slots (k + 1) _ (Slot.ofCell_tail inside)
    simp [driver, slot, tail, bind, Except.bind, pure, Except.pure]

theorem placed_of_slots {index : Nat} {c : Cell}
    (slots : ∀ k slot, (Slot.ofCell index c)[k]? = some slot → netlist.slots[index + k]? = some slot) :
    netlist.Placed (Bus.ofSlots index c.outputWidth) c :=
  ⟨index, rfl, driver_of_slots slots⟩

/-- A cell all of whose slots are in their places with other operands is placed with these operands. -/
theorem placed_of_map {index : Nat} {c : Cell} {f : Net → Net}
    (slots : ∀ k slot, (Slot.ofCell index c)[k]? = some slot → netlist.slots[index + k]? = some (slot.map f)) :
    netlist.Placed (Bus.ofSlots index c.outputWidth) (c.map f) := by
  rw [← Cell.outputWidth_map f]
  apply placed_of_slots
  intro k slot found
  rw [← Slot.map_ofCell, List.getElem?_map, Option.map_eq_some_iff] at found
  obtain ⟨original, found, rfl⟩ := found
  exact slots k original found

/-- A full output word shows on the slots that a cell drives. -/
theorem shows_of_driver {index : Nat} {c : Cell} (found : netlist.cell? index = some c)
    (driven : ∀ k < c.outputWidth, netlist.driver (.slot (index + k)) = .ok (.cell index k)) (value : Net → Trit)
    (carried : ∀ source ∈ c.sources, netlist.Carries state source (value source))
    (full : (c.outputBits value state.inputs (state.contentsAt index)).length = c.outputWidth) :
    netlist.Shows state (Bus.ofSlots index c.outputWidth)
      (c.outputBits value state.inputs (state.contentsAt index)) := by
  refine shows_iff.mpr ⟨by rw [full, Bus.length_ofSlots], fun i net bit at_bus at_word => ?_⟩
  obtain ⟨inside, rfl⟩ := Bus.ofSlots_getElem? at_bus
  refine .cell value (driven i inside) (by rwa [sourcesAt_of_cell found]) ?_
  rwa [outputUnder_of_cell found]

/-- A full output word shows on the bus that a cell drives. -/
theorem Placed.shows {output : Bus} {c : Cell} (placed : netlist.Placed output c) (value : Net → Trit)
    (carried : ∀ source ∈ c.sources, netlist.Carries state source (value source)) :
    ∃ index, netlist.cell? index = some c ∧
      ((c.outputBits value state.inputs (state.contentsAt index)).length = c.outputWidth →
        netlist.Shows state output (c.outputBits value state.inputs (state.contentsAt index))) := by
  obtain ⟨index, rfl, found, driven⟩ := placed
  exact ⟨index, found, shows_of_driver found driven value carried⟩

variable (aligned : state.Aligned netlist)
include aligned

theorem Placed.shows_invert {output a : Bus} {wa : Bits} (placed : netlist.Placed output (.invert a))
    (ha : netlist.Shows state a wa) : netlist.Shows state output wa.invert := by
  obtain ⟨index, _, shown⟩ := placed.shows (netlist.valueIn state) fun net member =>
    (ha.live net member).carries_valueIn aligned
  have bits : (Cell.invert a).outputBits (netlist.valueIn state) state.inputs (state.contentsAt index) =
      wa.invert := by
    simp [Cell.outputBits, ha.map_valueIn aligned]
  rw [bits] at shown
  exact shown (by simp [Bits.invert, Cell.outputWidth, ha.length])

theorem Placed.shows_gate {kind : Gate} {output a b : Bus} {wa wb : Bits}
    (placed : netlist.Placed output (.gate kind a b)) (same : a.length = b.length)
    (ha : netlist.Shows state a wa) (hb : netlist.Shows state b wb) :
    netlist.Shows state output (List.zipWith kind.apply wa wb) := by
  obtain ⟨index, _, shown⟩ := placed.shows (netlist.valueIn state) fun net member =>
    (List.mem_append.mp member).elim (fun h => (ha.live net h).carries_valueIn aligned)
      (fun h => (hb.live net h).carries_valueIn aligned)
  have bits : (Cell.gate kind a b).outputBits (netlist.valueIn state) state.inputs (state.contentsAt index) =
      List.zipWith kind.apply wa wb := by
    simp [Cell.outputBits, ha.map_valueIn aligned, hb.map_valueIn aligned]
  rw [bits] at shown
  exact shown (by simp [Cell.outputWidth, ha.length, hb.length, same])

theorem Placed.shows_equal {output a b : Bus} {wa wb : Bits} (placed : netlist.Placed output (.equal a b))
    (ha : netlist.Shows state a wa) (hb : netlist.Shows state b wb) :
    netlist.Shows state output [Bits.same wa wb] := by
  obtain ⟨index, _, shown⟩ := placed.shows (netlist.valueIn state) fun net member =>
    (List.mem_append.mp member).elim (fun h => (ha.live net h).carries_valueIn aligned)
      (fun h => (hb.live net h).carries_valueIn aligned)
  have bits : (Cell.equal a b).outputBits (netlist.valueIn state) state.inputs (state.contentsAt index) =
      [Bits.same wa wb] := by
    simp [Cell.outputBits, ha.map_valueIn aligned, hb.map_valueIn aligned]
  rw [bits] at shown
  exact shown rfl

omit aligned

/-- A memory whose placed cells all hold the same shows the output that follows from it. -/
theorem Placed.shows_memory {output : Bus} {memory : Memory} {contents : Contents} {value : Net → Trit}
    (placed : netlist.Placed output (.memory memory))
    (holds : ∀ index, netlist.cell? index = some (.memory memory) → state.contentsAt index = some contents)
    (carried : ∀ source ∈ (Cell.memory memory).sources, netlist.Carries state source (value source))
    (full : (memory.output value contents).length = memory.outputWidth) :
    netlist.Shows state output (memory.output value contents) := by
  obtain ⟨index, found, shown⟩ := placed.shows value carried
  have bits : (Cell.memory memory).outputBits value state.inputs (state.contentsAt index) =
      memory.output value contents := by
    simp [Cell.outputBits, holds index found]
  rw [bits] at shown
  exact shown full

/-- Reading the bus that a memory drives gives the word that all its placed cells put out. -/
theorem Placed.read_memory {output : Bus} {memory : Memory} {word : Bits}
    (placed : netlist.Placed output (.memory memory)) (aligned : state.Aligned netlist) (value : Net → Trit)
    (carried : ∀ source ∈ (Cell.memory memory).sources, netlist.Carries state source (value source))
    (holds : ∀ index, netlist.cell? index = some (.memory memory) →
      ∃ contents, state.contentsAt index = some contents ∧ memory.output value contents = word)
    (full : word.length = memory.outputWidth) : netlist.read state output = .ok word := by
  obtain ⟨index, found, shown⟩ := placed.shows value carried
  obtain ⟨contents, held, word_eq⟩ := holds index found
  have bits : (Cell.memory memory).outputBits value state.inputs (state.contentsAt index) = word := by
    simp [Cell.outputBits, held, word_eq]
  rw [bits] at shown
  exact (read_eq_ok_iff aligned).mpr (shown full)

end Netlist

end BankedMemory
