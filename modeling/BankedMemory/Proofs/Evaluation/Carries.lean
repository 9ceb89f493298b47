import BankedMemory.Netlist.Cells
import BankedMemory.Proofs.Lists
import BankedMemory.Simulation.Settling

/-!
# The bits that nets carry

A net carries a bit if the bit can be derived from constants, from the inputs and from the contents of memories by
finitely many cells. Nets on a combinational loop, and nets that no cell drives, carry nothing. The relation knows
of no order of evaluation and of no marks; in a state that fits the netlist, no net carries two bits.
-/

namespace BankedMemory

/-- What a memory holds has a word for each register of its read ports, and for no other port. -/
def Memory.Aligned (memory : Memory) (contents : Contents) : Prop :=
  contents.held.map Option.isSome = memory.readPorts.map fun port => port.register.isSome

/-- In each memory the words held belong to the registers. -/
def State.Aligned (netlist : Netlist) (state : State) : Prop :=
  ∀ index memory contents, netlist.cell? index = some (.memory memory) →
    state.contentsAt index = some contents → memory.Aligned contents

namespace Netlist

variable {netlist : Netlist} {state : State}

/-- The output of the cell at a slot under given values of nets. -/
def outputUnder (netlist : Netlist) (value : Net → Trit) (state : State) (index : Nat) : Bits :=
  match netlist.cell? index with
  | some c => c.outputBits value state.inputs (state.contentsAt index)
  | none => []

/-- The bit on a net follows from the state. -/
inductive Carries (netlist : Netlist) (state : State) : Net → Trit → Prop
  | const (bit : Trit) : Carries netlist state (.const bit) bit
  | cell {slot index offset : Nat} {bit : Trit} (value : Net → Trit) :
      netlist.driver (.slot slot) = .ok (.cell index offset) →
      (∀ source ∈ netlist.sourcesAt index, Carries netlist state source (value source)) →
      (netlist.outputUnder value state index)[offset]? = some bit →
      Carries netlist state (.slot slot) bit

/-- A net that carries some bit. -/
def Live (netlist : Netlist) (state : State) (net : Net) : Prop := ∃ bit, netlist.Carries state net bit

/-- The word on a bus follows from the state. -/
def Shows (netlist : Netlist) (state : State) (bus : Bus) (word : Bits) : Prop :=
  List.Forall₂ (netlist.Carries state) bus word

/-- The bit on a net as the evaluation gives it, or an unknown bit. -/
def valueIn (netlist : Netlist) (state : State) (net : Net) : Trit :=
  match netlist.read state [net] with
  | .ok (bit :: _) => bit
  | _ => .unknown

theorem outputUnder_of_cell {index : Nat} {c : Cell} (found : netlist.cell? index = some c)
    (value : Net → Trit) : netlist.outputUnder value state index =
      c.outputBits value state.inputs (state.contentsAt index) := by
  simp [outputUnder, found]

theorem sourcesAt_of_cell {index : Nat} {c : Cell} (found : netlist.cell? index = some c) :
    netlist.sourcesAt index = c.sources := by
  simp [sourcesAt, found]

theorem driver_const (bit : Trit) : netlist.driver (.const bit) = .ok (.const bit) := rfl

/-- A slot is never driven by a constant. -/
theorem driver_slot_ne_const (slot : Nat) (bit : Trit) : netlist.driver (.slot slot) ≠ .ok (.const bit) := by
  intro h
  unfold driver at h
  cases found : netlist.slot slot with
  | error cause => simp [found, bind, Except.bind] at h
  | ok place => cases place <;> simp [found, bind, Except.bind, pure, Except.pure] at h

theorem driver_slot_iff {slot index offset : Nat} :
    netlist.driver (.slot slot) = .ok (.cell index offset) ↔
      (∃ c, netlist.slots[slot]? = some (.cell c) ∧ index = slot ∧ offset = 0) ∨
      netlist.slots[slot]? = some (.continuation index) ∧ offset = slot - index := by
  cases found : netlist.slots[slot]? with
  | none =>
    have missing : netlist.slot slot = .error (.notApplied slot) := by simp [Netlist.slot, found]
    simp [Netlist.driver, missing, bind, Except.bind]
  | some place =>
    have there : netlist.slot slot = .ok place := by simp [Netlist.slot, found]
    cases place with
    | placeholder => simp [Netlist.driver, there, bind, Except.bind]
    | cell c => simp [Netlist.driver, there, bind, Except.bind, pure, Except.pure, eq_comm]
    | continuation start =>
      simp only [Netlist.driver, there, bind, Except.bind, pure, Except.pure, Except.ok.injEq, Driver.cell.injEq]
      grind

theorem driver_of_cell {index : Nat} {c : Cell} (found : netlist.cell? index = some c) :
    netlist.slots[index]? = some (.cell c) ∧ netlist.driver (.slot index) = .ok (.cell index 0) := by
  have at_slot := cell?_eq_some_iff.mp found
  exact ⟨at_slot, driver_slot_iff.mpr (Or.inl ⟨c, at_slot, rfl, rfl⟩)⟩

theorem slot_lt_of_driver {slot : Nat} {driver : Driver}
    (driven : netlist.driver (.slot slot) = .ok driver) : slot < netlist.slots.size := by
  by_contra outside
  have missing : netlist.slots[slot]? = none := Array.getElem?_eq_none_iff.mpr (Nat.le_of_not_lt outside)
  simp [Netlist.driver, Netlist.slot, missing, bind, Except.bind] at driven

end Netlist

/-- The output of a memory depends on no other nets than the addresses of its ports without a register. -/
theorem Memory.output_congr {memory : Memory} {contents : Contents} (aligned : memory.Aligned contents)
    {v w : Net → Trit} (agree : ∀ source ∈ (Cell.memory memory).sources, v source = w source) :
    memory.output v contents = memory.output w contents := by
  unfold Memory.output
  unfold Memory.Aligned at aligned
  have local_agree : ∀ entry ∈ memory.readPorts.zip contents.held,
      memory.portOutput v contents.rows entry.1 entry.2 = memory.portOutput w contents.rows entry.1 entry.2 := by
    rintro ⟨port, held⟩ member
    have same : held.isSome = port.register.isSome := by
      obtain ⟨i, at_place⟩ := List.mem_iff_getElem?.mp member
      rw [List.getElem?_zip_eq_some] at at_place
      have both := congrArg (·[i]?) aligned
      simpa [at_place.1, at_place.2] using both
    cases held with
    | some word => rfl
    | none =>
      have addr_agree : port.addr.map v = port.addr.map w := by
        apply List.map_congr_left
        intro net at_addr
        apply agree
        refine List.mem_flatMap.mpr ⟨port, (List.of_mem_zip member).1, ?_⟩
        have bare : port.register = none := by simpa using same.symm
        simpa [bare] using at_addr
      simp only [Memory.portOutput, addr_agree]
  rw [List.flatMap_def, List.flatMap_def, List.map_congr_left local_agree]

namespace Netlist

variable {netlist : Netlist} {state : State}

theorem outputUnder_congr (aligned : state.Aligned netlist) {index : Nat} {v w : Net → Trit}
    (agree : ∀ source ∈ netlist.sourcesAt index, v source = w source) :
    netlist.outputUnder v state index = netlist.outputUnder w state index := by
  cases found : netlist.cell? index with
  | none => simp [outputUnder, found]
  | some c =>
    rw [outputUnder_of_cell found, outputUnder_of_cell found]
    rw [sourcesAt_of_cell found] at agree
    cases c with
    | invert a =>
      have same : a.map v = a.map w := List.map_congr_left agree
      simp only [Cell.outputBits, same]
    | gate kind a b =>
      have left := List.map_congr_left fun net h => agree net (List.mem_append_left b h)
      have right := List.map_congr_left fun net h => agree net (List.mem_append_right a h)
      simp only [Cell.outputBits, left, right]
    | equal a b =>
      have left := List.map_congr_left fun net h => agree net (List.mem_append_left b h)
      have right := List.map_congr_left fun net h => agree net (List.mem_append_right a h)
      simp only [Cell.outputBits, left, right]
    | memory m =>
      cases held : state.contentsAt index with
      | none => simp [Cell.outputBits]
      | some contents =>
        have same := Memory.output_congr (aligned index m contents found held) agree
        simp [Cell.outputBits, same]
    | input name width => rfl
    | output name bus => rfl
    | label name bus => rfl

/-- No net carries two bits. -/
theorem Carries.unique (aligned : state.Aligned netlist) {net : Net} {a b : Trit}
    (ha : netlist.Carries state net a) (hb : netlist.Carries state net b) : a = b := by
  induction ha generalizing b with
  | const bit => cases hb; rfl
  | cell value driven carried shown ih =>
    cases hb with
    | cell value' driven' carried' shown' =>
      obtain ⟨rfl, rfl⟩ : _ = _ ∧ _ = _ := by simpa using driven.symm.trans driven'
      have same := outputUnder_congr aligned fun source member => ih source member (carried' source member)
      rw [same] at shown
      exact Option.some.inj (shown.symm.trans shown')

theorem Shows.unique (aligned : state.Aligned netlist) {bus : Bus} {a b : Bits}
    (ha : netlist.Shows state bus a) (hb : netlist.Shows state bus b) : a = b := by
  unfold Shows at ha
  induction ha generalizing b with
  | nil => cases hb; rfl
  | cons carried _ ih =>
    cases hb with
    | cons carried' rest => rw [carried.unique aligned carried', ih rest]

theorem Shows.length {bus : Bus} {word : Bits} (h : netlist.Shows state bus word) :
    word.length = bus.length := (List.Forall₂.length_eq h).symm

theorem Shows.live {bus : Bus} {word : Bits} (h : netlist.Shows state bus word) :
    ∀ net ∈ bus, netlist.Live state net := by
  unfold Shows at h
  induction h with
  | nil => simp
  | cons carried _ ih =>
    intro net member
    rcases List.mem_cons.mp member with rfl | member
    · exact ⟨_, carried⟩
    · exact ih net member

/-- Under the values that nets carry, a bus shows its word. -/
theorem shows_map {bus : Bus} (value : Net → Trit)
    (h : ∀ net ∈ bus, netlist.Carries state net (value net)) : netlist.Shows state bus (bus.map value) := by
  induction bus with
  | nil => exact .nil
  | cons net rest ih =>
    exact .cons (h net List.mem_cons_self) (ih fun other member => h other (List.mem_cons_of_mem net member))

theorem shows_iff {bus : Bus} {word : Bits} : netlist.Shows state bus word ↔
    word.length = bus.length ∧
      ∀ (i : Nat) net bit, bus[i]? = some net → word[i]? = some bit → netlist.Carries state net bit :=
  forall₂_iff_getElem?

end Netlist

end BankedMemory
