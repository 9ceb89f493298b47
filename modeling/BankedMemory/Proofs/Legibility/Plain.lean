import BankedMemory.Netlist.Text
import BankedMemory.Proofs.Checks
import BankedMemory.Proofs.Lists
import Mathlib.Data.List.DropRight
import Mathlib.Data.Option.Basic

/-!
# What netlist text leaves open

Text shows neither an enable that is always active, nor the initial rows behind the last one that is neither all zero
nor all unknown. Cells that differ in nothing else resemble each other, and each such class of cells has one plain
form.
-/

namespace BankedMemory

/-- The two controls that are always active. -/
def Control.unconditional : List Control := [.high .one, .low .zero]

/-- Registers that text does not tell from each other. -/
structure Register.Resembles (a b : Register) : Prop where
  clock : a.clock = b.clock
  enable : a.enable = b.enable ∨ a.enable ∈ Control.unconditional ∧ b.enable ∈ Control.unconditional
  init : a.init = b.init
  visibility : a.visibility = b.visibility

structure ReadPort.Resembles (a b : ReadPort) : Prop where
  addr : a.addr = b.addr
  width : a.width = b.width
  register : Option.Rel Register.Resembles a.register b.register

/-- Memories that text does not tell from each other: from some row on, all initial rows of both are all zero or all
unknown, and before it they are equal. -/
structure Memory.Resembles (a b : Memory) : Prop where
  depth : a.depth = b.depth
  width : a.width = b.width
  size : a.init.length = b.init.length
  rows : ∃ shown blank blank', a.initialRows = shown ++ blank ∧ b.initialRows = shown ++ blank' ∧
    ∀ row ∈ blank ++ blank', row.isZero ∨ row.isUnknown
  attributes : a.attributes = b.attributes
  writePorts : a.writePorts = b.writePorts
  readPorts : List.Forall₂ ReadPort.Resembles a.readPorts b.readPorts

/-- Cells that text does not tell from each other: equal ones if they are no memories. -/
inductive Cell.Resembles : Cell → Cell → Prop where
  | memory {a b : Memory} (resembles : a.Resembles b) : Resembles (.memory a) (.memory b)
  | other {c : Cell} (no_memory : c.memory? = none) : Resembles c c

namespace Register

/-- The register with the first of the enables that are always active, if its own is. -/
def plain (register : Register) : Register :=
  if register.hasEnable then register else { register with enable := .high .one }

theorem hasEnable_eq_false_iff {register : Register} :
    register.hasEnable = false ↔ register.enable ∈ Control.unconditional := by
  obtain ⟨clock, ⟨net, low⟩, init, visibility⟩ := register
  rcases net with (_ | _ | _) | slot <;> cases low <;>
    simp [hasEnable, Control.isAlways, Net.const?, Control.active, Trit.ofBool, Trit.not, Control.unconditional,
      Control.high, Control.low, Net.one, Net.zero]

theorem plain_enable (register : Register) : register.plain.enable =
    if register.enable ∈ Control.unconditional then .high .one else register.enable := by
  simp only [← hasEnable_eq_false_iff]
  unfold plain
  cases register.hasEnable <;> rfl

theorem plain_eq (register : Register) : register.plain = { register with enable := register.plain.enable } := by
  unfold plain
  split <;> rfl

theorem plain_enable_eq_iff {a b : Register} : a.plain.enable = b.plain.enable ↔
    a.enable = b.enable ∨ a.enable ∈ Control.unconditional ∧ b.enable ∈ Control.unconditional := by
  have first : Control.high .one ∈ Control.unconditional := List.mem_cons_self
  rw [plain_enable, plain_enable]
  grind

theorem plain_eq_iff {a b : Register} : a.plain = b.plain ↔ a.Resembles b := by
  constructor
  · intro same
    have enable := plain_enable_eq_iff.mp (congrArg Register.enable same)
    rw [plain_eq a, plain_eq b, mk.injEq] at same
    exact ⟨same.1, enable, same.2.2.1, same.2.2.2⟩
  · intro resembles
    rw [plain_eq a, plain_eq b, resembles.clock, resembles.init, resembles.visibility,
      plain_enable_eq_iff.mpr resembles.enable]

end Register

namespace ReadPort

def plain (port : ReadPort) : ReadPort := { port with register := port.register.map Register.plain }

theorem plain_eq_iff {a b : ReadPort} : a.plain = b.plain ↔ a.Resembles b := by
  have registers : a.register.map Register.plain = b.register.map Register.plain ↔
      Option.Rel Register.Resembles a.register b.register := by
    cases a.register <;> cases b.register <;> simp [Register.plain_eq_iff]
  unfold plain
  rw [mk.injEq, registers]
  exact ⟨fun ⟨addr, width, register⟩ => ⟨addr, width, register⟩,
    fun resembles => ⟨resembles.addr, resembles.width, resembles.register⟩⟩

end ReadPort

namespace Memory

variable {memory a b : Memory}

/-- The rows given, and rows of zeros behind them. -/
def filledRows (depth width : Nat) (rows : List Bits) : List Bits :=
  rows ++ List.replicate (depth - rows.length) (Bits.zeros width)

/-- The memory with zeros in the initial rows that text leaves out. -/
def plain (memory : Memory) : Memory :=
  { memory with
    init := (filledRows memory.depth memory.width (Netlist.shownRows memory)).flatten
    readPorts := memory.readPorts.map ReadPort.plain }

theorem length_splitRows (width count : Nat) (word : Bits) : (splitRows width count word).length = count := by
  induction count generalizing word with
  | zero => rfl
  | succ count ih => rw [splitRows, List.length_cons, ih]

theorem splitRows_rows {width : Nat} {rows : List Bits} (wide : ∀ row ∈ rows, row.length = width) :
    splitRows width rows.length rows.flatten = rows := by
  induction rows with
  | nil => rfl
  | cons row rows ih =>
    have here := wide row List.mem_cons_self
    have later := ih fun other member => wide other (List.mem_cons_of_mem row member)
    rw [List.length_cons, List.flatten_cons, splitRows, List.take_left' here, List.drop_left' here, later]

theorem Checked.length_of_mem_initialRows (checked : memory.Checked) :
    ∀ row ∈ memory.initialRows, row.length = memory.width := by
  intro row member
  obtain ⟨k, found⟩ := List.mem_iff_getElem?.mp member
  obtain ⟨inside, _⟩ := List.getElem?_eq_some_iff.mp found
  rw [initialRows, length_splitRows] at inside
  obtain ⟨bits, same, wide⟩ := exists_splitRow checked.init inside
  rw [Option.some.inj (found.symm.trans same)]
  exact wide

theorem exists_blank (memory : Memory) : ∃ blank, memory.initialRows = Netlist.shownRows memory ++ blank ∧
    ∀ row ∈ blank, row.isZero ∨ row.isUnknown := by
  refine ⟨(memory.initialRows.reverse.takeWhile fun row => row.isZero || row.isUnknown).reverse, ?_, ?_⟩
  · rw [Netlist.shownRows_eq, ← List.reverse_append, List.takeWhile_append_dropWhile, List.reverse_reverse]
  · intro row member
    simpa using List.mem_takeWhile_imp (List.mem_reverse.mp member)

theorem Checked.length_of_mem_shownRows (checked : memory.Checked) :
    ∀ row ∈ Netlist.shownRows memory, row.length = memory.width := by
  intro row member
  obtain ⟨blank, rows, _⟩ := memory.exists_blank
  exact checked.length_of_mem_initialRows row (rows ▸ List.mem_append_left blank member)

/-- Rows without bits are not shown. -/
theorem Checked.ne_nil_of_mem_shownRows (checked : memory.Checked) : ∀ row ∈ Netlist.shownRows memory, row ≠ [] := by
  rintro row member rfl
  have narrow : memory.width = 0 := (checked.length_of_mem_shownRows [] member).symm
  simp [Netlist.shownRows, narrow] at member

theorem length_shownRows_le (memory : Memory) : (Netlist.shownRows memory).length ≤ memory.depth := by
  obtain ⟨blank, rows, _⟩ := memory.exists_blank
  have counted := congrArg List.length rows
  rw [initialRows, length_splitRows, List.length_append] at counted
  omega

/-- Which rows are shown does not depend on how far the rows before the blank ones are taken to reach. -/
theorem shownRows_of_blank {shown blank : List Bits} (rows : memory.initialRows = shown ++ blank)
    (blanks : ∀ row ∈ blank, row.isZero ∨ row.isUnknown) :
    Netlist.shownRows memory = (shown.reverse.dropWhile fun row => row.isZero || row.isUnknown).reverse := by
  rw [Netlist.shownRows_eq, rows, List.reverse_append, List.dropWhile_append_of_pos]
  intro row member
  simpa using blanks row (List.mem_reverse.mp member)

theorem Checked.initialRows_plain (checked : memory.Checked) :
    memory.plain.initialRows = filledRows memory.depth memory.width (Netlist.shownRows memory) := by
  have wide : ∀ row ∈ filledRows memory.depth memory.width (Netlist.shownRows memory), row.length = memory.width := by
    intro row member
    rcases List.mem_append.mp member with shown | filled
    · exact checked.length_of_mem_shownRows row shown
    · rw [List.eq_of_mem_replicate filled]
      exact List.length_replicate
  have count : (filledRows memory.depth memory.width (Netlist.shownRows memory)).length = memory.depth := by
    have fit := memory.length_shownRows_le
    rw [filledRows, List.length_append, List.length_replicate]
    omega
  have rows := splitRows_rows wide
  rwa [count] at rows

/-- The plain form shows the rows that the memory shows. -/
theorem Checked.shownRows_plain (checked : memory.Checked) :
    Netlist.shownRows memory.plain = Netlist.shownRows memory := by
  have filled : ∀ row ∈ List.replicate (memory.depth - (Netlist.shownRows memory).length) (Bits.zeros memory.width),
      row.isZero ∨ row.isUnknown := by
    intro row member
    rw [List.eq_of_mem_replicate member]
    left
    simp [Bits.isZero, Bits.zeros]
  rw [shownRows_of_blank checked.initialRows_plain filled, Netlist.shownRows_eq memory, List.reverse_reverse,
    List.dropWhile_idempotent]

theorem Resembles.shownRows (resembles : a.Resembles b) : Netlist.shownRows a = Netlist.shownRows b := by
  obtain ⟨shown, blank, blank', rows, rows', blanks⟩ := resembles.rows
  rw [shownRows_of_blank rows fun row member => blanks row (List.mem_append_left _ member),
    shownRows_of_blank rows' fun row member => blanks row (List.mem_append_right _ member)]

theorem plain_eq_iff (checked : a.Checked) (checked' : b.Checked) : a.plain = b.plain ↔ a.Resembles b := by
  have ports : a.readPorts.map ReadPort.plain = b.readPorts.map ReadPort.plain ↔
      List.Forall₂ ReadPort.Resembles a.readPorts b.readPorts := by
    simp only [map_eq_map_iff_forall₂, ReadPort.plain_eq_iff]
  constructor
  · intro same
    have shown : Netlist.shownRows a = Netlist.shownRows b := by
      rw [← checked.shownRows_plain, same, checked'.shownRows_plain]
    obtain ⟨blank, rows, blanks⟩ := a.exists_blank
    obtain ⟨blank', rows', blanks'⟩ := b.exists_blank
    obtain ⟨depth, width, _, attributes, writePorts, readPorts⟩ := Memory.mk.inj same
    exact {
      depth
      width
      size := by rw [checked.init, checked'.init, depth, width]
      rows := ⟨_, blank, blank', rows, shown ▸ rows', fun row member =>
        (List.mem_append.mp member).elim (blanks row) (blanks' row)⟩
      attributes
      writePorts
      readPorts := ports.mp readPorts }
  · intro resembles
    unfold plain
    rw [resembles.shownRows, resembles.depth, resembles.width, resembles.attributes, resembles.writePorts,
      ports.mpr resembles.readPorts]

end Memory

namespace Cell

def plain : Cell → Cell
  | memory m => memory m.plain
  | c => c

theorem plain_eq_iff {a b : Cell} (checked : a.check = .ok ()) (checked' : b.check = .ok ()) :
    a.plain = b.plain ↔ a.Resembles b := by
  constructor
  · intro same
    cases a with
    | memory m =>
      cases b with
      | memory n =>
        exact .memory ((Memory.plain_eq_iff (Memory.check_eq_ok_iff.mp checked) (Memory.check_eq_ok_iff.mp checked')).mp
          (Cell.memory.inj same))
      | _ => cases same
    | _ =>
      cases b <;> cases same
      exact .other rfl
  · rintro (resembles | _)
    · exact congrArg memory ((Memory.plain_eq_iff (Memory.check_eq_ok_iff.mp checked)
        (Memory.check_eq_ok_iff.mp checked')).mpr resembles)
    · rfl

end Cell

end BankedMemory
