import BankedMemory.Memory.Basic

/-!
# Cells

A cell computes an output bus from operand buses. Inputs have no operands; outputs and labels put out nothing.
-/

namespace BankedMemory

/-- The gates that join two buses bit by bit. -/
inductive Gate where
  | and
  | or
  | xor
deriving DecidableEq

inductive Cell where
  | invert (a : Bus)
  | gate (kind : Gate) (a b : Bus)
  /-- Whether two buses carry the same word, as one bit. -/
  | equal (a b : Bus)
  | memory (m : Memory)
  | input (name : String) (width : Nat)
  | output (name : String) (bus : Bus)
  | label (name : String) (bus : Bus)
deriving DecidableEq

namespace Gate

def apply : Gate → Trit → Trit → Trit
  | and => Trit.and
  | or => Trit.or
  | xor => Trit.xor

def name : Gate → String
  | and => "and"
  | or => "or"
  | xor => "xor"

end Gate

namespace Cell

/-- The kind of a cell, as netlist text and counts name it. -/
def className : Cell → String
  | invert _ => "not"
  | gate kind _ _ => kind.name
  | equal _ _ => "eq"
  | memory _ => "memory"
  | input _ _ => "input"
  | output _ _ => "output"
  | label _ _ => "name"

def outputWidth : Cell → Nat
  | invert a => a.length
  | gate _ a _ => a.length
  | equal _ _ => 1
  | memory m => m.outputWidth
  | input _ width => width
  | output _ _ => 0
  | label _ _ => 0

/-- Whether the operands of a cell fit together. -/
def check : Cell → Except Fault Unit
  | gate _ a b => Size.agree a.length b.length
  | equal a b => Size.agree a.length b.length
  | memory m => m.check
  | _ => .ok ()

/-- The operand nets of a cell, in order. -/
def nets : Cell → List Net
  | invert a => a
  | gate _ a b => a ++ b
  | equal a b => a ++ b
  | memory m => m.nets
  | input _ _ => []
  | output _ bus => bus
  | label _ bus => bus

/-- Exchanges every operand net of a cell. -/
def map (f : Net → Net) : Cell → Cell
  | invert a => invert (a.map f)
  | gate kind a b => gate kind (a.map f) (b.map f)
  | equal a b => equal (a.map f) (b.map f)
  | memory m => memory (m.map f)
  | input name width => input name width
  | output name bus => output name (bus.map f)
  | label name bus => label name (bus.map f)

def memory? : Cell → Option Memory
  | memory m => some m
  | _ => none

theorem outputWidth_map (f : Net → Net) (cell : Cell) : (cell.map f).outputWidth = cell.outputWidth := by
  cases cell <;> simp [map, outputWidth, Memory.map, Memory.outputWidth, Function.comp_def, ReadPort.map]

end Cell

end BankedMemory
