import BankedMemory.Simulation.State

/-!
# Settling nets

Cells are evaluated on demand, and each at most once: a cell is busy while its operands are evaluated and settled
afterwards, and a busy cell that is asked for again closes a combinational loop. Marks record this for every slot.
The search goes one level deeper only at a cell that was fresh, so that it can be no deeper than there are slots.
-/

namespace BankedMemory

/-- How far the evaluation of a cell has come. -/
inductive Mark where
  | fresh
  | busy
  | settled (output : Array Trit)
deriving DecidableEq

abbrev Marks := Array Mark

namespace Marks

/-- The marks before any evaluation. -/
def initial (netlist : Netlist) : Marks := Array.replicate netlist.slots.size .fresh

def markAt (marks : Marks) (index : Nat) : Mark := marks.getD index .fresh

/-- The output of a settled cell. -/
def outputAt (marks : Marks) (index : Nat) : Array Trit :=
  match marks.markAt index with
  | .settled output => output
  | _ => #[]

/-- The value of a net whose cell is settled. -/
def value (netlist : Netlist) (marks : Marks) (net : Net) : Trit :=
  match netlist.driver net with
  | .ok (.const bit) => bit
  | .ok (.cell index offset) => (marks.outputAt index).getD offset .unknown
  | .error _ => .unknown

end Marks

namespace Netlist

/-- Settles the cell that drives a net, by means of `settle`; the cell has to put out the bit asked for. -/
def settleNet (netlist : Netlist) (settle : Nat → Marks → Except Fault Marks) (marks : Marks) (net : Net) :
    Except Fault Marks := do
  match ← netlist.driver net with
  | .const _ => return marks
  | .cell index offset =>
    let marks ← settle index marks
    if offset < (marks.outputAt index).size then return marks else .error .outOfRange

/-- The output of the cell at a slot, once its sources are settled. -/
def outputFrom (netlist : Netlist) (state : State) (marks : Marks) (index : Nat) : Bits :=
  match netlist.cell? index with
  | some c => c.outputBits (marks.value netlist) state.inputs (state.contentsAt index)
  | none => []

def sourcesAt (netlist : Netlist) (index : Nat) : List Net :=
  match netlist.cell? index with
  | some c => c.sources
  | none => []

/-- Settles a cell and all that it depends on; `depth` bounds how many cells may be busy below it. -/
def settleCell (netlist : Netlist) (state : State) : (depth index : Nat) → Marks → Except Fault Marks
  | 0, index, _ => .error (.combinationalLoop index)
  | depth + 1, index, marks =>
    match marks.markAt index with
    | .settled _ => .ok marks
    | .busy => .error (.combinationalLoop index)
    | .fresh => do
      let marks ← (netlist.sourcesAt index).foldlM (netlist.settleNet (netlist.settleCell state depth))
        (marks.setIfInBounds index .busy)
      return marks.setIfInBounds index (.settled (netlist.outputFrom state marks index).toArray)

/-- Settles nets one after the other. -/
def settle (netlist : Netlist) (state : State) (nets : List Net) (marks : Marks) : Except Fault Marks :=
  nets.foldlM (netlist.settleNet (netlist.settleCell state (netlist.slots.size + 1))) marks

/-- The word on a bus in a state. -/
def read (netlist : Netlist) (state : State) (bus : Bus) : Except Fault Bits := do
  let marks ← netlist.settle state bus (Marks.initial netlist)
  return bus.map (marks.value netlist)

/-- The word on the first output of a name. -/
def readOutput (netlist : Netlist) (state : State) (name : String) : Except Fault Bits :=
  match netlist.cells.findSome? fun entry => match entry.2 with
    | .output other bus => if other = name then some bus else none
    | _ => none with
  | some bus => netlist.read state bus
  | none => .error (.noOutput name)

/-- A row of the memory that drives a net. -/
def readRow (netlist : Netlist) (state : State) (net : Net) (row : Nat) : Except Fault Bits := do
  match ← netlist.driver net with
  | .const _ => .error (.notAMemory net)
  | .cell index _ =>
    match state.contentsAt index with
    | some contents => Positions.get contents.rows.toList row
    | none => .error (.notAMemory net)

end Netlist

end BankedMemory
