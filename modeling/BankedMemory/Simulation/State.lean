import BankedMemory.Cell.Output
import BankedMemory.Event
import BankedMemory.Netlist.Basic

/-!
# States of a running netlist

Between two clock cycles a netlist is determined by the words on its inputs, the rows of its memories and the
words in the registers of their read ports. Inputs of one name share one word.
-/

namespace BankedMemory

structure State where
  inputs : Table Bits
  /-- The contents of the memory at each slot. -/
  contents : Array (Option Contents)
  /-- The number of clock cycles gone by. -/
  cycle : Nat
deriving DecidableEq

namespace State

/-- Inputs start out unknown. Of several inputs of one name the last gives the width. -/
def initial (netlist : Netlist) : State where
  inputs := netlist.cells.foldl (fun inputs entry =>
    match entry.2 with
    | .input name width => inputs.put name (Bits.unknowns width)
    | _ => inputs) []
  contents := netlist.slots.map fun slot => slot.cell?.bind fun c => c.memory?.map Memory.initialContents
  cycle := 0

/-- What is reported once the latest clock cycle has gone by. -/
def event (state : State) : Event := .cycle state.cycle

def contentsAt (state : State) (index : Nat) : Option Contents := (state.contents[index]?).join

/-- Sets the word on the inputs of one name. -/
def setInput (state : State) (name : String) (word : Bits) : Except Fault State :=
  match state.inputs.get? name with
  | none => .error (.noInput name)
  | some old =>
    if old.length = word.length then .ok { state with inputs := state.inputs.put name word }
    else .error (.inputWidth name old.length word.length)

/-- Sets inputs to a number. -/
def setInputNat (state : State) (name : String) (value : Nat) : Except Fault State :=
  match state.inputs.get? name with
  | none => .error (.noInput name)
  | some old => do state.setInput name (← Bits.encode value old.length)

end State

namespace Netlist

/-- The state before the first clock cycle, if all rows of each memory can be held. -/
def start (netlist : Netlist) : Except Fault State :=
  if netlist.memories.all fun entry => entry.2.depth ≤ Contents.maxRows then .ok (State.initial netlist)
  else .error .tooLarge

end Netlist

end BankedMemory
