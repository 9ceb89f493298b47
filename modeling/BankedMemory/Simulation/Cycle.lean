import BankedMemory.Memory.Cycle
import BankedMemory.Netlist.Cells
import BankedMemory.Simulation.Settling

/-!
# Clock cycles

In one clock cycle all memories commit their writes and sample their registers at the same time, from the values
before the cycle. All controls share one clock; a port whose clock is a constant is never clocked.
-/

namespace BankedMemory

namespace Netlist

/-- Settles what a write port needs in a cycle: its data only if the write has an effect. -/
def settleWritePort (netlist : Netlist) (state : State) (memory : Memory) (marks : Marks) (port : WritePort) :
    Except Fault Marks := do
  if port.clock.isConst then return marks
  let marks ← netlist.settle state port.mask marks
  let marks ← netlist.settle state port.addr marks
  if (memory.strobe (marks.value netlist) port).isSome then netlist.settle state port.data marks
  else return marks

/-- Settles what a read port needs in a cycle: its address only if its register samples. -/
def settleReadPort (netlist : Netlist) (state : State) (marks : Marks) (port : ReadPort) :
    Except Fault Marks := do
  match port.register with
  | none => return marks
  | some register =>
    if register.clock.isConst then return marks
    let marks ← netlist.settle state [register.enable.net] marks
    if register.enable.active (marks.value netlist register.enable.net) = .one then
      netlist.settle state port.addr marks
    else return marks

def settleMemory (netlist : Netlist) (state : State) (marks : Marks) (memory : Memory) :
    Except Fault Marks := do
  let marks ← memory.writePorts.foldlM (netlist.settleWritePort state memory) marks
  memory.readPorts.foldlM (netlist.settleReadPort state) marks

/-- Settles everything that the memories need in a cycle. -/
def settleCycle (netlist : Netlist) (state : State) : Except Fault Marks :=
  netlist.memories.foldlM (fun marks entry => netlist.settleMemory state marks entry.2) (Marks.initial netlist)

/-- What a slot holds after a cycle, given the values of nets before it. -/
def nextAt (netlist : Netlist) (value : Net → Trit) (index : Nat) (contents : Option Contents) :
    Option Contents :=
  match netlist.cell? index, contents with
  | some (.memory m), some contents => some (m.nextContents value contents)
  | _, contents => contents

/-- The state after a cycle, given the values of nets before it. -/
def nextState (netlist : Netlist) (value : Net → Trit) (state : State) : State where
  inputs := state.inputs
  contents := Positions.modifyAll (netlist.nextAt value) state.contents (netlist.memories.map (·.1))
  cycle := state.cycle + 1

/-- Advances the clock by one cycle. -/
def step (netlist : Netlist) (state : State) : Except Fault State := do
  let marks ← netlist.settleCycle state
  return netlist.nextState (marks.value netlist) state

/-- Sets inputs one after the other, and then advances the clock. -/
def tick (netlist : Netlist) (settings : List (String × Bits)) (state : State) : Except Fault State := do
  netlist.step (← settings.foldlM (fun state setting => state.setInput setting.1 setting.2) state)

/-- Runs a netlist from its initial state, with settings of inputs for each clock cycle. -/
def run (netlist : Netlist) (cycles : List (List (String × Bits))) : Except Fault State := do
  cycles.foldlM (fun state settings => netlist.tick settings state) (← netlist.start)

/-- After a cycle each slot holds what follows from what it held before. -/
theorem getElem?_nextState (netlist : Netlist) (value : Net → Trit) (state : State) (index : Nat) :
    (netlist.nextState value state).contents[index]? = state.contents[index]?.map (netlist.nextAt value index) := by
  unfold nextState
  rw [Positions.getElem?_modifyAll _ _ netlist.nodup_memories]
  split
  · rfl
  · rename_i other
    have stays : netlist.nextAt value index = id := by
      funext contents
      unfold nextAt
      split
      · rename_i found
        exact absurd (List.mem_map.mpr ⟨_, mem_memories.mpr found, rfl⟩) other
      · rfl
    simp [stays]

end Netlist

end BankedMemory
