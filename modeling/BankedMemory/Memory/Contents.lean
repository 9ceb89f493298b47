import BankedMemory.Memory.Basic

/-!
# Contents of memories

What a memory holds between two clock cycles, and what its read ports show of it.
-/

namespace BankedMemory

/-- What a memory holds. -/
structure Contents where
  rows : Array Bits
  /-- The word in the register of each read port, or nothing for a port without a register. -/
  held : List (Option Bits)
deriving DecidableEq

namespace Contents

/-- The greatest number of rows that can be held at once. -/
def maxRows : Nat := (Nat.pow 2 63 - 1) / 24

end Contents

namespace Memory

/-- The row that a word of address bits selects: none if a bit is unknown or the memory has no such row. -/
def rowOf (memory : Memory) (addr : Bits) : Option Nat := addr.toNat?.filter (· < memory.depth)

def initialContents (memory : Memory) : Contents :=
  ⟨memory.initialRows.toArray, memory.readPorts.map fun port => port.register.map Register.init⟩

/-- The word at a read port: that of its register, or the selected row. -/
def portOutput (memory : Memory) (value : Net → Trit) (rows : Array Bits) (port : ReadPort) :
    Option Bits → Bits
  | some word => word
  | none =>
    match memory.rowOf (port.addr.map value) with
    | some row => rows.getD row []
    | none => Bits.unknowns port.width

def output (memory : Memory) (value : Net → Trit) (contents : Contents) : Bits :=
  (memory.readPorts.zip contents.held).flatMap fun entry =>
    memory.portOutput value contents.rows entry.1 entry.2

end Memory

end BankedMemory
