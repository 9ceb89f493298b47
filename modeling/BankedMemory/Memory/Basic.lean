import BankedMemory.Bus
import BankedMemory.Size
import BankedMemory.Table

/-!
# Memory cells

A memory holds `depth` rows of `width` bits and is reached through ports, each of which addresses one row at a
time. Its output is the data of all read ports side by side. A bank is a memory with one write port and one read
port.
-/

namespace BankedMemory

/-- Data offered to the row at `addr` in each clock cycle; `mask` selects the bits that are written. -/
structure WritePort where
  addr : Bus
  data : Bus
  mask : Bus
  clock : Control
deriving DecidableEq

/-- What a clocked read port sees of a write to the row it reads in the same cycle: nothing known in the bits
written, the row as it was, or the row as written. -/
inductive Visibility where
  | undefined
  | before
  | after
deriving DecidableEq

/-- The register of a clocked read port. It keeps its word while `enable` is inactive. -/
structure Register where
  clock : Control
  enable : Control
  init : Bits
  /-- What this port sees of each write port of its memory, in their order. -/
  visibility : List Visibility
deriving DecidableEq

/-- A port that shows the row at `addr`: at once, or through a register. -/
structure ReadPort where
  addr : Bus
  width : Nat
  register : Option Register
deriving DecidableEq

structure Memory where
  depth : Nat
  width : Nat
  /-- The initial rows side by side, row 0 in the low bits. -/
  init : Bits
  attributes : Table String
  writePorts : List WritePort
  readPorts : List ReadPort
deriving DecidableEq

namespace Visibility

def text : Visibility → String
  | undefined => "undef"
  | before => "rdfirst"
  | after => "trans"

end Visibility

namespace WritePort

def nets (port : WritePort) : List Net := port.addr ++ port.data ++ port.mask ++ [port.clock.net]

def map (f : Net → Net) (port : WritePort) : WritePort :=
  ⟨port.addr.map f, port.data.map f, port.mask.map f, port.clock.map f⟩

end WritePort

namespace Register

/-- A register that is always enabled, starts out unknown, and has no relation to any write port yet. -/
def ofClock (clock : Control) (width : Nat) : Except Fault Register :=
  return ⟨clock, .high .one, ← Bits.filled width .unknown, []⟩

def hasEnable (register : Register) : Bool := !register.enable.isAlways true
def hasInit (register : Register) : Bool := !register.init.isUnknown

def nets (register : Register) : List Net := [register.clock.net, register.enable.net]

def map (f : Net → Net) (register : Register) : Register :=
  { register with clock := register.clock.map f, enable := register.enable.map f }

end Register

namespace ReadPort

def nets (port : ReadPort) : List Net :=
  port.addr ++ match port.register with
    | some register => register.nets
    | none => []

def map (f : Net → Net) (port : ReadPort) : ReadPort :=
  { port with addr := port.addr.map f, register := port.register.map (Register.map f) }

end ReadPort

namespace Memory

def outputWidth (memory : Memory) : Nat := (memory.readPorts.map ReadPort.width).foldr (· + ·) 0

/-- A memory with one write port and one read port. -/
def isBank (memory : Memory) : Bool := memory.writePorts.length = 1 ∧ memory.readPorts.length = 1

/-- The initial word of one row. -/
def initialRow (memory : Memory) (row : Nat) : Except Fault Bits := do
  let start ← Size.mul row memory.width
  let stop ← Size.mul (← Size.add row 1) memory.width
  Positions.slice memory.init (some start) (some stop)

/-- Cuts a word into `count` words of one width. -/
def splitRows (width : Nat) : (count : Nat) → Bits → List Bits
  | 0, _ => []
  | count + 1, word => word.take width :: splitRows width count (word.drop width)

/-- The initial words of all rows. -/
def initialRows (memory : Memory) : List Bits := splitRows memory.width memory.depth memory.init

/-- A register may look before or behind a write only within one clock domain. -/
def checkClock (register : Register) (visibility : Visibility) (port : WritePort) : Except Fault Unit :=
  if visibility ≠ .undefined ∧ port.clock ≠ register.clock then .error (.clocks port.clock register.clock)
  else .ok ()

def checkWritePort (memory : Memory) (port : WritePort) : Except Fault Unit := do
  Size.agree port.data.length memory.width
  Size.agree port.mask.length memory.width

def checkReadPort (memory : Memory) (port : ReadPort) : Except Fault Unit := do
  Size.agree port.width memory.width
  match port.register with
  | none => return ()
  | some register =>
    Size.agree register.init.length port.width
    Size.agree register.visibility.length memory.writePorts.length
    (register.visibility.zip memory.writePorts).forM fun pair => checkClock register pair.1 pair.2

/-- The data of all read ports has to have a size. -/
def checkOutput (memory : Memory) : Except Fault Unit :=
  if memory.outputWidth < Size.bound then .ok () else .error .additionOverflow

/-- Whether the parts of a memory fit together. -/
def check (memory : Memory) : Except Fault Unit := do
  Size.agree memory.init.length (← Size.mul memory.depth memory.width)
  memory.writePorts.forM memory.checkWritePort
  memory.readPorts.forM memory.checkReadPort
  memory.checkOutput

theorem splitRows_zero (count : Nat) (word : Bits) : splitRows 0 count word = List.replicate count [] := by
  induction count with
  | zero => rfl
  | succ count ih => simp [splitRows, List.replicate_succ, ih]

def nets (memory : Memory) : List Net :=
  memory.writePorts.flatMap WritePort.nets ++ memory.readPorts.flatMap ReadPort.nets

def map (f : Net → Net) (memory : Memory) : Memory :=
  { memory with
    writePorts := memory.writePorts.map (WritePort.map f)
    readPorts := memory.readPorts.map (ReadPort.map f) }

end Memory

end BankedMemory
