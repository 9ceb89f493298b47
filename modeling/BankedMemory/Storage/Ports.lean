import BankedMemory.Bus
import BankedMemory.Storage.Blueprint

/-!
# Port declarations

The readers and writers of a memory under construction, numbered in the order of their declaration. Each
declaration is checked against the shape of the memory at once. Ports are declared until the memory is built, and
are final afterwards.
-/

namespace BankedMemory.Storage

/-- A port that samples the row at `addr` while `enable` is one, and keeps its data otherwise. -/
structure Reader where
  addr : Bus
  enable : Net
  /-- The writers whose write to the row in the same cycle this reader observes, in increasing order. -/
  observed : List Nat
deriving DecidableEq

/-- A port that writes the enabled bits of `data` into the row at `addr`. -/
structure Writer where
  addr : Bus
  data : Bus
  /-- One net, or one net for each chunk of `granularity` data bits. -/
  enable : Bus
  granularity : Option Nat
deriving DecidableEq

namespace Reader

def ofNets (addr : Bus) (enable : Net) : Reader := ⟨addr, enable, []⟩

/-- A reader that observes some writers, in whatever order they are given. -/
def observing (reader : Reader) (writers : List Nat) : Reader :=
  { reader with observed := (reader.observed ++ writers).mergeSort.eraseDups }

def observes (reader : Reader) (writer : Nat) : Bool := reader.observed.contains writer

theorem observes_iff {reader : Reader} {writer : Nat} : reader.observes writer = true ↔ writer ∈ reader.observed :=
  List.contains_iff_mem

end Reader

namespace Writer

/-- The enable of every single data bit. -/
def mask (writer : Writer) : Bus :=
  match writer.granularity with
  | none => writer.enable.repeated writer.data.length
  | some granularity => writer.enable.flatMap (List.replicate granularity)

def maskWidth (writer : Writer) : Nat :=
  writer.enable.length * match writer.granularity with
    | none => writer.data.length
    | some granularity => granularity

/-- The mask of a writer that no memory has accepted yet, and whose mask may be too wide for a bus. -/
def checkedMask (writer : Writer) : Except Fault Bus :=
  if writer.maskWidth ≤ Bus.maxWidth then .ok writer.mask else .error .tooLarge

theorem length_mask (writer : Writer) : writer.mask.length = writer.maskWidth := by
  unfold mask maskWidth
  cases writer.granularity with
  | none => simp [Bus.repeated, Nat.mul_comm]
  | some granularity => simp [List.length_flatMap, List.map_const']

end Writer

structure Ports where
  blueprint : Blueprint
  readers : List Reader
  writers : List Writer
  /-- Whether the memory has been built. -/
  frozen : Bool
  /-- The greatest number of writers, if there is one. -/
  capacity : Option Nat
deriving DecidableEq

namespace Ports

def ofBlueprint (blueprint : Blueprint) (capacity : Option Nat) : Ports := ⟨blueprint, [], [], false, capacity⟩

def checkOpen (ports : Ports) (attempt : Attempt) : Except Refusal Unit :=
  if ports.frozen then .error (.alreadyBuilt attempt) else .ok ()

def checkAddress (ports : Ports) (addr : Bus) : Except Refusal Unit :=
  if addr.length = ports.blueprint.addressWidth then .ok ()
  else .error (.addressWidth addr.length ports.blueprint.addressWidth ports.blueprint.depth)

def checkCapacity (ports : Ports) : Except Refusal Unit :=
  match ports.capacity with
  | some capacity => if capacity ≤ ports.writers.length then .error (.writersExhausted capacity) else .ok ()
  | none => .ok ()

/-- How many enable nets a writer needs. -/
def enableWidth (ports : Ports) : (granularity : Option Nat) → Except Refusal Nat
  | none => .ok 1
  | some granularity =>
    let width := ports.blueprint.width
    if granularity = 0 then .error .zeroGranularity
    else if width % granularity ≠ 0 then .error (.unevenGranularity granularity width)
    else .ok (width / granularity)

/-- Declares a reader and gives its number. -/
def declareReader (ports : Ports) (reader : Reader) : Except Refusal (Nat × Ports) := do
  ports.checkOpen .declareReader
  ports.checkAddress reader.addr
  match reader.observed.find? fun writer => ports.writers.length ≤ writer with
  | some writer => .error (.unknownWriter writer)
  | none => .ok (ports.readers.length, { ports with readers := ports.readers ++ [reader] })

/-- Declares a writer and gives its number. -/
def declareWriter (ports : Ports) (writer : Writer) : Except Refusal (Nat × Ports) := do
  ports.checkOpen .declareWriter
  ports.checkCapacity
  ports.checkAddress writer.addr
  if writer.data.length ≠ ports.blueprint.width then
    throw (.dataWidth writer.data.length ports.blueprint.width)
  let expected ← ports.enableWidth writer.granularity
  if writer.enable.length ≠ expected then throw (.enableWidth writer.enable.length expected)
  return (ports.writers.length, { ports with writers := ports.writers ++ [writer] })

/-- Ends the declarations. -/
def freeze (ports : Ports) : Except Refusal Ports := do
  ports.checkOpen .assemble
  return { ports with frozen := true }

def verifyReader (ports : Ports) (entry : Reader × Nat) : Except Refusal Unit :=
  if entry.1.addr.length ≠ ports.blueprint.addressWidth then .error (.malformedReader entry.2)
  else if entry.1.observed.any fun writer => ports.writers.length ≤ writer then .error (.missingWriter entry.2)
  else .ok ()

def verifyWriter (ports : Ports) (entry : Writer × Nat) : Except Refusal Unit :=
  if entry.1.addr.length ≠ ports.blueprint.addressWidth ∨ entry.1.data.length ≠ ports.blueprint.width ∨
      entry.1.mask.length ≠ ports.blueprint.width then
    .error (.malformedWriter entry.2)
  else .ok ()

/-- Checks that all declared ports fit the shape and refer to declared ports only. -/
def verify (ports : Ports) : Except Refusal Unit := do
  ports.readers.zipIdx.forM ports.verifyReader
  ports.writers.zipIdx.forM ports.verifyWriter
  match ports.capacity with
  | some capacity => if capacity < ports.writers.length then throw .tooManyWriters
  | none => return ()

end Ports

end BankedMemory.Storage
