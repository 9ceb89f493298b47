import BankedMemory.Storage.Assembly
import BankedMemory.Storage.Ports
import BankedMemory.Storage.Workbench

/-!
# One writer, many readers

Every reader gets a bank of its own, and the writer drives all banks alike, so that they always hold the same rows.
Without a writer the banks keep their initial rows.
-/

namespace BankedMemory.Storage

structure Replicated where
  ports : Ports
  clock : Control
  /-- What the labels of the banks begin with, if they get labels. -/
  name : Option String
  /-- The writer that the roles of the banks tell, when the banks are a part of a larger memory. -/
  writer : Nat
deriving DecidableEq

namespace Replicated

def ofBlueprint (blueprint : Blueprint) (clock : Control) (name : Option String) : Replicated :=
  ⟨Ports.ofBlueprint blueprint (some 1), clock, name, 0⟩

/-- Every reader has one bank. -/
def expectedBanks (memory : Replicated) : Nat := memory.ports.readers.length

/-- A write port that never writes. -/
def idlePort (memory : Replicated) : Except Fault WritePort := do
  let addr ← Bus.filled memory.ports.blueprint.addressWidth .zero
  let data ← Bus.filled memory.ports.blueprint.width .zero
  return ⟨addr, data, data, memory.clock⟩

/-- The write port of all banks. -/
def writePort (memory : Replicated) : Build WritePort := do
  match memory.ports.writers.head? with
  | some writer => return ⟨writer.addr, writer.data, writer.mask, memory.clock⟩
  | none =>
    Build.report .neverWritten
    Build.ofFault memory.idlePort

/-- What a reader's bank sees of a write in the same cycle. -/
def visibility (memory : Replicated) (reader : Reader) : Visibility :=
  if !memory.ports.writers.isEmpty && reader.observes 0 then .after else .before

/-- The bank of one reader, with the initial rows that all banks have. -/
def bank (memory : Replicated) (port : WritePort) (init : Bits) (reader : Reader) : Except Fault Memory := do
  let blueprint := memory.ports.blueprint
  let register ← Register.ofClock memory.clock blueprint.width
  let register := { register with enable := .high reader.enable, visibility := [memory.visibility reader] }
  return ⟨blueprint.depth, blueprint.width, init, blueprint.attributes, [port],
    [⟨reader.addr, blueprint.width, some register⟩]⟩

/-- Adds the bank of one reader. -/
def addBank (memory : Replicated) (port : WritePort) (init : Bits) (entry : Reader × Nat) : Build Bank := do
  let bank ← Build.ofFault (memory.bank port init entry.1)
  let output ← Build.add (.memory bank)
  Build.label (memory.name.map fun name => s!"{name}.replica{entry.2}") output
  Build.report (.replica memory.writer entry.2)
  return ⟨.replica memory.writer entry.2, output⟩

/-- Adds the banks of all readers. -/
def addBanks (memory : Replicated) (port : WritePort) : Build (List Bank) := do
  if memory.ports.readers.isEmpty then return []
  let init ← Build.ofFault memory.ports.blueprint.initialWord
  memory.ports.readers.zipIdx.mapM (memory.addBank port init)

/-- Adds all banks, once the ports are final. -/
def assemble (memory : Replicated) : Build Assembly := do
  Build.ofRefusal memory.ports.verify
  let port ← memory.writePort
  let banks ← memory.addBanks port
  if banks.length ≠ memory.expectedBanks then
    throw (.refused (.bankCount banks.length memory.expectedBanks))
  let blueprint := memory.ports.blueprint
  Build.report (.assembledReplicas blueprint.depth blueprint.width banks.length banks.length)
  return ⟨banks.map Bank.output, banks⟩

/-- Ends the declarations and adds all banks. -/
def build (memory : Replicated) : Build Assembly := do
  let ports ← Build.ofRefusal memory.ports.freeze
  { memory with ports }.assemble

end Replicated

end BankedMemory.Storage
