import BankedMemory.Storage.XorNetwork

/-!
# Memories under construction

Either way to build a memory takes the same declarations, and is built once.
-/

namespace BankedMemory.Storage

inductive Engine where
  | replicated (memory : Replicated)
  | xorNetwork (network : XorNetwork)
deriving DecidableEq

namespace Engine

def ports : Engine → Ports
  | replicated memory => memory.ports
  | xorNetwork network => network.ports

def withPorts (ports : Ports) : Engine → Engine
  | replicated memory => replicated { memory with ports }
  | xorNetwork network => xorNetwork { network with ports }

/-- The number of banks that the ports declared so far call for. -/
def expectedBanks : Engine → Nat
  | replicated memory => memory.expectedBanks
  | xorNetwork network => network.expectedBanks

def declareReader (engine : Engine) (reader : Reader) : Except Refusal (Nat × Engine) := do
  let (handle, ports) ← engine.ports.declareReader reader
  return (handle, engine.withPorts ports)

def declareWriter (engine : Engine) (writer : Writer) : Except Refusal (Nat × Engine) := do
  let (handle, ports) ← engine.ports.declareWriter writer
  return (handle, engine.withPorts ports)

def assemble : Engine → Build Assembly
  | replicated memory => memory.assemble
  | xorNetwork network => network.assemble

/-- Ends the declarations and adds the memory. -/
def construct (engine : Engine) : Build Assembly := do
  let ports ← Build.ofRefusal engine.ports.freeze
  (engine.withPorts ports).assemble

/-- Builds a memory on a workbench. The declarations are final afterwards, unless they were final before. -/
def build (engine : Engine) (bench : Workbench) : Except Halt Assembly × Engine × Workbench :=
  match engine.ports.freeze with
  | .error cause => (.error (.refused cause), engine, bench)
  | .ok ports =>
    let engine := engine.withPorts ports
    let (result, bench) := engine.assemble.run.run bench
    (result, engine, bench)

end Engine

end BankedMemory.Storage
