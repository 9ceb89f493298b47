/-!
# Events

What building a memory and running a netlist report while they go on.
-/

namespace BankedMemory

inductive Level where
  | trace
  | debug
  | info
  | warn
deriving DecidableEq

inductive Event where
  | assembling (depth width writers readers : Nat)
  | nothingWritten
  | neverWritten
  | relay (source sink : Nat)
  | replica (writer reader : Nat)
  | assembledReplicas (depth width readers banks : Nat)
  | assembledNetwork (banks : Nat)
  | finished (banks : Nat)
  | needlessArbitration (writers : Nat)
  | cycle (count : Nat)
deriving DecidableEq

namespace Level

def text : Level → String
  | trace => "TRACE"
  | debug => "DEBUG"
  | info => "INFO"
  | warn => "WARN"

end Level

namespace Event

def level : Event → Level
  | assembling _ _ _ _ | neverWritten | assembledReplicas _ _ _ _ | assembledNetwork _ => .debug
  | relay _ _ | replica _ _ | cycle _ => .trace
  | finished _ => .info
  | nothingWritten | needlessArbitration _ => .warn

def text : Event → String
  | assembling depth width writers readers =>
    s!"building {depth}x{width} memory with {writers} write port(s) and {readers} read port(s)"
  | nothingWritten => "memory has no write ports; its read data is undefined"
  | neverWritten => "memory has no write port; banks hold their initial contents"
  | relay source sink => s!"relay bank from write port {source} to write port {sink}"
  | replica writer reader => s!"replica bank for write port {writer} and read port {reader}"
  | assembledReplicas depth width readers banks =>
    s!"built {depth}x{width} memory with {readers} read port(s) out of {banks} bank(s)"
  | assembledNetwork banks => s!"built memory out of {banks} bank(s)"
  | finished banks => s!"built {banks} primitive bank(s)"
  | needlessArbitration writers => s!"--lowest-index-wins has no effect with {writers} write port(s)"
  | cycle count => s!"simulated cycle {count}"

end Event

end BankedMemory
