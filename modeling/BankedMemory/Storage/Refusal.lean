/-!
# Refusals

A declaration or an assembly that breaks a rule of the memory under construction is refused, and nothing is left
half done. Refusals of the last kind, `internal`, report a disagreement within the construction itself.
-/

namespace BankedMemory.Storage

/-- What may be attempted on a memory under construction. -/
inductive Attempt where
  | declareReader
  | declareWriter
  | assemble
deriving DecidableEq

inductive Refusal where
  | zeroWidth
  | zeroDepth
  | tooManyRows (given depth : Nat)
  | rowWidth (row given expected : Nat)
  | alreadyBuilt (attempt : Attempt)
  | writersExhausted (capacity : Nat)
  | addressWidth (given expected depth : Nat)
  | unknownWriter (writer : Nat)
  | dataWidth (given expected : Nat)
  | zeroGranularity
  | unevenGranularity (granularity width : Nat)
  | enableWidth (given expected : Nat)
  | malformedReader (reader : Nat)
  | missingWriter (reader : Nat)
  | malformedWriter (writer : Nat)
  | tooManyWriters
  | bankCount (built expected : Nat)
  | fanOut (cause : Refusal)
deriving DecidableEq

/-- The kinds of refusals. -/
inductive RefusalKind where
  | configuration
  | lifecycle
  | capacity
  | internal
deriving DecidableEq

namespace Attempt

def text : Attempt → String
  | declareReader => "declare a read port"
  | declareWriter => "declare a write port"
  | assemble => "build the memory"

end Attempt

namespace RefusalKind

def introduction : RefusalKind → String
  | configuration => "invalid memory configuration: "
  | lifecycle => "memory already built: "
  | capacity => "memory port capacity exceeded: "
  | internal => "internal invariant violated: "

end RefusalKind

namespace Refusal

def kind : Refusal → RefusalKind
  | alreadyBuilt _ => .lifecycle
  | writersExhausted _ => .capacity
  | malformedReader _ | missingWriter _ | malformedWriter _ | tooManyWriters | bankCount _ _ | fanOut _ =>
    .internal
  | _ => .configuration

/-- The cause in words, without the kind of refusal. -/
def description : Refusal → String
  | zeroWidth => "row width must be positive"
  | zeroDepth => "depth must be positive"
  | tooManyRows given depth => s!"{given} initial rows given for a memory of depth {depth}"
  | rowWidth row given expected => s!"initial row {row} is {given} bits wide, expected {expected}"
  | alreadyBuilt attempt => s!"cannot {attempt.text} after the memory is built"
  | writersExhausted capacity => s!"memory supports at most {capacity} write port(s)"
  | addressWidth given expected depth =>
      s!"address is {given} bits wide, expected {expected} for depth {depth}"
  | unknownWriter writer => s!"read port is transparent for undeclared write port {writer}"
  | dataWidth given expected => s!"write data is {given} bits wide, expected {expected}"
  | zeroGranularity => "write granularity must be positive"
  | unevenGranularity granularity width =>
      s!"write granularity {granularity} does not divide row width {width}"
  | enableWidth given expected => s!"write enable is {given} bits wide, expected {expected}"
  | malformedReader reader => s!"read port {reader} has a malformed address"
  | missingWriter reader => s!"read port {reader} refers to a missing write port"
  | malformedWriter writer => s!"write port {writer} is malformed"
  | tooManyWriters => "more write ports declared than supported"
  | bankCount built expected => s!"built {built} banks, expected {expected}"
  | fanOut cause => "cannot build fan-out stage: " ++ cause.kind.introduction ++ cause.description

def message (refusal : Refusal) : String := refusal.kind.introduction ++ refusal.description

end Refusal

end BankedMemory.Storage
