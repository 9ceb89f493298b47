import BankedMemory.CommandLine.Options
import BankedMemory.Text.Quoted

/-!
# Arguments of the command line

Options come in any order among the positional arguments, of which there is at most one. A long option may carry
its value after an equals sign, short flags may be bundled, and a value may follow its short option at once. After
two hyphens nothing is an option any more.
-/

namespace BankedMemory.CommandLine

/-- Options without a value. -/
inductive Flag where
  | help
  | version
  | transparent
  | lowestIndexWins
  | stats
deriving DecidableEq

/-- Options with a number. -/
inductive Parameter where
  | writers
  | readers
  | depth
  | width
  | granularity
deriving DecidableEq

inductive Switch where
  | flag (flag : Flag)
  | parameter (parameter : Parameter)
deriving DecidableEq

/-- What is asked for. -/
structure Request where
  options : Options
  version : Bool
  /-- Only cell counts are wanted. -/
  stats : Bool
  /-- The file to write, or the empty string for the standard output. -/
  output : String
deriving DecidableEq

inductive UsageError where
  | badValue (value : String)
  | unknownOption (argument : String)
  | unknownShortOption (letter : Char)
  | missingValue (parameter : Parameter)
  | needlessValue (name : String)
  | unexpected (argument : String)
deriving DecidableEq

/-- What cuts the reading of arguments short. -/
inductive Interruption where
  | help
  | misused (error : UsageError)
deriving DecidableEq

namespace Parameter

/-- The short and the long name. -/
def names : Parameter → List String
  | writers => ["-w", "--writers"]
  | readers => ["-r", "--readers"]
  | depth => ["-d", "--depth"]
  | width => ["-b", "--width"]
  | granularity => ["-g", "--granularity"]

def set (parameter : Parameter) (value : Nat) (options : Options) : Options :=
  match parameter with
  | writers => { options with writers := value }
  | readers => { options with readers := value }
  | depth => { options with depth := value }
  | width => { options with width := value }
  | granularity => { options with granularity := some value }

end Parameter

namespace UsageError

def message : UsageError → String
  | badValue value => "Bad value " ++ value
  | unknownOption argument => "Unknown option " ++ argument
  | unknownShortOption letter => "Unknown short option \"" ++ letter.toString ++ "\""
  | missingValue parameter =>
    "Option [" ++ ", ".intercalate (parameter.names.map Text.quote) ++ "] requires an argument"
  | needlessValue name => "Option " ++ name ++ " does not accept an argument"
  | unexpected argument => "Unexpected argument " ++ argument

end UsageError

/-- The number in decimal digits, after an optional plus sign, if it fits a size. -/
def sizeOfText? (text : String) : Option Nat :=
  let digits := match text.toList with
    | '+' :: rest => rest
    | all => all
  if digits.isEmpty || !digits.all Char.isDigit then none
  else (some (digits.foldl (fun n digit => 10 * n + (digit.toNat - '0'.toNat)) 0)).filter (· < Size.bound)

def shortSwitch? : Char → Option Switch
  | 'h' => some (.flag .help)
  | 'w' => some (.parameter .writers)
  | 'r' => some (.parameter .readers)
  | 'd' => some (.parameter .depth)
  | 'b' => some (.parameter .width)
  | 'g' => some (.parameter .granularity)
  | _ => none

def longSwitch? : String → Option Switch
  | "--help" => some (.flag .help)
  | "--version" => some (.flag .version)
  | "--transparent" => some (.flag .transparent)
  | "--lowest-index-wins" => some (.flag .lowestIndexWins)
  | "--stats" => some (.flag .stats)
  | "--writers" => some (.parameter .writers)
  | "--readers" => some (.parameter .readers)
  | "--depth" => some (.parameter .depth)
  | "--width" => some (.parameter .width)
  | "--granularity" => some (.parameter .granularity)
  | _ => none

/-- A parameter that waits for its value in the next argument, or nothing. -/
abbrev Pending := Option Parameter

namespace Request

def standard : Request := ⟨.standard, false, false, ""⟩

def setFlag (request : Request) : Flag → Except Interruption Request
  | .help => .error .help
  | .version => .ok { request with version := true }
  | .transparent => .ok { request with options := { request.options with transparent := true } }
  | .lowestIndexWins => .ok { request with options := { request.options with lowestIndexWins := true } }
  | .stats => .ok { request with stats := true }

def setParameter (request : Request) (parameter : Parameter) (value : String) : Except Interruption Request :=
  match sizeOfText? value with
  | some n => .ok { request with options := parameter.set n request.options }
  | none => .error (.misused (.badValue value))

/-- Reads a long option. -/
def readLong (request : Request) (argument : String) : Except Interruption (Request × Pending) :=
  let name := String.ofList (argument.toList.takeWhile (· ≠ '='))
  let value? := match argument.toList.dropWhile (· ≠ '=') with
    | [] => none
    | _ :: value => some (String.ofList value)
  match longSwitch? name, value? with
  | none, _ => .error (.misused (.unknownOption argument))
  | some (.flag _), some _ => .error (.misused (.needlessValue name))
  | some (.flag flag), none => return (← request.setFlag flag, none)
  | some (.parameter parameter), some value => return (← request.setParameter parameter value, none)
  | some (.parameter parameter), none => .ok (request, some parameter)

/-- Reads the letters of bundled short options. -/
def readShort (request : Request) : List Char → Except Interruption (Request × Pending)
  | [] => .ok (request, none)
  | letter :: rest =>
    match shortSwitch? letter with
    | none => .error (.misused (.unknownShortOption letter))
    | some (.flag flag) => do (← request.setFlag flag).readShort rest
    | some (.parameter parameter) =>
      if rest.isEmpty then .ok (request, some parameter)
      else return (← request.setParameter parameter (String.ofList rest), none)

/-- Reads an option. A single hyphen is none. -/
def readOption? (request : Request) (argument : String) : Option (Except Interruption (Request × Pending)) :=
  match argument.toList with
  | '-' :: '-' :: _ => some (request.readLong argument)
  | '-' :: letter :: rest => some (request.readShort (letter :: rest))
  | _ => none

/-- Reads all options and collects the positional arguments. -/
def readOptions (request : Request) : Pending → List String → Except Interruption (Request × List String)
  | some parameter, [] => .error (.misused (.missingValue parameter))
  | some parameter, value :: rest => do (← request.setParameter parameter value).readOptions none rest
  | none, [] => .ok (request, [])
  | none, argument :: rest =>
    if argument = "--" then .ok (request, rest)
    else match request.readOption? argument with
      | some result => do
        let (request, pending) ← result
        request.readOptions pending rest
      | none => do
        let (request, positional) ← request.readOptions none rest
        return (request, argument :: positional)

/-- Reads all arguments; the positional ones come last. -/
def ofArguments (arguments : List String) : Except Interruption Request := do
  match ← standard.readOptions none arguments with
  | (request, []) => return request
  | (request, [output]) => return { request with output }
  | (_, _ :: argument :: _) => .error (.misused (.unexpected argument))

end Request

end BankedMemory.CommandLine
