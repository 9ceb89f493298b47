import BankedMemory.CommandLine.Program

/-!
# Command line

Builds a memory with many ports out of banks and prints its netlist.
-/

open BankedMemory.CommandLine

/-- An error in the words of the operating system, with its number. -/
def systemMessage : IO.Error → String
  | .noFileOrDirectory _ code text | .inappropriateType _ code text | .permissionDenied _ code text
  | .invalidArgument _ code text | .resourceExhausted _ code text | .noSuchThing _ code text
  | .otherError code text => s!"{text} (os error {code})"
  | error => toString error

/-- Writes text to a file, or fails. -/
def saveFile (path text : String) : IO Outcome := do
  try
    IO.FS.writeFile path text
    return .print ""
  catch error => return .fail (systemMessage error)

def main (args : List String) : IO UInt32 := do
  let outcome ← match Task.ofArguments args with
    | .finish outcome => pure outcome
    | .save path text => saveFile path text
  (← IO.getStdout).putStr outcome.stdout
  (← IO.getStderr).putStr outcome.stderr
  return outcome.exit
