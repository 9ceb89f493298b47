/-!
# Entries of the tree of files

A tree of files leads by names from directory to directory. Here is what a name can stand for, and what becomes of
text that is written there.
-/

namespace BankedMemory.CommandLine

/-- Why text cannot be written to a path. -/
inductive WriteError where
  | notPermitted
  | notFound
  | inputOutput
  | noSuchDevice
  | permissionDenied
  | notADirectory
  | isDirectory
  | invalidArgument
  | fileBusy
  | noSpace
  | nameTooLong
  | tooManyLinks
deriving DecidableEq

/-- Where text goes. -/
inductive Destination where
  /-- A file of the working directory. -/
  | here (name : String)
  | standardOutput
  | standardError
  /-- A place that is not looked at afterwards. -/
  | elsewhere
deriving DecidableEq

/-- A directory, by the names that lead to it from the root, the last of them first. -/
abbrev Place := List String

/-- What a name stands for: the directory that it leads to, or what happens to text that is written there. A link
is the same as what it leads to. -/
inductive Entry where
  | directory (place : Place)
  /-- A link that only its owner may follow. -/
  | barred
  | writable (destination : Destination)
  | failing (error : WriteError)
deriving DecidableEq

namespace WriteError

/-- The number that the operating system gives to an error. -/
def code : WriteError → Nat
  | notPermitted => 1
  | notFound => 2
  | inputOutput => 5
  | noSuchDevice => 6
  | permissionDenied => 13
  | notADirectory => 20
  | isDirectory => 21
  | invalidArgument => 22
  | fileBusy => 26
  | noSpace => 28
  | nameTooLong => 36
  | tooManyLinks => 40

def description : WriteError → String
  | notPermitted => "Operation not permitted"
  | notFound => "No such file or directory"
  | inputOutput => "Input/output error"
  | noSuchDevice => "No such device or address"
  | permissionDenied => "Permission denied"
  | notADirectory => "Not a directory"
  | isDirectory => "Is a directory"
  | invalidArgument => "Invalid argument"
  | fileBusy => "Text file busy"
  | noSpace => "No space left on device"
  | nameTooLong => "File name too long"
  | tooManyLinks => "Too many levels of symbolic links"

def message (error : WriteError) : String := s!"{error.description} (os error {error.code})"

end WriteError

end BankedMemory.CommandLine
