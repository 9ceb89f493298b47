import BankedMemory.CommandLine.FileTree.Entries

/-!
# Paths

Where text goes that is written to a path. A path leads from name to name through directories, from the root or
from the working directory; its last name is the file to be written, which is created if there is none.
-/

namespace BankedMemory.CommandLine.FileTree

/-- The greatest sizes of a name and of a path, in bytes, and the greatest number of links on the way. -/
def maxName : Nat := 255
def maxPath : Nat := 4095
def maxLinks : Nat := 40

/-- A walk through the tree counts the links that it follows. -/
abbrev Walk := StateT Nat (Except WriteError)

/-- Looks up a name. Only the directories that show a state have room for names of any size. -/
def lookUp (place : Place) (name : String) : Walk (Option Entry) := do
  if maxName < name.utf8ByteSize ∧ !showsState place then throw .nameTooLong
  let links := (← get) + linksAt place name
  if maxLinks < links then throw .tooManyLinks
  set links
  return entryAt place name

/-- The directory that a name leads to. -/
def enter (place : Place) (name : String) : Walk Place := do
  if name = "." then return place
  else if name = ".." then return place.tail
  else match ← lookUp place name with
    | some (.directory inner) => return inner
    | some .barred => throw .permissionDenied
    | some _ => throw .notADirectory
    | none => throw .notFound

/-- Where text goes that is written under a name, which stands for a new file if there is none. -/
def create (place : Place) (name : String) : Walk Destination := do
  if name = "." ∨ name = ".." then throw .isDirectory
  else match ← lookUp place name with
    | some (.directory _) => throw .isDirectory
    | some .barred => throw .permissionDenied
    | some (.writable destination) => return destination
    | some (.failing error) => throw error
    | none => liftM (newFile place name)

/-- Follows names to the last one. A slash after the last name asks for a directory. -/
def follow (closed : Bool) : Place → List String → Walk Destination
  | _, [] => throw .isDirectory
  | place, [name] => if closed then throw .isDirectory else create place name
  | place, name :: rest => do follow closed (← enter place name) rest

/-- Where text goes that is written to a path. Slashes side by side count as one. -/
def destination (path : String) : Except WriteError Destination :=
  if maxPath < path.utf8ByteSize then .error .nameTooLong
  else
    let start := if path.startsWith "/" then root else working
    (follow (path.endsWith "/") start ((path.splitOn "/").filter (· ≠ ""))).run' 0

end BankedMemory.CommandLine.FileTree
