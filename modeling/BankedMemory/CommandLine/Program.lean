import BankedMemory.CommandLine.Arguments
import BankedMemory.CommandLine.FileTree.Paths
import BankedMemory.Netlist.Text

/-!
# The program

What the command line does with its arguments: it ends with some output and an exit code, or writes a file.
-/

namespace BankedMemory.CommandLine

/-- How the program ends. -/
structure Outcome where
  exit : UInt32
  stdout : String
  stderr : String
  /-- The files that the working directory holds afterwards, if it was empty before. -/
  files : Table String
deriving DecidableEq

/-- What remains to be done once the arguments are read. -/
inductive Task where
  | finish (outcome : Outcome)
  | save (path text : String)
deriving DecidableEq

namespace Outcome

def print (text : String) : Outcome := ⟨0, text, "", []⟩

def fail (message : String) : Outcome := ⟨1, "", "error: " ++ message ++ "\n", []⟩

/-- Text has been written to its destination. -/
def written (text : String) : Destination → Outcome
  | .here name => ⟨0, "", "", [(name, text)]⟩
  | .standardOutput => print text
  | .standardError => ⟨0, "", text, []⟩
  | .elsewhere => print ""

end Outcome

def usageText : String := "Usage:\n  mpmem [OPTIONS] [OUTPUT]\n"

def helpText : String := usageText ++
"
Build a memory with many ports out of single-port banks and print its netlist.

Positional arguments:
  OUTPUT                Output file

Optional arguments:
  -h,--help             Show this help message and exit
  --version             Display version
  -w,--writers WRITERS  Number of write ports
  -r,--readers READERS  Number of read ports
  -d,--depth DEPTH      Number of rows
  -b,--width WIDTH      Width of a row in bits
  -g,--granularity GRANULARITY
                        Width of the chunks enabled by each write enable bit
  --transparent         Make read ports observe same-cycle writes
  --lowest-index-wins   Resolve same-row writes in favor of the lowest-numbered
                        write port
  --stats               Only print cell counts
"

def versionText : String := "mpmem 0.1.0\n"

namespace Request

/-- The standard output shows a netlist with its counts, or the counts alone; a file holds one of them. -/
def deliver (request : Request) (netlist : Netlist) : Task :=
  if request.output = "" then
    .finish (.print ((if request.stats then "" else netlist.text) ++ censusText netlist))
  else .save request.output (if request.stats then censusText netlist else netlist.text)

/-- A fault ends the program at once, with a code of its own. -/
def task (request : Request) : Task :=
  if request.version then .finish (.print versionText)
  else match request.options.netlist.1 with
    | .ok netlist => request.deliver netlist
    | .error (.halted (.fault cause)) => .finish ⟨101, "", cause.message ++ "\n", []⟩
    | .error error => .finish (.fail error.message)

end Request

namespace Task

def ofArguments (arguments : List String) : Task :=
  match Request.ofArguments arguments with
  | .ok request => request.task
  | .error .help => .finish (.print helpText)
  | .error (.misused error) => .finish ⟨2, "", usageText ++ "mpmem: " ++ error.message ++ "\n", []⟩

/-- How a task ends in an empty working directory. -/
def outcome : Task → Outcome
  | finish outcome => outcome
  | save path text =>
    match FileTree.destination path with
    | .ok destination => .written text destination
    | .error error => .fail error.message

end Task

end BankedMemory.CommandLine
