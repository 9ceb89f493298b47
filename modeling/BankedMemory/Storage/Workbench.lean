import BankedMemory.Event
import BankedMemory.Netlist.Basic
import BankedMemory.Storage.Refusal

/-!
# Building on a workbench

A build adds cells to a netlist and reports events. It may halt on a fault or on a refusal; the workbench keeps
what was done until then.
-/

namespace BankedMemory.Storage

/-- Why a build stopped. -/
inductive Halt where
  | fault (cause : Fault)
  | refused (cause : Refusal)
deriving DecidableEq

structure Workbench where
  netlist : Netlist
  events : Array Event

abbrev Build (α : Type) := ExceptT Halt (StateM Workbench) α

namespace Workbench

def ofNetlist (netlist : Netlist) : Workbench := ⟨netlist, #[]⟩

end Workbench

namespace Build

variable {α : Type}

def ofFault : Except Fault α → Build α
  | .ok result => pure result
  | .error cause => throw (.fault cause)

def ofRefusal : Except Refusal α → Build α
  | .ok result => pure result
  | .error cause => throw (.refused cause)

/-- Changes the netlist, which cannot fail. -/
def onNetlist (f : Netlist → α × Netlist) : Build α :=
  modifyGet fun ⟨netlist, events⟩ =>
    let (result, netlist) := f netlist
    (result, ⟨netlist, events⟩)

/-- Adds a cell and gives its output. -/
def add (c : Cell) : Build Bus := do
  ofFault ((← get).netlist.checkCell c)
  onNetlist fun netlist => netlist.push c

def addPlaceholders (width : Nat) : Build Bus := do
  ofFault ((← get).netlist.checkRoom width)
  onNetlist fun netlist => netlist.pushPlaceholders width

def rewireBus (source target : Bus) : Build Unit := do
  let netlist ← ofFault ((← get).netlist.rewireBus source target)
  modify fun bench => { bench with netlist }

def report (event : Event) : Build Unit :=
  modify fun bench => { bench with events := bench.events.push event }

/-- Labels a bus, if there is a name to label it with. -/
def label (name? : Option String) (bus : Bus) : Build Unit := do
  match name? with
  | some name => let _ ← add (.label name bus)
  | none => return ()

/-- Puts every refusal of a build into another one. -/
def refuseAs (f : Refusal → Refusal) (build : Build α) : Build α :=
  ExceptT.adapt (fun | .refused cause => .refused (f cause) | halt => halt) build

end Build

end BankedMemory.Storage
