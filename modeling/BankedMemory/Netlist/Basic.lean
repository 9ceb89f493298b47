import BankedMemory.Cell.Basic
import BankedMemory.Netlist.Rewiring

/-!
# Netlists

A netlist is an arena of cells. A cell with `n` output bits takes `n` consecutive slots, or one slot if it puts out
nothing, so that the number of a slot is also the number of an output bit. New cells and replacements of nets are
queued and take effect together when they are applied. A circuit with feedback is built around a placeholder,
which is an operand like any other net until it is replaced by the net that drives it.
-/

namespace BankedMemory

/-- One place of the arena. -/
inductive Slot where
  | placeholder
  /-- A further output bit of the cell at slot `start`. -/
  | continuation (start : Nat)
  | cell (c : Cell)
deriving DecidableEq

/-- Where the value of a net comes from. -/
inductive Driver where
  | const (bit : Trit)
  /-- Bit `offset` of the output of the cell at slot `index`. -/
  | cell (index offset : Nat)
deriving DecidableEq

structure Netlist where
  slots : Array Slot
  queued : Array Slot
  rewiring : Rewiring

namespace Slot

def cell? : Slot → Option Cell
  | cell c => some c
  | _ => none

/-- The slots that a cell takes when its first slot has the number `index`. -/
def ofCell (index : Nat) (c : Cell) : List Slot :=
  cell c :: List.replicate (c.outputWidth - 1) (continuation index)

def map (f : Net → Net) : Slot → Slot
  | cell c => cell (c.map f)
  | slot => slot

end Slot

namespace Netlist

def empty : Netlist := ⟨#[], #[], ∅⟩

/-- The number of the next slot, counting those in the queue. -/
def next (netlist : Netlist) : Nat := netlist.slots.size + netlist.queued.size

/-- Puts slots at the end of the queue. -/
def enqueue (netlist : Netlist) (slots : List Slot) : Netlist :=
  { netlist with queued := netlist.queued ++ slots }

/-- Puts a cell at the end of the queue and gives its output. -/
def push (netlist : Netlist) (c : Cell) : Bus × Netlist :=
  let index := netlist.next
  (Bus.ofSlots index c.outputWidth, netlist.enqueue (Slot.ofCell index c))

/-- Nets are numbered with 32 bits, and three of these numbers stand for constants. -/
def maxNets : Nat := Nat.pow 2 32 - 3

/-- The greatest number of slots that room can be reserved for. -/
def maxSlots : Nat := (Nat.pow 2 63 - 1) / 16

/-- The next `width` slots have numbers for their nets. -/
def Numbered (netlist : Netlist) (width : Nat) : Prop := width = 0 ∨ netlist.next + width ≤ maxNets

instance (netlist : Netlist) (width : Nat) : Decidable (netlist.Numbered width) :=
  inferInstanceAs (Decidable (_ ∨ _))

/-- The output of a cell needs numbers. The output bits behind the first one name its slot, which takes 32 bits, too. -/
def checkOutput (netlist : Netlist) (width : Nat) : Except Fault Unit :=
  if netlist.Numbered width then .ok ()
  else .error (if 1 < width ∧ Nat.pow 2 32 ≤ netlist.next then .slotTooLarge else .netTooLarge)

/-- The operands of a new cell have to fit together. -/
def checkCell (netlist : Netlist) (c : Cell) : Except Fault Unit := do
  c.check
  netlist.checkOutput c.outputWidth

/-- Queues a cell. -/
def add (netlist : Netlist) (c : Cell) : Except Fault (Bus × Netlist) := do
  netlist.checkCell c
  return netlist.push c

/-- Puts placeholders at the end of the queue: nets that have to be replaced before they can carry a value. -/
def pushPlaceholders (netlist : Netlist) (width : Nat) : Bus × Netlist :=
  (Bus.ofSlots netlist.next width, netlist.enqueue (List.replicate width .placeholder))

/-- Placeholders need numbers, too, and room before that. -/
def checkRoom (netlist : Netlist) (width : Nat) : Except Fault Unit :=
  if netlist.Numbered width then .ok ()
  else .error (if netlist.next + width ≤ maxSlots then .netTooLarge else .tooLarge)

/-- Queues as many placeholders as there are numbers for. -/
def addPlaceholders (netlist : Netlist) (width : Nat) : Except Fault (Bus × Netlist) := do
  netlist.checkRoom width
  return netlist.pushPlaceholders width

theorem Numbered.of_le {netlist other : Netlist} {width : Nat} (numbered : netlist.Numbered width)
    (fewer : other.next ≤ netlist.next) : other.Numbered width :=
  numbered.imp_right fun room => Nat.le_trans (Nat.add_le_add_right fewer width) room

theorem Numbered.mono {netlist : Netlist} {less width : Nat} (numbered : netlist.Numbered width)
    (fewer : less ≤ width) : netlist.Numbered less := by
  rw [Numbered] at numbered ⊢
  omega

theorem checkOutput_eq_ok_iff {netlist : Netlist} {width : Nat} :
    netlist.checkOutput width = .ok () ↔ netlist.Numbered width := by
  by_cases numbered : netlist.Numbered width <;> simp [checkOutput, numbered]

theorem checkCell_eq_ok_iff {netlist : Netlist} {c : Cell} :
    netlist.checkCell c = .ok () ↔ c.check = .ok () ∧ netlist.Numbered c.outputWidth := by
  rw [← checkOutput_eq_ok_iff, checkCell]
  cases c.check with
  | error cause => exact ⟨nofun, nofun⟩
  | ok fit => exact ⟨fun numbered => ⟨rfl, numbered⟩, And.right⟩

theorem checkRoom_eq_ok_iff {netlist : Netlist} {width : Nat} :
    netlist.checkRoom width = .ok () ↔ netlist.Numbered width := by
  by_cases numbered : netlist.Numbered width <;> simp [checkRoom, numbered]

/-- Queues the replacement of one net. -/
def rewire (netlist : Netlist) (source target : Net) : Except Fault Netlist :=
  match netlist.rewiring.target? source with
  | some previous => .error (.alreadyReplaced source previous)
  | none => .ok { netlist with rewiring := netlist.rewiring.insert source target }

/-- Queues the replacement of each net of a bus by the net at its place in another bus; a net in its own place
stays. -/
def rewireBus (netlist : Netlist) (source target : Bus) : Except Fault Netlist := do
  Size.agree source.length target.length
  (source.zip target).foldlM
    (fun netlist pair => if pair.1 = pair.2 then .ok netlist else netlist.rewire pair.1 pair.2) netlist

/-- The operand nets of all cells in a row of slots, in order. -/
def operandsOf (slots : Array Slot) : List Net :=
  slots.toList.flatMap fun slot => match slot.cell? with
    | some c => c.nets
    | none => []

/-- Lets the queued cells and replacements take effect. An operand on an endless chain is a fault. -/
def apply (netlist : Netlist) : Except Fault Netlist :=
  let slots := netlist.slots ++ netlist.queued
  match (operandsOf slots).find? netlist.rewiring.isEndless with
  | some net => .error (.replacementCycle (netlist.rewiring.cycleNet net))
  | none => .ok ⟨slots.map (Slot.map netlist.rewiring.resolve), #[], ∅⟩

/-- The cell that starts at a slot. -/
def cell? (netlist : Netlist) (index : Nat) : Option Cell := netlist.slots[index]?.bind Slot.cell?

/-- The applied cells with the numbers of their first slots, in order. -/
def cells (netlist : Netlist) : List (Nat × Cell) :=
  netlist.slots.toList.zipIdx.filterMap fun entry => entry.1.cell?.map (entry.2, ·)

/-- The memories among the applied cells. -/
def memories (netlist : Netlist) : List (Nat × Memory) :=
  netlist.cells.filterMap fun entry => entry.2.memory?.map (entry.1, ·)

/-- The contents of an applied slot. -/
def slot (netlist : Netlist) (index : Nat) : Except Fault Slot :=
  match netlist.slots[index]? with
  | some slot => .ok slot
  | none => .error (.notApplied index)

/-- Finds what drives a net. A placeholder is driven by nothing. -/
def driver (netlist : Netlist) : Net → Except Fault Driver
  | .const bit => .ok (.const bit)
  | .slot index => do
    match ← netlist.slot index with
    | .cell _ => return .cell index 0
    | .continuation start => return .cell start (index - start)
    | .placeholder => .error (.placeholder index)

def isPlaceholder (netlist : Netlist) : Net → Except Fault Bool
  | .const _ => .ok false
  | .slot index => return (← netlist.slot index) = .placeholder

/-- The output bus of an applied cell. -/
def outputOf (netlist : Netlist) (index : Nat) : Bus :=
  match netlist.cell? index with
  | some c => Bus.ofSlots index c.outputWidth
  | none => []

end Netlist

end BankedMemory
