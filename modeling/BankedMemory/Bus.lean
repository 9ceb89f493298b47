import BankedMemory.Bits

/-!
# Buses

A bus is a list of nets, least significant first: the operands of cells and what cells put out.
-/

namespace BankedMemory

abbrev Bus := List Net

namespace Bus

/-- The greatest width of a bus. -/
def maxWidth : Nat := Nat.pow 2 61 - 1

/-- A bus of `width` copies of one net. -/
def filled (width : Nat) (net : Net) : Except Fault Bus := Positions.filled maxWidth width net

def ofBits (word : Bits) : Bus := word.map Net.const

/-- Consecutive output bits, from slot `start` on. -/
def ofSlots (start width : Nat) : Bus := (List.range' start width).map Net.slot

/-- The word on a bus that holds constants only. -/
def bits? (bus : Bus) : Option Bits := bus.mapM Net.const?

def single? : Bus → Option Net
  | [net] => some net
  | _ => none

def single (bus : Bus) : Except Fault Net :=
  match bus.single? with
  | some net => .ok net
  | none => .error .notSingle

/-- `count` copies of a bus side by side. -/
def repeated (bus : Bus) (count : Nat) : Bus := (List.replicate count bus).flatten

/-- Copies of a bus, as many as fit. No copy of the empty bus takes room. -/
def checkedRepeat (bus : Bus) (count : Nat) : Except Fault Bus :=
  if bus.isEmpty then .ok []
  else if bus.length * count ≤ maxWidth then .ok (bus.repeated count) else .error .tooLarge

/-- The nets of a bus in netlist text, separated by blanks. -/
def text (bus : Bus) : String := " ".intercalate (bus.map Net.text)

/-- How messages name a bus. -/
def description (bus : Bus) : String := "[" ++ ", ".intercalate (bus.map Net.description) ++ "]"

theorem length_ofSlots (start width : Nat) : (ofSlots start width).length = width := by simp [ofSlots]

theorem eq_of_filled {width : Nat} {net : Net} {bus : Bus} (h : filled width net = .ok bus) :
    bus = List.replicate width net := (Positions.filled_eq_ok_iff.mp h).2

theorem eq_of_mem_filled {width : Nat} {net other : Net} {bus : Bus} (h : filled width net = .ok bus)
    (member : other ∈ bus) : other = net := List.eq_of_mem_replicate (eq_of_filled h ▸ member)

end Bus

end BankedMemory
