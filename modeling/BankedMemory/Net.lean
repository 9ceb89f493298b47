import BankedMemory.Trit

/-!
# Nets

A net is one wire of a circuit: a constant bit, or one output bit of a cell. Output bits are numbered by the slots
that the cells of a netlist take, so a net that is not constant is the number of its slot.
-/

namespace BankedMemory

/-- One wire of a circuit. -/
inductive Net where
  | const (bit : Trit)
  | slot (index : Nat)
deriving DecidableEq

namespace Net

def zero : Net := const .zero
def one : Net := const .one
def unknown : Net := const .unknown

def const? : Net → Option Trit
  | const bit => some bit
  | slot _ => none

def isConst (net : Net) : Bool := net.const?.isSome

/-- The place of a net in the order zero, one, slots by their number, unknown. -/
def rank : Net → Nat × Nat
  | const .zero => (0, 0)
  | const .one => (1, 0)
  | slot index => (2, index)
  | const .unknown => (3, 0)

/-- Slots are compared by their numbers at once; two nets of which one is a constant never agree in the first part of
their rank unless they are equal. -/
instance : Ord Net where
  compare
    | slot i, slot k => compare i k
    | a, b => compare a.rank.1 b.rank.1

theorem compare_eq_compareLex :
    (compare : Net → Net → Ordering) =
      compareLex (compareOn fun net => net.rank.1) (compareOn fun net => net.rank.2) := by
  funext a b
  rcases a with (_ | _ | _) | i <;> rcases b with (_ | _ | _) | k <;> rfl

instance : Std.TransOrd Net := by
  show Std.TransCmp (compare : Net → Net → Ordering)
  rw [compare_eq_compareLex]
  infer_instance

theorem rank_injective {a b : Net} (h : a.rank = b.rank) : a = b := by
  rcases a with (_ | _ | _) | i <;> rcases b with (_ | _ | _) | k <;> simp_all [rank]

instance : Std.LawfulEqOrd Net where
  eq_of_compare {a b} h := by
    rw [compare_eq_compareLex] at h
    obtain ⟨h₁, h₂⟩ := Ordering.then_eq_eq.mp h
    exact rank_injective (Prod.ext (Std.LawfulEqOrd.eq_of_compare h₁) (Std.LawfulEqOrd.eq_of_compare h₂))

/-- How netlist text shows a net. -/
def text : Net → String
  | const bit => bit.toChar.toString
  | slot index => s!"%{index}"

/-- How messages name a net. -/
def description : Net → String
  | const .zero => "Net::ZERO"
  | const .one => "Net::ONE"
  | const .unknown => "Net::UNDEF"
  | slot index => s!"Net::from_cell_index({index})"

end Net

/-- A net that controls a cell, with its active level. -/
structure Control where
  net : Net
  activeLow : Bool
deriving DecidableEq

namespace Control

def high (net : Net) : Control := ⟨net, false⟩
def low (net : Net) : Control := ⟨net, true⟩

/-- Whether the control is active while its net carries `bit`. -/
def active (control : Control) (bit : Trit) : Trit := if control.activeLow then bit.not else bit

def isConst (control : Control) : Bool := control.net.isConst

/-- A control that a constant net holds at the given level of activity. -/
def isAlways (control : Control) (level : Bool) : Bool :=
  match control.net.const? with
  | some bit => control.active bit = Trit.ofBool level
  | none => false

def map (f : Net → Net) (control : Control) : Control := { control with net := f control.net }

/-- How messages name a control. -/
def description (control : Control) : String :=
  let level := if control.activeLow then "Neg" else "Pos"
  s!"{level}({control.net.description})"

end Control

end BankedMemory
