/-!
# Bits that may be unknown

A bit of a circuit is zero, one, or unknown. An unknown bit stands for either of the other two, and each gate
returns a known bit as soon as its known operands force one.
-/

namespace BankedMemory

/-- A bit of a circuit. -/
inductive Trit where
  | unknown
  | zero
  | one
deriving DecidableEq

namespace Trit

def ofBool (b : Bool) : Trit := if b then one else zero

/-- The number behind the order of the three bits: an unknown bit comes first. -/
def toInt : Trit → Int
  | unknown => -1
  | zero => 0
  | one => 1

instance : Ord Trit := ⟨fun a b => compare a.toInt b.toInt⟩

def toChar : Trit → Char
  | unknown => 'X'
  | zero => '0'
  | one => '1'

def ofChar? : Char → Option Trit
  | 'X' => some unknown
  | '0' => some zero
  | '1' => some one
  | _ => none

protected def not : Trit → Trit
  | zero => one
  | one => zero
  | unknown => unknown

/-- A zero on either side forces the result. -/
protected def and : Trit → Trit → Trit
  | zero, _ => zero
  | _, zero => zero
  | one, one => one
  | _, _ => unknown

/-- A one on either side forces the result. -/
protected def or : Trit → Trit → Trit
  | one, _ => one
  | _, one => one
  | zero, zero => zero
  | _, _ => unknown

/-- The result is known only when both operands are. -/
protected def xor : Trit → Trit → Trit
  | unknown, _ => unknown
  | _, unknown => unknown
  | a, b => ofBool (a != b)

/-- Whether two bits are equal, as a bit. -/
def same (a b : Trit) : Trit := (a.xor b).not

/-- The bit that stands after `new` is offered over `old`: an unknown selection leaves the bit known only when
both candidates agree. -/
def select (selection old new : Trit) : Trit :=
  match selection with
  | one => new
  | zero => old
  | unknown => if old = new then old else unknown

theorem ofChar?_toChar (t : Trit) : ofChar? t.toChar = some t := by cases t <;> rfl

theorem xor_comm (a b : Trit) : a.xor b = b.xor a := by cases a <;> cases b <;> rfl

end Trit

end BankedMemory
