import BankedMemory.Positions

/-!
# Words of bits

A word is a list of bits, least significant first; its text has the most significant bit first. Gates work bit by
bit on words of equal width. A comparison gives zero as soon as one pair of bits surely differs, whatever unknown
bits stand elsewhere.
-/

namespace BankedMemory

abbrev Bits := List Trit

namespace Bits

/-- The greatest width of a word. -/
def maxWidth : Nat := Nat.pow 2 63 - 1

/-- Numbers that words are made from and read into have at most this many bits. -/
def numberWidth : Nat := 128

def zeros (width : Nat) : Bits := List.replicate width .zero
def ones (width : Nat) : Bits := List.replicate width .one
def unknowns (width : Nat) : Bits := List.replicate width .unknown

/-- A word of `width` copies of one bit. -/
def filled (width : Nat) (bit : Trit) : Except Fault Bits := Positions.filled maxWidth width bit

def isZero (word : Bits) : Bool := word.all (· = .zero)
def isUnknown (word : Bits) : Bool := word.all (· = .unknown)
def hasUnknown (word : Bits) : Bool := word.any (· = .unknown)

/-- The low `width` binary digits of a number. -/
def ofNat : (width value : Nat) → Bits
  | 0, _ => []
  | width + 1, value => Trit.ofBool (value % 2 = 1) :: ofNat width (value / 2)

/-- A number as a word. Only widths below that of numbers are too narrow for some of them. -/
def encode (value width : Nat) : Except Fault Bits :=
  if width < numberWidth ∧ Nat.pow 2 width ≤ value then .error (.valueTooWide value width)
  else if width ≤ maxWidth then .ok (ofNat width value)
  else .error .tooLarge

/-- The number whose binary digits are the bits of the word, unless one of them is unknown. -/
def value? : Bits → Option Nat
  | [] => some 0
  | .unknown :: _ => none
  | .zero :: rest => (value? rest).map (2 * ·)
  | .one :: rest => (value? rest).map (2 * · + 1)

/-- The number a word stands for, if all its bits are known and it is not too great. Bits beyond the width of
numbers have to be zero. -/
def toNat? (word : Bits) : Option Nat :=
  if isZero (word.drop numberWidth) then value? (word.take numberWidth) else none

def invert (word : Bits) : Bits := word.map Trit.not

/-- Whether two words of one width are equal, as a bit. -/
def same (a b : Bits) : Trit := (List.zipWith Trit.same a b).foldr Trit.and .one

/-- Offers the bits of `new` over those of `old`, selected by `mask`. -/
def update : (old mask new : Bits) → Bits
  | o :: old, m :: mask, n :: new => m.select o n :: update old mask new
  | _, _, _ => []

/-- Applies `f` to two words, which have to be equally wide. -/
def both {α : Type} (f : Bits → Bits → α) (a b : Bits) : Except Fault α :=
  if a.length = b.length then .ok (f a b) else .error (.widths a.length b.length)

/-- The words an update joins have to be equally wide. -/
def checkedUpdate (old mask new : Bits) : Except Fault Bits :=
  if old.length ≠ mask.length then .error (.widths old.length mask.length)
  else if old.length ≠ new.length then .error (.widths old.length new.length)
  else .ok (update old mask new)

def text (word : Bits) : String := String.ofList (word.reverse.map Trit.toChar)

def ofText? (s : String) : Option Bits := s.toList.reverse.mapM Trit.ofChar?

/-- The word that a literal writes down. -/
def literal (s : String) : Except Fault Bits :=
  match ofText? s with
  | some word => .ok word
  | none => .error .notANumeral

/-- How messages name a word. -/
def description (word : Bits) : String := s!"Const::lit(\"{word.text}\")"

theorem length_ofNat (width value : Nat) : (ofNat width value).length = width := by
  induction width generalizing value with
  | zero => rfl
  | succ width ih => simp [ofNat, ih]

theorem length_update {old mask new : Bits} (hm : mask.length = old.length) (hn : new.length = old.length) :
    (update old mask new).length = old.length := by
  induction old generalizing mask new with
  | nil => simp [update]
  | cons o old ih =>
    cases mask with
    | nil => simp at hm
    | cons m mask =>
      cases new with
      | nil => simp at hn
      | cons n new => simp_all [update]

end Bits

end BankedMemory
