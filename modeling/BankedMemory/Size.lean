import BankedMemory.Fault

/-!
# Sizes

Counts of rows, bits and slots are numbers of 64 bits. Arithmetic that leaves this range is a fault.
-/

namespace BankedMemory.Size

def bound : Nat := Nat.pow 2 64

def mul (a b : Nat) : Except Fault Nat :=
  if a * b < bound then .ok (a * b) else .error .multiplicationOverflow

def add (a b : Nat) : Except Fault Nat :=
  if a + b < bound then .ok (a + b) else .error .additionOverflow

/-- Asks for two sizes to be equal. -/
def agree (left right : Nat) : Except Fault Unit :=
  if left = right then .ok () else .error (.widths left right)

/-- The number of bits needed to number `count` things: that of the greatest number in use. -/
def addressWidth (count : Nat) : Nat := if count ≤ 1 then 0 else Nat.log2 (count - 1) + 1

end BankedMemory.Size
