import BankedMemory.Memory.Contents
import BankedMemory.Proofs.Numbers

/-!
# The row at an address

An address selects the row whose number it denotes, if the memory has this row; an address with an unknown bit selects
none. A memory finds its rows with a reader that knows numbers up to some width only. This makes no difference, because
no memory has more rows than such numbers can tell apart.
-/

namespace BankedMemory.Memory

variable {memory : Memory} {addr : Bits} {row : Nat}

/-- An address selects a row of a memory. -/
def Selects (memory : Memory) (addr : Bits) (row : Nat) : Prop := row < memory.depth ∧ addr.Denotes row

instance : Decidable (memory.Selects addr row) := inferInstanceAs (Decidable (_ ∧ _))

/-- An address selects one row at most. -/
theorem Selects.unique {other : Nat} (h : memory.Selects addr row) (h' : memory.Selects addr other) : row = other :=
  h.2.unique h'.2

/-- A memory finds no row but the one that the address selects. -/
theorem selects_of_rowOf (hit : memory.rowOf addr = some row) : memory.Selects addr row := by
  rw [rowOf, Option.filter_eq_some_iff, Bits.toNat?_eq_some_iff] at hit
  exact ⟨of_decide_eq_true hit.2, hit.1.1⟩

/-- A memory finds the row that the address selects. -/
theorem rowOf_eq_some_iff (countable : memory.depth ≤ 2 ^ Bits.numberWidth) :
    memory.rowOf addr = some row ↔ memory.Selects addr row := by
  refine ⟨selects_of_rowOf, fun ⟨inside, denotes⟩ => ?_⟩
  rw [rowOf, Option.filter_eq_some_iff, Bits.toNat?_eq_some_iff]
  exact ⟨⟨denotes, Nat.lt_of_lt_of_le inside countable⟩, decide_eq_true inside⟩

theorem rowOf_lt (hit : memory.rowOf addr = some row) : row < memory.depth := (selects_of_rowOf hit).1

theorem rowOf_eq_none_iff :
    memory.rowOf addr = none ↔ addr.toNat? = none ∨ ∃ number, addr.toNat? = some number ∧ memory.depth ≤ number := by
  rw [rowOf, Option.filter_eq_none_iff]
  cases addr.toNat? <;> simp

end BankedMemory.Memory
