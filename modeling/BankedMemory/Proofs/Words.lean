import BankedMemory.Bits
import Mathlib.Algebra.BigOperators.Group.Finset.Basic

/-!
# Sums of bits, and words bit by bit

The exclusive or is written as a sum: it is commutative and associative, zero is neutral, and an unknown term makes
the whole sum unknown. A known bit cancels itself. A word is often given by a function from places to bits; joining
and updating such words is joining and updating bits.
-/

namespace BankedMemory

namespace Trit

instance : Add Trit := ⟨Trit.xor⟩

instance : Zero Trit := ⟨.zero⟩

instance : AddCommMonoid Trit where
  add_assoc a b c := by cases a <;> cases b <;> cases c <;> rfl
  add_comm := Trit.xor_comm
  zero_add a := by cases a <;> rfl
  add_zero a := by cases a <;> rfl
  nsmul := nsmulRec

theorem xor_eq_add (a b : Trit) : a.xor b = a + b := rfl

theorem add_unknown (a : Trit) : a + unknown = unknown := by
  rw [add_comm]
  rfl

theorem add_eq_unknown_iff {a b : Trit} : a + b = unknown ↔ a = unknown ∨ b = unknown := by
  cases a <;> cases b <;> decide

theorem add_self {a : Trit} (known : a ≠ unknown) : a + a = 0 := by
  cases a with
  | unknown => exact absurd rfl known
  | zero => rfl
  | one => rfl

theorem sum_eq_unknown_iff {ι : Type*} [DecidableEq ι] (s : Finset ι) (f : ι → Trit) :
    ∑ i ∈ s, f i = unknown ↔ ∃ i ∈ s, f i = unknown := by
  induction s using Finset.induction_on with
  | empty => simp only [Finset.sum_empty, Finset.notMem_empty, false_and, exists_false, iff_false]; decide
  | insert i s new ih =>
    rw [Finset.sum_insert new, add_eq_unknown_iff, ih]
    simp

theorem foldl_add (start : Trit) (bits : List Trit) : bits.foldl Trit.xor start = start + bits.sum := by
  induction bits generalizing start with
  | nil => simp
  | cons bit rest ih => rw [List.foldl_cons, ih, xor_eq_add, List.sum_cons, add_assoc]

theorem not_eq_zero_iff {a : Trit} : a.not = zero ↔ a = one := by
  cases a <;> decide

theorem not_eq_one_iff {a : Trit} : a.not = one ↔ a = zero := by
  cases a <;> decide

theorem and_eq_zero_iff {a b : Trit} : a.and b = zero ↔ a = zero ∨ b = zero := by
  cases a <;> cases b <;> decide

theorem and_eq_one_iff {a b : Trit} : a.and b = one ↔ a = one ∧ b = one := by
  cases a <;> cases b <;> decide

theorem or_eq_zero_iff {a b : Trit} : a.or b = zero ↔ a = zero ∧ b = zero := by
  cases a <;> cases b <;> decide

theorem or_eq_one_iff {a b : Trit} : a.or b = one ↔ a = one ∨ b = one := by
  cases a <;> cases b <;> decide

theorem foldl_or_eq_zero_iff (start : Trit) (bits : List Trit) :
    bits.foldl Trit.or start = .zero ↔ start = .zero ∧ ∀ bit ∈ bits, bit = .zero := by
  induction bits generalizing start with
  | nil => simp
  | cons bit rest ih => rw [List.foldl_cons, ih, or_eq_zero_iff, List.forall_mem_cons, and_assoc]

theorem foldl_or_eq_one_iff (start : Trit) (bits : List Trit) :
    bits.foldl Trit.or start = .one ↔ start = .one ∨ .one ∈ bits := by
  induction bits generalizing start with
  | nil => simp
  | cons bit rest ih => rw [List.foldl_cons, ih, or_eq_one_iff, List.mem_cons, or_assoc, eq_comm (a := bit)]

theorem xor_eq_zero_iff {a b : Trit} : a.xor b = zero ↔ a = zero ∧ b = zero ∨ a = one ∧ b = one := by
  cases a <;> cases b <;> decide

theorem xor_eq_one_iff {a b : Trit} : a.xor b = one ↔ a = zero ∧ b = one ∨ a = one ∧ b = zero := by
  cases a <;> cases b <;> decide

theorem same_eq_zero_iff {a b : Trit} : a.same b = zero ↔ a = zero ∧ b = one ∨ a = one ∧ b = zero := by
  rw [same, not_eq_zero_iff, xor_eq_one_iff]

theorem same_eq_one_iff {a b : Trit} : a.same b = one ↔ a = b ∧ a ≠ unknown := by
  cases a <;> cases b <;> decide

theorem same_of_known {a b : Trit} (ha : a ≠ unknown) (hb : b ≠ unknown) : same a b = if a = b then one else zero := by
  cases a <;> cases b <;> first | exact absurd rfl ha | exact absurd rfl hb | rfl

theorem select_zero (old new : Trit) : Trit.zero.select old new = old := rfl

end Trit

namespace Bits

/-- The word whose bit at each place is given by a function. -/
def tabulate (width : Nat) (f : Nat → Trit) : Bits := (List.range width).map f

variable {width depth : Nat} {f g h : Nat → Trit}

@[simp] theorem length_tabulate (width : Nat) (f : Nat → Trit) : (tabulate width f).length = width := by
  simp [tabulate]

theorem getElem?_tabulate {place : Nat} (inside : place < width) : (tabulate width f)[place]? = some (f place) := by
  simp [tabulate, inside]

theorem tabulate_congr (same : ∀ place < width, f place = g place) : tabulate width f = tabulate width g := by
  apply List.map_congr_left
  intro place member
  exact same place (List.mem_range.mp member)

theorem tabulate_inj (same : tabulate width f = tabulate width g) {place : Nat} (inside : place < width) :
    f place = g place := by
  have := congrArg (·[place]?) same
  simpa [getElem?_tabulate inside] using this

theorem tabulate_succ : tabulate (width + 1) f = f 0 :: tabulate width fun place => f (place + 1) := by
  simp [tabulate, List.range_succ_eq_map, Function.comp_def]

/-- Every word is given by its own bits. -/
theorem tabulate_getD (word : Bits) (default : Trit) :
    tabulate word.length (fun place => word.getD place default) = word := by
  apply List.ext_getElem
  · simp
  · intro place inside inside'
    simp [tabulate, List.getD_eq_getElem?_getD, List.getElem?_eq_getElem inside']

theorem zipWith_tabulate (join : Trit → Trit → Trit) :
    List.zipWith join (tabulate width f) (tabulate width g) = tabulate width fun place => join (f place) (g place) := by
  simp [tabulate, List.zipWith_map]

theorem invert_tabulate : invert (tabulate width f) = tabulate width fun place => (f place).not := by
  simp [invert, tabulate, Function.comp_def]

theorem unknowns_eq_tabulate (width : Nat) : unknowns width = tabulate width fun _ => .unknown := by
  simp [unknowns, tabulate]

theorem zeros_eq_tabulate (width : Nat) : zeros width = tabulate width fun _ => .zero := by
  simp [zeros, tabulate]

theorem update_tabulate : update (tabulate width f) (tabulate width g) (tabulate width h) =
    tabulate width fun place => (g place).select (f place) (h place) := by
  induction width generalizing f g h with
  | zero => rfl
  | succ width ih => simp only [tabulate_succ, update, ih]

theorem isZero_tabulate_iff : (tabulate width f).isZero = true ↔ ∀ place < width, f place = .zero := by
  simp [isZero, tabulate]

/-- Known words of one width are surely equal or surely different. -/
theorem same_of_known {a b : Bits} (known : .unknown ∉ a) (known' : .unknown ∉ b) (wide : a.length = b.length) :
    same a b = if a = b then .one else .zero := by
  induction a generalizing b with
  | nil =>
    obtain rfl : b = [] := List.length_eq_zero_iff.mp wide.symm
    rfl
  | cons bit a ih =>
    cases b with
    | nil => simp at wide
    | cons other b =>
      rw [List.mem_cons, not_or] at known known'
      have rest := ih known.2 known'.2 (Nat.succ.inj wide)
      have unfolded : same (bit :: a) (other :: b) = (Trit.same bit other).and (same a b) := rfl
      rw [unfolded, rest, Trit.same_of_known (Ne.symm known.1) (Ne.symm known'.1)]
      by_cases heads : bit = other <;> by_cases tails : a = b <;> simp [heads, tails, Trit.and]

/-- Rows of one width, given by a function from rows and places to bits. -/
def table (depth width : Nat) (cell : Nat → Nat → Trit) : Array Bits :=
  ((List.range depth).map fun row => tabulate width (cell row)).toArray

variable {cell other : Nat → Nat → Trit}

theorem getElem?_table {row : Nat} (inside : row < depth) :
    (table depth width cell)[row]? = some (tabulate width (cell row)) := by
  simp [table, inside]

theorem getElem?_table_of_le {row : Nat} (outside : depth ≤ row) : (table depth width cell)[row]? = none := by
  simp [table, outside]

theorem getD_table {row : Nat} (inside : row < depth) :
    (table depth width cell).getD row [] = tabulate width (cell row) := by
  simp [Array.getD_eq_getD_getElem?, getElem?_table inside]

theorem table_congr (same : ∀ row < depth, ∀ place < width, cell row place = other row place) :
    table depth width cell = table depth width other := by
  apply congrArg List.toArray
  apply List.map_congr_left
  intro row member
  exact tabulate_congr (same row (List.mem_range.mp member))

end Bits

end BankedMemory
