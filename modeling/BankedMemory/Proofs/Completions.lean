import BankedMemory.Proofs.Refinement.Order

/-!
# Comparisons of words that may turn out in several ways

An unknown bit may turn out to be zero or one, so a word with unknown bits leaves several known words open, its
completions. The unknown bits of two words are independent of each other. A comparison tells whether all pairs of
completions are equal or all of them are different, and it is unknown only if there are pairs of both kinds.
-/

namespace BankedMemory

namespace Trit

/-- A known bit that a bit may turn out to be. -/
def Completion (bit full : Trit) : Prop := bit.Below full ∧ full ≠ unknown

instance (bit full : Trit) : Decidable (bit.Completion full) :=
  inferInstanceAs (Decidable (bit.Below full ∧ full ≠ unknown))

instance : Fintype Trit := ⟨{unknown, zero, one}, fun bit => by cases bit <;> decide⟩

variable {a b : Trit}

theorem exists_completion (bit : Trit) : ∃ full, bit.Completion full := by
  cases bit <;> decide

theorem exists_common_completion (possible : a.same b ≠ zero) : ∃ full, a.Completion full ∧ b.Completion full := by
  cases a <;> cases b <;> revert possible <;> decide

theorem exists_distinct_completions (possible : a.same b ≠ one) :
    ∃ full other, a.Completion full ∧ b.Completion other ∧ full ≠ other := by
  cases a <;> cases b <;> revert possible <;> decide

end Trit

namespace Bits

/-- A known word that a word may turn out to be: each unknown bit is replaced by a known one. -/
def Completion (word full : Bits) : Prop := word.Below full ∧ .unknown ∉ full

instance (word full : Bits) : Decidable (word.Completion full) :=
  inferInstanceAs (Decidable (word.Below full ∧ .unknown ∉ full))

variable {a b x y : Bits}

theorem Completion.cons {bit full : Trit} (h : bit.Completion full) (k : a.Completion x) :
    Completion (bit :: a) (full :: x) := by
  refine ⟨.cons h.1 k.1, fun member => ?_⟩
  rcases List.mem_cons.mp member with unknown | member
  · exact h.2 unknown.symm
  · exact k.2 member

theorem exists_completion (word : Bits) : ∃ full, word.Completion full := by
  induction word with
  | nil => exact ⟨[], .nil, List.not_mem_nil⟩
  | cons bit word ih =>
    obtain ⟨full, completed⟩ := bit.exists_completion
    obtain ⟨rest, completed_rest⟩ := ih
    exact ⟨full :: rest, .cons completed completed_rest⟩

/-- A comparison is not wrong about any pair of completions, since it only loses by what is unknown. -/
theorem Completion.same_below (h : a.Completion x) (k : b.Completion y) (wide : a.length = b.length) :
    (same a b).Below (if x = y then .one else .zero) := by
  have full : x.length = y.length := h.1.length_eq.symm.trans (wide.trans k.1.length_eq)
  rw [← same_of_known h.2 k.2 full]
  exact h.1.same k.1

theorem same_cons (bit other : Trit) (a b : Bits) :
    same (bit :: a) (other :: b) = (bit.same other).and (same a b) := rfl

theorem exists_common_completion (wide : a.length = b.length) (possible : same a b ≠ .zero) :
    ∃ full, a.Completion full ∧ b.Completion full := by
  induction a generalizing b with
  | nil =>
    obtain rfl : b = [] := List.length_eq_zero_iff.mp wide.symm
    exact ⟨[], ⟨.nil, List.not_mem_nil⟩, ⟨.nil, List.not_mem_nil⟩⟩
  | cons bit a ih =>
    cases b with
    | nil => simp at wide
    | cons other b =>
      rw [same_cons, Ne, Trit.and_eq_zero_iff, not_or] at possible
      obtain ⟨full, left, right⟩ := Trit.exists_common_completion possible.1
      obtain ⟨rest, left_rest, right_rest⟩ := ih (Nat.succ.inj wide) possible.2
      exact ⟨full :: rest, .cons left left_rest, .cons right right_rest⟩

theorem exists_distinct_completions (wide : a.length = b.length) (possible : same a b ≠ .one) :
    ∃ full other, a.Completion full ∧ b.Completion other ∧ full ≠ other := by
  induction a generalizing b with
  | nil =>
    obtain rfl : b = [] := List.length_eq_zero_iff.mp wide.symm
    exact absurd rfl possible
  | cons bit a ih =>
    cases b with
    | nil => simp at wide
    | cons other b =>
      rw [same_cons, Ne, Trit.and_eq_one_iff, not_and_or] at possible
      rcases possible with heads | tails
      · obtain ⟨full, full', left, right, distinct⟩ := Trit.exists_distinct_completions heads
        obtain ⟨rest, left_rest⟩ := exists_completion a
        obtain ⟨rest', right_rest⟩ := exists_completion b
        exact ⟨full :: rest, full' :: rest', .cons left left_rest, .cons right right_rest,
          fun same => distinct (List.cons.inj same).1⟩
      · obtain ⟨full, left⟩ := bit.exists_completion
        obtain ⟨full', right⟩ := other.exists_completion
        obtain ⟨rest, rest', left_rest, right_rest, distinct⟩ := ih (Nat.succ.inj wide) tails
        exact ⟨full :: rest, full' :: rest', .cons left left_rest, .cons right right_rest,
          fun same => distinct (List.cons.inj same).2⟩

theorem same_ne_zero_iff (wide : a.length = b.length) :
    same a b ≠ .zero ↔ ∃ full, a.Completion full ∧ b.Completion full := by
  refine ⟨exists_common_completion wide, ?_⟩
  rintro ⟨full, left, right⟩ zero
  have below := left.same_below right wide
  rw [zero, if_pos rfl] at below
  revert below
  decide

theorem same_ne_one_iff (wide : a.length = b.length) :
    same a b ≠ .one ↔ ∃ full other, a.Completion full ∧ b.Completion other ∧ full ≠ other := by
  refine ⟨exists_distinct_completions wide, ?_⟩
  rintro ⟨full, other, left, right, distinct⟩ one
  have below := left.same_below right wide
  rw [one, if_neg distinct] at below
  revert below
  decide

/-- Words of one width are compared as well as can be without knowing more. -/
theorem comparison_exact (wide : a.length = b.length) : ∃ result, both same a b = .ok result ∧
    (result = .one ↔ ∀ full other, a.Completion full → b.Completion other → full = other) ∧
    (result = .zero ↔ ∀ full other, a.Completion full → b.Completion other → full ≠ other) ∧
    (result = .unknown ↔ (∃ full, a.Completion full ∧ b.Completion full) ∧
      ∃ full other, a.Completion full ∧ b.Completion other ∧ full ≠ other) := by
  refine ⟨same a b, if_pos wide, ?_, ?_, ?_⟩
  · constructor
    · intro one full other left right
      by_contra distinct
      exact (same_ne_one_iff wide).mpr ⟨full, other, left, right, distinct⟩ one
    · intro all_equal
      by_contra possible
      obtain ⟨full, other, left, right, distinct⟩ := (same_ne_one_iff wide).mp possible
      exact distinct (all_equal full other left right)
  · constructor
    · rintro zero full _ left right rfl
      exact (same_ne_zero_iff wide).mpr ⟨full, left, right⟩ zero
    · intro all_distinct
      by_contra possible
      obtain ⟨full, left, right⟩ := (same_ne_zero_iff wide).mp possible
      exact all_distinct full full left right rfl
  · have open_both : same a b = .unknown ↔ same a b ≠ .zero ∧ same a b ≠ .one := by
      cases same a b <;> decide
    rw [open_both, same_ne_zero_iff wide, same_ne_one_iff wide]

/-- An unknown bit does not hide the difference behind it, while one that stands against known bits in a word that is
equal otherwise leaves the comparison open. -/
theorem comparison_exact_behind_unknown :
    [Trit.unknown, .one].length = [Trit.zero, .zero].length ∧ same [.unknown, .one] [.zero, .zero] = .zero ∧
      (∀ full other, Completion [.unknown, .one] full → Completion [.zero, .zero] other → full ≠ other) ∧
      [Trit.unknown, .one].length = [Trit.zero, .one].length ∧ same [.unknown, .one] [.zero, .one] = .unknown ∧
      (∃ full, Completion [.unknown, .one] full ∧ Completion [.zero, .one] full) := by
  obtain ⟨_, compared, _, different, _⟩ := comparison_exact (a := [.unknown, .one]) (b := [.zero, .zero]) rfl
  obtain ⟨_, compared', _, _, unsettled⟩ := comparison_exact (a := [.unknown, .one]) (b := [.zero, .one]) rfl
  obtain rfl := Except.ok.inj compared
  obtain rfl := Except.ok.inj compared'
  exact ⟨rfl, rfl, different.mp rfl, rfl, rfl, (unsettled.mp rfl).1⟩

end Bits

end BankedMemory
