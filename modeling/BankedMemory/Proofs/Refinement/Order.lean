import BankedMemory.Cell.Basic
import BankedMemory.Memory.Contents
import BankedMemory.Proofs.Lists
import BankedMemory.Proofs.Numbers

/-!
# Words of which one knows more

A bit lies below another if it is unknown or the same bit, and words are compared place by place. Whatever the gates,
a comparison, and an update give for words that know less lies below what they give for words that know more.
-/

namespace BankedMemory

namespace Trit

/-- A bit that is unknown, or equal to the other one. -/
def Below (a b : Trit) : Prop := a = unknown ∨ a = b

instance (a b : Trit) : Decidable (a.Below b) := inferInstanceAs (Decidable (a = unknown ∨ a = b))

variable {a a' b b' c c' : Trit}

theorem Below.refl (a : Trit) : a.Below a := Or.inr rfl

theorem unknown_below (a : Trit) : unknown.Below a := Or.inl rfl

theorem Below.trans (h : a.Below b) (k : b.Below c) : a.Below c := by
  rcases h with rfl | rfl
  · exact unknown_below c
  · exact k

theorem Below.not (h : a.Below b) : a.not.Below b.not := by
  rcases h with rfl | rfl
  · exact unknown_below _
  · exact .refl _

/-- A gate that loses nothing when one of its operands becomes known. -/
theorem Below.join {f : Trit → Trit → Trit} (left : ∀ x y, (f unknown y).Below (f x y))
    (right : ∀ x y, (f x unknown).Below (f x y)) (h : a.Below a') (k : b.Below b') : (f a b).Below (f a' b') := by
  have first : (f a b).Below (f a' b) := by
    rcases h with rfl | rfl
    · exact left a' b
    · exact .refl _
  have second : (f a' b).Below (f a' b') := by
    rcases k with rfl | rfl
    · exact right a' b'
    · exact .refl _
  exact first.trans second

theorem Below.and (h : a.Below a') (k : b.Below b') : (a.and b).Below (a'.and b') :=
  .join (fun x y => by cases x <;> cases y <;> decide) (fun x y => by cases x <;> cases y <;> decide) h k

theorem Below.or (h : a.Below a') (k : b.Below b') : (a.or b).Below (a'.or b') :=
  .join (fun x y => by cases x <;> cases y <;> decide) (fun x y => by cases x <;> cases y <;> decide) h k

theorem Below.xor (h : a.Below a') (k : b.Below b') : (a.xor b).Below (a'.xor b') :=
  .join (fun x y => by cases x <;> cases y <;> decide) (fun x y => by cases x <;> cases y <;> decide) h k

theorem Below.gate (kind : Gate) (h : a.Below a') (k : b.Below b') : (kind.apply a b).Below (kind.apply a' b') := by
  cases kind with
  | and => exact h.and k
  | or => exact h.or k
  | xor => exact h.xor k

theorem Below.same (h : a.Below a') (k : b.Below b') : (a.same b).Below (a'.same b') := (h.xor k).not

/-- An unknown selection leaves a bit known only where both candidates agree. -/
theorem Below.select (h : a.Below a') (k : b.Below b') (l : c.Below c') : (a.select b c).Below (a'.select b' c') := by
  have selection : (a.select b c).Below (a'.select b c) := by
    rcases h with rfl | rfl
    · cases a' <;> cases b <;> cases c <;> decide
    · exact .refl _
  have candidates : (a'.select b c).Below (a'.select b' c') :=
    .join (fun x y => by cases a' <;> cases x <;> cases y <;> decide)
      (fun x y => by cases a' <;> cases x <;> cases y <;> decide) k l
  exact selection.trans candidates

theorem Below.active (control : Control) (h : a.Below b) : (control.active a).Below (control.active b) := by
  unfold Control.active
  split
  · exact h.not
  · exact h

end Trit

namespace Bits

/-- Each bit lies below the one at its place. -/
def Below (a b : Bits) : Prop := List.Forall₂ Trit.Below a b

instance (a b : Bits) : Decidable (a.Below b) := inferInstanceAs (Decidable (List.Forall₂ Trit.Below a b))

variable {a a' b b' c c' : Bits}

theorem Below.refl (a : Bits) : a.Below a := List.forall₂_same.mpr fun bit _ => .refl bit

theorem Below.length_eq (h : a.Below b) : a.length = b.length := List.Forall₂.length_eq h

theorem unknowns_below {width : Nat} (wide : b.length = width) : (unknowns width).Below b := by
  subst wide
  refine forall₂_iff_getElem?.mpr ⟨by simp [unknowns], fun i x y at_left _ => ?_⟩
  obtain ⟨_, rfl⟩ : i < b.length ∧ Trit.unknown = x := by simpa [unknowns, List.getElem?_replicate] using at_left
  exact Trit.unknown_below y

/-- Only a known word lies above a known word. -/
theorem Below.eq_of_known (h : a.Below b) (known : .unknown ∉ a) : a = b := by
  unfold Below at h
  induction h with
  | nil => rfl
  | cons below _ ih =>
    rw [List.mem_cons, not_or] at known
    rw [below.resolve_left fun unknown => known.1 unknown.symm, ih known.2]

theorem Below.map {value value' : Net → Trit} {bus : Bus} (each : ∀ net ∈ bus, (value net).Below (value' net)) :
    Below (bus.map value) (bus.map value') := by
  unfold Below
  rw [List.forall₂_map_left_iff, List.forall₂_map_right_iff]
  exact List.forall₂_same.mpr each

theorem Below.invert (h : a.Below b) : a.invert.Below b.invert := by
  unfold Below Bits.invert
  rw [List.forall₂_map_left_iff, List.forall₂_map_right_iff]
  exact h.imp fun _ _ => Trit.Below.not

theorem Below.zipWith {f : Trit → Trit → Trit}
    (each : ∀ {x x' y y' : Trit}, x.Below x' → y.Below y' → (f x y).Below (f x' y')) (h : a.Below a') (k : b.Below b') :
    Below (List.zipWith f a b) (List.zipWith f a' b') := by
  unfold Below at h
  induction h generalizing b b' with
  | nil => exact .nil
  | cons first _ ih =>
    cases k with
    | nil => exact .nil
    | cons second rest => exact .cons (each first second) (ih rest)

theorem Below.same (h : a.Below a') (k : b.Below b') : (Bits.same a b).Below (Bits.same a' b') := by
  have pairs := h.zipWith (f := Trit.same) Trit.Below.same k
  unfold Bits.same
  unfold Below at pairs
  generalize List.zipWith Trit.same a b = x at pairs ⊢
  generalize List.zipWith Trit.same a' b' = y at pairs ⊢
  induction pairs with
  | nil => exact .refl _
  | cons first _ ih => exact first.and ih

theorem Below.update (h : a.Below a') (k : b.Below b') (l : c.Below c') : (a.update b c).Below (a'.update b' c') := by
  unfold Below at h
  induction h generalizing b b' c c' with
  | nil => exact .nil
  | cons first _ ih =>
    cases k with
    | nil => exact .nil
    | cons second rest =>
      cases l with
      | nil => exact .nil
      | cons third rest' => exact .cons (second.select first third) (ih rest rest')

/-- The zero word is known. -/
theorem Below.eq_zeros {width : Nat} (h : (zeros width).Below b) : b = zeros width :=
  (h.eq_of_known fun member => by cases List.eq_of_mem_replicate member).symm

/-- A word that stands for a number is known. -/
theorem known_of_toNat? {n : Nat} (h : a.toNat? = some n) : .unknown ∉ a := by
  intro unknown
  rw [toNat?_eq_filter, value?_eq_none_iff.mpr unknown] at h
  cases h

end Bits

/-- An address that selects a row selects it also when more is known elsewhere. -/
theorem Memory.rowOf_below {memory : Memory} {addr addr' : Bits} (h : addr.Below addr') {row : Nat}
    (hit : memory.rowOf addr = some row) : memory.rowOf addr' = some row := by
  have known := Bits.known_of_toNat? (Option.filter_eq_some_iff.mp hit).1
  rwa [← h.eq_of_known known]

end BankedMemory
