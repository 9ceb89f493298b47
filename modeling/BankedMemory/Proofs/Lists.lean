import Mathlib.Data.List.Forall2

/-!
# Lists that correspond place by place
-/

namespace BankedMemory

variable {α β : Type} {R : α → β → Prop} {xs : List α} {ys : List β}

theorem forall₂_iff_getElem? : List.Forall₂ R xs ys ↔
    ys.length = xs.length ∧ ∀ (i : Nat) x y, xs[i]? = some x → ys[i]? = some y → R x y := by
  rw [List.forall₂_iff_get]
  constructor
  · rintro ⟨same, related⟩
    refine ⟨same.symm, fun i x y at_left at_right => ?_⟩
    obtain ⟨hi, rfl⟩ := List.getElem?_eq_some_iff.mp at_left
    obtain ⟨hj, rfl⟩ := List.getElem?_eq_some_iff.mp at_right
    exact related i hi hj
  · rintro ⟨same, related⟩
    exact ⟨same.symm, fun i hi hj => related i _ _ (List.getElem?_eq_getElem hi) (List.getElem?_eq_getElem hj)⟩

/-- Two lists have the same images, place by place, if the members at each place have. -/
theorem map_eq_map_iff_forall₂ {γ : Type} {f : α → γ} {g : β → γ} :
    xs.map f = ys.map g ↔ List.Forall₂ (fun x y => f x = g y) xs ys := by
  rw [← List.forall₂_eq_eq_eq, List.forall₂_map_left_iff, List.forall₂_map_right_iff]

theorem forall₂_left (h : List.Forall₂ R xs ys) {i : Nat} {x : α} (found : xs[i]? = some x) :
    ∃ y, ys[i]? = some y ∧ R x y := by
  obtain ⟨same, related⟩ := forall₂_iff_getElem?.mp h
  obtain ⟨inside, _⟩ := List.getElem?_eq_some_iff.mp found
  have other : ys[i]? = some (ys.get ⟨i, same ▸ inside⟩) := List.getElem?_eq_getElem _
  exact ⟨_, other, related i x _ found other⟩

theorem forall₂_right (h : List.Forall₂ R xs ys) {i : Nat} {y : β} (found : ys[i]? = some y) :
    ∃ x, xs[i]? = some x ∧ R x y :=
  forall₂_left h.flip found

/-- Both lists end in a pair that is related. -/
theorem forall₂_concat_iff {x : α} {y : β} :
    List.Forall₂ R (xs ++ [x]) (ys ++ [y]) ↔ List.Forall₂ R xs ys ∧ R x y := by
  rw [← List.forall₂_reverse_iff, List.reverse_concat, List.reverse_concat, List.forall₂_cons,
    List.forall₂_reverse_iff, and_comm]

theorem forall₂_mem_right (h : List.Forall₂ R xs ys) {y : β} (member : y ∈ ys) : ∃ x ∈ xs, R x y := by
  obtain ⟨i, found⟩ := List.mem_iff_getElem?.mp member
  obtain ⟨x, at_left, related⟩ := forall₂_right h found
  exact ⟨x, List.mem_of_getElem? at_left, related⟩

theorem forall₂_of_mem {P : α → β → Prop} (h : List.Forall₂ R xs ys) (each : ∀ x y, x ∈ xs → R x y → P x y) :
    List.Forall₂ P xs ys := by
  obtain ⟨same, related⟩ := forall₂_iff_getElem?.mp h
  exact forall₂_iff_getElem?.mpr ⟨same, fun i x y at_left at_right =>
    each x y (List.mem_of_getElem? at_left) (related i x y at_left at_right)⟩

theorem forall₂_of_zipIdx {start : Nat} (h : List.Forall₂ (fun entry y => R entry.1 y) (xs.zipIdx start) ys) :
    List.Forall₂ R xs ys := by
  have := List.forall₂_map_left_iff.mpr h
  rwa [List.zipIdx_map_fst] at this

theorem forall₂_zipIdx {start : Nat} (h : List.Forall₂ R xs ys) :
    List.Forall₂ (fun x y => R x.1 y.1 ∧ y.2 = x.2) (xs.zipIdx start) (ys.zipIdx start) := by
  induction h generalizing start with
  | nil => exact .nil
  | cons head _ ih =>
    rw [List.zipIdx_cons, List.zipIdx_cons]
    exact .cons ⟨head, rfl⟩ ih

theorem forall₂_set (h : List.Forall₂ R xs ys) {x : α} {y : β} (related : R x y) (i : Nat) :
    List.Forall₂ R (xs.set i x) (ys.set i y) := by
  induction h generalizing i with
  | nil => exact .nil
  | cons head tail ih =>
    cases i with
    | zero => exact .cons related tail
    | succ i => exact .cons head (ih i)

theorem forall₂_zip {γ δ : Type} {S : γ → δ → Prop} {as : List γ} {bs : List δ} (h : List.Forall₂ R xs ys)
    (h' : List.Forall₂ S as bs) : List.Forall₂ (fun x y => R x.1 y.1 ∧ S x.2 y.2) (xs.zip as) (ys.zip bs) := by
  induction h generalizing as bs with
  | nil => exact .nil
  | cons head _ ih =>
    cases h' with
    | nil => exact .nil
    | cons head' tail' => exact .cons ⟨head, head'⟩ (ih tail')

/-- What corresponds to the places of a list corresponds to its elements. -/
theorem forall₂_of_range {P : Nat → β → Prop} (h : List.Forall₂ P (List.range xs.length) ys)
    (each : ∀ (i : Nat) x y, xs[i]? = some x → P i y → R x y) : List.Forall₂ R xs ys := by
  obtain ⟨same, related⟩ := forall₂_iff_getElem?.mp h
  rw [List.length_range] at same
  refine forall₂_iff_getElem?.mpr ⟨same, fun i x y at_left at_right => ?_⟩
  obtain ⟨inside, _⟩ := List.getElem?_eq_some_iff.mp at_left
  exact each i x y at_left (related i i y (List.getElem?_range inside) at_right)

theorem filter_zipIdx {l : List α} {i : Nat} {x : α} (found : l[i]? = some x) (start : Nat) :
    ((l.zipIdx start).filter fun entry => entry.2 = start + i) = [(x, start + i)] := by
  induction l generalizing i start with
  | nil => simp at found
  | cons head rest ih =>
    rw [List.zipIdx_cons]
    cases i with
    | zero =>
      have later : ((rest.zipIdx (start + 1)).filter fun entry => entry.2 = start) = [] := by
        rw [List.filter_eq_nil_iff]
        rintro ⟨other, place⟩ member same
        have := List.le_snd_of_mem_zipIdx member
        simp only [decide_eq_true_eq] at same
        omega
      obtain rfl : head = x := by simpa using found
      simpa using later
    | succ i =>
      have rest_found : rest[i]? = some x := by simpa using found
      have tail := ih rest_found (start + 1)
      have place : start + 1 + i = start + (i + 1) := by omega
      rw [place] at tail
      simpa using tail

/-- Lists of one length side by side. -/
theorem getElem?_flatten_of_length {α : Type*} {lists : List (List α)} {width : Nat}
    (wide : ∀ l ∈ lists, l.length = width) {k offset : Nat} (inside : offset < width) :
    lists.flatten[k * width + offset]? = lists[k]?.bind (·[offset]?) := by
  induction lists generalizing k with
  | nil => simp
  | cons l rest ih =>
    have here : l.length = width := wide l List.mem_cons_self
    rw [List.flatten_cons]
    cases k with
    | zero =>
      rw [Nat.zero_mul, Nat.zero_add, List.getElem?_append_left (here ▸ inside)]
      rfl
    | succ k =>
      have beyond : l.length ≤ (k + 1) * width + offset := by
        rw [here, Nat.succ_mul]
        omega
      have later : (k + 1) * width + offset - l.length = k * width + offset := by
        rw [here, Nat.succ_mul]
        omega
      rw [List.getElem?_append_right beyond, later, ih fun other member => wide other (List.mem_cons_of_mem l member)]
      rfl

/-- Two folds side by side. -/
theorem foldl_pair {α β γ : Type*} (f : β → α → β) (g : γ → α → γ) (l : List α) (b : β) (c : γ) :
    l.foldl (fun pair x => (f pair.1 x, g pair.2 x)) (b, c) = (l.foldl f b, l.foldl g c) := by
  induction l generalizing b c with
  | nil => rfl
  | cons x rest ih => exact ih (f b x) (g c x)

end BankedMemory
