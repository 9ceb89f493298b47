import BankedMemory.Fault

/-!
# Positions in words and buses

Words of bits and buses of nets are lists with the least significant element first. Here are the look-ups and cuts
they share; each of them faults outside the list. What changes from cycle to cycle is kept in arrays, where some
places change at once and all others stay.
-/

namespace BankedMemory.Positions

variable {α : Type}

def get (l : List α) (i : Nat) : Except Fault α :=
  match l[i]? with
  | some x => .ok x
  | none => .error .outOfRange

def set (l : List α) (i : Nat) (x : α) : Except Fault (List α) :=
  if i < l.length then .ok (l.set i x) else .error .outOfRange

/-- The elements from `start` up to and without `stop`; a missing bound is an end of the list. -/
def slice (l : List α) (start? stop? : Option Nat) : Except Fault (List α) :=
  let start := start?.getD 0
  let stop := stop?.getD l.length
  if start ≤ stop ∧ stop ≤ l.length then .ok ((l.drop start).take (stop - start)) else .error .outOfRange

/-- `count` copies of `x`, for a list that may hold at most `limit` elements. -/
def filled (limit count : Nat) (x : α) : Except Fault (List α) :=
  if count ≤ limit then .ok (List.replicate count x) else .error .tooLarge

theorem filled_eq_ok_iff {limit count : Nat} {x : α} {l : List α} :
    filled limit count x = .ok l ↔ count ≤ limit ∧ l = List.replicate count x := by
  unfold filled
  by_cases within : count ≤ limit <;> simp [within, eq_comm]

/-- Changes the elements at some places of an array; a place outside the array is left out. -/
def modifyAll (f : Nat → α → α) (a : Array α) (places : List Nat) : Array α :=
  places.foldl (fun a i => a.modify i (f i)) a

/-- A slice is there exactly for bounds in order and within the list. -/
theorem slice_eq_ok_iff {l part : List α} {start stop : Nat} :
    slice l (some start) (some stop) = .ok part ↔
      start ≤ stop ∧ stop ≤ l.length ∧ part = (l.drop start).take (stop - start) := by
  unfold slice
  simp only [Option.getD_some]
  constructor
  · intro h
    split at h
    · rename_i bounded
      exact ⟨bounded.1, bounded.2, (Except.ok.inj h).symm⟩
    · cases h
  · rintro ⟨lower, upper, rfl⟩
    rw [if_pos ⟨lower, upper⟩]

theorem nodup_eraseDups : (l : List Nat) → l.eraseDups.Nodup
  | [] => by simp
  | a :: l => by
    rw [List.eraseDups_cons, List.nodup_cons]
    refine ⟨?_, nodup_eraseDups _⟩
    rw [List.mem_eraseDups, List.mem_filter]
    simp
termination_by l => l.length
decreasing_by exact Nat.lt_succ_of_le (List.length_filter_le _ l)

/-- Each place changes once. -/
theorem getElem?_modifyAll (f : Nat → α → α) {places : List Nat} (a : Array α) (h : places.Nodup) (i : Nat) :
    (modifyAll f a places)[i]? = if i ∈ places then a[i]?.map (f i) else a[i]? := by
  unfold modifyAll
  induction places generalizing a with
  | nil => simp
  | cons first rest ih =>
    obtain ⟨fresh, nodup⟩ := List.nodup_cons.mp h
    rw [List.foldl_cons, ih _ nodup, Array.getElem?_modify]
    by_cases same : first = i
    · subst same
      simp [fresh]
    · have other : i ≠ first := fun e => same e.symm
      simp [same, other]

end BankedMemory.Positions
