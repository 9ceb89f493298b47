import BankedMemory.Bits
import Mathlib.Data.List.Basic

/-!
# Reading text

A reading takes a value off the front of a text. What it has to do for text of a given form is said by `Takes`: that
it finds the value of this form in front of any rest that may follow, and leaves this rest. A form that can be read in
this sense needs no mark of its own to tell where it ends.
-/

namespace BankedMemory

/-- Takes a value off the front of a text, unless there is none. -/
abbrev Reading (α : Type) := StateT (List Char) Option α

namespace Reading

variable {α β : Type}

def literal (expected : String) : Reading Unit := fun s =>
  (s.dropPrefix? expected.toList).map fun rest => ((), rest)

/-- The accepted characters that stand side by side, of which there has to be one. -/
def letters (accepts : Char → Bool) : Reading (List Char) := fun s =>
  if (s.takeWhile accepts).isEmpty then none else some (s.takeWhile accepts, s.dropWhile accepts)

def number : Reading Nat := do
  return Nat.ofDigitChars 10 (← letters Char.isDigit) 0

/-- A number behind a mark, or `default` where the mark is missing. -/
def marked (mark : String) (default : Nat) : Reading Nat := do
  let given ← optional do
    literal mark
    number
  return given.getD default

def isTrit (c : Char) : Bool := (Trit.ofChar? c).isSome

def word : Reading Bits := do
  return ((← letters isTrit).filterMap Trit.ofChar?).reverse

/-- As many values as there are, each of at least one character. -/
def many (reading : Reading α) (s : List Char) : Option (List α × List Char) :=
  match reading s with
  | none => some ([], s)
  | some (x, rest) =>
    if rest.length < s.length then (many reading rest).map fun later => (x :: later.1, later.2)
    else none
termination_by s.length

/-- The reading finds `value` written as `text` in front of `rest`. -/
def Takes (reading : Reading α) (text : List Char) (value : α) (rest : List Char) : Prop :=
  reading (text ++ rest) = some (value, rest)

section Combinators

variable {text later rest : List Char} {x : α} {y : β} {reading other : Reading α}

theorem takes_pure : Takes (pure x) [] x rest := rfl

theorem Takes.bind {next : α → Reading β} (first : Takes reading text x (later ++ rest))
    (second : Takes (next x) later y rest) : Takes (reading >>= next) (text ++ later) y rest := by
  show (reading (text ++ later ++ rest)).bind (fun entry => next entry.1 entry.2) = _
  rw [List.append_assoc, show reading (text ++ (later ++ rest)) = _ from first]
  exact second

theorem Takes.map (taken : Takes reading text x rest) (f : α → β) : Takes (f <$> reading) text (f x) rest := by
  show (reading (text ++ rest)).bind (fun entry => some (f entry.1, entry.2)) = _
  rw [show reading (text ++ rest) = _ from taken]
  rfl

/-- Nothing has to be read after what the text holds. -/
theorem Takes.last {next : α → Reading β} (taken : Takes reading text x rest) (done : Takes (next x) [] y rest) :
    Takes (reading >>= next) text y rest := by
  have both := Takes.bind (show Takes reading text x ([] ++ rest) from taken) done
  rwa [List.append_nil] at both

/-- What a reading returns at its end is made of what it has read last. -/
theorem Takes.return (taken : Takes reading text x rest) {f : α → β} :
    Takes (reading >>= fun x => pure (f x)) text (f x) rest := taken.last takes_pure

theorem orElse_eq (s : List Char) : (reading <|> other) s = (reading s <|> other s) := rfl

theorem Takes.left (taken : Takes reading text x rest) : Takes (reading <|> other) text x rest := by
  rw [Takes, orElse_eq, show reading (text ++ rest) = _ from taken]
  rfl

theorem Takes.right (refused : reading (text ++ rest) = none) (taken : Takes other text x rest) :
    Takes (reading <|> other) text x rest := by
  rw [Takes, orElse_eq, refused]
  exact taken

theorem Takes.given (taken : Takes reading text x rest) : Takes (optional reading) text (some x) rest :=
  (taken.map some).left

theorem takes_missing (refused : reading rest = none) : Takes (optional reading) [] none rest := by
  refine Takes.right ?_ takes_pure
  show (reading rest).bind (fun entry => some (some entry.1, entry.2)) = none
  rw [refused]
  rfl

/-- A part that may be left out is read as given or as missing. -/
theorem takes_optional {hidden : Prop} [Decidable hidden] {s : String}
    (given : ¬hidden → Takes reading s.toList x rest) (missing : hidden → reading rest = none) :
    Takes (optional reading) (if hidden then "" else s).toList (if hidden then none else some x) rest := by
  by_cases left_out : hidden
  · rw [if_pos left_out, if_pos left_out]
    exact takes_missing (missing left_out)
  · rw [if_neg left_out, if_neg left_out]
    exact (given left_out).given

theorem takes_literal (expected : String) : Takes (literal expected) expected.toList () rest := by
  have found : (expected.toList ++ rest).dropPrefix? expected.toList = some rest :=
    List.dropPrefix?_eq_some_iff.mpr ⟨expected.toList, rfl, beq_self_eq_true _⟩
  rw [Takes, literal, found]
  rfl

/-- Reading goes on behind a text that is as expected. -/
theorem Takes.after {expected : String} {next : Reading β} (taken : Takes next later y rest) :
    Takes (literal expected >>= fun _ => next) (expected.toList ++ later) y rest :=
  (takes_literal expected).bind taken

theorem takes_letters {accepts : Char → Bool} (accepted : ∀ c ∈ text, accepts c) (some_letter : text ≠ [])
    (ends : ∀ c ∈ rest.head?, accepts c = false) : Takes (letters accepts) text text rest := by
  have ended : rest.takeWhile accepts = [] ∧ rest.dropWhile accepts = rest := by
    cases rest with
    | nil => exact ⟨rfl, rfl⟩
    | cons c rest => simp [ends c rfl]
  have kept : (text ++ rest).takeWhile accepts = text := by
    rw [List.takeWhile_append_of_pos accepted, ended.1, List.append_nil]
  have left : (text ++ rest).dropWhile accepts = rest := by
    rw [List.dropWhile_append_of_pos accepted, ended.2]
  simp [Takes, letters, kept, left, some_letter]

theorem takes_nothing (refused : reading rest = none) : Takes (many reading) [] [] rest := by
  show many reading rest = _
  rw [many, refused]

/-- A list is read if every part of it is, and if the parts and the rest are such as may follow a part. -/
theorem takes_many {text : β → List Char} {value : β → α} {parts : List β} (follows : List Char → Prop)
    (each : ∀ part ∈ parts, ∀ rest, follows rest → Takes reading (text part) (value part) rest)
    (starts : ∀ part ∈ parts, text part ≠ [] ∧ ∀ rest, follows (text part ++ rest)) (last : follows rest)
    (ends : reading rest = none) : Takes (many reading) (parts.flatMap text) (parts.map value) rest := by
  have followed : ∀ later : List β, (∀ part ∈ later, part ∈ parts) → follows (later.flatMap text ++ rest) := by
    intro later among
    cases later with
    | nil => exact last
    | cons part later =>
      rw [List.flatMap_cons, List.append_assoc]
      exact (starts part (among part List.mem_cons_self)).2 _
  suffices some_parts : ∀ later : List β, (∀ part ∈ later, part ∈ parts) →
      Takes (many reading) (later.flatMap text) (later.map value) rest from some_parts parts fun _ member => member
  intro later among
  induction later with
  | nil => exact takes_nothing ends
  | cons part later ih =>
    have inner := fun part member => among part (List.mem_cons_of_mem _ member)
    have read := each part (among part List.mem_cons_self) _ (followed later inner)
    have longer := List.length_pos_iff.mpr (starts part (among part List.mem_cons_self)).1
    show many reading (text part ++ later.flatMap text ++ rest) = _
    rw [List.append_assoc, many, show reading (text part ++ (later.flatMap text ++ rest)) = _ from read]
    have shrunk : (later.flatMap text ++ rest).length < (text part ++ (later.flatMap text ++ rest)).length := by
      simp only [List.length_append]
      omega
    simp only [if_pos shrunk, show many reading (later.flatMap text ++ rest) = _ from ih inner]
    rfl

/-- Parts that are read whatever follows them make a list if none of them is empty. -/
theorem takes_lines {text : β → List Char} {value : β → α} {parts : List β}
    (each : ∀ part ∈ parts, ∀ rest, Takes reading (text part) (value part) rest) (some_letter : reading [] = none)
    (ends : reading rest = none) : Takes (many reading) (parts.flatMap text) (parts.map value) rest := by
  have starts : ∀ part ∈ parts, text part ≠ [] := by
    intro part member empty
    have read : reading [] = some (value part, []) := by
      have taken := each part member []
      rwa [empty] at taken
    rw [some_letter] at read
    cases read
  exact takes_many (fun _ => True) (fun part member rest _ => each part member rest)
    (fun part member => ⟨starts part member, fun _ => trivial⟩) trivial ends

end Combinators

section Tokens

variable {rest : List Char}

theorem takes_number {n : Nat} (ends : ∀ c ∈ rest.head?, c.isDigit = false) :
    Takes number (toString n).toList n rest := by
  have digits : (toString n).toList = Nat.toDigits 10 n := Nat.toList_repr
  rw [digits]
  have read : Takes (letters Char.isDigit) (Nat.toDigits 10 n) (Nat.toDigits 10 n) rest :=
    takes_letters (fun c member => Nat.isDigit_of_mem_toDigits (by decide) (by decide) member) Nat.toDigits_ne_nil ends
  have value : Nat.ofDigitChars 10 (Nat.toDigits 10 n) 0 = n := Nat.ofDigitChars_toDigits (by decide) (by decide)
  have taken := read.return (f := fun digits => Nat.ofDigitChars 10 digits 0)
  rwa [value] at taken

theorem isTrit_toChar (bit : Trit) : isTrit bit.toChar := by cases bit <;> rfl

theorem takes_word {bits : Bits} (some_bit : bits ≠ []) (ends : ∀ c ∈ rest.head?, isTrit c = false) :
    Takes word bits.text.toList bits rest := by
  have shown : bits.text.toList = bits.reverse.map Trit.toChar := String.toList_ofList
  have accepted : ∀ c ∈ bits.text.toList, isTrit c := by
    intro c member
    rw [shown] at member
    obtain ⟨bit, _, rfl⟩ := List.mem_map.mp member
    exact isTrit_toChar bit
  have value : (bits.text.toList.filterMap Trit.ofChar?).reverse = bits := by
    rw [shown, List.filterMap_map, show Trit.ofChar? ∘ Trit.toChar = some from funext Trit.ofChar?_toChar,
      List.filterMap_some, List.reverse_reverse]
  have read := (takes_letters accepted (by simpa [shown] using some_bit) ends).return
    (f := fun letters => (letters.filterMap Trit.ofChar?).reverse)
  rwa [value] at read

/-- A number may be left out, with its mark, where it is the default. -/
theorem takes_marked {mark : String} {n default : Nat} {hidden : Prop} [Decidable hidden]
    (as_default : hidden → n = default) (absent : hidden → literal mark rest = none)
    (ends : ∀ c ∈ rest.head?, c.isDigit = false) :
    Takes (marked mark default) (if hidden then "" else mark ++ toString n).toList n rest := by
  have number_read : Takes (optional do literal mark; number) (if hidden then "" else mark ++ toString n).toList
      (if hidden then none else some n) rest := by
    refine takes_optional (fun _ => ?_) (fun left_out => ?_)
    · rw [String.toList_append]
      exact Takes.after (takes_number ends)
    · show (literal mark rest).bind _ = none
      rw [absent left_out]
      rfl
  have value : (if hidden then none else some n).getD default = n := by
    split
    · rename_i left_out
      exact (as_default left_out).symm
    · rfl
  have taken := number_read.return (f := fun given => given.getD default)
  rwa [value] at taken

end Tokens

end Reading

end BankedMemory
