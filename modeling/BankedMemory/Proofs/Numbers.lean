import BankedMemory.Proofs.Words

/-!
# Numbers written into words

A word denotes the number whose binary digits are its bits. A number is written as its low digits, and a word is read
as the number that it denotes. What has been written is read as it was, and what has been read is written as the word
it came from, whatever the width is. A word that is wider than numbers are can be read as long as it ends in zeros.
-/

namespace BankedMemory.Bits

variable {width value : Nat} {word : Bits}

/-- A word denotes a number if its bits are the binary digits of the number, and the number has no other ones. -/
structure Denotes (word : Bits) (number : Nat) : Prop where
  room : number < 2 ^ word.length
  digits : ∀ place < word.length, word[place]? = some (Trit.ofBool (number.testBit place))

instance (number : Nat) : Decidable (word.Denotes number) :=
  decidable_of_iff (number < 2 ^ word.length ∧
      ∀ place < word.length, word[place]? = some (Trit.ofBool (number.testBit place)))
    ⟨fun h => ⟨h.1, h.2⟩, fun h => ⟨h.room, h.digits⟩⟩

theorem denotes_nil_iff {number : Nat} : Denotes [] number ↔ number = 0 := by
  constructor
  · intro denotes
    exact Nat.lt_one_iff.mp denotes.room
  · rintro rfl
    exact ⟨Nat.zero_lt_one, nofun⟩

/-- The first bit is the last digit, and the others denote the number without it. -/
theorem denotes_cons_iff {bit : Trit} {number : Nat} : Denotes (bit :: word) number ↔
    bit = Trit.ofBool (number.testBit 0) ∧ word.Denotes (number / 2) := by
  have room_iff : number < 2 ^ (bit :: word).length ↔ number / 2 < 2 ^ word.length := by
    rw [List.length_cons, Nat.pow_succ]
    omega
  constructor
  · intro denotes
    refine ⟨Option.some.inj (denotes.digits 0 (Nat.zero_lt_succ _)), room_iff.mp denotes.room, fun place inside => ?_⟩
    rw [← Nat.testBit_succ]
    exact denotes.digits (place + 1) (Nat.succ_lt_succ inside)
  · rintro ⟨rfl, denotes⟩
    refine ⟨room_iff.mpr denotes.room, fun place inside => ?_⟩
    cases place with
    | zero => rfl
    | succ place =>
      rw [Nat.testBit_succ]
      exact denotes.digits place (Nat.lt_of_succ_lt_succ inside)

theorem ofBool_testBit_zero (number : Nat) :
    Trit.ofBool (number.testBit 0) = if number % 2 = 1 then .one else .zero := by
  by_cases odd : number % 2 = 1 <;> simp [Nat.testBit_zero, Trit.ofBool, odd]

theorem map_twice_eq_some_iff {read : Option Nat} {number digit : Nat} (small : digit < 2) :
    read.map (2 * · + digit) = some number ↔ number % 2 = digit ∧ read = some (number / 2) := by
  rw [Option.map_eq_some_iff]
  constructor
  · rintro ⟨half, rfl, rfl⟩
    exact ⟨by omega, congrArg some (by omega)⟩
  · rintro ⟨last, rfl⟩
    exact ⟨number / 2, rfl, by omega⟩

/-- The number that is read from a word is the one that it denotes. -/
theorem value?_eq_some_iff {number : Nat} : word.value? = some number ↔ word.Denotes number := by
  induction word generalizing number with
  | nil => rw [denotes_nil_iff, value?, Option.some.injEq, eq_comm]
  | cons bit word ih =>
    rw [denotes_cons_iff, ofBool_testBit_zero, ← ih]
    cases bit with
    | unknown =>
      refine iff_of_false nofun fun ⟨digit, _⟩ => ?_
      split at digit <;> cases digit
    | zero =>
      have even : Trit.zero = (if number % 2 = 1 then .one else .zero) ↔ number % 2 = 0 := by
        split <;> simp <;> omega
      rw [even]
      exact map_twice_eq_some_iff Nat.two_pos
    | one =>
      have odd : Trit.one = (if number % 2 = 1 then .one else .zero) ↔ number % 2 = 1 := by
        split <;> simp <;> omega
      rw [odd]
      exact map_twice_eq_some_iff Nat.one_lt_two

theorem value?_lt {word : Bits} {n : Nat} (h : word.value? = some n) : n < 2 ^ word.length :=
  (value?_eq_some_iff.mp h).room

/-- A word denotes one number at most. -/
theorem Denotes.unique {number other : Nat} (h : word.Denotes number) (h' : word.Denotes other) : number = other :=
  Option.some.inj ((value?_eq_some_iff.mpr h).symm.trans (value?_eq_some_iff.mpr h'))

/-- Words of one width that denote the same number are equal. -/
theorem Denotes.word_unique {a b : Bits} (wide : a.length = b.length) {n : Nat} (ha : a.Denotes n)
    (hb : b.Denotes n) : a = b := by
  refine List.ext_getElem? fun place => ?_
  by_cases inside : place < a.length
  · rw [ha.digits place inside, hb.digits place (wide ▸ inside)]
  · have outside := Nat.le_of_not_lt inside
    rw [List.getElem?_eq_none outside, List.getElem?_eq_none (wide ▸ outside)]

example : Denotes [.zero, .one, .one] 6 := by decide

theorem value?_append (a b : Bits) :
    value? (a ++ b) = (value? a).bind fun x => (value? b).map fun y => x + 2 ^ a.length * y := by
  induction a with
  | nil => simp [value?]
  | cons bit a ih =>
    cases bit with
    | unknown => rfl
    | zero =>
      simp only [List.cons_append, value?, ih, List.length_cons]
      cases value? a <;> cases value? b <;> simp [Nat.pow_succ]
      grind
    | one =>
      simp only [List.cons_append, value?, ih, List.length_cons]
      cases value? a <;> cases value? b <;> simp [Nat.pow_succ]
      grind

theorem value?_eq_none_iff {word : Bits} : word.value? = none ↔ .unknown ∈ word := by
  induction word with
  | nil => simp [value?]
  | cons bit word ih => cases bit <;> simp [value?, ih]

theorem value?_eq_zero_iff (word : Bits) : word.value? = some 0 ↔ word.isZero = true := by
  rw [value?_eq_some_iff, isZero, List.all_eq_true]
  constructor
  · intro denotes bit member
    obtain ⟨place, found⟩ := List.mem_iff_getElem?.mp member
    obtain ⟨inside, _⟩ := List.getElem?_eq_some_iff.mp found
    have digit := found.symm.trans (denotes.digits place inside)
    simpa [Trit.ofBool] using digit
  · intro zeros
    refine ⟨Nat.two_pow_pos _, fun place inside => ?_⟩
    have zero := zeros word[place] (List.getElem_mem inside)
    rw [List.getElem?_eq_getElem inside, of_decide_eq_true zero, Nat.zero_testBit]
    rfl

/-- A word is read as the number that its bits stand for, unless that number is too great. -/
theorem toNat?_eq_filter (word : Bits) : word.toNat? = word.value?.filter (· < 2 ^ numberWidth) := by
  have parts := value?_append (word.take numberWidth) (word.drop numberWidth)
  rw [List.take_append_drop] at parts
  by_cases short : word.length ≤ numberWidth
  · have rest : word.drop numberWidth = [] := List.drop_eq_nil_of_le short
    have bound : ∀ n, word.value? = some n → n < 2 ^ numberWidth := fun n h =>
      Nat.lt_of_lt_of_le (value?_lt h) (Nat.pow_le_pow_right (by decide) short)
    unfold toNat?
    rw [rest, List.take_of_length_le short]
    cases h : word.value? with
    | none => rfl
    | some n => simp [isZero, Option.filter, bound n h]
  · have width : (word.take numberWidth).length = numberWidth := by
      rw [List.length_take]
      omega
    unfold toNat?
    split
    · rename_i zero
      rw [parts, (value?_eq_zero_iff _).mpr zero]
      cases h : value? (word.take numberWidth) with
      | none => rfl
      | some n => simpa [Option.filter, width] using value?_lt h
    · rename_i nonzero
      rw [parts]
      cases hl : value? (word.take numberWidth) with
      | none => rfl
      | some n =>
        cases hh : value? (word.drop numberWidth) with
        | none => rfl
        | some m =>
          have positive : m ≠ 0 := fun h => nonzero ((value?_eq_zero_iff _).mp (h ▸ hh))
          have : 2 ^ numberWidth ≤ n + 2 ^ numberWidth * m := by
            have := Nat.le_mul_of_pos_right (2 ^ numberWidth) (Nat.pos_of_ne_zero positive)
            omega
          simpa [Option.filter, width] using this

theorem toNat?_eq_some_iff {number : Nat} :
    word.toNat? = some number ↔ word.Denotes number ∧ number < 2 ^ numberWidth := by
  rw [toNat?_eq_filter, Option.filter_eq_some_iff, decide_eq_true_iff, value?_eq_some_iff]

theorem value?_ofNat (fits : value < 2 ^ width) : (ofNat width value).value? = some value := by
  induction width generalizing value with
  | zero =>
    obtain rfl : value = 0 := by simpa using fits
    rfl
  | succ width ih =>
    have half : value / 2 < 2 ^ width := by
      rw [Nat.pow_succ] at fits
      omega
    rcases Nat.mod_two_eq_zero_or_one value with even | odd
    · simp only [ofNat, even, Trit.ofBool, zero_ne_one, decide_false, Bool.false_eq_true, if_false, value?, ih half,
        Option.map_some, Option.some.injEq]
      omega
    · simp only [ofNat, odd, Trit.ofBool, decide_true, if_true, value?, ih half, Option.map_some, Option.some.injEq]
      omega

theorem denotes_ofNat (fits : value < 2 ^ width) : (ofNat width value).Denotes value :=
  value?_eq_some_iff.mp (value?_ofNat fits)

/-- The bits of a word are the digits of its number. -/
theorem ofNat_of_value? (h : word.value? = some value) : ofNat word.length value = word :=
  (denotes_ofNat (value?_lt h)).word_unique (length_ofNat word.length value) (value?_eq_some_iff.mp h)

theorem toNat?_ofNat (small : value < 2 ^ numberWidth) (fits : value < 2 ^ width) :
    (ofNat width value).toNat? = some value := by
  rw [toNat?_eq_filter, value?_ofNat fits, Option.filter_some, if_pos (decide_eq_true small)]

/-- A word cannot be read if a bit is unknown, or if a one stands where numbers have no digit. -/
theorem toNat?_eq_none_iff :
    word.toNat? = none ↔ .unknown ∈ word ∨ ∃ place, numberWidth ≤ place ∧ word[place]? = some .one := by
  constructor
  · intro unread
    by_cases short : isZero (word.drop numberWidth) = true
    · rw [toNat?, if_pos short] at unread
      exact .inl (List.mem_of_mem_take (value?_eq_none_iff.mp unread))
    · obtain ⟨bit, member, nonzero⟩ : ∃ bit ∈ word.drop numberWidth, bit ≠ .zero := by
        simpa [isZero] using short
      cases bit with
      | unknown => exact .inl (List.mem_of_mem_drop member)
      | zero => exact absurd rfl nonzero
      | one =>
        obtain ⟨offset, found⟩ := List.mem_iff_getElem?.mp member
        rw [List.getElem?_drop] at found
        exact .inr ⟨numberWidth + offset, Nat.le_add_right numberWidth offset, found⟩
  · rintro (unknown | ⟨place, above, found⟩)
    · rw [toNat?_eq_filter, value?_eq_none_iff.mpr unknown]
      rfl
    · have beyond : (word.drop numberWidth)[place - numberWidth]? = some .one := by
        rw [List.getElem?_drop, Nat.add_sub_cancel' above, found]
      have long : ¬ isZero (word.drop numberWidth) = true := by
        intro zeros
        simpa using List.all_eq_true.mp zeros Trit.one (List.mem_of_getElem? beyond)
      rw [toNat?, if_neg long]

/-- Widths below that of numbers are too narrow for some numbers, and some widths are too great for words. -/
theorem encode_eq_error_iff {cause : Fault} : encode value width = .error cause ↔
    cause = .valueTooWide value width ∧ width < numberWidth ∧ 2 ^ width ≤ value ∨
      cause = .tooLarge ∧ maxWidth < width := by
  unfold encode
  split
  · rename_i narrow
    have within : width ≤ maxWidth := Nat.le_trans (Nat.le_of_lt narrow.1) (by decide)
    constructor
    · intro failed
      cases failed
      exact .inl ⟨rfl, narrow⟩
    · rintro (⟨rfl, _⟩ | ⟨_, large⟩)
      · rfl
      · exact absurd within (Nat.not_le.mpr large)
  · rename_i fits
    split
    · rename_i within
      constructor
      · intro failed
        cases failed
      · rintro (⟨_, narrow⟩ | ⟨_, large⟩)
        · exact absurd narrow fits
        · exact absurd within (Nat.not_le.mpr large)
    · rename_i large
      constructor
      · intro failed
        cases failed
        exact .inr ⟨rfl, Nat.not_le.mp large⟩
      · rintro (⟨_, narrow⟩ | ⟨rfl, _⟩)
        · exact absurd narrow fits
        · rfl

/-- A number has a word in each width in which it has room. -/
theorem encode_eq_ok_iff (small : value < 2 ^ numberWidth) :
    encode value width = .ok word ↔ value < 2 ^ width ∧ width ≤ maxWidth ∧ word = ofNat width value := by
  have room_iff : ¬ (width < numberWidth ∧ Nat.pow 2 width ≤ value) ↔ value < 2 ^ width := by
    constructor
    · intro room
      by_contra crowded
      have wide : numberWidth ≤ width := Nat.not_lt.mp fun narrow => room ⟨narrow, Nat.not_lt.mp crowded⟩
      exact crowded (Nat.lt_of_lt_of_le small (Nat.pow_le_pow_right (by decide) wide))
    · rintro room ⟨_, crowded⟩
      exact Nat.not_le.mpr room crowded
  unfold encode
  by_cases room : value < 2 ^ width
  · rw [if_neg (room_iff.mpr room)]
    by_cases within : width ≤ maxWidth
    · rw [if_pos within]
      exact ⟨fun written => ⟨room, within, (Except.ok.inj written).symm⟩, fun both => congrArg _ both.2.2.symm⟩
    · rw [if_neg within]
      exact iff_of_false nofun fun both => within both.2.1
  · rw [if_pos (not_not.mp (room_iff.not.mpr room))]
    exact iff_of_false nofun fun both => room both.1

/-- Writing a number fails exactly if the width is too narrow for it or too great for any word, and reading one exactly
if a bit is unknown or a one stands too far up. Otherwise each undoes the other. -/
theorem numbers_round_trip (small : value < 2 ^ numberWidth) (width : Nat) (word : Bits) :
    (∀ cause, encode value width = .error cause ↔
      cause = .valueTooWide value width ∧ width < numberWidth ∧ 2 ^ width ≤ value ∨
        cause = .tooLarge ∧ maxWidth < width) ∧
    (∀ written, encode value width = .ok written → written.length = width ∧ written.toNat? = some value) ∧
    (word.toNat? = none ↔ .unknown ∈ word ∨ ∃ place, numberWidth ≤ place ∧ word[place]? = some .one) ∧
    (word.length ≤ maxWidth → ∀ number, word.toNat? = some number →
      number < 2 ^ numberWidth ∧ encode number word.length = .ok word) := by
  refine ⟨fun _ => encode_eq_error_iff, fun written made => ?_, toNat?_eq_none_iff, fun within number read => ?_⟩
  · obtain ⟨room, _, rfl⟩ := (encode_eq_ok_iff small).mp made
    exact ⟨length_ofNat width value, toNat?_ofNat small room⟩
  · rw [toNat?_eq_filter, Option.filter_eq_some_iff] at read
    have below : number < 2 ^ numberWidth := of_decide_eq_true read.2
    exact ⟨below, (encode_eq_ok_iff below).mpr ⟨value?_lt read.1, within, (ofNat_of_value? read.1).symm⟩⟩

def greatestNumber : Nat := 2 ^ numberWidth - 1

/-- The greatest number, with a zero where it has no digit any more. -/
def paddedOnes : Bits := ones numberWidth ++ [.zero]

/-- The greatest number comes back from a word that is wider than numbers are, and so does the word. A one in place of
the zero cannot be read, and one bit less is too narrow. -/
theorem greatest_round_trip : greatestNumber < 2 ^ numberWidth ∧ paddedOnes.length ≤ maxWidth ∧
    paddedOnes.toNat? = some greatestNumber ∧ encode greatestNumber paddedOnes.length = .ok paddedOnes ∧
    (ones (numberWidth + 1)).toNat? = none ∧
    encode greatestNumber (numberWidth - 1) = .error (.valueTooWide greatestNumber (numberWidth - 1)) := by
  have small : greatestNumber < 2 ^ numberWidth := by decide
  have within : paddedOnes.length ≤ maxWidth := by decide +kernel
  have made : encode greatestNumber (numberWidth + 1) = .ok paddedOnes := by decide +kernel
  obtain ⟨_, returns, _, rewrites⟩ := numbers_round_trip small (numberWidth + 1) paddedOnes
  obtain ⟨refuses, _, unread, _⟩ := numbers_round_trip small (numberWidth - 1) (ones (numberWidth + 1))
  have read : paddedOnes.toNat? = some greatestNumber := (returns paddedOnes made).2
  refine ⟨small, within, read, (rewrites within greatestNumber read).2, unread.mpr (.inr ?_), (refuses _).mpr (.inl ?_)⟩
  · exact ⟨numberWidth, Nat.le_refl numberWidth, by decide +kernel⟩
  · exact ⟨rfl, by decide, by decide⟩

/-- The number has room in this width, but no word is so wide. -/
theorem zero_refused : 0 < 2 ^ numberWidth ∧ ¬ 2 ^ 63 < numberWidth ∧ encode 0 (2 ^ 63) = .error .tooLarge :=
  ⟨by decide, by decide, encode_eq_error_iff.mpr (.inr ⟨rfl, by decide⟩)⟩

end BankedMemory.Bits
