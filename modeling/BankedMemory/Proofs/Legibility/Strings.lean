import BankedMemory.Text.Quoted
import BankedMemory.Proofs.Legibility.Reading

/-!
# Quoted strings can be read

The written form of a string tells the string, and where it ends: a quote inside it never stands by itself, so the
first one that does is the closing one.
-/

namespace BankedMemory.Reading

def character : Reading Char
  | c :: rest => some (c, rest)
  | [] => none

/-- The value of a lower-case hexadecimal digit. -/
def digitValue (c : Char) : Nat := if c.isDigit then c.toNat - '0'.toNat else c.toNat - 'a'.toNat + 10

def hexadecimalValue (digits : List Char) : Nat := digits.foldl (fun n c => 16 * n + digitValue c) 0

/-- What stands behind a backslash. -/
def escaped : Reading Char := do
  match ← character with
  | '0' => return '\x00'
  | 't' => return '\t'
  | 'n' => return '\n'
  | 'r' => return '\r'
  | 'u' => do
    literal "\x7b"
    let digits ← letters (· ≠ '\x7d')
    literal "\x7d"
    return Char.ofNat (hexadecimalValue digits)
  | c => return c

/-- One character inside quotes. -/
def shown : Reading Char := do
  match ← character with
  | '"' => failure
  | '\\' => escaped
  | c => return c

def quoted : Reading String := do
  literal "\""
  let characters ← many shown
  literal "\""
  return String.ofList characters

variable {α : Type} {rest : List Char}

theorem takes_character {c : Char} {next : Char → Reading α} {later : List Char} {x : α}
    (taken : Takes (next c) later x rest) : Takes (character >>= next) (c :: later) x rest := taken

theorem digitValue_digitChar {d : Nat} (h : d < 16) : digitValue d.digitChar = d := by
  revert d
  decide

theorem digitChar_ne_brace {d : Nat} (h : d < 16) : d.digitChar ≠ '\x7d' := by
  revert d
  decide

/-- What holds of each single digit, and still holds when one more digit is written behind, holds of all numerals. -/
theorem toDigits_induction {P : Nat → List Char → Prop} (digit : ∀ d < 16, P d [d.digitChar])
    (further : ∀ n digits, P (n / 16) digits → P n (digits ++ [(n % 16).digitChar])) (n : Nat) :
    P n (Nat.toDigits 16 n) := by
  induction n using Nat.strongRecOn with
  | ind n ih =>
    rw [Nat.toDigits_eq_if (by decide)]
    split
    · rename_i small
      exact digit n small
    · exact further n _ (ih (n / 16) (by omega))

theorem hexadecimalValue_toDigits (n : Nat) : hexadecimalValue (Nat.toDigits 16 n) = n := by
  induction n using toDigits_induction with
  | digit d small => simp [hexadecimalValue, digitValue_digitChar small]
  | further n digits higher =>
    rw [hexadecimalValue] at higher
    rw [hexadecimalValue, List.foldl_append, higher, List.foldl_cons, List.foldl_nil,
      digitValue_digitChar (Nat.mod_lt n (by decide))]
    omega

theorem ne_brace_of_mem_toDigits (n : Nat) : ∀ c ∈ Nat.toDigits 16 n, c ≠ '\x7d' := by
  induction n using toDigits_induction with
  | digit d small =>
    intro c member
    obtain rfl := List.mem_singleton.mp member
    exact digitChar_ne_brace small
  | further n digits higher =>
    intro c member
    rcases List.mem_append.mp member with before | last
    · exact higher c before
    · obtain rfl := List.mem_singleton.mp last
      exact digitChar_ne_brace (Nat.mod_lt n (by decide))

/-- A character written by its number is found again. -/
theorem takes_number_of_character (c : Char) :
    Takes shown ("\\u\x7b" ++ Text.hexadecimal c.toNat ++ "\x7d").toList c rest := by
  have digits : (Text.hexadecimal c.toNat).toList = Nat.toDigits 16 c.toNat := String.toList_ofList
  have read : Takes (letters (· ≠ '\x7d')) (Nat.toDigits 16 c.toNat) (Nat.toDigits 16 c.toNat)
      ("\x7d".toList ++ rest) :=
    takes_letters (fun d member => decide_eq_true (ne_brace_of_mem_toDigits c.toNat d member)) Nat.toDigits_ne_nil
      (fun d first => by
        obtain rfl := Option.some.inj first
        rfl)
  have code : Takes escaped ('u' :: ("\x7b".toList ++ (Nat.toDigits 16 c.toNat ++ "\x7d".toList))) c rest := by
    refine takes_character (Takes.after (read.bind ?_))
    rw [hexadecimalValue_toDigits, Char.ofNat_toNat]
    exact (takes_literal "\x7d").return
  rw [String.toList_append, String.toList_append, digits, List.append_assoc]
  exact takes_character code

theorem takes_shown (c : Char) : Takes shown (Text.escape c).toList c rest := by
  unfold Text.escape
  split_ifs with null tab newline carriage quote backslash
  · rw [null]
    rfl
  · rw [tab]
    rfl
  · rw [newline]
    rfl
  · rw [carriage]
    rfl
  · rw [quote]
    rfl
  · rw [backslash]
    rfl
  · exact takes_number_of_character c
  · rw [String.toList_singleton]
    refine takes_character (?_ : Takes _ [] c rest)
    split
    · exact absurd rfl quote
    · exact absurd rfl backslash
    · exact takes_pure

/-- A string is read from its quoted form, whatever follows. -/
theorem takes_quoted (s : String) : Takes quoted (Text.quote s).toList s rest := by
  have characters : Takes (many shown) (s.toList.flatMap fun c => (Text.escape c).toList) (s.toList.map fun c => c)
      ("\"".toList ++ rest) :=
    takes_lines (fun c _ _ => takes_shown c) rfl rfl
  rw [List.map_id'] at characters
  rw [Text.quote, String.toList_append, String.toList_append, String.toList_join, List.flatMap_map, List.append_assoc]
  unfold quoted
  refine Takes.after (characters.bind ?_)
  rw [String.ofList_toList]
  exact (takes_literal "\"").return

end BankedMemory.Reading
