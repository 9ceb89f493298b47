import BankedMemory.Text.Unprintable

/-!
# Quoted strings

A string is shown between double quotes. Line ends, tabs and the null character have short forms, quotes and
backslashes are preceded by a backslash, and a character without a printed form is written as its code point in
lower-case hexadecimal digits between braces.
-/

namespace BankedMemory.Text

def hexadecimal (n : Nat) : String := String.ofList (Nat.toDigits 16 n)

/-- The written form of one character inside quotes. -/
def escape (c : Char) : String :=
  if c = '\x00' then "\\0"
  else if c = '\t' then "\\t"
  else if c = '\n' then "\\n"
  else if c = '\r' then "\\r"
  else if c = '"' then "\\\""
  else if c = '\\' then "\\\\"
  else if isUnprintable c then "\\u\x7b" ++ hexadecimal c.toNat ++ "\x7d"
  else String.singleton c

def quote (s : String) : String :=
  "\"" ++ String.join (s.toList.map escape) ++ "\""

end BankedMemory.Text
