set_option autoImplicit false

/-! # Code points written in digits

Escapes give a character by its code point in hexadecimal digits. Surrogates and numbers past the
last code point are no characters. -/

namespace GuideCheck.Text

/-- The value of a hexadecimal digit. -/
def hexDigit? (c : Char) : Option Nat :=
  if '0' ≤ c ∧ c ≤ '9' then some (c.toNat - '0'.toNat)
  else if 'a' ≤ c ∧ c ≤ 'f' then some (c.toNat - 'a'.toNat + 10)
  else if 'A' ≤ c ∧ c ≤ 'F' then some (c.toNat - 'A'.toNat + 10)
  else none

/-- The number with these hexadecimal digits. -/
def hexNumber? (digits : List Char) : Option Nat :=
  digits.foldlM (fun n c => (hexDigit? c).map fun d => n * 16 + d) 0

/-- The character of a code point. -/
def ofCode? (code : Nat) : Option Char := if code.isValidChar then some (Char.ofNat code) else none

end GuideCheck.Text
