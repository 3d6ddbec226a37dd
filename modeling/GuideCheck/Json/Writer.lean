import GuideCheck.Json.Value
import GuideCheck.Double.Layout

set_option autoImplicit false

/-! # Writing JSON

The compact form has no spaces. In a string only the quote, the backslash and the control characters
below U+0020 are escaped, with a letter where there is one and by four hexadecimal digits
otherwise. -/

namespace GuideCheck

/-- The text of a number: an integer in decimal digits, a double with its shortest digits. -/
def Number.text : Number → String
  | int value => toString value
  | double value => value.toText Double.jsonLayout

namespace Json

/-- The lower-case hexadecimal digit of a number below sixteen. -/
def hexDigit (n : Nat) : Char := if n < 10 then Char.ofNat (48 + n) else Char.ofNat (87 + n)

/-- How a character is written inside a string. -/
def escapeChar (c : Char) : List Char :=
  match c with
  | '"' => ['\\', '"']
  | '\\' => ['\\', '\\']
  | '\x08' => ['\\', 'b']
  | '\t' => ['\\', 't']
  | '\n' => ['\\', 'n']
  | '\x0c' => ['\\', 'f']
  | '\r' => ['\\', 'r']
  | c =>
    if c.toNat < 0x20 then ['\\', 'u', '0', '0', hexDigit (c.toNat / 16), hexDigit (c.toNat % 16)]
    else [c]

/-- A string literal. -/
def quote (text : String) : List Char := '"' :: text.toList.flatMap escapeChar ++ ['"']

mutual

/-- The compact form of a value. -/
def write : Json → List Char
  | null => ['n', 'u', 'l', 'l']
  | bool true => ['t', 'r', 'u', 'e']
  | bool false => ['f', 'a', 'l', 's', 'e']
  | num value => value.text.toList
  | str text => quote text
  | arr items => '[' :: writeItems items
  | obj members => '{' :: writeMembers members

/-- Items with commas between them, and the closing bracket. -/
def writeItems : List Json → List Char
  | [] => [']']
  | [item] => item.write ++ [']']
  | item :: rest => item.write ++ ',' :: writeItems rest

/-- Members with commas between them, and the closing brace. -/
def writeMembers : List (String × Json) → List Char
  | [] => ['}']
  | [(key, value)] => quote key ++ ':' :: value.write ++ ['}']
  | (key, value) :: rest => quote key ++ ':' :: value.write ++ ',' :: writeMembers rest

end

def compact (value : Json) : String := String.ofList value.write

end Json

end GuideCheck
