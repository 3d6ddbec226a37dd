import GuideCheck.Json.Writer

set_option autoImplicit false

/-! # Writing TOML strings

The form of a string follows from its characters. Without quotes, backslashes, line feeds and
control characters it stands in double quotes; else in single quotes if it can; else, as long as
nothing in it needs an escape, in three double or three single quotes; and else with escapes. -/

namespace GuideCheck.Toml

/-- The length of the longest row of a character. -/
def longestRow (mark : Char) (text : List Char) : Nat :=
  (text.foldl (fun (row, longest) c =>
    if c = mark then (row + 1, max longest (row + 1)) else (0, longest)) (0, 0)).2

/-- Whether a character can only be written as an escape; a tab and a line feed need none. -/
def needsEscape (c : Char) : Bool :=
  (c.toNat < 0x20 && c != '\t' && c != '\n') || c.toNat == 0x7f

/-- The four forms of a string. -/
inductive TextForm
  | basic
  | literal
  | multilineBasic
  | multilineLiteral
deriving DecidableEq, Repr

def formOf (text : List Char) : TextForm :=
  let control := text.any needsEscape
  let backslash := text.contains '\\'
  let lineFeed := text.contains '\n'
  let double := longestRow '"' text
  let single := longestRow '\'' text
  if !control && !backslash && double == 0 && !lineFeed then .basic
  else if !control && single == 0 && !lineFeed then .literal
  else if !control && !backslash && double ≤ 2 then .multilineBasic
  else if !control && single ≤ 2 then .multilineLiteral
  else if lineFeed then .multilineBasic
  else .basic

/-- An upper-case hexadecimal digit. -/
def upperHexDigit (n : Nat) : Char := if n < 10 then Char.ofNat (48 + n) else Char.ofNat (55 + n)

def escapeControl (c : Char) : List Char :=
  match c with
  | '\x08' => ['\\', 'b']
  | '\t' => ['\\', 't']
  | '\n' => ['\\', 'n']
  | '\x0c' => ['\\', 'f']
  | '\r' => ['\\', 'r']
  | c => ['\\', 'u', '0', '0', upperHexDigit (c.toNat / 16), upperHexDigit (c.toNat % 16)]

/-- The characters of a string with escapes. In a string of several lines a line feed stands for
    itself, and so do two double quotes in a row; `row` counts the quotes just written. -/
def escapeText (multiline : Bool) (row : Nat) : List Char → List Char
  | [] => []
  | c :: rest =>
    if c = '"' then
      if multiline ∧ row < 2 then '"' :: escapeText multiline (row + 1) rest
      else '\\' :: '"' :: escapeText multiline 0 rest
    else if c = '\\' then '\\' :: '\\' :: escapeText multiline 0 rest
    else if c = '\n' ∧ multiline then c :: escapeText multiline 0 rest
    else if c.toNat < 0x20 ∨ c.toNat = 0x7f then escapeControl c ++ escapeText multiline 0 rest
    else c :: escapeText multiline 0 rest

/-- What follows the opening quotes of a string of several lines that has a line feed in it. -/
def lineStart (text : List Char) : List Char := if text.contains '\n' then ['\n'] else []

/-- A string in the form that its characters ask for. -/
def quote (text : String) : String :=
  let chars := text.toList
  String.ofList <|
    match formOf chars with
    | .basic => ['"'] ++ escapeText false 0 chars ++ ['"']
    | .literal => ['\''] ++ chars ++ ['\'']
    | .multilineBasic =>
      ['"', '"', '"'] ++ lineStart chars ++ escapeText true 0 chars ++ ['"', '"', '"']
    | .multilineLiteral =>
      ['\'', '\'', '\''] ++ lineStart chars ++ chars ++ ['\'', '\'', '\'']

end GuideCheck.Toml
