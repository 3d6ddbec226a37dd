import GuideCheck.Text.Code

set_option autoImplicit false

/-! # TOML strings

A string stands in double quotes, with escapes, or in single quotes, where every character stands
for itself; three quotes instead of one allow line feeds. Up to two quotes may stand right before
the three that end such a string. -/

namespace GuideCheck.Toml

/-- A text and what follows it. -/
abbrev Scanned := Option (List Char × List Char)

/-- The scanned text with one more character in front. -/
def Scanned.cons (c : Char) (s : Scanned) : Scanned := s.map fun (text, rest) => (c :: text, rest)

/-- Whether a character may not stand for itself; a tab may. -/
def isControl (c : Char) : Bool := (c.toNat < 0x20 && c != '\t') || c.toNat == 0x7f

/-! ## Escapes -/

/-- Where a string with escapes has been read to. -/
inductive Escape
  /-- outside of escapes -/
  | outside
  /-- after a backslash -/
  | begun
  /-- in the digits of a code point, of which some are left -/
  | code (left value : Nat)
  /-- between a backslash and the end of its line -/
  | lineEnd
  /-- in the blanks and line feeds after that -/
  | skipping

/-- The character that an escape of one letter stands for. -/
def escapedChar? : Char → Option Char
  | 'b' => some '\x08'
  | 't' => some '\t'
  | 'n' => some '\n'
  | 'f' => some '\x0c'
  | 'r' => some '\r'
  | 'e' => some '\x1b'
  | '"' => some '"'
  | '\\' => some '\\'
  | _ => none

/-- How many digits the escape of a code point has. -/
def codeLength? : Char → Option Nat
  | 'x' => some 2
  | 'u' => some 4
  | 'U' => some 8
  | _ => none

/-- What a character inside an escape leads to: a character of the text or the next state. -/
def Escape.step (multiline : Bool) : Escape → Char → Option (Char ⊕ Escape)
  | code left value, c =>
    (Text.hexDigit? c).bind fun digit =>
      match left with
      | 0 | 1 => (Text.ofCode? (value * 16 + digit)).map .inl
      | left + 1 => some (.inr (code left (value * 16 + digit)))
  | lineEnd, c =>
    if c = ' ' ∨ c = '\t' then some (.inr lineEnd)
    else if c = '\n' then some (.inr skipping)
    else none
  | _, c =>
    match escapedChar? c, codeLength? c with
    | some char, _ => some (.inl char)
    | none, some length => some (.inr (code length 0))
    | none, none =>
      if multiline then
        if c = ' ' ∨ c = '\t' then some (.inr lineEnd)
        else if c = '\n' then some (.inr skipping)
        else none
      else none

/-! ## In double quotes -/

/-- The rest of a string in double quotes. -/
def basic? (state : Escape) : List Char → Scanned
  | [] => none
  | c :: rest =>
    match state with
    | .outside =>
      if c = '"' then some ([], rest)
      else if c = '\\' then basic? .begun rest
      else if isControl c then none
      else (basic? .outside rest).cons c
    | state =>
      match state.step false c with
      | some (.inl char) => (basic? .outside rest).cons char
      | some (.inr next) => basic? next rest
      | none => none

/-- The rest of a string in three double quotes. -/
def multilineBasic? (state : Escape) (text : List Char) : Scanned :=
  match text with
  | [] => none
  | '\r' :: '\n' :: rest =>
    match state with
    | .outside => ((multilineBasic? .outside rest).cons '\n').cons '\r'
    | .begun | .lineEnd | .skipping => multilineBasic? .skipping rest
    | .code _ _ => none
  | c :: rest =>
    match state with
    | .outside => plain c rest
    | .skipping =>
      if c = ' ' ∨ c = '\t' ∨ c = '\n' then multilineBasic? .skipping rest else plain c rest
    | state =>
      match state.step true c with
      | some (.inl char) => (multilineBasic? .outside rest).cons char
      | some (.inr next) => multilineBasic? next rest
      | none => none
where
  /-- A character outside of escapes. -/
  plain (c : Char) (rest : List Char) : Scanned :=
    if c = '"' then
      match rest with
      | '"' :: '"' :: '"' :: '"' :: rest => some (['"', '"'], rest)
      | '"' :: '"' :: '"' :: rest => some (['"'], rest)
      | '"' :: '"' :: rest => some ([], rest)
      | rest => (multilineBasic? .outside rest).cons '"'
    else if c = '\\' then multilineBasic? .begun rest
    else if isControl c ∧ c ≠ '\n' then none
    else (multilineBasic? .outside rest).cons c

/-! ## In single quotes -/

/-- The rest of a string in single quotes. -/
def literal? : List Char → Scanned
  | [] => none
  | c :: rest =>
    if c = '\'' then some ([], rest)
    else if isControl c then none
    else (literal? rest).cons c

/-- The rest of a string in three single quotes. -/
def multilineLiteral? : List Char → Scanned
  | [] => none
  | '\r' :: '\n' :: rest => ((multilineLiteral? rest).cons '\n').cons '\r'
  | '\'' :: '\'' :: '\'' :: '\'' :: '\'' :: rest => some (['\'', '\''], rest)
  | '\'' :: '\'' :: '\'' :: '\'' :: rest => some (['\''], rest)
  | '\'' :: '\'' :: '\'' :: rest => some ([], rest)
  | c :: rest =>
    if isControl c ∧ c ≠ '\n' then none else (multilineLiteral? rest).cons c

/-! ## Any string -/

/-- A text without the line end it may begin with. -/
def dropLineEnd : List Char → List Char
  | '\n' :: rest => rest
  | '\r' :: '\n' :: rest => rest
  | text => text

/-- A string literal and what follows it. -/
def quoted? : List Char → Scanned
  | '"' :: '"' :: '"' :: rest => multilineBasic? .outside (dropLineEnd rest)
  | '"' :: rest => basic? .outside rest
  | '\'' :: '\'' :: '\'' :: rest => multilineLiteral? (dropLineEnd rest)
  | '\'' :: rest => literal? rest
  | _ => none

end GuideCheck.Toml
