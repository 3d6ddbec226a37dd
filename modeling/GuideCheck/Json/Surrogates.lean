import GuideCheck.Json.Quoted

set_option autoImplicit false

/-! # Surrogate escapes without a partner

A payload may hold escapes of single surrogates, which stand for no character. Before it is read,
each of them becomes the escape of U+FFFD, which is as wide, so positions stay what they are. The
text is cut into pieces, escapes staying whole, and only a surrogate escape that is not half of a
pair changes. -/

namespace GuideCheck.Json

/-- A piece of a text, as far as escapes are concerned. -/
inductive Piece
  | plain (c : Char)
  /-- a backslash and the character after it -/
  | escape (c : Char)
  /-- the escape of a code unit by four hexadecimal digits -/
  | unit (a b c d : Char)
deriving DecidableEq, Repr

namespace Piece

def text : Piece → List Char
  | plain c => [c]
  | escape c => ['\\', c]
  | unit a b c d => ['\\', 'u', a, b, c, d]

/-- The code unit of a piece. -/
def unit? : Piece → Option Nat
  | unit a b c d => Quoted.unit? [d, c, b, a]
  | _ => none

def isHigh (p : Piece) : Bool := p.unit?.any Quoted.isHigh

def isLow (p : Piece) : Bool := p.unit?.any Quoted.isLow

/-- What a piece that is half of no pair becomes. -/
def alone (p : Piece) : Piece :=
  if p.isHigh ∨ p.isLow then unit 'f' 'f' 'f' 'd' else p

end Piece

def isHexDigit (c : Char) : Bool := (Text.hexDigit? c).isSome

/-- The pieces of a text; a backslash takes the character after it along. -/
def pieces : List Char → List Piece
  | [] => []
  | '\\' :: 'u' :: a :: b :: c :: d :: rest =>
    if isHexDigit a ∧ isHexDigit b ∧ isHexDigit c ∧ isHexDigit d then .unit a b c d :: pieces rest
    else .escape 'u' :: pieces (a :: b :: c :: d :: rest)
  | '\\' :: c :: rest => .escape c :: pieces rest
  | c :: rest => .plain c :: pieces rest

def textOf (ps : List Piece) : List Char := ps.flatMap Piece.text

/-- The pieces with every surrogate that has no partner replaced. -/
def mend : List Piece → List Piece
  | [] => []
  | [p] => [p.alone]
  | p :: q :: rest =>
    if p.isHigh ∧ q.isLow then p :: q :: mend rest else p.alone :: mend (q :: rest)

/-- The text with every escape of a surrogate that has no partner replaced. -/
def mendSurrogates (text : List Char) : List Char := textOf (mend (pieces text))

/-! ## Laws -/

/-- The pieces of a text make up the text. -/
theorem textOf_pieces (text : List Char) : textOf (pieces text) = text := by
  fun_induction pieces text with
  | case1 => rfl
  | case2 a b c d rest _ ih => simp_all [textOf, Piece.text]
  | case3 a b c d rest _ ih => simp_all [textOf, Piece.text]
  | case4 c rest _ ih => simp_all [textOf, Piece.text]
  | case5 c rest _ _ ih => simp_all [textOf, Piece.text]

end GuideCheck.Json
