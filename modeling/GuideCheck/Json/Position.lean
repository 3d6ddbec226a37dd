set_option autoImplicit false

/-! # Positions in a text

A position is the number of the line, from one, and the number of bytes since the line began. The
byte after a line feed is therefore in column zero of the next line. -/

namespace GuideCheck.Json

/-- A line from one and a column in bytes. -/
structure Position where
  line : Nat
  column : Nat
deriving DecidableEq, Repr

namespace Position

def start : Position := ⟨1, 0⟩

def next (p : Position) (c : Char) : Position :=
  if c = '\n' then ⟨p.line + 1, 0⟩ else ⟨p.line, p.column + c.utf8Size⟩

/-- The position `offset` bytes after `p`, where `p` is the position of the given text. -/
def advance (p : Position) : List Char → (offset : Nat) → Position
  | [], _ => p
  | c :: cs, offset =>
    if offset < c.utf8Size then ⟨p.line, p.column + offset⟩
    else advance (p.next c) cs (offset - c.utf8Size)

end Position

/-- The position of a byte of a text. -/
def positionAt (text : List Char) (offset : Nat) : Position := Position.start.advance text offset

end GuideCheck.Json
