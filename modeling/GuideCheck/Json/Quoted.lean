import GuideCheck.Json.Fault
import GuideCheck.Text.Code
import GuideCheck.Text.Units

set_option autoImplicit false

/-! # String literals

A string is read character by character after its opening quote. Code points outside the basic plane
may be escaped as a pair of surrogates; a surrogate without its partner is refused. -/

namespace GuideCheck.Json

/-- How far a string literal has been read. -/
inductive Quoted.Stage
  /-- outside of escapes -/
  | plain
  /-- after a backslash -/
  | escape
  /-- in the four bytes of a first code unit; the characters read so far, latest first -/
  | hex (seen : List Char)
  /-- a backslash must follow the leading surrogate `high` -/
  | pairMark (high : Nat)
  /-- the letter `u` must follow that backslash -/
  | pairLetter (high : Nat)
  /-- in the four bytes of a second code unit -/
  | pairHex (high : Nat) (seen : List Char)
deriving DecidableEq, Repr

/-- The part of a string literal that has been read: its characters, latest first. -/
structure Quoted where
  chars : List Char
  stage : Quoted.Stage
deriving DecidableEq, Repr

namespace Quoted

/-- What one more character does to a string literal. -/
inductive Step
  | more (quoted : Quoted)
  /-- the closing quote was read -/
  | closed (text : String)
  /-- a fault is reported so many bytes after the start of the character -/
  | fault (cause : Cause) (past : Nat)

/-- A string literal after its opening quote. -/
def opened : Quoted := ⟨[], .plain⟩

def push (q : Quoted) (c : Char) : Quoted := ⟨c :: q.chars, .plain⟩

/-- The character that an escape of one letter stands for. -/
def escaped? : Char → Option Char
  | '"' => some '"'
  | '\\' => some '\\'
  | '/' => some '/'
  | 'b' => some '\x08'
  | 'f' => some '\x0c'
  | 'n' => some '\n'
  | 'r' => some '\r'
  | 't' => some '\t'
  | _ => none

/-- The code unit with these hexadecimal digits, latest first. -/
def unit? : List Char → Option Nat
  | [] => some 0
  | c :: cs => (unit? cs).bind fun high => (Text.hexDigit? c).map fun low => high * 16 + low

def isHigh (unit : Nat) : Bool := 0xd800 ≤ unit && unit < 0xdc00

def isLow (unit : Nat) : Bool := 0xdc00 ≤ unit && unit < 0xe000

/-- The character of a pair of surrogates. -/
def ofPair (high low : Nat) : Char :=
  Char.ofNat ((high - 0xd800) * 0x400 + (low - 0xdc00) + 0x10000)

/-- What the next of the four bytes of a code unit leads to. -/
inductive HexStep
  | more (seen : List Char)
  | unit (value : Nat)
  /-- the four bytes are no hexadecimal digits; they end so many bytes after the character began -/
  | bad (past : Nat)

/-- Reads a character of the four bytes of a code unit; it may reach past the fourth. -/
def hexStep (seen : List Char) (c : Char) : HexStep :=
  let before := Text.bytes seen
  if before + c.utf8Size < 4 then .more (c :: seen)
  else if seen.length = 3 then
    match unit? (c :: seen) with
    | some unit => .unit unit
    | none => .bad (4 - before)
  else .bad (4 - before)

/-- The step after a whole first code unit. -/
def firstUnit (q : Quoted) (unit : Nat) : Step :=
  if isLow unit then .fault .loneSurrogate 1
  else if isHigh unit then .more { q with stage := .pairMark unit }
  else .more (q.push (Char.ofNat unit))

/-- The step after a whole second code unit. -/
def secondUnit (q : Quoted) (high unit : Nat) : Step :=
  if isLow unit then .more (q.push (ofPair high unit)) else .fault .loneSurrogate 1

/-- Reads one more character. -/
def step (q : Quoted) (c : Char) : Step :=
  match q.stage with
  | .plain =>
    if c = '"' then .closed (String.ofList q.chars.reverse)
    else if c = '\\' then .more { q with stage := .escape }
    else if c.toNat < 0x20 then .fault .controlCharacter 1
    else .more (q.push c)
  | .escape =>
    if c = 'u' then .more { q with stage := .hex [] }
    else
      match escaped? c with
      | some char => .more (q.push char)
      | none => .fault .invalidEscape 1
  | .hex seen =>
    match hexStep seen c with
    | .more seen => .more { q with stage := .hex seen }
    | .unit unit => q.firstUnit unit
    | .bad past => .fault .invalidEscape past
  | .pairMark high =>
    if c = '\\' then .more { q with stage := .pairLetter high } else .fault .unfinishedPair 1
  | .pairLetter high =>
    if c = 'u' then .more { q with stage := .pairHex high [] } else .fault .unfinishedPair 1
  | .pairHex high seen =>
    match hexStep seen c with
    | .more seen => .more { q with stage := .pairHex high seen }
    | .unit unit => q.secondUnit high unit
    | .bad past => .fault .invalidEscape past

end Quoted

end GuideCheck.Json
