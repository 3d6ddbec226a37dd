import GuideCheck.Json.Numeral
import GuideCheck.Json.Quoted

set_option autoImplicit false

/-! # Reading JSON

The reader is a machine that takes one character at a time: a stack of the arrays and objects that
are open, and what it expects next. A fault is reported just after the first byte of the character
that shows it, with two exceptions that the literals define: a number too large is reported where
the number ended, and an escape without four hexadecimal digits after its four bytes. A fault at the
end of the text is reported there.

`Json.read?` yields members in the order of the text; `Json.parse` normalizes them. -/

namespace GuideCheck.Json

/-! ## States -/

/-- An array or object that is open. -/
inductive Frame
  /-- the items read so far, latest first -/
  | array (items : List Json)
  /-- the members read so far, latest first, and the key of the member being read -/
  | object (members : List (String × Json)) (key : String)

/-- The value of a frame that is closed. -/
def Frame.value : Frame → Json
  | array items => .arr items.reverse
  | object members _ => .obj members.reverse

/-- Where a value is expected. -/
inductive Place
  | root
  | firstItem
  | nextItem
  | member
deriving DecidableEq

/-- What the reader expects next. -/
inductive Expected
  | value (place : Place)
  | key (first : Bool)
  | colon
  /-- a comma or the closing bracket -/
  | comma
  /-- the rest of a word that stands for a value -/
  | word (rest : List Char) (value : Json)
  | number (numeral : Numeral)
  | keyText (quoted : Quoted)
  | valueText (quoted : Quoted)
  /-- nothing but spaces after the value of the text -/
  | nothing (value : Json)

/-- A state of the reader: the open frames, innermost first, and what is expected. -/
structure Reader where
  frames : List Frame
  expected : Expected

namespace Reader

def initial : Reader := ⟨[], .value .root⟩

/-- How many arrays and objects may be open at once. -/
def maxDepth : Nat := 127

/-- Whether a character may stand between tokens. -/
def isSpace (c : Char) : Bool := c == ' ' || c == '\n' || c == '\t' || c == '\r'

/-- The state after a whole value inside the given frames. -/
def give (frames : List Frame) (value : Json) : Reader :=
  match frames with
  | [] => ⟨[], .nothing value⟩
  | .array items :: outer => ⟨.array (value :: items) :: outer, .comma⟩
  | .object members key :: outer => ⟨.object ((key, value) :: members) key :: outer, .comma⟩

/-- The state after the key of a member. -/
def giveKey (frames : List Frame) (key : String) : Reader :=
  match frames with
  | .object members _ :: outer => ⟨.object members key :: outer, .colon⟩
  | frames => ⟨frames, .colon⟩

/-- The state after the innermost frame is closed. -/
def close (frames : List Frame) : Reader :=
  match frames with
  | [] => ⟨[], .nothing .null⟩
  | frame :: outer => give outer frame.value

/-- The state after a bracket that opens a frame. -/
def enter (frames : List Frame) (frame : Frame) (expected : Expected) : Except Cause Reader :=
  if maxDepth ≤ frames.length then .error .tooDeep else .ok ⟨frame :: frames, expected⟩

/-! ## Steps -/

/-- A character where a value is expected. -/
def stepValue (frames : List Frame) (place : Place) (c : Char) : Except Cause Reader :=
  if isSpace c then .ok ⟨frames, .value place⟩
  else
    match c with
    | '"' => .ok ⟨frames, .valueText .opened⟩
    | '[' => enter frames (.array []) (.value .firstItem)
    | '{' => enter frames (.object [] "") (.key true)
    | 'n' => .ok ⟨frames, .word ['u', 'l', 'l'] .null⟩
    | 't' => .ok ⟨frames, .word ['r', 'u', 'e'] (.bool true)⟩
    | 'f' => .ok ⟨frames, .word ['a', 'l', 's', 'e'] (.bool false)⟩
    | '-' => .ok ⟨frames, .number .negated⟩
    | c =>
      match Numeral.digit? c with
      | some d => .ok ⟨frames, .number (.firstDigit false d)⟩
      | none =>
        if c = ']' ∧ place = .firstItem then .ok (close frames)
        else if c = ']' ∧ place = .nextItem then .error .trailingComma
        else .error .expectedValue

/-- A character where a key is expected. -/
def stepKey (frames : List Frame) (first : Bool) (c : Char) : Except Cause Reader :=
  if isSpace c then .ok ⟨frames, .key first⟩
  else if c = '"' then .ok ⟨frames, .keyText .opened⟩
  else if c = '}' then if first then .ok (close frames) else .error .trailingComma
  else .error .keyNotString

/-- A character after a value inside a frame. -/
def stepComma (frames : List Frame) (c : Char) : Except Cause Reader :=
  if isSpace c then .ok ⟨frames, .comma⟩
  else
    match frames with
    | .object _ _ :: _ =>
      if c = ',' then .ok ⟨frames, .key false⟩
      else if c = '}' then .ok (close frames)
      else .error .expectedObjectEnd
    | _ =>
      if c = ',' then .ok ⟨frames, .value .nextItem⟩
      else if c = ']' then .ok (close frames)
      else .error .expectedListEnd

/-- A character after the value of the text. -/
def stepNothing (value : Json) (c : Char) : Except Cause Reader :=
  if isSpace c then .ok ⟨[], .nothing value⟩ else .error .trailingCharacters

/-- A character after a number, which belongs to what follows the number. -/
def stepAfter (frames : List Frame) (value : Json) (c : Char) : Except Cause Reader :=
  match give frames value with
  | ⟨_, .nothing value⟩ => stepNothing value c
  | after => stepComma after.frames c

/-- A cause reported just after the first byte of the character at `offset`. -/
def reported (offset : Nat) (result : Except Cause Reader) : Except Fault Reader :=
  result.mapError fun cause => ⟨cause, offset + 1⟩

/-- Takes the character `c`, which begins at the byte `offset`. -/
def step (state : Reader) (offset : Nat) (c : Char) : Except Fault Reader :=
  let frames := state.frames
  match state.expected with
  | .value place => reported offset (stepValue frames place c)
  | .key first => reported offset (stepKey frames first c)
  | .colon =>
    if isSpace c then .ok state
    else if c = ':' then .ok ⟨frames, .value .member⟩
    else .error ⟨.expectedColon, offset + 1⟩
  | .comma => reported offset (stepComma frames c)
  | .word [] value => .ok (give frames value)
  | .word (w :: rest) value =>
    if c ≠ w then .error ⟨.expectedWord, offset + 1⟩
    else if rest = [] then .ok (give frames value)
    else .ok ⟨frames, .word rest value⟩
  | .number numeral =>
    match numeral.step c with
    | .more numeral => .ok ⟨frames, .number numeral⟩
    | .fault cause => .error ⟨cause, offset + 1⟩
    | .done =>
      match numeral.finish with
      | some number => reported offset (stepAfter frames (.num number) c)
      | none => .error ⟨.numberOutOfRange, offset⟩
  | .keyText quoted =>
    match quoted.step c with
    | .more quoted => .ok ⟨frames, .keyText quoted⟩
    | .closed text => .ok (giveKey frames text)
    | .fault cause past => .error ⟨cause, offset + past⟩
  | .valueText quoted =>
    match quoted.step c with
    | .more quoted => .ok ⟨frames, .valueText quoted⟩
    | .closed text => .ok (give frames (.str text))
    | .fault cause past => .error ⟨cause, offset + past⟩
  | .nothing value => reported offset (stepNothing value c)

/-- The end of the text after a value. -/
def endAfter (state : Reader) : Except Cause Json :=
  match state with
  | ⟨_, .nothing value⟩ => .ok value
  | ⟨.object _ _ :: _, _⟩ => .error .endInObject
  | _ => .error .endInList

/-- The end of the text: its value, or what is missing. -/
def finish (state : Reader) : Except Cause Json :=
  match state.expected with
  | .value .firstItem => .error .endInList
  | .value _ => .error .endInValue
  | .key true => .error .endInObject
  | .key false => .error .endInValue
  | .colon => .error .endInObject
  | .comma | .nothing _ => state.endAfter
  | .word _ _ => .error .endInValue
  | .number numeral =>
    if ¬ numeral.canEnd then .error .endInValue
    else
      match numeral.finish with
      | some number => (give state.frames (.num number)).endAfter
      | none => .error .numberOutOfRange
  | .keyText _ | .valueText _ => .error .endInString

/-- Takes the rest of a text, which begins at the byte `offset`. -/
def run (state : Reader) (offset : Nat) : List Char → Except Fault Json
  | [] => state.finish.mapError fun cause => ⟨cause, offset⟩
  | c :: cs =>
    match state.step offset c with
    | .ok next => next.run (offset + c.utf8Size) cs
    | .error fault => .error fault

end Reader

/-! ## Whole texts -/

/-- The value of a text, with members as they stand in it. -/
def read (text : List Char) : Except ReadError Json :=
  (Reader.initial.run 0 text).mapError (·.locate text)

/-- The value of a text in normal form. -/
def parse (text : List Char) : Except ReadError Json := (read text).map normal

end GuideCheck.Json
