import GuideCheck.Json.Reader

set_option autoImplicit false

/-! # Outlines of objects

The outline of an object is its keys with the texts of their values. Of the values only the form
counts: brackets match, words and numbers are spelled right, and escapes are complete. Numbers may
be as large and values as deep as they like, and escapes may stand for surrogates. So a reader that
needs some of the values need not be able to read the others. -/

namespace GuideCheck.Json

/-- A text without the spaces it begins with. -/
def dropSpaces (text : List Char) : List Char := text.dropWhile Reader.isSpace

/-! ## Scalars -/

/-- What follows at least one digit. -/
def afterDigits? : List Char → Option (List Char)
  | c :: rest => if c.isDigit then some (rest.dropWhile Char.isDigit) else none
  | [] => none

/-- What follows an exponent, if there is one. -/
def afterExponent? : List Char → Option (List Char)
  | 'e' :: rest | 'E' :: rest =>
    match rest with
    | '+' :: rest | '-' :: rest => afterDigits? rest
    | rest => afterDigits? rest
  | text => some text

/-- What follows a number after its sign. -/
def afterNumber? (text : List Char) : Option (List Char) := do
  let rest ←
    match text with
    | '0' :: rest => some rest
    | text => afterDigits? text
  match rest with
  | '.' :: rest => (afterDigits? rest).bind afterExponent?
  | rest => afterExponent? rest

/-- What follows a string after its opening quote. -/
def afterString? : List Char → Option (List Char)
  | [] => none
  | '"' :: rest => some rest
  | '\\' :: 'u' :: a :: b :: c :: d :: rest =>
    if (Text.hexNumber? [a, b, c, d]).isSome then afterString? rest else none
  | '\\' :: c :: rest => if (Quoted.escaped? c).isSome then afterString? rest else none
  | c :: rest => if c = '\\' ∨ c.toNat < 0x20 then none else afterString? rest

/-- What follows a value that is no array and no object. -/
def afterScalar? : List Char → Option (List Char)
  | 'n' :: 'u' :: 'l' :: 'l' :: rest => some rest
  | 't' :: 'r' :: 'u' :: 'e' :: rest => some rest
  | 'f' :: 'a' :: 'l' :: 's' :: 'e' :: rest => some rest
  | '"' :: rest => afterString? rest
  | '-' :: rest => afterNumber? rest
  | text => afterNumber? text

/-! ## Values -/

/-- A bracket that is open. -/
inductive Bracket
  | array
  | object
deriving DecidableEq, Repr

/-- What comes next in a value. -/
inductive Turn
  | value
  | key
  /-- after an opening bracket -/
  | opened
  /-- after a whole value -/
  | closed
deriving DecidableEq, Repr

/-- What follows a value, of which some brackets are open, the innermost first. -/
def afterBrackets? : (fuel : Nat) → Turn → List Bracket → List Char → Option (List Char)
  | 0, _, _, _ => none
  | _ + 1, .closed, [], text => some text
  | fuel + 1, turn, brackets, text =>
    match turn, brackets, dropSpaces text with
    | .value, _, '[' :: rest => afterBrackets? fuel .opened (.array :: brackets) rest
    | .value, _, '{' :: rest => afterBrackets? fuel .opened (.object :: brackets) rest
    | .value, _, text => (afterScalar? text).bind (afterBrackets? fuel .closed brackets)
    | .key, _, '"' :: text =>
      match (afterString? text).map dropSpaces with
      | some (':' :: rest) => afterBrackets? fuel .value brackets rest
      | _ => none
    | .opened, .array :: outer, ']' :: rest => afterBrackets? fuel .closed outer rest
    | .opened, .object :: outer, '}' :: rest => afterBrackets? fuel .closed outer rest
    | .opened, .array :: _, text => afterBrackets? fuel .value brackets text
    | .opened, .object :: _, text => afterBrackets? fuel .key brackets text
    | .closed, .array :: outer, ']' :: rest => afterBrackets? fuel .closed outer rest
    | .closed, .object :: outer, '}' :: rest => afterBrackets? fuel .closed outer rest
    | .closed, .array :: _, ',' :: rest => afterBrackets? fuel .value brackets rest
    | .closed, .object :: _, ',' :: rest => afterBrackets? fuel .key brackets rest
    | _, _, _ => none

/-- What follows a value. -/
def afterValue? (text : List Char) : Option (List Char) :=
  afterBrackets? (2 * text.length + 2) .value [] text

/-! ## Members -/

/-- The rest of a string literal, as its text, and what follows it. -/
def Quoted.rest? (quoted : Quoted) : List Char → Option (String × List Char)
  | [] => none
  | c :: rest =>
    match quoted.step c with
    | .more quoted => quoted.rest? rest
    | .closed text => some (text, rest)
    | .fault _ _ => none

/-- A key, the text of its value and what follows it. -/
def member? (text : List Char) : Option ((String × List Char) × List Char) :=
  match dropSpaces text with
  | '"' :: text => do
    let (key, text) ← Quoted.opened.rest? text
    match dropSpaces text with
    | ':' :: text =>
      let rest ← afterValue? text
      return ((key, text.take (text.length - rest.length)), rest)
    | _ => none
  | _ => none

/-- The members up to the closing brace, and what follows it. -/
def members? : (fuel : Nat) → List Char → Option (List (String × List Char) × List Char)
  | 0, _ => none
  | fuel + 1, text => do
    let (first, rest) ← member? text
    match dropSpaces rest with
    | ',' :: rest =>
      let (others, rest) ← members? fuel rest
      return (first :: others, rest)
    | '}' :: rest => return ([first], rest)
    | _ => none

/-- The outline of the object that a text holds. -/
def outline? (text : List Char) : Option (List (String × List Char)) := do
  let (members, rest) ←
    match dropSpaces text with
    | '{' :: rest =>
      match dropSpaces rest with
      | '}' :: rest => some ([], rest)
      | rest => members? (rest.length + 1) rest
    | _ => none
  if (dropSpaces rest).isEmpty then return members else none

end GuideCheck.Json
