import GuideCheck.Toml.Scalar
import GuideCheck.Toml.Table
import GuideCheck.Toml.Text

set_option autoImplicit false

/-! # Reading TOML documents

A document is a sequence of headers and of keys with values, one on a line. Only whether a text is a
document and what it defines matters here, not where a fault stands. Arrays and tables in braces
may be nested `maxDepth` deep, and a key may have as many parts. -/

namespace GuideCheck.Toml

/-- How deep values may be nested, and how many parts a key may have. -/
def maxDepth : Nat := 80

/-! ## Spaces, comments and line ends -/

/-- A text without the spaces and tabs it begins with. -/
def dropSpaces (text : List Char) : List Char := text.dropWhile fun c => c = ' ' ∨ c = '\t'

/-- What follows a comment after its mark: a line end, or nothing. -/
def afterComment? : List Char → Option (List Char)
  | [] => some []
  | '\r' :: '\n' :: rest => some ('\n' :: rest)
  | c :: rest =>
    if c = '\n' then some (c :: rest) else if isControl c then none else afterComment? rest

/-- What follows the rest of a line that may only hold spaces and a comment. -/
def afterLine? (text : List Char) : Option (List Char) :=
  let toEnd? : List Char → Option (List Char)
    | [] => some []
    | '\n' :: rest => some rest
    | '\r' :: '\n' :: rest => some rest
    | _ => none
  match dropSpaces text with
  | '#' :: rest => (afterComment? rest).bind toEnd?
  | text => toEnd? text

/-- What follows spaces, comments and line ends. -/
def dropBlank? : (fuel : Nat) → List Char → Option (List Char)
  | 0, text => some text
  | fuel + 1, text =>
    match dropSpaces text with
    | '#' :: rest => (afterComment? rest).bind (dropBlank? fuel)
    | '\n' :: rest => dropBlank? fuel rest
    | '\r' :: '\n' :: rest => dropBlank? fuel rest
    | text => some text

/-! ## Keys -/

def isBareChar (c : Char) : Bool := c.isAlphanum || c == '_' || c == '-'

/-- One part of a key. -/
def keyPart? (text : List Char) : Option (String × List Char) :=
  match text with
  | '"' :: rest => (basic? .outside rest).map fun (key, rest) => (String.ofList key, rest)
  | '\'' :: rest => (literal? rest).map fun (key, rest) => (String.ofList key, rest)
  | text =>
    let key := text.takeWhile isBareChar
    if key.isEmpty then none else some (String.ofList key, text.dropWhile isBareChar)

/-- Up to `count` parts of a key with dots between them. -/
def keyParts? : (count : Nat) → List Char → Option (List String × List Char)
  | 0, _ => none
  | count + 1, text => do
    let (part, rest) ← keyPart? (dropSpaces text)
    match dropSpaces rest with
    | '.' :: rest =>
      let (parts, rest) ← keyParts? count rest
      return (part :: parts, rest)
    | rest => return ([part], rest)

/-- A key of one or more parts. -/
def key? (text : List Char) : Option (List String × List Char) := keyParts? maxDepth text

/-! ## Values -/

/-- The items of an array up to its bracket. -/
def items? (value? : List Char → Option (Toml × List Char)) :
    (fuel : Nat) → List Char → Option (List Toml × List Char)
  | 0, _ => none
  | fuel + 1, text => do
    match ← dropBlank? text.length text with
    | ']' :: rest => return ([], rest)
    | text =>
      let (item, rest) ← value? text
      match ← dropBlank? rest.length rest with
      | ',' :: rest =>
        let (items, rest) ← items? value? fuel rest
        return (item :: items, rest)
      | ']' :: rest => return ([item], rest)
      | _ => none

/-- The entries of a table in braces up to its brace. -/
def entries? (value? : List Char → Option (Toml × List Char)) :
    (fuel : Nat) → Body → List Char → Option (Body × List Char)
  | 0, _, _ => none
  | fuel + 1, body, text => do
    match ← dropBlank? text.length text with
    | '}' :: rest => return (body, rest)
    | text =>
      let (key, rest) ← key? text
      let (value, rest) ← value? (dropSpaces (← after? '=' (dropSpaces rest)))
      let body ← body.assign key value
      match ← dropBlank? rest.length rest with
      | ',' :: rest => entries? value? fuel body rest
      | '}' :: rest => return (body, rest)
      | _ => none

/-- A value and what follows it, where values may be nested `room` deep. -/
def value? : (room : Nat) → List Char → Option (Toml × List Char)
  | _, text@('"' :: _) | _, text@('\'' :: _) =>
    (quoted? text).map fun (value, rest) => (.string (String.ofList value), rest)
  | 0, text => scalar text
  | room + 1, '[' :: rest =>
    (items? (value? room) (rest.length + 1) rest).map fun (items, rest) => (.array items, rest)
  | room + 1, '{' :: rest =>
    (entries? (value? room) (rest.length + 1) ⟨false, false, []⟩ rest).map fun (body, rest) =>
      (body.toToml, rest)
  | _ + 1, text => scalar text

/-! ## Documents -/

/-- What has been read of a document: its tables, and the path of the last header. -/
structure Draft where
  body : Body := .empty
  path : List String := []

/-- A header with one bracket on either side, or two. -/
def header? (draft : Draft) (add : String → Body → Option Body) (closing : List Char)
    (text : List Char) : Option (Draft × List Char) := do
  let (path, rest) ← key? text
  let rest ← Text.stripPrefix? closing (dropSpaces rest)
  return (⟨← draft.body.header add path, path⟩, rest)

/-- A key, an equals sign and a value. -/
def entry? (draft : Draft) (text : List Char) : Option (Draft × List Char) := do
  let (key, rest) ← key? text
  let (value, rest) ← value? maxDepth (dropSpaces (← after? '=' (dropSpaces rest)))
  return (⟨← draft.body.within false (Body.assign key value) draft.path, draft.path⟩, rest)

/-- A header or an entry at the start of a line. -/
def statement? (draft : Draft) (text : List Char) : Option (Draft × List Char) :=
  match text with
  | '[' :: '[' :: rest => header? draft Body.addTable [']', ']'] rest
  | '[' :: rest => header? draft Body.addHeader [']'] rest
  | text => entry? draft text

/-- The rest of a document. -/
def statements? : (fuel : Nat) → Draft → List Char → Option Draft
  | 0, _, _ => none
  | fuel + 1, draft, text =>
    match dropBlank? text.length text with
    | none => none
    | some [] => some draft
    | some text => do
      let (draft, rest) ← statement? draft text
      statements? fuel draft (← afterLine? rest)

/-- The table that a document defines. A byte order mark may stand in front. -/
def read? (text : String) : Option Toml :=
  let chars :=
    match text.toList with
    | '\ufeff' :: rest => rest
    | chars => chars
  (statements? (chars.length + 1) {} chars).map fun draft => draft.body.toToml

end GuideCheck.Toml
