import GuideCheck.Document
import GuideCheck.Text.Blank
import GuideCheck.Text.Search
import GuideCheck.Violation

set_option autoImplicit false

/-! # Guessing the line of a violation

A violation has a path into the payload but no line. The guess is the first line that shows the last
key of the path with a colon, else the property that is not allowed with a colon, else the name of
the property in quotes anywhere. A violation of the whole payload has no name, and no guess. -/

namespace GuideCheck

/-- A text in double quotes. -/
def quoted (name : List Char) : List Char := '"' :: name ++ ['"']

/-- Whether a text starts with a key in quotes, blanks, and a colon. -/
def startsWithKey (key : List Char) (text : List Char) : Bool :=
  match Text.stripPrefix? (quoted key) text with
  | some rest => (Text.trimStart rest).head? = some ':'
  | none => false

/-- Whether a line has a key in quotes followed by blanks and a colon. -/
def hasKey (key : List Char) : List Char → Bool
  | [] => false
  | c :: cs => startsWithKey key (c :: cs) || hasKey key cs

/-- Whether a line has a name in quotes. -/
def hasQuoted (name : String) (line : String) : Bool :=
  Text.occursIn (quoted name.toList) line.toList

/-- The first line that has a key. Every key is searched for, however long it is; a search that
    builds an expression of the key must give up on keys of several hundred thousand bytes. -/
def Document.findKey? (doc : Document) (key : String) : Option Nat :=
  doc.findLine? fun line => hasKey key.toList line.toList

/-- The last part of a path that is not empty. -/
def lastSegment? (path : String) : Option String :=
  ((Text.split '/' path.toList).reverse.find? fun part => !part.isEmpty).map String.ofList

/-- The name that a violation is about: the property that is not allowed, or the path without its
    first slash. -/
def Violation.propertyName? (v : Violation) : Option String :=
  let name :=
    match v.additionalProperty? with
    | some name => name
    | none =>
      match v.path.toList with
      | '/' :: rest => String.ofList rest
      | _ => v.path
  if name = "" then none else some name

/-- A way of guessing the line of a violation. -/
inductive Clue
  /-- the last key of the path -/
  | pathKey
  /-- the property that is not allowed, as a key -/
  | additionalKey
  /-- the name of the property in quotes -/
  | quotedName
deriving DecidableEq, Repr

namespace Clue

/-- The clues in the order in which they are tried. -/
def order : List Clue := [pathKey, additionalKey, quotedName]

def line? (doc : Document) (v : Violation) : Clue → Option Nat
  | pathKey => (lastSegment? v.path).bind doc.findKey?
  | additionalKey => v.additionalProperty?.bind doc.findKey?
  | quotedName => v.propertyName?.bind fun name => doc.findLine? (hasQuoted name)

end Clue

namespace Document

/-- The line that a violation is guessed to be about. -/
def recoverLine? (doc : Document) (v : Violation) : Option Nat :=
  v.propertyName?.bind fun _ => Clue.order.findSome? (Clue.line? doc v)

/-- The first line that has a property name in quotes and an empty string. -/
def emptyPropertyLine? (doc : Document) (property : String) : Option Nat :=
  doc.findLine? fun line => hasQuoted property line && hasQuoted "" line

end Document

end GuideCheck
