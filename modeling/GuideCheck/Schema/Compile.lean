import GuideCheck.Schema.Basic
import GuideCheck.Json.Reader

set_option autoImplicit false

/-! # Reading a schema document

A schema document is a boolean or an object whose members are keywords; members that are no keywords
are annotations. Keywords are read in the order of their keys, and the first fault ends the reading.
A fault names the location of the schema that has it: the way from the root through
`/properties/<name>`, `/additionalProperties` and `/items`. Patterns are read by an engine that is
given. -/

namespace GuideCheck

/-- The keywords whose value can have a wrong form. -/
inductive Keyword
  | type
  | properties
  | required
  | minItems
  | maxItems
  | minLength
  | maxLength
  | minimum
  | maximum
  | pattern
deriving DecidableEq, Repr

namespace Keyword

def name : Keyword → String
  | type => "type"
  | properties => "properties"
  | required => "required"
  | minItems => "minItems"
  | maxItems => "maxItems"
  | minLength => "minLength"
  | maxLength => "maxLength"
  | minimum => "minimum"
  | maximum => "maximum"
  | pattern => "pattern"

/-- What the value of a keyword must be. -/
def expected : Keyword → String
  | type => "a string or an array of strings"
  | properties => "an object"
  | required => "an array of strings"
  | minItems | maxItems | minLength | maxLength => "a non-negative integer"
  | minimum | maximum => "a number"
  | pattern => "a string"

end Keyword

/-- What can be wrong with a schema document. -/
inductive SchemaError
  | json (error : Json.ReadError)
  | notASchema (location : String)
  | invalidKeyword (location : String) (keyword : Keyword)
  | unknownType (location : String) (name : String)
  | pattern (location : String)
deriving DecidableEq, Repr

def SchemaError.message : SchemaError → String
  | json error => s!"schema is not valid JSON: {error.message}"
  | notASchema location => s!"schema at '{location}' must be an object or a boolean"
  | invalidKeyword location keyword =>
    s!"'{keyword.name}' at '{location}' must be {keyword.expected}"
  | unknownType location name => s!"unknown type '{name}' at '{location}'"
  | pattern location => s!"invalid pattern at '{location}'"

namespace Schema

/-! ## Keywords without schemas in them -/

/-- The texts of an array of strings. -/
def texts? : List Json → Option (List String) := List.mapM Json.text?

/-- The names that a `type` keyword lists. -/
def typeNames? : Json → Option (List String)
  | .str name => some [name]
  | .arr names => texts? names
  | _ => none

/-- The types of some names, or the first name that is none. -/
def typesOf (location : String) : List String → Except SchemaError (List TypeName)
  | [] => .ok []
  | name :: rest =>
    match TypeName.ofName? name with
    | some t => (typesOf location rest).map (t :: ·)
    | none => .error (.unknownType location name)

/-- The value of a keyword, or the fault that it has a wrong form. -/
def expecting {α : Type} (location : String) (keyword : Keyword) (value : Option α) :
    Except SchemaError α :=
  match value with
  | some value => .ok value
  | none => .error (.invalidKeyword location keyword)

/-- The number of a keyword that counts. -/
def count (location : String) (keyword : Keyword) (value : Json) : Except SchemaError Nat :=
  expecting location keyword (value.number?.bind Number.natural?)

/-- The rules with one more keyword that holds no schema. -/
def setKeyword (engine : PatternEngine) (location : String) (rules : SchemaRules Schema)
    (key : String) (value : Json) : Except SchemaError (SchemaRules Schema) :=
  match key with
  | "type" => do
    let names ← expecting location .type (typeNames? value)
    return { rules with types := ← typesOf location names }
  | "required" => do
    let names ← expecting location .required (value.items?.bind texts?)
    return { rules with required := names }
  | "minItems" => do return { rules with minItems := ← count location .minItems value }
  | "maxItems" => do return { rules with maxItems := ← count location .maxItems value }
  | "minLength" => do return { rules with minLength := ← count location .minLength value }
  | "maxLength" => do return { rules with maxLength := ← count location .maxLength value }
  | "minimum" => do
    return { rules with minimum := ← expecting location .minimum value.number? }
  | "maximum" => do
    return { rules with maximum := ← expecting location .maximum value.number? }
  | "pattern" => do
    let source ← expecting location .pattern value.text?
    match engine source with
    | some isMatch => return { rules with pattern := some ⟨source, isMatch⟩ }
    | none => throw (.pattern location)
  | _ => .ok rules

/-! ## Documents -/

mutual

/-- The schema of a document found at a location. -/
def compileAt (engine : PatternEngine) (location : String) : Json → Except SchemaError Schema
  | .bool accepts => .ok (.always accepts)
  | .obj members => compileRules engine location {} members
  | _ => .error (.notASchema location)

/-- The rules read so far with the remaining keywords. -/
def compileRules (engine : PatternEngine) (location : String) (rules : SchemaRules Schema) :
    List (String × Json) → Except SchemaError Schema
  | [] => .ok (.rules rules)
  | (key, value) :: rest =>
    match key with
    | "properties" =>
      match compileObject engine location value with
      | .ok properties => compileRules engine location { rules with properties } rest
      | .error fault => .error fault
    | "additionalProperties" =>
      match compileAt engine (location ++ "/additionalProperties") value with
      | .ok schema => compileRules engine location { rules with additional := some schema } rest
      | .error fault => .error fault
    | "items" =>
      match compileAt engine (location ++ "/items") value with
      | .ok schema => compileRules engine location { rules with items := some schema } rest
      | .error fault => .error fault
    | key =>
      match setKeyword engine location rules key value with
      | .ok rules => compileRules engine location rules rest
      | .error fault => .error fault

/-- The schemas by name of a `properties` keyword. -/
def compileObject (engine : PatternEngine) (location : String) :
    Json → Except SchemaError (List (String × Schema))
  | .obj members => compileProperties engine location members
  | _ => .error (.invalidKeyword location .properties)

/-- The schemas of named properties. -/
def compileProperties (engine : PatternEngine) (location : String) :
    List (String × Json) → Except SchemaError (List (String × Schema))
  | [] => .ok []
  | (name, value) :: rest =>
    match compileAt engine (location ++ "/properties/" ++ name) value with
    | .ok schema => (compileProperties engine location rest).map ((name, schema) :: ·)
    | .error fault => .error fault

end

def compile (engine : PatternEngine) (document : Json) : Except SchemaError Schema :=
  compileAt engine "" document

/-- The schema whose document is this JSON text. -/
def parse (engine : PatternEngine) (text : String) : Except SchemaError Schema :=
  match Json.parse text.toList with
  | .ok document => compile engine document
  | .error error => .error (.json error)

end Schema

end GuideCheck
