import GuideCheck.Json.Value

set_option autoImplicit false

/-! # Schemas

A schema accepts everything, accepts nothing, or is a set of rules. Rules bound the type of a value,
the members of an object, the items of an array, the length and the form of a string, and the size
of a number; a rule says nothing about values of other types. -/

namespace GuideCheck

/-- The type names that a schema may list. -/
inductive TypeName
  | null
  | boolean
  | object
  | array
  | number
  | integer
  | string
deriving DecidableEq, Repr

namespace TypeName

def name : TypeName → String
  | null => "null"
  | boolean => "boolean"
  | object => "object"
  | array => "array"
  | number => "number"
  | integer => "integer"
  | string => "string"

def ofName? (name : String) : Option TypeName :=
  [null, boolean, object, array, number, integer, string].find? fun t => t.name = name

/-- Whether a value has the type; an integer is a number without a fraction. -/
def matches? : TypeName → Json → Bool
  | null, .null => true
  | boolean, .bool _ => true
  | object, .obj _ => true
  | array, .arr _ => true
  | number, .num _ => true
  | string, .str _ => true
  | integer, .num n => n.isWhole
  | _, _ => false

end TypeName

/-! ## Patterns -/

/-- What reads patterns: it refuses a text, or reads it as the pattern that matches some texts. How
    patterns are written and when they match is its own affair, and a schema works with any. -/
abbrev PatternEngine := String → Option (String → Bool)

/-- A pattern: the text that it was read from, and the texts that it matches. -/
structure WrittenPattern where
  source : String
  isMatch : String → Bool

/-! ## Rules -/

/-- The rules of a schema, with `σ` for the schemas of members and items. -/
structure SchemaRules (σ : Type) where
  /-- the types a value may have; an empty list allows all -/
  types : List TypeName := []
  required : List String := []
  /-- the schemas of members by key -/
  properties : List (String × σ) := []
  /-- the schema of members that `properties` does not name -/
  additional : Option σ := none
  items : Option σ := none
  minItems : Option Nat := none
  maxItems : Option Nat := none
  minLength : Option Nat := none
  maxLength : Option Nat := none
  minimum : Option Number := none
  maximum : Option Number := none
  pattern : Option WrittenPattern := none

inductive Schema
  /-- accepts every value, or none -/
  | always (accepts : Bool)
  | rules (r : SchemaRules Schema)

/-- Whether rules name the types of a value or leave the type open. -/
def SchemaRules.allowsType {σ : Type} (rules : SchemaRules σ) (value : Json) : Bool :=
  rules.types.isEmpty || rules.types.any (·.matches? value)

/-- Whether rules name a property. -/
def SchemaRules.names {σ : Type} (rules : SchemaRules σ) (key : String) : Bool :=
  (rules.properties.lookup key).isSome

end GuideCheck
