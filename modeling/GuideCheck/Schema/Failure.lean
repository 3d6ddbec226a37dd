import GuideCheck.Schema.Basic
import GuideCheck.Violation
import GuideCheck.Json.Writer

set_option autoImplicit false

/-! # How a value fails a schema

A failure is the path to a part of the value and the rule that the part breaks. Each rule has a
keyword, a wording and details. -/

namespace GuideCheck.Schema

/-- The rule that is broken. -/
inductive Cause
  /-- no value is accepted -/
  | nothing
  | type (expected : List TypeName)
  | required (name : String)
  | additionalProperty (name : String)
  | maxItems (limit : Nat)
  | minItems (limit : Nat)
  | maxLength (limit : Nat)
  | minLength (limit : Nat)
  | pattern (source : String)
  | maximum (limit : Number)
  | minimum (limit : Number)
deriving DecidableEq, Repr

/-- The names of some types, separated by commas. -/
def typeList (types : List TypeName) : String := ",".intercalate (types.map TypeName.name)

namespace Cause

def keyword : Cause → String
  | nothing => "false schema"
  | type _ => "type"
  | required _ => "required"
  | additionalProperty _ => "additionalProperties"
  | maxItems _ => "maxItems"
  | minItems _ => "minItems"
  | maxLength _ => "maxLength"
  | minLength _ => "minLength"
  | pattern _ => "pattern"
  | maximum _ => "maximum"
  | minimum _ => "minimum"

def message : Cause → String
  | nothing => "boolean schema is false"
  | type expected => s!"must be {typeList expected}"
  | required name => s!"must have required property '{name}'"
  | additionalProperty _ => "must NOT have additional properties"
  | maxItems limit => s!"must NOT have more than {limit} items"
  | minItems limit => s!"must NOT have fewer than {limit} items"
  | maxLength limit => s!"must NOT have more than {limit} characters"
  | minLength limit => s!"must NOT have fewer than {limit} characters"
  | pattern source => s!"must match pattern \"{source}\""
  | maximum limit => s!"must be <= {limit.text}"
  | minimum limit => s!"must be >= {limit.text}"

def params : Cause → List (String × Json)
  | nothing => []
  | type expected => [("type", .str (typeList expected))]
  | required name => [("missingProperty", .str name)]
  | additionalProperty name => [("additionalProperty", .str name)]
  | maxItems limit | minItems limit | maxLength limit | minLength limit =>
    [("limit", .ofNat limit)]
  | pattern source => [("pattern", .str source)]
  | maximum limit => [("comparison", .str "<="), ("limit", .num limit)]
  | minimum limit => [("comparison", .str ">="), ("limit", .num limit)]

end Cause

/-- A broken rule and the path to the part of the value that breaks it. -/
structure Failure where
  path : List String
  cause : Cause
deriving DecidableEq, Repr

namespace Failure

def here (cause : Cause) : Failure := ⟨[], cause⟩

/-- The same failure seen from the value that holds the part under this key or index. -/
def under (key : String) (f : Failure) : Failure := ⟨key :: f.path, f.cause⟩

def violation (f : Failure) : Violation :=
  ⟨pointer f.path, f.cause.keyword, f.cause.message, f.cause.params⟩

end Failure

end GuideCheck.Schema
