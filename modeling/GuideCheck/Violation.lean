import GuideCheck.Json.Value

set_option autoImplicit false

/-! # Violations

A violation is one way in which a value fails a schema, as any validator may report it: a JSON
pointer to the failing value, the keyword that failed, a wording, and details by name. -/

namespace GuideCheck

/-- One way a value fails its schema. -/
structure Violation where
  /-- JSON pointer to the failing value; empty for the root -/
  path : String
  keyword : String
  message : String
  params : List (String × Json)
deriving BEq, Repr

/-- The name of the property that is not allowed, for a violation about one. -/
def Violation.additionalProperty? (v : Violation) : Option String :=
  if v.keyword = "additionalProperties" then
    (v.params.lookup "additionalProperty").bind Json.text?
  else none

/-- A validator lists every violation found in a value, in the order of discovery. -/
abbrev Validator := Json → List Violation

/-! ## JSON pointers -/

/-- A reference token: a tilde is written `~0` and a slash `~1`. -/
def escapeToken (token : String) : List Char :=
  token.toList.flatMap fun c =>
    if c = '~' then ['~', '0'] else if c = '/' then ['~', '1'] else [c]

/-- The JSON pointer that leads through these keys and indices. -/
def pointer (path : List String) : String :=
  String.ofList (path.flatMap fun token => '/' :: escapeToken token)

end GuideCheck
