import GuideCheck.Schema.Failure

set_option autoImplicit false

/-! # Checking a value against a schema

`Schema.failures` lists every broken rule. A value of a wrong type breaks only that rule; otherwise
all rules for values of its type are checked: for objects what is missing, then members that are not
named, then named members in the order of their keys; for arrays the number of items, then the items
in order; for strings length and pattern; for numbers the bounds, compared as doubles. -/

namespace GuideCheck

namespace SchemaRules

variable {σ : Type}

/-- One failure if the limit is there and broken. -/
def broken {α : Type} (limit : Option α) (breaks : α → Bool) (cause : α → Schema.Cause) :
    List Schema.Failure :=
  match limit with
  | some limit => if breaks limit then [.here (cause limit)] else []
  | none => []

/-- The required members that are missing. -/
def missing (rules : SchemaRules σ) (members : List (String × Json)) : List Schema.Failure :=
  (rules.required.filter fun name => (members.lookup name).isNone).map
    fun name => .here (.required name)

/-- The members that `properties` does not name. -/
def extra (rules : SchemaRules σ) (members : List (String × Json)) : List (String × Json) :=
  members.filter fun member => !rules.names member.1

def countFailures (rules : SchemaRules σ) (items : List Json) : List Schema.Failure :=
  broken rules.maxItems (fun limit => limit < items.length) .maxItems ++
    broken rules.minItems (fun limit => items.length < limit) .minItems

def textFailures (rules : SchemaRules σ) (text : String) : List Schema.Failure :=
  broken rules.maxLength (fun limit => limit < text.length) .maxLength ++
    broken rules.minLength (fun limit => text.length < limit) .minLength ++
    broken rules.pattern (fun p => !p.isMatch text) fun p => .pattern p.source

def numberFailures (rules : SchemaRules σ) (n : Number) : List Schema.Failure :=
  broken rules.maximum (fun limit => limit.toDouble < n.toDouble) .maximum ++
    broken rules.minimum (fun limit => n.toDouble < limit.toDouble) .minimum

end SchemaRules

namespace Schema

/-- Indices with the items they belong to. -/
def indexed (items : List Json) : List (String × Json) :=
  items.zipIdx.map fun (item, index) => (toString index, item)

mutual

/-- Every rule that a value breaks, in the order of discovery. -/
def failures : Schema → Json → List Failure
  | .always true, _ => []
  | .always false, _ => [.here .nothing]
  | .rules r, value =>
    if ¬ r.allowsType value then [.here (.type r.types)]
    else
      match value with
      | .obj members =>
        r.missing members ++ additionalFailures r.additional (r.extra members) ++
          propertyFailures r.properties members
      | .arr items => r.countFailures items ++ itemFailures r.items (indexed items)
      | .str text => r.textFailures text
      | .num n => r.numberFailures n
      | .null | .bool _ => []

/-- The failures of members that are not named, by the schema for them. -/
def additionalFailures : Option Schema → List (String × Json) → List Failure
  | none, _ => []
  | some (.always false), members => members.map fun (key, _) => .here (.additionalProperty key)
  | some schema, members =>
    members.flatMap fun (key, value) => (schema.failures value).map (·.under key)

/-- The failures of named members, in the order of the names. -/
def propertyFailures : List (String × Schema) → List (String × Json) → List Failure
  | [], _ => []
  | (name, schema) :: rest, members =>
    (match members.lookup name with
      | some value => (schema.failures value).map (·.under name)
      | none => []) ++ propertyFailures rest members

/-- The failures of items, by the schema for them. -/
def itemFailures : Option Schema → List (String × Json) → List Failure
  | none, _ => []
  | some schema, items =>
    items.flatMap fun (index, value) => (schema.failures value).map (·.under index)

end

/-- Every violation of the schema in a value. -/
def validate (schema : Schema) : Validator := fun value =>
  (schema.failures value).map Failure.violation

end Schema

end GuideCheck
