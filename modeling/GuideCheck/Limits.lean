import GuideCheck.Json.Outline

set_option autoImplicit false

/-! # Limits of the platform

The limits have defaults, and a file or a request may override some of them by name. Read from an
object, unknown names are ignored and a name may not be repeated; read from an array, values stand
in the order of declaration and the missing ones at its end keep their defaults. -/

namespace GuideCheck

/-- The structural limits of the platform that messages are sent to. -/
structure Limits where
  /-- the most UTF-16 code units of a message -/
  messageLength : Nat := 2000
  /-- the most components in the tree of one message -/
  componentsPerMessage : Nat := 40
  /-- the most action rows at the top level -/
  actionRows : Nat := 5
  /-- the most children of an action row -/
  actionRowChildren : Nat := 5
  /-- the most options of a select menu -/
  selectOptions : Nat := 25
  /-- the most children of a section -/
  sectionChildren : Nat := 3
  /-- the least spacing of a spacer -/
  spacingMin : Nat := 1
  /-- the greatest spacing of a spacer -/
  spacingMax : Nat := 4
deriving DecidableEq, Repr

inductive Limit
  | messageLength
  | componentsPerMessage
  | actionRows
  | actionRowChildren
  | selectOptions
  | sectionChildren
  | spacingMin
  | spacingMax
deriving DecidableEq, Repr

namespace Limit

/-- All limits in the order of declaration. -/
def all : List Limit :=
  [messageLength, componentsPerMessage, actionRows, actionRowChildren, selectOptions,
    sectionChildren, spacingMin, spacingMax]

def name : Limit → String
  | messageLength => "message_length"
  | componentsPerMessage => "components_per_message"
  | actionRows => "action_rows"
  | actionRowChildren => "action_row_children"
  | selectOptions => "select_options"
  | sectionChildren => "section_children"
  | spacingMin => "spacing_min"
  | spacingMax => "spacing_max"

def ofName? (name : String) : Option Limit := all.find? fun limit => limit.name = name

end Limit

namespace Limits

def get (limits : Limits) : Limit → Nat
  | .messageLength => limits.messageLength
  | .componentsPerMessage => limits.componentsPerMessage
  | .actionRows => limits.actionRows
  | .actionRowChildren => limits.actionRowChildren
  | .selectOptions => limits.selectOptions
  | .sectionChildren => limits.sectionChildren
  | .spacingMin => limits.spacingMin
  | .spacingMax => limits.spacingMax

/-- The limits with another value for one of them. -/
def set (limits : Limits) (limit : Limit) (value : Nat) : Limits :=
  match limit with
  | .messageLength => { limits with messageLength := value }
  | .componentsPerMessage => { limits with componentsPerMessage := value }
  | .actionRows => { limits with actionRows := value }
  | .actionRowChildren => { limits with actionRowChildren := value }
  | .selectOptions => { limits with selectOptions := value }
  | .sectionChildren => { limits with sectionChildren := value }
  | .spacingMin => { limits with spacingMin := value }
  | .spacingMax => { limits with spacingMax := value }

theorem get_set_self (limits : Limits) (limit : Limit) (value : Nat) :
    (limits.set limit value).get limit = value := by
  cases limit <;> rfl

theorem get_set_of_ne (limits : Limits) {limit other : Limit} (value : Nat) (h : other ≠ limit) :
    (limits.set limit value).get other = limits.get other := by
  cases limit <;> cases other <;> first | rfl | exact absurd rfl h

/-! ## Reading -/

/-- The limits with the fields of an object in place of those read so far; `seen` holds the limits
    that have been set. A field without a natural number makes it fail. -/
def readFields? (limits : Limits) (seen : List Limit) :
    List (String × Option Nat) → Option Limits
  | [] => some limits
  | (name, value) :: rest =>
    match Limit.ofName? name with
    | none => readFields? limits seen rest
    | some limit =>
      match value with
      | none => none
      | some value =>
        if limit ∈ seen then none else readFields? (limits.set limit value) (limit :: seen) rest

/-- The limits that the fields of an object override. -/
def ofFields? (fields : List (String × Option Nat)) : Option Limits := readFields? {} [] fields

/-- The limits that values override one after another. -/
def readValues? (limits : Limits) : List Limit → List (Option Nat) → Option Limits
  | _, [] => some limits
  | [], _ :: _ => none
  | _ :: _, none :: _ => none
  | limit :: rest, some value :: values => readValues? (limits.set limit value) rest values

/-- The limits that the values of an array override; no more values than limits are allowed. -/
def ofValues? (values : List (Option Nat)) : Option Limits := readValues? {} Limit.all values

/-- The natural number of a JSON value. -/
def natural? (value : Json) : Option Nat := value.number?.bind Number.natural?

/-- The limits of a JSON object or array. -/
def ofJson? : Json → Option Limits
  | .obj members => ofFields? (members.map fun (name, value) => (name, natural? value))
  | .arr items => ofValues? (items.map natural?)
  | _ => none

/-- The natural number that a text holds. -/
def naturalOf? (text : List Char) : Option Nat := (Json.read text).toOption.bind natural?

/-- The limits of a JSON text. The values of unknown names in an object need not be readable. -/
def ofText? (text : String) : Option Limits :=
  match Json.outline? text.toList with
  | some members => ofFields? (members.map fun (name, value) => (name, naturalOf? value))
  | none => (Json.read text.toList).toOption.bind ofJson?

def toJson (limits : Limits) : Json :=
  .obj (Limit.all.map fun limit => (limit.name, .ofNat (limits.get limit)))

end Limits

end GuideCheck
