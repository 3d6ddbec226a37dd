import GuideCheck.Command
import GuideCheck.Json.Reader
import GuideCheck.Json.Surrogates
import GuideCheck.Json.Writer

set_option autoImplicit false

/-! # Payloads

The text before a payload directive is read as JSON when the parameter says so. A payload has a
message text of its own under the key `content`, and its rules speak of truth and blankness of
values. -/

namespace GuideCheck

namespace Json

/-! ## Truth -/

/-- Whether a value counts as true: not null, false, zero or the empty string. -/
def isTrue : Json → Bool
  | null => false
  | bool value => value
  | num value => !value.isZero
  | str text => text ≠ ""
  | arr _ | obj _ => true

/-- Whether a member is there and counts as true. -/
def truthy (value : Option Json) : Bool := value.any isTrue

/-- Whether a member is missing, counts as false, or is a string of blanks. -/
def blank : Option Json → Bool
  | some (str text) => text.toList.all Text.isBlank
  | value => !truthy value

/-! ## Content -/

/-- The message text of a payload: its `content` if that is a string, or true or a number other than
    zero. -/
def content (payload : Json) : String :=
  match payload.get? "content" with
  | some (str text) => text
  | some (bool true) => "true"
  | some (num value) => if value.isZero then "" else value.text
  | _ => ""

def withoutContent : Json → Json
  | obj members => obj (members.filter fun member => member.1 ≠ "content")
  | value => value

end Json

/-! ## Reading -/

/-- What a payload directive makes of the text before it. -/
inductive Payload
  /-- the parameter is empty: nothing is read -/
  | plain
  /-- the parameter is neither empty nor `json` -/
  | refused
  /-- the text is not JSON -/
  | malformed (error : Json.ReadError)
  | parsed (value : Json)

/-- The payload in a text, by the parameter of the directive. -/
def Payload.read (param : String) (text : String) : Payload :=
  match param with
  | "json" =>
    match Json.parse (Json.mendSurrogates text.toList) with
    | .ok value => parsed value
    | .error error => malformed error
  | "" => plain
  | _ => refused

end GuideCheck
