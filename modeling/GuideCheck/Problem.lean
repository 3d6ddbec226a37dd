import GuideCheck.Command
import GuideCheck.Component.Problem
import GuideCheck.Violation

set_option autoImplicit false

/-! # Problems of a guide

Every problem has a severity and a wording. -/

namespace GuideCheck

/-- The two texts of an embed field. -/
inductive FieldText
  | name
  | value
deriving DecidableEq, Repr

def FieldText.key : FieldText → String
  | name => "name"
  | value => "value"

/-- A problem of a guide. -/
inductive Problem
  /-- a directive that is no command -/
  | command (fault : Command.Fault)
  | unknownCommand
  | attachmentUrl
  | secondAttachment
  | secondTag
  | tagTaken
  | pinParameter
  /-- a payload directive whose parameter is neither empty nor `json` -/
  | payloadParameter (kind : PayloadKind)
  /-- a payload that is not JSON -/
  | payloadText (kind : PayloadKind)
  | emptyField (field : FieldText)
  | violation (v : Violation)
  | component (problem : Component.Problem)
  /-- a message refers to a tag that no directive declares -/
  | undefinedTag (name : String)
  | tooLong (limit : Nat)
  /-- a problem in words of its own -/
  | other (severity : Severity) (text : String)
deriving BEq, Repr

/-- The path of a violation without its first byte; nothing if that is not a character. -/
def Violation.place (v : Violation) : String :=
  match v.path.toList with
  | first :: rest => if first.utf8Size = 1 then String.ofList rest else ""
  | [] => ""

/-- How a violation of the embed schema is worded. -/
def Violation.description (v : Violation) : String :=
  match v.additionalProperty? with
  | some name => s!"Unrecognized property '{name}'"
  | none => "'" ++ v.place ++ "' " ++ v.message

/-- How a payload kind is called where it is not JSON. -/
def PayloadKind.name : PayloadKind → String
  | embed => "embed"
  | componentsV2 => "componentsV2"

/-- How a payload kind is called where its parameter is wrong. -/
def PayloadKind.title : PayloadKind → String
  | embed => "Embed"
  | componentsV2 => "ComponentsV2"

namespace Problem

def severity : Problem → Severity
  | component problem => problem.severity
  | undefinedTag _ => .warning
  | other severity _ => severity
  | _ => .error

def message : Problem → String
  | command fault => fault.message
  | unknownCommand => "No such command"
  | attachmentUrl => "Invalid attachment URL"
  | secondAttachment => "Message already contains attachment"
  | secondTag => "Message already tagged"
  | tagTaken => "Tag already defined"
  | pinParameter => "Pin parameter must either be delete or empty"
  | payloadParameter kind => s!"{kind.title} parameter must either be json or empty"
  | payloadText kind => s!"JSON {kind.name} object is invalid"
  | emptyField field =>
    s!"JSON embed object is invalid: \"{field.key}\" is empty in an embed field"
  | violation v => v.description
  | component problem => problem.message
  | undefinedTag name =>
    s!"Message uses \"$linkmsg_{name}$\" without {name} being defined in a .tag: command"
  | tooLong limit => s!"Message text exceeds {limit} characters"
  | other _ text => text

end Problem

end GuideCheck
