import GuideCheck.Text.Blank
import GuideCheck.Text.Search

set_option autoImplicit false

/-! # Commands

A command is a name and a parameter with a colon between them. The colon is required even where the
parameter is empty, and no space may follow it. -/

namespace GuideCheck

structure Command where
  name : String
  param : String
deriving DecidableEq, Repr

namespace Command

/-- Why the text of a directive is no command. -/
inductive Fault
  | missingColon
  | spaceAfterColon
deriving DecidableEq, Repr

def Fault.message : Fault → String
  | missingColon => "Command must contain colon"
  | spaceAfterColon =>
    "Command must not have trailing whitespace after the colon and before the content"

/-- The command in the text after the leading dot. The space is looked for in the text as it stands;
    then blanks around the text are dropped, and the first colon ends the name. -/
def parse (body : String) : Except Fault Command :=
  match Text.cutAt? ':' body.toList with
  | none => .error .missingColon
  | some (_, ' ' :: _) => .error .spaceAfterColon
  | some _ =>
    match Text.cutAt? ':' (Text.trim body.toList) with
    | none => .error .missingColon
    | some (name, param) => .ok ⟨String.ofList name, String.ofList param⟩

end Command

/-! ## Directives -/

inductive PayloadKind
  | embed
  | componentsV2
deriving DecidableEq, Repr

/-- What a command is about. -/
inductive Directive
  /-- attaches an image or a file -/
  | attach
  | tag
  | pin
  /-- takes the text before it as a payload -/
  | payload (kind : PayloadKind)
  | react
deriving DecidableEq, Repr

/-- The directive of a name; case matters. -/
def Directive.ofName? : String → Option Directive
  | "img" | "file" => some attach
  | "tag" => some tag
  | "pin" => some pin
  | "embed" => some (payload .embed)
  | "componentsV2" => some (payload .componentsV2)
  | "react" => some react
  | _ => none

end GuideCheck
