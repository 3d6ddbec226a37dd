import GuideCheck.Text.Blank

set_option autoImplicit false

/-! # Kinds of lines

What a line is depends on the line alone. A line that starts with a dot is a separator if nothing
but blanks follows, content with one dot less if a second dot follows, and a directive otherwise;
every other line is content. -/

namespace GuideCheck

/-- What a line is, with the text it carries. -/
inductive Line
  /-- a line that does not start with a dot -/
  | content (text : String)
  /-- a line that starts with two dots; its text has one of them -/
  | escaped (text : String)
  /-- a dot and blanks -/
  | separator
  /-- a dot and a command -/
  | directive (body : String)
deriving DecidableEq, Repr

namespace Line

def classify (raw : String) : Line :=
  match raw.toList with
  | '.' :: rest =>
    if rest.all Text.isBlank then separator
    else if rest.head? = some '.' then escaped (String.ofList rest)
    else directive (String.ofList rest)
  | _ => content raw

/-- The text that the line adds to a message. -/
def content? : Line → Option String
  | content text | escaped text => some text
  | separator | directive _ => none

/-- The line that stands for a text as content: a dot at its start is doubled. -/
def escape (text : String) : String :=
  match text.toList with
  | '.' :: _ => "." ++ text
  | _ => text

end Line

end GuideCheck
