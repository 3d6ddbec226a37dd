import GuideCheck.Analysis

set_option autoImplicit false

/-! # Previews

A preview shows an analysis in lines: the messages with their first lines, then the findings. A
finding takes one line, whatever line breaks its wording has. -/

namespace GuideCheck

/-- The first line of a text; a carriage return before the line feed does not belong to it. -/
def openingLine (text : List Char) : List Char :=
  match Text.cutAt? '\n' text with
  | none => text
  | some (line, _) => if line.getLast? = some '\r' then line.dropLast else line

/-- A text without line feeds, and without carriage returns before them. -/
def withoutBreaks : List Char → List Char
  | [] => []
  | '\r' :: '\n' :: cs => withoutBreaks cs
  | c :: cs => if c = '\n' then withoutBreaks cs else c :: withoutBreaks cs

/-- A text on one line. -/
def oneLine (text : String) : String := String.ofList (withoutBreaks text.toList)

/-- A message with its number: the lines it comes from, its tag and its first line. -/
def Message.preview (m : Message) (number : Nat) : String :=
  let visible := m.text.toList.dropWhile (· = zeroWidthSpace)
  let tag := match m.tag with | some tag => "(" ++ tag ++ ") " | none => ""
  s!"#{number} [{m.firstLine}-{m.lastLine}] " ++ tag ++ String.ofList (openingLine visible)

namespace Analysis

def findingLines (a : Analysis) : List String :=
  if a.diagnostics.isEmpty ∧ a.markers.isEmpty then ["No problems found"]
  else
    s!"Diagnostics ({a.count .error} errors, {a.count .warning} warnings)" ::
      ((a.diagnostics.map fun d => oneLine d.display) ++
        a.markers.map fun m => oneLine m.display)

def preview (a : Analysis) : List String :=
  s!"Messages ({a.messages.length})" ::
    (a.messages.zipIdx.map fun (m, index) => m.preview (index + 1)) ++ "" :: a.findingLines

end Analysis

end GuideCheck
