import GuideCheck.Analysis
import GuideCheck.Files.Path
import GuideCheck.Json.Writer

set_option autoImplicit false

/-! # Reports

A report lists the findings in a number of files: as text, one line for each finding, or as JSON,
one object on one line for each file. JSON has no way to write a path that is no text. -/

namespace GuideCheck

/-- How findings are written. -/
inductive ReportFormat
  | text
  | json
deriving DecidableEq, Repr

namespace ReportFormat

def name : ReportFormat → String
  | text => "text"
  | json => "json"

def ofName? : String → Option ReportFormat
  | "text" => some text
  | "json" => some json
  | _ => none

/-- What is said about a name that is no format. -/
def unknownMessage (name : String) : String :=
  s!"unknown report format '{name}' (expected text or json)"

end ReportFormat

/-- A file and its analysis. -/
structure FileReport where
  path : Files.Path
  analysis : Analysis

namespace FileReport

/-! ## Text -/

/-- The findings of a file, each on a line that starts with the path. -/
def textLines (report : FileReport) : List String :=
  let opening := Files.display report.path ++ ":"
  (report.analysis.diagnostics.map fun d => opening ++ d.display) ++
    report.analysis.markers.map fun m => opening ++ m.display

/-! ## JSON -/

def messageJson (m : Message) : Json :=
  .obj [("text", .str m.text), ("first_line", .ofNat m.firstLine), ("last_line", .ofNat m.lastLine),
    ("attachment", .bool m.attachment),
    ("tag", match m.tag with | some tag => .str tag | none => .null)]

def diagnosticJson (d : Diagnostic) : Json :=
  .obj [("line", .arr [.ofNat d.first, .ofNat d.last]), ("severity", .str d.severity.name),
    ("message", .str d.message)]

/-- The report on a file whose path is a text. -/
def toJson (path : String) (analysis : Analysis) : Json :=
  .obj [("path", .str path), ("messages", .arr (analysis.messages.map messageJson)),
    ("diagnostics", .arr (analysis.diagnostics.map diagnosticJson))]

end FileReport

/-! ## Whole reports -/

/-- Lines as a text in which each line ends in a line feed. -/
def terminated (lines : List String) : String := String.join (lines.map (· ++ "\n"))

/-- Why reports could not be written. -/
inductive RenderFault
  | pathNotText
deriving DecidableEq, Repr

def RenderFault.message : RenderFault → String
  | pathNotText => "path contains invalid UTF-8 characters"

def FileReport.jsonLine (report : FileReport) : Except RenderFault String :=
  match Files.text? report.path with
  | some path => .ok (toJson path report.analysis).compact
  | none => .error .pathNotText

def renderText (reports : List FileReport) : String :=
  terminated (reports.flatMap FileReport.textLines)

def renderJson (reports : List FileReport) : Except RenderFault String :=
  (reports.mapM FileReport.jsonLine).map terminated

/-- The reports written in a format. -/
def render (reports : List FileReport) : ReportFormat → Except RenderFault String
  | .text => .ok (renderText reports)
  | .json => renderJson reports

def hasErrors (reports : List FileReport) : Bool := reports.any fun r => r.analysis.hasErrors

end GuideCheck
