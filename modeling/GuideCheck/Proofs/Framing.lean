import Mathlib.Data.List.Forall2
import GuideCheck.Proofs.Collecting
import GuideCheck.Proofs.Paths
import GuideCheck.Proofs.RoundTrip

set_option autoImplicit false

/-! # JSON reports, line by line

A JSON report can be taken apart again. It has one line for each file, and what a line says about
its file is found by the keys of the object on it (`Account.ofJson?`), in whatever order a reader
keeps them. -/

namespace GuideCheck

/-! ## What a report says -/

/-- What a report says of a diagnostic. -/
structure Notice where
  first : Nat
  last : Nat
  severity : Severity
  message : String
deriving DecidableEq, Repr

/-- What a JSON report says of a file. -/
structure Account where
  path : Files.Path
  messages : List Message
  notices : List Notice
deriving DecidableEq, Repr

def Diagnostic.notice (d : Diagnostic) : Notice := ⟨d.first, d.last, d.severity, d.message⟩

def FileReport.account (report : FileReport) : Account :=
  ⟨report.path, report.analysis.messages, report.analysis.diagnostics.map Diagnostic.notice⟩

/-! ## Taking a report apart -/

namespace Json

def natural? (value : Json) : Option Nat := value.number?.bind Number.natural?

def bool? : Json → Option Bool
  | bool b => some b
  | _ => none

/-- A text, or nothing where there is null. -/
def textOrNull? : Json → Option (Option String)
  | null => some none
  | str text => some (some text)
  | _ => none

end Json

def Severity.ofName? : String → Option Severity
  | "error" => some .error
  | "warning" => some .warning
  | _ => none

def Message.ofJson? (value : Json) : Option Message := do
  let text ← (value.get? "text").bind Json.text?
  let firstLine ← (value.get? "first_line").bind Json.natural?
  let lastLine ← (value.get? "last_line").bind Json.natural?
  let attachment ← (value.get? "attachment").bind Json.bool?
  let tag ← (value.get? "tag").bind Json.textOrNull?
  return { text, firstLine, lastLine, attachment, tag }

def Notice.ofJson? (value : Json) : Option Notice := do
  let lines ← (value.get? "line").bind Json.items?
  let severity ← ((value.get? "severity").bind Json.text?).bind Severity.ofName?
  let message ← (value.get? "message").bind Json.text?
  match lines with
  | [first, last] =>
    let first ← first.natural?
    let last ← last.natural?
    return { first, last, severity, message }
  | _ => none

def Account.ofJson? (value : Json) : Option Account := do
  let path ← (value.get? "path").bind Json.text?
  let messages ← ((value.get? "messages").bind Json.items?).bind (·.mapM Message.ofJson?)
  let notices ← ((value.get? "diagnostics").bind Json.items?).bind (·.mapM Notice.ofJson?)
  return { path := Files.bytes path, messages, notices }

theorem Message.ofJson?_messageJson (m : Message) :
    ofJson? (FileReport.messageJson m).normal = some m := by
  obtain ⟨text, first, last, attachment, tag⟩ := m
  simp only [ofJson?, FileReport.messageJson, Json.get?_normal]
  cases tag <;> rfl

theorem Severity.ofName?_name (severity : Severity) : ofName? severity.name = some severity := by
  cases severity <;> rfl

theorem Notice.ofJson?_diagnosticJson (d : Diagnostic) :
    ofJson? (FileReport.diagnosticJson d).normal = some d.notice := by
  have hseverity : ((((FileReport.diagnosticJson d).normal.get? "severity").bind Json.text?).bind
      Severity.ofName?) = some d.severity := by
    rw [FileReport.diagnosticJson, Json.get?_normal]
    exact Severity.ofName?_name d.severity
  rw [ofJson?, hseverity]
  simp only [FileReport.diagnosticJson, Json.get?_normal]
  rfl

/-- An array of things that can be taken apart can be taken apart. -/
theorem Json.mapM_items?_arr {α β : Type} {encode : α → Json} {decode : Json → Option β}
    {f : α → β} (h : ∀ x, decode (encode x).normal = some (f x)) (xs : List α) :
    (arr (xs.map encode)).normal.items?.bind (·.mapM decode) = some (xs.map f) := by
  rw [normal, items?, Option.bind_some, normalItems_eq_map]
  induction xs with
  | nil => rfl
  | cons x xs ih =>
    rw [List.map_cons, List.map_cons, List.mapM_cons, h, ih]
    rfl

/-- What a report says of its file is found in its JSON form. -/
theorem Account.ofJson?_toJson (path : String) (analysis : Analysis) :
    ofJson? (FileReport.toJson path analysis).normal =
      some (FileReport.mk (Files.bytes path) analysis).account := by
  have hpath : ((FileReport.toJson path analysis).normal.get? "path").bind Json.text? =
      some path := by
    rw [FileReport.toJson, Json.get?_normal]
    rfl
  have hmessages : (((FileReport.toJson path analysis).normal.get? "messages").bind
      Json.items?).bind (·.mapM Message.ofJson?) = some analysis.messages := by
    have h := Json.mapM_items?_arr Message.ofJson?_messageJson analysis.messages
    rw [List.map_id'] at h
    rw [FileReport.toJson, Json.get?_normal]
    exact h
  have hnotices : (((FileReport.toJson path analysis).normal.get? "diagnostics").bind
      Json.items?).bind (·.mapM Notice.ofJson?) =
        some (analysis.diagnostics.map Diagnostic.notice) := by
    rw [FileReport.toJson, Json.get?_normal]
    exact Json.mapM_items?_arr Notice.ofJson?_diagnosticJson analysis.diagnostics
  rw [ofJson?, hpath, hmessages, hnotices]
  rfl

/-! ## Whole reports -/

/-- Whether the line numbers in a report are 64-bit numbers. -/
structure FileReport.HasWordLines (report : FileReport) : Prop where
  messages : ∀ m ∈ report.analysis.messages, m.firstLine < UInt64.size ∧ m.lastLine < UInt64.size
  diagnostics : ∀ d ∈ report.analysis.diagnostics, d.first < UInt64.size ∧ d.last < UInt64.size

theorem isReadable_messageJson {m : Message}
    (h : m.firstLine < UInt64.size ∧ m.lastLine < UInt64.size) :
    (FileReport.messageJson m).IsReadable 2 := by
  refine .obj ?_
  simp only [List.forall_mem_cons]
  refine ⟨.str _, .num h.1, .num h.2, .bool _, ?_, List.forall_mem_nil _⟩
  cases m.tag with
  | none => exact .null
  | some tag => exact .str tag

theorem isReadable_diagnosticJson {d : Diagnostic}
    (h : d.first < UInt64.size ∧ d.last < UInt64.size) :
    (FileReport.diagnosticJson d).IsReadable 2 := by
  have hlines : (Json.arr [.ofNat d.first, .ofNat d.last]).IsReadable 1 := by
    refine .arr ?_
    simp only [List.forall_mem_cons]
    exact ⟨.num h.1, .num h.2, List.forall_mem_nil _⟩
  refine .obj ?_
  simp only [List.forall_mem_cons]
  exact ⟨hlines, .str _, .str _, List.forall_mem_nil _⟩

theorem isReadable_toJson {report : FileReport} (h : report.HasWordLines) (path : String) :
    (FileReport.toJson path report.analysis).IsReadable 4 := by
  have hmessages : (Json.arr (report.analysis.messages.map FileReport.messageJson)).IsReadable 3 :=
    .arr (List.forall_mem_map.2 fun m hm => isReadable_messageJson (h.messages m hm))
  have hdiagnostics :
      (Json.arr (report.analysis.diagnostics.map FileReport.diagnosticJson)).IsReadable 3 :=
    .arr (List.forall_mem_map.2 fun d hd => isReadable_diagnosticJson (h.diagnostics d hd))
  refine .obj ?_
  simp only [List.forall_mem_cons]
  exact ⟨.str _, hmessages, hdiagnostics, List.forall_mem_nil _⟩

theorem toList_terminated (lines : List String) :
    (terminated lines).toList = (lines.map String.toList).flatMap (· ++ ['\n']) := by
  rw [terminated, String.toList_join, List.flatMap_map, List.flatMap_map]
  simp only [String.toList_append]
  rfl

theorem FileReport.jsonLine_eq {report : FileReport} {path : String}
    (h : report.path = Files.bytes path) :
    report.jsonLine = .ok (toJson path report.analysis).compact := by
  rw [jsonLine, h, Files.text?_bytes]

/-- The line of a report has no line feeds, and says what the report says. -/
theorem exists_jsonLine {report : FileReport} (words : report.HasWordLines)
    (text : Files.IsText report.path) :
    ∃ line, report.jsonLine = .ok line ∧ '\n' ∉ line.toList ∧
      ∃ members, Json.parse line.toList = .ok (.obj members) ∧
        Account.ofJson? (.obj members) = some report.account := by
  obtain ⟨path, h⟩ := text
  have hreadable := isReadable_toJson words path
  have haccount := Account.ofJson?_toJson path report.analysis
  rw [← h] at haccount
  refine ⟨_, FileReport.jsonLine_eq h, ?_, ?_⟩
  · rw [Json.compact, String.toList_ofList]
    exact Json.newline_notMem_write hreadable
  · rw [Json.compact, String.toList_ofList]
    exact ⟨_, Json.parse_write hreadable (by decide), haccount⟩

/-- **A JSON report is framed by its lines and loses nothing.** It has one line for each file, with
    a line feed at the end and none before, and each line is a JSON object that says of its file
    what the report on it says: the path, the messages, and the diagnostics, in order. -/
theorem render_json_lines {reports : List FileReport}
    (h : ∀ report ∈ reports, report.HasWordLines)
    (texts : ∀ report ∈ reports, Files.IsText report.path) :
    ∃ output, ∃ lines : List (List Char), render reports .json = .ok output ∧
      output.toList = lines.flatMap (· ++ ['\n']) ∧
      List.Forall₂ (fun line report => '\n' ∉ line ∧
        ∃ members, Json.parse line = .ok (.obj members) ∧
          Account.ofJson? (.obj members) = some report.account) lines reports := by
  obtain ⟨lines, hlines, hall⟩ := Files.exists_mapM_ok fun report hreport =>
    exists_jsonLine (h report hreport) (texts report hreport)
  refine ⟨terminated lines, lines.map String.toList, ?_, toList_terminated lines, ?_⟩
  · rw [render, renderJson, hlines]
    rfl
  · exact List.forall₂_map_left_iff.2 hall

/-- A report full of quotes, backslashes, line feeds and other control characters. -/
theorem render_json_lines_controls :
    let report : FileReport :=
      ⟨Files.bytes "a \"guide\"\n.txt", ⟨[⟨"\x00\r\n\\n\x7f𝄞", 1, 3, true, some "\x1f"⟩],
        [⟨2, 3, .other .warning "\t\x0c\x08"⟩], [], 3⟩⟩
    report.HasWordLines ∧
      ∃ output line, render [report] .json = .ok output ∧ output.toList = line ++ ['\n'] ∧
        '\n' ∉ line ∧ ∃ members, Json.parse line = .ok (.obj members) ∧
          Account.ofJson? (.obj members) = some report.account := by
  intro report
  have hreport : report.HasWordLines := by
    constructor
    · intro m hm
      cases List.mem_singleton.1 hm
      decide
    · intro d hd
      cases List.mem_singleton.1 hd
      decide
  have hall : ∀ other ∈ [report], other.HasWordLines := by
    intro other hother
    rw [List.mem_singleton.1 hother]
    exact hreport
  have htexts : ∀ other ∈ [report], Files.IsText other.path := by
    intro other hother
    rw [List.mem_singleton.1 hother]
    exact ⟨_, rfl⟩
  obtain ⟨output, lines, hrender, htext, hlines⟩ := render_json_lines hall htexts
  cases hlines with
  | cons hline hnil =>
    cases hnil
    rw [List.flatMap_singleton] at htext
    exact ⟨hreport, output, _, hrender, htext, hline⟩

end GuideCheck
