import GuideCheck.Problem

set_option autoImplicit false

/-! # Findings

A diagnostic is a problem with the lines it is about; a marker is the exact place of a fault in the
JSON of a payload. Findings are kept in the order in which they are made. -/

namespace GuideCheck

/-- A problem and the lines from `first` to `last` it is about. -/
structure Diagnostic where
  first : Nat
  last : Nat
  problem : Problem
deriving BEq, Repr

namespace Diagnostic

/-- A problem of one line. -/
def onLine (line : Nat) (problem : Problem) : Diagnostic := ⟨line, line, problem⟩

def severity (d : Diagnostic) : Severity := d.problem.severity

def message (d : Diagnostic) : String := d.problem.message

def isError (d : Diagnostic) : Bool := d.severity = .error

/-- The lines, the severity and the wording in one line of text. -/
def display (d : Diagnostic) : String :=
  let lines := if d.first = d.last then s!"{d.first}" else s!"{d.first}-{d.last}"
  s!"{lines}: {d.severity.name}: {d.message}"

end Diagnostic

/-- The place of a fault in the JSON of a payload: a line of the document, and the column that the
    reader gives. -/
structure Marker where
  line : Nat
  column : Nat
  message : String
deriving DecidableEq, Repr

/-- The place and the wording in one line of text. -/
def Marker.display (m : Marker) : String := s!"{m.line}:{m.column}: note: {m.message}"

/-- Diagnostics and markers in the order in which they were found. -/
structure Findings where
  diagnostics : List Diagnostic := []
  markers : List Marker := []
deriving BEq, Repr

namespace Findings

/-- The findings of both, those of `a` first. -/
def append (a b : Findings) : Findings :=
  ⟨a.diagnostics ++ b.diagnostics, a.markers ++ b.markers⟩

instance : Append Findings := ⟨append⟩

@[simp] theorem diagnostics_append (a b : Findings) :
    (a ++ b).diagnostics = a.diagnostics ++ b.diagnostics := rfl

@[simp] theorem markers_append (a b : Findings) : (a ++ b).markers = a.markers ++ b.markers := rfl

/-- Problems of one line. -/
def onLine (line : Nat) (problems : List Problem) : Findings :=
  ⟨problems.map (.onLine line), []⟩

def report (findings : Findings) (d : Diagnostic) : Findings :=
  { findings with diagnostics := findings.diagnostics ++ [d] }

def mark (findings : Findings) (m : Marker) : Findings :=
  { findings with markers := findings.markers ++ [m] }

/-- The markers, and the findings without them. -/
def takeMarkers (findings : Findings) : List Marker × Findings :=
  (findings.markers, { findings with markers := [] })

end Findings

end GuideCheck
