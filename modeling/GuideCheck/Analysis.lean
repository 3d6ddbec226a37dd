import GuideCheck.Message
import GuideCheck.Segmentation

set_option autoImplicit false

/-! # Analysis

One pass over a guide document: its lines are segmented into blocks, and the blocks become messages.
Diagnostics stand in the order in which they were found, those of segmentation first. -/

namespace GuideCheck

/-- What one pass over a document yields. -/
structure Analysis where
  messages : List Message
  diagnostics : List Diagnostic
  markers : List Marker
  lineCount : Nat

namespace Analysis

def hasErrors (a : Analysis) : Bool := a.diagnostics.any Diagnostic.isError

def count (a : Analysis) (severity : Severity) : Nat :=
  a.diagnostics.countP fun d => d.severity = severity

/-- The analysis of a segmented document. -/
def ofSegmented (limits : Limits) (lineCount : Nat) (s : Segmentation.Segmented) : Analysis where
  messages := s.blocks.map Message.ofBlock
  diagnostics := s.findings.diagnostics ++ s.blocks.flatMap (·.diagnostics limits s.tags)
  markers := s.findings.markers
  lineCount := lineCount

def ofDocument (rules : Ruleset) (doc : Document) : Analysis :=
  ofSegmented rules.limits doc.lineCount (Segmentation.segment rules doc)

end Analysis

def analyze (rules : Ruleset) (text : String) : Analysis :=
  Analysis.ofDocument rules (Document.ofText text)

theorem messages_analyze (rules : Ruleset) (text : String) :
    (analyze rules text).messages =
      (Segmentation.segment rules (Document.ofText text)).blocks.map Message.ofBlock := by
  rw [analyze, Analysis.ofDocument, Analysis.ofSegmented]

theorem diagnostics_analyze (rules : Ruleset) (text : String) :
    (analyze rules text).diagnostics =
      (Segmentation.segment rules (Document.ofText text)).findings.diagnostics ++
        (Segmentation.segment rules (Document.ofText text)).blocks.flatMap
          (·.diagnostics rules.limits
            (Segmentation.segment rules (Document.ofText text)).tags) := by
  rw [analyze, Analysis.ofDocument, Analysis.ofSegmented]

theorem markers_analyze (rules : Ruleset) (text : String) :
    (analyze rules text).markers =
      (Segmentation.segment rules (Document.ofText text)).findings.markers := by
  rw [analyze, Analysis.ofDocument, Analysis.ofSegmented]

theorem lineCount_analyze (rules : Ruleset) (text : String) :
    (analyze rules text).lineCount = (Document.ofText text).lineCount := by
  rw [analyze, Analysis.ofDocument, Analysis.ofSegmented]

end GuideCheck
