import Mathlib.Data.List.Forall2
import GuideCheck.Proofs.Reports

set_option autoImplicit false

/-! # Text that is appended leaves finished messages alone

What has left the machine after so many lines, the blocks that are closed and the problems that are
reported, is settled by these lines (`Segmentation.outputAfter_congr`); only where problems stand is
looked up in the whole document. All of it stays at the beginning of what the whole document yields
(`Segmentation.blocks_outputAfter_prefix`, `Segmentation.diagnostics_outputAfter_prefix`).

At the end of a text one block is open, and the end closes it. It is the last one
(`Segmentation.dropLast_blocks_segment`), and the only one that more text could still change. So
whatever is appended to a text, all its messages but the last stay as they are
(`analyze_appended`). -/

namespace GuideCheck

namespace Segmentation

/-- What has left the machine after so many lines of a document. -/
def outputAfter (rules : Ruleset) (doc : Document) (count : Nat) : Output :=
  (State.initial.feed rules doc 1 (doc.lines.take count)).2

variable {rules : Ruleset} {doc doc' : Document} {count : Nat}

/-! ## What the lines settle -/

/-- Documents that begin with the same lines yield the same blocks and the same problems up to
    there. -/
theorem outputAfter_congr (rules : Ruleset) (h : doc.lines.take count = doc'.lines.take count) :
    (outputAfter rules doc count).blocks = (outputAfter rules doc' count).blocks ∧
      (outputAfter rules doc count).findings.problems =
        (outputAfter rules doc' count).findings.problems := by
  unfold outputAfter
  rw [h]
  exact ⟨(State.feed_congr rules doc' _).2, State.problems_feed_congr doc' _⟩

/-! ## Output stays -/

/-- What leaves the machine on later lines comes behind what has left it before. -/
theorem exists_output_eq (rules : Ruleset) (doc : Document) (count : Nat) :
    ∃ later,
      (State.initial.feed rules doc 1 doc.lines).2 = outputAfter rules doc count ++ later := by
  have hrun : State.initial.feed rules doc 1 (doc.lines.take count ++ doc.lines.drop count) = _ :=
    State.feed_append _ _
  rw [List.take_append_drop] at hrun
  exact ⟨_, congrArg Prod.snd hrun⟩

theorem blocks_outputAfter_prefix (rules : Ruleset) (doc : Document) (count : Nat) :
    (outputAfter rules doc count).blocks <+: (segment rules doc).blocks := by
  obtain ⟨later, hlater⟩ := exists_output_eq rules doc count
  simp only [segment, segmentLines, hlater, Output.blocks_append, List.append_assoc]
  exact List.prefix_append _ _

theorem diagnostics_outputAfter_prefix (rules : Ruleset) (doc : Document) (count : Nat) :
    (outputAfter rules doc count).findings.diagnostics <+:
      (segment rules doc).findings.diagnostics := by
  obtain ⟨later, hlater⟩ := exists_output_eq rules doc count
  simp only [segment, segmentLines, hlater, Output.findings_append, Findings.diagnostics_append]
  exact List.prefix_append _ _

/-- All blocks but the last one are closed before the document ends. -/
theorem dropLast_blocks_segment (rules : Ruleset) (doc : Document) :
    (segment rules doc).blocks.dropLast = (outputAfter rules doc doc.lineCount).blocks := by
  rw [outputAfter, Document.lineCount, List.take_length]
  exact List.dropLast_concat

theorem findings_segment_eq (rules : Ruleset) (doc : Document) :
    (segment rules doc).findings = (outputAfter rules doc doc.lineCount).findings := by
  rw [outputAfter, Document.lineCount, List.take_length]
  rfl

end Segmentation

/-! ## Texts put together -/

/-- The lines of two texts with a line feed between them. -/
theorem Document.lines_appended (a b : String) :
    (ofText (a ++ "\n" ++ b)).lines = (ofText a).lines ++ (ofText b).lines := by
  have htext : (a ++ "\n" ++ b).toList = a.toList ++ '\n' :: b.toList := by simp
  simp only [ofText, Text.lines, htext, Text.split_append_separator, List.map_append]

/-- The longer text begins with the lines of the shorter one. -/
theorem Document.take_lines_appended (a b : String) :
    (ofText (a ++ "\n" ++ b)).lines.take (ofText a).lineCount =
      (ofText a).lines.take (ofText a).lineCount := by
  rw [lines_appended, lineCount, List.take_left, List.take_length]

/-- Diagnostics with the same problems have the same severities and wordings. -/
theorem Findings.forall₂_of_problems_eq {findings findings' : Findings}
    (h : findings'.problems = findings.problems) :
    List.Forall₂ (fun d d' => d'.severity = d.severity ∧ d'.message = d.message)
      findings.diagnostics findings'.diagnostics := by
  have hproblems : List.Forall₂ (fun d d' : Diagnostic => d'.problem = d.problem)
      findings.diagnostics findings'.diagnostics := by
    have heq : List.Forall₂ (fun p p' => p' = p) findings.problems findings'.problems := by
      rw [h]
      exact List.forall₂_same.2 fun _ _ => rfl
    rwa [Findings.problems, Findings.problems, List.forall₂_map_left_iff,
      List.forall₂_map_right_iff] at heq
  refine hproblems.imp fun d d' hproblem => ?_
  rw [Diagnostic.severity, Diagnostic.severity, Diagnostic.message, Diagnostic.message, hproblem]
  exact ⟨rfl, rfl⟩

/-- **Finished messages survive appending.** Whatever is appended after a line feed, all messages of
    a text but the last are the first messages of the longer text. What the longer text has reported
    after the lines of the shorter one stands at the beginning of its diagnostics; it is, one by
    one, of the severity and in the words that the directives of the shorter text are reported
    with. -/
theorem analyze_appended (rules : Ruleset) (a b : String) :
    let whole := a ++ "\n" ++ b
    let reported := (Segmentation.outputAfter rules (Document.ofText whole)
      (analyze rules a).lineCount).findings.diagnostics
    (analyze rules a).messages.dropLast <+: (analyze rules whole).messages ∧
      reported <+: (analyze rules whole).diagnostics ∧
      List.Forall₂ (fun d d' => d'.severity = d.severity ∧ d'.message = d.message)
        (Segmentation.segment rules (Document.ofText a)).findings.diagnostics reported := by
  intro whole reported
  obtain ⟨hblocks, hproblems⟩ :=
    Segmentation.outputAfter_congr rules (Document.take_lines_appended a b)
  refine ⟨?_, ?_, ?_⟩
  · rw [messages_analyze, messages_analyze, ← List.map_dropLast,
      Segmentation.dropLast_blocks_segment, ← hblocks]
    exact (Segmentation.blocks_outputAfter_prefix rules _ _).map Message.ofBlock
  · rw [diagnostics_analyze]
    exact (Segmentation.diagnostics_outputAfter_prefix rules _ _).trans (List.prefix_append _ _)
  · simp only [reported, lineCount_analyze]
    rw [Segmentation.findings_segment_eq]
    exact Findings.forall₂_of_problems_eq hproblems

end GuideCheck
