import GuideCheck.Analysis
import GuideCheck.Proofs.Feed

set_option autoImplicit false

/-! # What directives report

A directive reports problems, each on a line, and at most one marker. An effect goes by little of
what it finds: an attachment by whether there is one already, a tag by the tags, a payload by the
text and where it comes from (`Effect.SeesSame`). The marker is settled by that much
(`Effect.marker?_congr`), and so are the problems once the rules are given; the document and the
number of the line only settle where the problems stand (`Command.problems_runText_congr`).

Rules therefore show in diagnostics and nowhere else (`analyze_rules_congr`). -/

namespace GuideCheck

/-! ## Problems without lines -/

/-- The problems among findings, without the lines they are about. -/
def Findings.problems (findings : Findings) : List Problem :=
  findings.diagnostics.map Diagnostic.problem

@[simp] theorem Findings.problems_append (a b : Findings) :
    (a ++ b).problems = a.problems ++ b.problems :=
  List.map_append

@[simp] theorem Findings.problems_onLine (line : Nat) (problems : List Problem) :
    (onLine line problems).problems = problems := by
  simp [Findings.problems, onLine, Function.comp_def, Diagnostic.onLine]

/-- The severity of a diagnostic is that of its problem. -/
theorem Findings.countP_severity (findings : Findings) (severity : Severity) :
    findings.diagnostics.countP (fun d => d.severity = severity) =
      findings.problems.countP (fun p => p.severity = severity) := by
  rw [Findings.problems, List.countP_map]
  rfl

theorem Embed.problems_check (doc : Document) (validate : Validator) (line : Nat)
    (payload : Json) :
    (Embed.check doc validate line payload).problems =
      (emptyTexts (select payload.withoutContent)).map .emptyField ++
        (validate (select payload.withoutContent)).map .violation := by
  simp [Findings.problems, Embed.check, Function.comp_def, Diagnostic.onLine]

/-- The problems of a payload depend on the payload and the rules. -/
theorem Payload.problems_findings_congr (rules : Ruleset) (doc doc' : Document)
    (kind : PayloadKind) (line line' : Nat) (block block' : Block) (payload : Payload) :
    (payload.findings rules doc kind line block).problems =
      (payload.findings rules doc' kind line' block').problems := by
  cases payload with
  | plain => rfl
  | refused => rfl
  | malformed error => rfl
  | parsed value =>
    cases kind with
    | embed =>
      show (Embed.check doc rules.validate line value).problems =
        (Embed.check doc' rules.validate line' value).problems
      rw [Embed.problems_check, Embed.problems_check]
    | componentsV2 =>
      show (Findings.onLine line _).problems = (Findings.onLine line' _).problems
      rw [Findings.problems_onLine, Findings.problems_onLine]

/-! ## What an effect goes by -/

namespace Effect

/-- Whether two blocks, each with the tags that are declared, are the same in all that an effect
    goes by. -/
def SeesSame (block : Block) (tags : Tags) (block' : Block) (tags' : Tags) : Effect → Prop
  | nothing => True
  | attach => block'.attachment = block.attachment
  | declare _ => block'.tag = block.tag ∧ tags' = tags
  | read _ =>
    block'.text = block.text ∧ block'.firstLine = block.firstLine ∧
      block'.rewritten = block.rewritten

theorem SeesSame.refl (block : Block) (tags : Tags) (effect : Effect) :
    effect.SeesSame block tags block tags := by
  cases effect with
  | nothing => exact trivial
  | attach => rfl
  | declare name => exact ⟨rfl, rfl⟩
  | read param => exact ⟨rfl, rfl, rfl⟩

/-- The marker that an effect leaves for the block it acts on. -/
def marker? (block : Block) : Effect → Option Marker
  | read param => (Payload.read param block.text).marker? block
  | _ => none

theorem marker?_congr {effect : Effect} {block block' : Block} {tags tags' : Tags}
    (h : effect.SeesSame block tags block' tags') :
    effect.marker? block = effect.marker? block' := by
  cases effect with
  | nothing => rfl
  | attach => rfl
  | declare name => rfl
  | read param =>
    obtain ⟨htext, hfirst, hrewritten⟩ := h
    rw [marker?, marker?, htext]
    cases Payload.read param block.text with
    | malformed error => simp only [Payload.marker?, htext, hfirst, hrewritten]
    | plain | refused | parsed => rfl

end Effect

namespace Payload

theorem markers_findings (rules : Ruleset) (doc : Document) (kind : PayloadKind) (line : Nat)
    (block : Block) (payload : Payload) :
    (payload.findings rules doc kind line block).markers = (payload.marker? block).toList := by
  cases payload with
  | plain => rfl
  | refused => rfl
  | malformed error => rfl
  | parsed value => cases kind <;> rfl

end Payload

namespace Command

/-- The markers of a directive are those of its effect. -/
theorem runText_markers (rules : Ruleset) (doc : Document) (line : Nat) (body : String)
    (block : Block) (tags : Tags) :
    (runText rules doc line body block tags).findings.markers =
      ((Effect.ofBody body).marker? block).toList := by
  unfold runText Effect.ofBody
  cases parse body with
  | error fault => rfl
  | ok command =>
    simp only [run]
    rcases Directive.ofName? command.name with _ | (_ | _ | _ | kind | _)
    · rfl
    · rfl
    · rfl
    · rfl
    · exact Payload.markers_findings rules doc kind line block _
    · rfl

/-- A directive has the same problems wherever it finds the same. -/
theorem problems_runText_congr {body : String} {block block' : Block} {tags tags' : Tags}
    (rules : Ruleset) (doc doc' : Document) (line line' : Nat)
    (h : (Effect.ofBody body).SeesSame block tags block' tags') :
    (runText rules doc line body block tags).findings.problems =
      (runText rules doc' line' body block' tags').findings.problems := by
  unfold Effect.ofBody at h
  unfold runText
  cases hparse : parse body with
  | error fault => simp only [Findings.problems_onLine]
  | ok command =>
    simp only [hparse] at h
    simp only [run]
    rcases hname : Directive.ofName? command.name with _ | (_ | _ | _ | kind | _)
    · simp only [Findings.problems_onLine]
    · simp only [hname, Effect.SeesSame] at h
      simp only [Findings.problems_onLine, attachProblems, h]
    · simp only [hname, Effect.SeesSame] at h
      simp only [Findings.problems_onLine, tagProblems, h]
    · simp only [Findings.problems_onLine]
    · simp only [hname, Effect.SeesSame] at h
      simp only [h.1]
      exact Payload.problems_findings_congr rules doc doc' kind line line' block block' _
    · rfl

end Command

/-! ## Runs -/

namespace Segmentation.State

variable {rules : Ruleset} {doc : Document} {s : State} {number : Nat} {line : String}

theorem markers_step_congr (rules' : Ruleset) (doc' : Document) :
    (s.step rules doc number line).2.findings.markers =
      (s.step rules' doc' number line).2.findings.markers := by
  rcases (Line.classify line).kind_cases with ⟨text, h⟩ | h | ⟨body, h⟩
  · rw [step_of_text h, step_of_text h]
  · rw [step_of_separator h, step_of_separator h]
  · rw [step_of_directive h, step_of_directive h]
    simp only [direct, Command.runText_markers]

/-- The markers of a run depend neither on the rules nor on the document that is searched. -/
theorem markers_feed_congr (rules' : Ruleset) (doc' : Document) (lines : List String) :
    (s.feed rules doc number lines).2.findings.markers =
      (s.feed rules' doc' number lines).2.findings.markers := by
  induction lines generalizing s number with
  | nil => rfl
  | cons line rest ih =>
    have hstep : (s.step rules doc number line).1 = (s.step rules' doc' number line).1 :=
      (step_congr rules' doc').1
    have hmarkers : (s.step rules doc number line).2.findings.markers =
        (s.step rules' doc' number line).2.findings.markers := markers_step_congr rules' doc'
    simp only [feed_cons, Output.findings_append, Findings.markers_append, hmarkers, hstep, ih]

theorem problems_step_congr (doc' : Document) :
    (s.step rules doc number line).2.findings.problems =
      (s.step rules doc' number line).2.findings.problems := by
  rcases (Line.classify line).kind_cases with ⟨text, h⟩ | h | ⟨body, h⟩
  · rw [step_of_text h, step_of_text h]
  · rw [step_of_separator h, step_of_separator h]
  · rw [step_of_directive h, step_of_directive h]
    exact Command.problems_runText_congr rules doc doc' number number (.refl _ _ _)

/-- The problems of a run do not depend on the document that is searched for their lines. -/
theorem problems_feed_congr (doc' : Document) (lines : List String) :
    (s.feed rules doc number lines).2.findings.problems =
      (s.feed rules doc' number lines).2.findings.problems := by
  induction lines generalizing s number with
  | nil => rfl
  | cons line rest ih =>
    have hstep : (s.step rules doc number line).1 = (s.step rules doc' number line).1 :=
      (step_congr rules doc').1
    have hproblems : (s.step rules doc number line).2.findings.problems =
        (s.step rules doc' number line).2.findings.problems := problems_step_congr doc'
    simp only [feed_cons, Output.findings_append, Findings.problems_append, hproblems, hstep, ih]

end Segmentation.State

/-- Blocks, tags and markers of a document do not depend on the rules. -/
theorem Segmentation.segment_rules_congr (rules rules' : Ruleset) (doc : Document) :
    (segment rules doc).blocks = (segment rules' doc).blocks ∧
      (segment rules doc).tags = (segment rules' doc).tags ∧
      (segment rules doc).findings.markers = (segment rules' doc).findings.markers := by
  have hrun : (State.initial.feed rules doc 1 doc.lines).1 =
      (State.initial.feed rules' doc 1 doc.lines).1 ∧ _ := State.feed_congr rules' doc doc.lines
  have hmarkers : (State.initial.feed rules doc 1 doc.lines).2.findings.markers =
      (State.initial.feed rules' doc 1 doc.lines).2.findings.markers :=
    State.markers_feed_congr rules' doc doc.lines
  simp only [segment, segmentLines, hrun, hmarkers, and_self]

/-- **Rules show in diagnostics alone.** Whatever the schema and the limits, a text has the same
    messages, the same markers and the same number of lines. -/
theorem analyze_rules_congr (rules rules' : Ruleset) (text : String) :
    (analyze rules text).messages = (analyze rules' text).messages ∧
      (analyze rules text).markers = (analyze rules' text).markers ∧
      (analyze rules text).lineCount = (analyze rules' text).lineCount := by
  obtain ⟨hblocks, -, hmarkers⟩ :=
    Segmentation.segment_rules_congr rules rules' (Document.ofText text)
  refine ⟨?_, ?_, ?_⟩
  · rw [messages_analyze, messages_analyze, hblocks]
  · rw [markers_analyze, markers_analyze, hmarkers]
  · rw [lineCount_analyze, lineCount_analyze]

end GuideCheck
