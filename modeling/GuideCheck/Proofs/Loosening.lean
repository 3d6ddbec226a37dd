import GuideCheck.Analysis
import GuideCheck.Proofs.Reports
import GuideCheck.Proofs.Rounding

set_option autoImplicit false

/-! # Looser limits report no more

Limits are looser than others if they allow all that the others allow: every maximum is at least as
great, and the bounds of spacings lie further apart. Each limit is compared with a size that does
not depend on it, so a check under looser limits goes the same way and passes over some of the
problems. It therefore reports some of the severities that are reported under the stricter limits,
in the same order (`Milder`), and of each severity no more (`analyze_count_le`). That the problems
themselves are not the same is because their wording names the limit. -/

namespace GuideCheck

/-- Whether limits allow all that other limits allow. -/
structure Limits.IsLooser (loose limits : Limits) : Prop where
  messageLength : limits.messageLength ≤ loose.messageLength
  componentsPerMessage : limits.componentsPerMessage ≤ loose.componentsPerMessage
  actionRows : limits.actionRows ≤ loose.actionRows
  actionRowChildren : limits.actionRowChildren ≤ loose.actionRowChildren
  selectOptions : limits.selectOptions ≤ loose.selectOptions
  sectionChildren : limits.sectionChildren ≤ loose.sectionChildren
  spacingMin : loose.spacingMin ≤ limits.spacingMin
  spacingMax : limits.spacingMax ≤ loose.spacingMax

/-! ## Severities in order -/

/-- Whether a list has some of the severities of another one, in the same order. -/
def Milder {α : Type} (severity : α → Severity) (a b : List α) : Prop :=
  (a.map severity).Sublist (b.map severity)

namespace Milder

variable {α β : Type} {severity : α → Severity} {a b c d : List α}

theorem refl (a : List α) : Milder severity a a := List.Sublist.refl _

theorem append (h : Milder severity a b) (h' : Milder severity c d) :
    Milder severity (a ++ c) (b ++ d) := by
  unfold Milder
  rw [List.map_append, List.map_append]
  exact List.Sublist.append h h'

/-- What is milder item by item is milder. -/
theorem flatMap (items : List β) {f g : β → List α}
    (h : ∀ item ∈ items, Milder severity (f item) (g item)) :
    Milder severity (items.flatMap f) (items.flatMap g) := by
  induction items with
  | nil => exact refl _
  | cons item rest ih =>
    exact (h item List.mem_cons_self).append
      (ih fun other hother => h other (List.mem_cons_of_mem item hother))

/-- A milder list has no more of any severity. -/
theorem countP_le (h : Milder severity a b) (s : Severity) :
    a.countP (fun x => severity x = s) ≤ b.countP fun x => severity x = s := by
  have hcount := List.Sublist.countP_le (p := fun t => decide (t = s)) h
  rw [List.countP_map, List.countP_map] at hcount
  exact hcount

end Milder

/-! ## Component trees -/

namespace Component

theorem milder_problemIf {condition condition' : Bool} {problem problem' : Problem}
    (h : condition' = true → condition = true) (hseverity : problem'.severity = problem.severity) :
    Milder Problem.severity (problemIf condition' problem') (problemIf condition problem) := by
  cases condition' with
  | false => exact List.nil_sublist _
  | true =>
    rw [h rfl]
    simp [Milder, problemIf, hseverity]

/-- What exceeds the greater of two limits exceeds the other. -/
theorem milder_problemIf_lt {limit loose size : Nat} {problem problem' : Problem}
    (h : limit ≤ loose) (hseverity : problem'.severity = problem.severity) :
    Milder Problem.severity (problemIf (loose < size) problem')
      (problemIf (limit < size) problem) := by
  refine milder_problemIf (fun hlarge => ?_) hseverity
  rw [decide_eq_true_eq] at hlarge ⊢
  exact Nat.lt_of_le_of_lt h hlarge

section

variable {limits loose : Limits} (h : loose.IsLooser limits)

include h

theorem milder_optionProblems (position : Nat) (row : List Json) :
    Milder Problem.severity (optionProblems loose position row)
      (optionProblems limits position row) := by
  refine Milder.flatMap row fun child _ => ?_
  cases (child.get? "options").bind Json.items? with
  | none => exact Milder.refl _
  | some options =>
    refine milder_problemIf ?_ rfl
    intro hoverlong
    rw [Bool.and_eq_true, decide_eq_true_eq, decide_eq_true_eq] at hoverlong ⊢
    exact ⟨hoverlong.1, Nat.lt_of_le_of_lt h.selectOptions hoverlong.2⟩

theorem milder_rowProblems (position : Nat) (row : List Json) :
    Milder Problem.severity (rowProblems loose position row) (rowProblems limits position row) :=
  (milder_problemIf_lt h.actionRowChildren (by rfl)).append (milder_optionProblems h position row)

theorem milder_sectionProblems (position : Nat) (children : List Json) :
    Milder Problem.severity (sectionProblems loose position children)
      (sectionProblems limits position children) :=
  milder_problemIf_lt h.sectionChildren rfl

/-- Rows are counted the same, whatever their number may be. -/
theorem milder_containerProblems (rows position : Nat) (components : List Json) :
    Milder Problem.severity (containerProblems loose rows position components)
      (containerProblems limits rows position components) := by
  induction components generalizing rows position with
  | nil => exact Milder.refl _
  | cons component rest ih =>
    simp only [containerProblems]
    split
    · have hrow := milder_rowProblems h position (component.children?.getD [])
      exact ((milder_problemIf_lt h.actionRows (by rfl)).append hrow).append (ih _ _)
    · exact (milder_sectionProblems h position _).append (ih _ _)
    · exact ih _ _

/-- Bounds that lie further apart as numbers do so as doubles. -/
theorem badSpacing_of_isLooser {spacing : Option Json} (hbad : badSpacing loose spacing = true) :
    badSpacing limits spacing = true := by
  have hmin : Double.ofInt loose.spacingMin ≤ Double.ofInt limits.spacingMin :=
    Double.ofInt_mono (Int.ofNat_le.2 h.spacingMin)
  have hmax : Double.ofInt limits.spacingMax ≤ Double.ofInt loose.spacingMax :=
    Double.ofInt_mono (Int.ofNat_le.2 h.spacingMax)
  unfold badSpacing at hbad ⊢
  rw [Bool.or_eq_true] at hbad ⊢
  refine hbad.imp_right ?_
  cases spacing.bind Json.number? with
  | none => exact id
  | some n =>
    simp only [Bool.or_eq_true, decide_eq_true_eq]
    rintro (hlow | hhigh)
    · exact Or.inl (Int.lt_of_lt_of_le hlow hmin)
    · exact Or.inr (Int.lt_of_le_of_lt hmax hhigh)

theorem milder_componentProblems (position : Nat) (component : Json) :
    Milder Problem.severity (componentProblems loose position component)
      (componentProblems limits position component) := by
  refine (Milder.refl _).append ?_
  unfold kindProblems
  cases component.kind? with
  | none => exact Milder.refl _
  | some kind =>
    cases kind with
    | spacer => exact milder_problemIf (badSpacing_of_isLooser h) rfl
    | _ => exact Milder.refl _

theorem milder_treeProblems (components : List Json) :
    Milder Problem.severity (treeProblems loose components) (treeProblems limits components) := by
  have hitems := Milder.flatMap components.zipIdx fun (item : Json × Nat) _ =>
    milder_componentProblems h (item.2 + 1) item.1
  exact ((milder_problemIf_lt h.componentsPerMessage (by rfl)).append
    (milder_containerProblems h 0 1 components)).append hitems

theorem milder_check (payload : Json) :
    Milder Problem.severity (check loose payload) (check limits payload) := by
  refine (Milder.refl _).append ?_
  cases payload.children? with
  | none => exact Milder.refl _
  | some components => exact milder_treeProblems h components

end

end Component

/-! ## Documents -/

section

variable {rules : Ruleset} {loose : Limits} (h : loose.IsLooser rules.limits)

include h

theorem Payload.milder_findings (doc : Document) (kind : PayloadKind) (line : Nat) (block : Block)
    (payload : Payload) :
    Milder Diagnostic.severity
      (payload.findings { rules with limits := loose } doc kind line block).diagnostics
      (payload.findings rules doc kind line block).diagnostics := by
  cases payload with
  | parsed value =>
    cases kind with
    | embed => exact Milder.refl _
    | componentsV2 =>
      have hcheck := Component.milder_check h value
      simp only [Payload.findings, Findings.onLine, Milder, List.map_map]
      exact hcheck
  | _ => exact Milder.refl _

theorem Command.milder_runText (doc : Document) (line : Nat) (body : String) (block : Block)
    (tags : Tags) :
    Milder Diagnostic.severity
      (runText { rules with limits := loose } doc line body block tags).findings.diagnostics
      (runText rules doc line body block tags).findings.diagnostics := by
  unfold runText
  cases parse body with
  | error fault => exact Milder.refl _
  | ok command =>
    simp only [run]
    rcases Directive.ofName? command.name with _ | (_ | _ | _ | kind | _)
    · exact Milder.refl _
    · exact Milder.refl _
    · exact Milder.refl _
    · exact Milder.refl _
    · exact Payload.milder_findings h doc kind line block _
    · exact Milder.refl _

namespace Segmentation

theorem State.milder_step (s : State) (doc : Document) (number : Nat) (line : String) :
    Milder Diagnostic.severity
      (s.step { rules with limits := loose } doc number line).2.findings.diagnostics
      (s.step rules doc number line).2.findings.diagnostics := by
  rcases (Line.classify line).kind_cases with ⟨text, hkind⟩ | hkind | ⟨body, hkind⟩
  · rw [step_of_text hkind, step_of_text hkind]
    exact Milder.refl _
  · rw [step_of_separator hkind, step_of_separator hkind]
    exact Milder.refl _
  · rw [step_of_directive hkind, step_of_directive hkind]
    exact Command.milder_runText h doc number body _ _

/-- A run reports no more under looser limits. -/
theorem State.milder_feed (s : State) (doc : Document) (number : Nat) (lines : List String) :
    Milder Diagnostic.severity
      (s.feed { rules with limits := loose } doc number lines).2.findings.diagnostics
      (s.feed rules doc number lines).2.findings.diagnostics := by
  induction lines generalizing s number with
  | nil => exact Milder.refl _
  | cons line rest ih =>
    have hstate : (s.step { rules with limits := loose } doc number line).1 =
        (s.step rules doc number line).1 := (step_congr rules doc).1
    simp only [feed_cons, Output.findings_append, Findings.diagnostics_append, hstate]
    exact (State.milder_step h s doc number line).append (ih _ _)

theorem milder_segment (doc : Document) :
    Milder Diagnostic.severity
      (segment { rules with limits := loose } doc).findings.diagnostics
      (segment rules doc).findings.diagnostics := by
  rw [segment, segment, segmentLines, segmentLines]
  exact State.milder_feed h .initial doc 1 doc.lines

end Segmentation

theorem Block.milder_diagnostics (tags : Tags) (block : Block) :
    Milder Diagnostic.severity (block.diagnostics loose tags)
      (block.diagnostics rules.limits tags) := by
  refine (Milder.refl _).append ?_
  split_ifs with hloose hlimits
  · exact Milder.refl [Message.problem _ _]
  · exact absurd (Nat.lt_of_le_of_lt h.messageLength hloose) hlimits
  · exact List.nil_sublist _
  · exact Milder.refl _

/-- The diagnostics of a text under looser limits have some of the severities, in order. -/
theorem milder_analyze (text : String) :
    Milder Diagnostic.severity (analyze { rules with limits := loose } text).diagnostics
      (analyze rules text).diagnostics := by
  obtain ⟨hblocks, htags, -⟩ := Segmentation.segment_rules_congr
    { rules with limits := loose } rules (Document.ofText text)
  rw [diagnostics_analyze, diagnostics_analyze, hblocks, htags]
  refine (Segmentation.milder_segment h _).append (Milder.flatMap _ fun block _ => ?_)
  exact Block.milder_diagnostics h _ block

end

theorem Analysis.hasErrors_iff (a : Analysis) : a.hasErrors = true ↔ 0 < a.count .error := by
  simp [hasErrors, count, List.countP_pos_iff, Diagnostic.isError]

/-- **Looser limits report no more.** Whatever the schema, a text has no more errors and no more
    warnings under limits that allow all that others allow, and has errors only if it has errors
    under those. -/
theorem analyze_count_le (validate : Validator) {limits loose : Limits}
    (h : loose.IsLooser limits) (text : String) :
    (∀ severity, (analyze ⟨validate, loose⟩ text).count severity ≤
        (analyze ⟨validate, limits⟩ text).count severity) ∧
      ((analyze ⟨validate, loose⟩ text).hasErrors = true →
        (analyze ⟨validate, limits⟩ text).hasErrors = true) := by
  have hcount (severity : Severity) : (analyze ⟨validate, loose⟩ text).count severity ≤
      (analyze ⟨validate, limits⟩ text).count severity :=
    (@milder_analyze ⟨validate, limits⟩ loose h text).countP_le severity
  refine ⟨hcount, fun herrors => ?_⟩
  rw [Analysis.hasErrors_iff] at herrors ⊢
  exact Nat.lt_of_lt_of_le herrors (hcount .error)

/-- A payload with a row too many and too wide a spacing, under limits that allow both and under
    limits that allow neither. -/
theorem analyze_count_le_spacing :
    let text := "\x7b\"type\":17,\"components\":[\x7b\"type\":1\x7d," ++
      "\x7b\"type\":14,\"spacing\":9\x7d]\x7d\n.componentsV2:json"
    let limits : Limits := { actionRows := 0 }
    let loose : Limits := { actionRows := 1, spacingMax := 9 }
    loose.IsLooser limits ∧
      ((analyze ⟨fun _ => [], limits⟩ text).count .error = 1 ∧
        (analyze ⟨fun _ => [], limits⟩ text).count .warning = 1) ∧
      ∀ severity, (analyze ⟨fun _ => [], loose⟩ text).count severity ≤
        (analyze ⟨fun _ => [], limits⟩ text).count severity := by
  intro text limits loose
  have hlooser : loose.IsLooser limits := by constructor <;> decide
  exact ⟨hlooser, by decide +kernel, (analyze_count_le (fun _ => []) hlooser text).1⟩

end GuideCheck
