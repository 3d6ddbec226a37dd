import GuideCheck.Proofs.Effect
import GuideCheck.Segmentation
import Mathlib.Data.List.Induction

set_option autoImplicit false

/-! # Feeding lines to the segmentation machine

What one line does to the machine depends on whether it is text, a directive or a separator, and
`State.step_of_text`, `State.step_of_directive` and `State.step_of_separator` say what. A run over
lines put together is a run over the one and then the other (`State.feed_append`), and what every
step preserves a run preserves (`State.feed_induction`).

Blocks, tags and modes do not depend on the rules and the document that directives are run with
(`State.feed_congr`), and the tags declared in a run are those of its lines
(`State.contains_tags_feed`). -/

namespace GuideCheck

/-! ## The three kinds of lines -/

/-- A line is text, a separator or a directive. -/
theorem Line.kind_cases (line : Line) :
    (∃ text, line.content? = some text) ∨ line = .separator ∨ ∃ body, line = .directive body := by
  cases line with
  | content text => exact Or.inl ⟨text, rfl⟩
  | escaped text => exact Or.inl ⟨text, rfl⟩
  | separator => exact Or.inr (Or.inl rfl)
  | directive body => exact Or.inr (Or.inr ⟨body, rfl⟩)

/-- The tag that a line declares, if it is a well-formed `tag` directive. -/
def Line.declared? : Line → Option String
  | directive body =>
    match Command.parse body with
    | .ok command => if command.name = "tag" then some command.param else none
    | .error _ => none
  | _ => none

/-- The tags that the lines of a document declare, in order and with repetitions. -/
def declaredTags (lines : List String) : List String :=
  lines.filterMap fun line => (Line.classify line).declared?

theorem mem_declaredTags_cons {line name : String} {rest : List String} :
    name ∈ declaredTags (line :: rest) ↔
      (Line.classify line).declared? = some name ∨ name ∈ declaredTags rest := by
  unfold declaredTags
  rw [List.mem_filterMap, List.mem_filterMap]
  simp

namespace Segmentation

/-! ## Outputs -/

@[simp] theorem Output.append_empty (out : Output) : out ++ ({} : Output) = out := by
  show (⟨out.blocks ++ [], ⟨out.findings.diagnostics ++ [], out.findings.markers ++ []⟩⟩ : Output)
    = out
  simp only [List.append_nil]

@[simp] theorem Output.empty_append (out : Output) : ({} : Output) ++ out = out := rfl

theorem Output.append_assoc (a b c : Output) : a ++ b ++ c = a ++ (b ++ c) := by
  show (⟨a.blocks ++ b.blocks ++ c.blocks,
      ⟨a.findings.diagnostics ++ b.findings.diagnostics ++ c.findings.diagnostics,
        a.findings.markers ++ b.findings.markers ++ c.findings.markers⟩⟩ : Output)
    = ⟨a.blocks ++ (b.blocks ++ c.blocks),
      ⟨a.findings.diagnostics ++ (b.findings.diagnostics ++ c.findings.diagnostics),
        a.findings.markers ++ (b.findings.markers ++ c.findings.markers)⟩⟩
  simp only [List.append_assoc]

namespace State

variable {rules : Ruleset} {doc : Document} {s : State} {number : Nat} {line : String}

/-! ## One line -/

theorem step_of_text {text : String} (h : (Line.classify line).content? = some text) :
    s.step rules doc number line = s.addContent number text := by
  unfold step
  cases hline : Line.classify line with
  | content _ => simp only [hline, Line.content?, Option.some.injEq] at h; rw [h]
  | escaped _ => simp only [hline, Line.content?, Option.some.injEq] at h; rw [h]
  | separator => simp [hline, Line.content?] at h
  | directive _ => simp [hline, Line.content?] at h

theorem step_of_separator (h : Line.classify line = .separator) :
    s.step rules doc number line = s.separate number := by
  simp only [step, h]

theorem step_of_directive {body : String} (h : Line.classify line = .directive body) :
    s.step rules doc number line = s.direct rules doc number body := by
  simp only [step, h]

/-- The machine after a directive: the effect of the directive on the open block. -/
theorem direct_fst (body : String) :
    (s.direct rules doc number body).1 =
      ⟨.directive, (Effect.ofBody body).onBlock (s.closedBlock number) s.tags,
        (Effect.ofBody body).onTags s.tags⟩ := by
  simp only [direct, Command.runText_block, Command.runText_tags]

@[simp] theorem blocks_direct (body : String) :
    (s.direct rules doc number body).2.blocks = [] := rfl

/-! ## Many lines -/

@[simp] theorem feed_nil : s.feed rules doc number [] = (s, {}) := rfl

theorem feed_cons (rest : List String) :
    s.feed rules doc number (line :: rest) =
      let first := s.step rules doc number line
      let later := first.1.feed rules doc (number + 1) rest
      (later.1, first.2 ++ later.2) := rfl

/-- A run over lines put together is a run over the one and then the other. -/
theorem feed_append (lines more : List String) :
    s.feed rules doc number (lines ++ more) =
      let first := s.feed rules doc number lines
      let later := first.1.feed rules doc (number + lines.length) more
      (later.1, first.2 ++ later.2) := by
  induction lines generalizing s number with
  | nil => simp
  | cons line rest ih =>
    simp only [List.cons_append, feed_cons, ih, Output.append_assoc, List.length_cons,
      Nat.add_assoc, Nat.add_comm rest.length 1]

/-- What holds before the first line and is preserved by every step holds after a run. The invariant
    may speak of the number of the next line and of all output so far. -/
theorem feed_induction (Inv : Nat → State → Output → Prop) (lines : List String)
    (start : Inv number s {})
    (next : ∀ (i : Nat) (line : String) (state : State) (out : Output), lines[i]? = some line →
      Inv (number + i) state out →
      Inv (number + i + 1) (state.step rules doc (number + i) line).1
        (out ++ (state.step rules doc (number + i) line).2)) :
    Inv (number + lines.length) (s.feed rules doc number lines).1
      (s.feed rules doc number lines).2 := by
  -- from the last line back: the step of the invariant is the last one of the run
  induction lines using List.reverseRecOn with
  | nil => exact start
  | append_singleton lines line ih =>
    have hlast : (lines ++ [line])[lines.length]? = some line := by simp
    have hbefore := ih fun i line' state out hline =>
      next i line' state out (by
        rw [List.getElem?_append_left (List.getElem?_eq_some_iff.1 hline).1]; exact hline)
    simp only [feed_append, feed_cons, feed_nil, Output.append_empty, List.length_append,
      List.length_singleton]
    exact next lines.length line _ _ hlast hbefore

/-! ## What a run depends on -/

/-- States and closed blocks do not depend on rules and document. -/
theorem step_congr (rules' : Ruleset) (doc' : Document) :
    (s.step rules doc number line).1 = (s.step rules' doc' number line).1 ∧
      (s.step rules doc number line).2.blocks = (s.step rules' doc' number line).2.blocks := by
  rcases (Line.classify line).kind_cases with ⟨text, h⟩ | h | ⟨body, h⟩
  · rw [step_of_text h, step_of_text h]
    exact ⟨rfl, rfl⟩
  · rw [step_of_separator h, step_of_separator h]
    exact ⟨rfl, rfl⟩
  · rw [step_of_directive h, step_of_directive h, direct_fst, direct_fst]
    exact ⟨rfl, rfl⟩

theorem feed_congr (rules' : Ruleset) (doc' : Document) (lines : List String) :
    (s.feed rules doc number lines).1 = (s.feed rules' doc' number lines).1 ∧
      (s.feed rules doc number lines).2.blocks = (s.feed rules' doc' number lines).2.blocks := by
  induction lines generalizing s number with
  | nil => exact ⟨rfl, rfl⟩
  | cons line rest ih =>
    have hstep : (s.step rules doc number line).1 = (s.step rules' doc' number line).1 ∧ _ :=
      step_congr rules' doc'
    simp only [feed_cons, Output.blocks_append, hstep]
    exact ⟨ih.1, by rw [ih.2]⟩

/-! ## Tags -/

/-- The declared tag of a directive is the one its effect declares. -/
theorem declared?_directive (body : String) :
    (Line.directive body).declared? =
      match Effect.ofBody body with
      | .declare name => some name
      | _ => none := by
  simp only [Line.declared?, Effect.ofBody]
  cases Command.parse body with
  | error fault => rfl
  | ok command =>
    simp only [← Directive.ofName?_eq_tag_iff command.name]
    rcases Directive.ofName? command.name with _ | (_ | _ | _ | _ | _) <;> simp

theorem contains_tags_step (name : String) :
    (s.step rules doc number line).1.tags.contains name =
      (s.tags.contains name || decide ((Line.classify line).declared? = some name)) := by
  rcases (Line.classify line).kind_cases with ⟨text, h⟩ | h | ⟨body, h⟩
  · have hnone : (Line.classify line).declared? = none := by
      cases hline : Line.classify line <;> simp_all [Line.content?, Line.declared?]
    rw [step_of_text h, hnone]
    simp only [addContent]
    split <;> simp
  · rw [step_of_separator h, h]
    simp only [separate]
    split <;> simp [startBlock, Line.declared?]
  · rw [step_of_directive h, direct_fst, h, declared?_directive]
    cases Effect.ofBody body with
    | declare tag => simp [Effect.onTags, Tags.contains_insert, eq_comm]
    | nothing => simp [Effect.onTags]
    | attach => simp [Effect.onTags]
    | read param => simp [Effect.onTags]

/-- The tags after a run are those before it and those that its lines declare. -/
theorem contains_tags_feed (lines : List String) (name : String) :
    (s.feed rules doc number lines).1.tags.contains name =
      (s.tags.contains name || decide (name ∈ declaredTags lines)) := by
  induction lines generalizing s number with
  | nil => simp [declaredTags]
  | cons line rest ih =>
    simp only [feed_cons, ih, contains_tags_step, Bool.or_assoc, mem_declaredTags_cons,
      Bool.decide_or]

end State

end Segmentation

end GuideCheck
