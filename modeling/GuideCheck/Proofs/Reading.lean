import GuideCheck.Json.Reader
import Mathlib.Tactic.ByContra
import Mathlib.Tactic.SplitIfs

set_option autoImplicit false

/-! # Reading without offsets

Offsets tell where a fault is reported and decide nothing else. What a reader makes of a text, if it
finds no fault, can therefore be followed one character at a time from any state (`value?_cons`),
whatever has been read before.

`StepsTo` lists what a reader may expect after a character. What every state has that a reader gets
to follows from it case by case. -/

namespace GuideCheck.Json

/-- The characters that belong to numbers. -/
theorem Numeral.isSome_digit?_or_mem_of_more {n next : Numeral} {c : Char}
    (h : n.step c = .more next) : (digit? c).isSome = true ∨ c ∈ ['.', 'e', 'E', '+', '-'] := by
  by_contra hnot
  simp only [not_or, Bool.not_eq_true, Option.isSome_eq_false_iff, Option.isNone_iff_eq_none,
    List.mem_cons, List.not_mem_nil, not_false_eq_true, and_true] at hnot
  obtain ⟨hdigit, hpoint, hsmall, hlarge, hplus, hminus⟩ := hnot
  obtain ⟨negative, significand, exponent, stage⟩ := n
  cases stage <;> simp [step, hdigit, afterDigits, hpoint, hsmall, hlarge, hplus, hminus] at h

namespace Reader

/-! ## Values without offsets -/

/-- The value that a reader makes of the rest of a text, if it finds no fault. -/
def value? (state : Reader) (text : List Char) : Option Json := (state.run 0 text).toOption

/-- The next state, if there is no fault. -/
def next? (state : Reader) (c : Char) : Option Reader := (state.step 0 c).toOption

theorem toOption_mapError {α β γ : Type} (result : Except α γ) (f : α → β) :
    (result.mapError f).toOption = result.toOption := by
  cases result <;> rfl

theorem toOption_reported (offset : Nat) (result : Except Cause Reader) :
    (reported offset result).toOption = result.toOption :=
  toOption_mapError result _

/-- Offsets only matter for faults. -/
theorem toOption_step (state : Reader) (offset : Nat) (c : Char) :
    (state.step offset c).toOption = state.next? c := by
  obtain ⟨frames, expected⟩ := state
  unfold next?
  cases expected with
  | value place | key first | comma | nothing value => simp only [step, toOption_reported]
  | colon =>
    simp only [step]
    split_ifs <;> rfl
  | word rest value =>
    cases rest with
    | nil => rfl
    | cons w rest =>
      simp only [step]
      split_ifs <;> rfl
  | number numeral =>
    simp only [step]
    split
    · rfl
    · rfl
    · split
      · simp only [toOption_reported]
      · rfl
  | keyText quoted | valueText quoted =>
    simp only [step]
    split <;> rfl

/-- The value of a text does not depend on the offset at which it begins. -/
theorem toOption_run (state : Reader) (offset : Nat) (text : List Char) :
    (state.run offset text).toOption = state.value? text := by
  induction text generalizing state offset with
  | nil => simp only [value?, run, toOption_mapError]
  | cons c text ih =>
    have hrun (offset : Nat) : (state.run offset (c :: text)).toOption =
        (state.step offset c).toOption.bind (·.value? text) := by
      simp only [run]
      cases state.step offset c with
      | ok next => exact ih next _
      | error fault => rfl
    rw [value?, hrun, hrun, toOption_step, toOption_step]

theorem value?_nil (state : Reader) : state.value? [] = state.finish.toOption :=
  toOption_mapError _ _

theorem value?_cons (state : Reader) (c : Char) (text : List Char) :
    state.value? (c :: text) = (state.next? c).bind (·.value? text) := by
  unfold next?
  rw [value?, run]
  cases state.step 0 c with
  | ok next => exact toOption_run next _ text
  | error fault => rfl

/-! ## What a step leads to -/

/-- The readers that a character may lead to, by what they expect. -/
inductive StepsTo (state : Reader) (c : Char) : Reader → Prop
  | value (frames : List Frame) (place : Place) : StepsTo state c ⟨frames, .value place⟩
  | key (frames : List Frame) (first : Bool) : StepsTo state c ⟨frames, .key first⟩
  | colon (frames : List Frame) : StepsTo state c ⟨frames, .colon⟩
  | comma (frames : List Frame) : StepsTo state c ⟨frames, .comma⟩
  | nothing (value : Json) : StepsTo state c ⟨[], .nothing value⟩
  /-- a word after its first letter -/
  | word (frames : List Frame) {rest : List Char} (value : Json)
      (h : rest ∈ [['u', 'l', 'l'], ['r', 'u', 'e'], ['a', 'l', 's', 'e']]) :
      StepsTo state c ⟨frames, .word rest value⟩
  | letter (frames : List Frame) {rest : List Char} {value : Json}
      (h : state.expected = .word (c :: rest) value) (hne : rest ≠ []) :
      StepsTo state c ⟨frames, .word rest value⟩
  | sign (frames : List Frame) (h : c = '-') : StepsTo state c ⟨frames, .number .negated⟩
  | firstDigit (frames : List Frame) {d : Nat} (h : Numeral.digit? c = some d) :
      StepsTo state c ⟨frames, .number (.firstDigit false d)⟩
  | number (frames : List Frame) {numeral next : Numeral} (h : state.expected = .number numeral)
      (hstep : numeral.step c = .more next) : StepsTo state c ⟨frames, .number next⟩
  | openKey (frames : List Frame) (h : c = '"') : StepsTo state c ⟨frames, .keyText .opened⟩
  | keyText (frames : List Frame) {quoted next : Quoted} (h : state.expected = .keyText quoted)
      (hstep : quoted.step c = .more next) : StepsTo state c ⟨frames, .keyText next⟩
  | openValue (frames : List Frame) (h : c = '"') : StepsTo state c ⟨frames, .valueText .opened⟩
  | valueText (frames : List Frame) {quoted next : Quoted}
      (h : state.expected = .valueText quoted) (hstep : quoted.step c = .more next) :
      StepsTo state c ⟨frames, .valueText next⟩

/-- A step that reports the cause of a fault yields the states of the step. -/
theorem eq_ok_of_reported {offset : Nat} {result : Except Cause Reader} {next : Reader}
    (h : reported offset result = .ok next) : result = .ok next := by
  cases result with
  | ok value =>
    cases h
    rfl
  | error cause => cases h

section

variable {state next : Reader} {c : Char} {frames : List Frame}

theorem stepsTo_give (frames : List Frame) (value : Json) :
    StepsTo state c (give frames value) := by
  match frames with
  | [] => exact .nothing value
  | .array _ :: _ | .object _ _ :: _ => exact .comma _

theorem stepsTo_giveKey (frames : List Frame) (key : String) :
    StepsTo state c (giveKey frames key) := by
  match frames with
  | [] | .array _ :: _ | .object _ _ :: _ => exact .colon _

theorem stepsTo_close (frames : List Frame) : StepsTo state c (close frames) := by
  match frames with
  | [] => exact .nothing _
  | frame :: outer => exact stepsTo_give outer frame.value

theorem eq_of_enter {frame : Frame} {expected : Expected}
    (h : enter frames frame expected = .ok next) : next = ⟨frame :: frames, expected⟩ := by
  unfold enter at h
  split_ifs at h
  exact (Except.ok.inj h).symm

theorem stepsTo_of_stepValue {place : Place} (h : stepValue frames place c = .ok next) :
    StepsTo state c next := by
  unfold stepValue at h
  split at h
  · cases h
    exact .value frames place
  · split at h
    · cases h
      exact .openValue frames rfl
    · cases eq_of_enter h
      exact .value _ _
    · cases eq_of_enter h
      exact .key _ _
    · cases h
      exact .word frames _ (by decide)
    · cases h
      exact .word frames _ (by decide)
    · cases h
      exact .word frames _ (by decide)
    · cases h
      exact .sign frames rfl
    · split at h
      · next hdigit =>
        cases h
        exact .firstDigit frames hdigit
      · split_ifs at h
        cases h
        exact stepsTo_close frames

theorem stepsTo_of_stepKey {first : Bool} (h : stepKey frames first c = .ok next) :
    StepsTo state c next := by
  unfold stepKey at h
  split_ifs at h with _ hquote
  · cases h
    exact .key frames first
  · cases h
    exact .openKey frames hquote
  · cases h
    exact stepsTo_close frames

theorem stepsTo_of_stepComma (h : stepComma frames c = .ok next) : StepsTo state c next := by
  unfold stepComma at h
  split at h
  · cases h
    exact .comma frames
  · split at h
    · split_ifs at h
      · cases h
        exact .key _ _
      · cases h
        exact stepsTo_close _
    · split_ifs at h
      · cases h
        exact .value _ _
      · cases h
        exact stepsTo_close _

theorem stepsTo_of_stepNothing {value : Json} (h : stepNothing value c = .ok next) :
    StepsTo state c next := by
  unfold stepNothing at h
  split_ifs at h
  cases h
  exact .nothing value

theorem stepsTo_of_stepAfter {value : Json} (h : stepAfter frames value c = .ok next) :
    StepsTo state c next := by
  unfold stepAfter at h
  split at h
  · exact stepsTo_of_stepNothing h
  · exact stepsTo_of_stepComma h

theorem stepsTo_of_step {offset : Nat} (h : state.step offset c = .ok next) :
    StepsTo state c next := by
  obtain ⟨frames, expected⟩ := state
  cases expected with
  | value place => exact stepsTo_of_stepValue (eq_ok_of_reported h)
  | key first => exact stepsTo_of_stepKey (eq_ok_of_reported h)
  | comma => exact stepsTo_of_stepComma (eq_ok_of_reported h)
  | nothing value => exact stepsTo_of_stepNothing (eq_ok_of_reported h)
  | colon =>
    simp only [step] at h
    split_ifs at h
    · cases h
      exact .colon frames
    · cases h
      exact .value frames .member
  | word rest value =>
    cases rest with
    | nil =>
      cases h
      exact stepsTo_give frames value
    | cons w rest =>
      simp only [step] at h
      split_ifs at h with hletter hend
      · cases h
        exact stepsTo_give frames value
      · cases h
        exact .letter frames (by rw [Decidable.not_not.1 hletter]) hend
  | number numeral =>
    simp only [step] at h
    split at h
    · next hmore =>
      cases h
      exact .number frames rfl hmore
    · cases h
    · split at h
      · exact stepsTo_of_stepAfter (eq_ok_of_reported h)
      · cases h
  | keyText quoted =>
    simp only [step] at h
    split at h
    · next hmore =>
      cases h
      exact .keyText frames rfl hmore
    · cases h
      exact stepsTo_giveKey frames _
    · cases h
  | valueText quoted =>
    simp only [step] at h
    split at h
    · next hmore =>
      cases h
      exact .valueText frames rfl hmore
    · cases h
      exact stepsTo_give frames _
    · cases h

theorem stepsTo_of_next? (h : next ∈ state.next? c) : StepsTo state c next := by
  rw [next?] at h
  cases hstep : state.step 0 c with
  | ok found =>
    rw [hstep] at h
    cases h
    exact stepsTo_of_step hstep
  | error fault =>
    rw [hstep] at h
    cases h

end

end Reader

end GuideCheck.Json
