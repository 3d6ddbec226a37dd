import GuideCheck.Payload
import GuideCheck.Proofs.Pairs
import GuideCheck.Proofs.RoundTrip
import Mathlib.Data.List.Basic

set_option autoImplicit false

/-! # A mended text is refused for no surrogate

The reader takes the text of a string character by character, mending goes by pieces. Both see the
same pairs: a reader that is between two pieces, after a leading surrogate or not (`Reader.At`), is
so again after the next piece, or has found a fault. If it gets to a value, the surrogates of the
text come in pairs, and if they come in pairs, the fault is another one (`Reader.fits_run`).

Outside of strings every backslash is a fault (`Reader.Clear.settles_step`), so all escapes that are
read stand in strings. The escape of a code unit without its four digits is a piece of two
characters only; the reader takes up to four more before it finds the fault, which is that of the
escape and of no surrogate (`Reader.run_of_breaking`). -/

namespace GuideCheck.Json

/-- Whether a cause is that a surrogate has no partner. -/
def Cause.IsUnpaired (cause : Cause) : Prop := cause = .loneSurrogate ∨ cause = .unfinishedPair

/-- Whether a text is refused because of something else. -/
def Refused (result : Except Fault Json) : Prop :=
  ∃ fault, result = .error fault ∧ ¬ fault.cause.IsUnpaired

/-! ## String literals -/

namespace Quoted

/-- Whether the four bytes of a code unit, some of which have been read, are not four digits. -/
def Lacks (seen text : List Char) : Prop :=
  unit? seen = none ∨ seen.length + (digits text).length < 4

theorem hexStep_of_lacks {seen : List Char} {c : Char} {text : List Char}
    (h : Lacks seen (c :: text)) :
    (hexStep seen c = .more (c :: seen) ∧ Lacks (c :: seen) text) ∨
      ∃ past, hexStep seen c = .bad past := by
  cases hunit : unit? (c :: seen) with
  | none => exact (hexStep_of_unit? hunit).imp_left fun hmore => ⟨hmore, Or.inl hunit⟩
  | some unit =>
    -- the character is a digit after digits, so too few of them follow
    obtain ⟨high, hseen, hc⟩ := Option.bind_eq_some_iff.1 hunit
    obtain ⟨low, hlow, -⟩ := Option.map_eq_some_iff.1 hc
    have hdigit : isHexDigit c = true := by rw [isHexDigit, hlow]; rfl
    have hlength : seen.length + ((digits text).length + 1) < 4 := by
      rcases h with hnone | hlength
      · rw [hseen] at hnone
        cases hnone
      · simpa only [digits, List.takeWhile_cons, hdigit, if_true, List.length_cons] using hlength
    unfold hexStep
    dsimp only
    split_ifs with hbytes hthree
    · refine Or.inl ⟨rfl, Or.inr ?_⟩
      simp only [List.length_cons]
      omega
    · omega
    · exact Or.inr ⟨_, rfl⟩

/-- Whether a string literal is in the middle of an escape that is followed by less than four
    digits. -/
inductive Breaking (text : List Char) : Quoted → Prop
  | hex {chars seen : List Char} (h : Lacks seen text) : Breaking text ⟨chars, .hex seen⟩
  | pairHex {chars seen : List Char} {high : Nat} (h : Lacks seen text) :
      Breaking text ⟨chars, .pairHex high seen⟩

theorem Breaking.step {q : Quoted} {c : Char} {text : List Char} (h : Breaking (c :: text) q) :
    (∃ next, q.step c = .more next ∧ next.Breaking text) ∨
      ∃ past, q.step c = .fault .invalidEscape past := by
  cases h with
  | @hex chars seen h =>
    rcases hexStep_of_lacks h with ⟨hmore, hlacks⟩ | ⟨past, hbad⟩
    · exact Or.inl ⟨⟨chars, .hex (c :: seen)⟩, by simp only [Quoted.step, hmore], .hex hlacks⟩
    · exact Or.inr ⟨past, by simp only [Quoted.step, hbad]⟩
  | @pairHex chars seen high h =>
    rcases hexStep_of_lacks h with ⟨hmore, hlacks⟩ | ⟨past, hbad⟩
    · exact Or.inl ⟨⟨chars, .pairHex high (c :: seen)⟩, by simp only [Quoted.step, hmore],
        .pairHex hlacks⟩
    · exact Or.inr ⟨past, by simp only [Quoted.step, hbad]⟩

/-- Outside of escapes a quote closes a string, and all but control characters are taken. -/
theorem step_of_plain {q : Quoted} (h : q.stage = .plain) {c : Char} (hc : c ≠ '\\') :
    q.step c = .more (q.push c) ∨ (∃ text, q.step c = .closed text) ∨
      q.step c = .fault .controlCharacter 1 := by
  simp only [step, h, hc, if_false]
  split_ifs
  · exact .inr (.inl ⟨_, rfl⟩)
  · exact .inr (.inr rfl)
  · exact .inl rfl

/-! ### Four digits -/

theorem bytes_of_digits {seen : List Char} (h : ∀ c ∈ seen, isHexDigit c = true) :
    Text.bytes seen = seen.length := by
  induction seen with
  | nil => rfl
  | cons c seen ih =>
    have hsize := utf8Size_of_isHexDigit (h c List.mem_cons_self)
    have hseen := ih fun d hd => h d (List.mem_cons_of_mem c hd)
    simp only [Text.bytes, List.foldr_cons, List.length_cons] at hseen ⊢
    omega

/-- A digit after less than three digits. -/
theorem hexStep_of_digits {seen : List Char} {c : Char}
    (h : ∀ d ∈ c :: seen, isHexDigit d = true) (hlength : seen.length < 3) :
    hexStep seen c = .more (c :: seen) := by
  have hbytes := bytes_of_digits fun d hd => h d (List.mem_cons_of_mem c hd)
  have hsize := utf8Size_of_isHexDigit (h c List.mem_cons_self)
  unfold hexStep
  dsimp only
  rw [if_pos (by omega)]

/-- A digit after three digits. -/
theorem hexStep_of_unit {seen : List Char} {c : Char}
    (h : ∀ d ∈ c :: seen, isHexDigit d = true) (hlength : seen.length = 3) {unit : Nat}
    (hunit : unit? (c :: seen) = some unit) : hexStep seen c = .unit unit := by
  have hbytes := bytes_of_digits fun d hd => h d (List.mem_cons_of_mem c hd)
  have hsize := utf8Size_of_isHexDigit (h c List.mem_cons_self)
  unfold hexStep
  dsimp only
  rw [if_neg (by omega), if_pos hlength, hunit]

section

variable {a b c d : Char}
  (h : isHexDigit a ∧ isHexDigit b ∧ isHexDigit c ∧ isHexDigit d)

include h

theorem hexSteps : hexStep [] a = .more [a] ∧ hexStep [a] b = .more [b, a] ∧
    hexStep [b, a] c = .more [c, b, a] ∧
      ∃ unit, unit? [d, c, b, a] = some unit ∧ hexStep [c, b, a] d = .unit unit := by
  obtain ⟨unit, hunit⟩ := exists_unit?_iff.2 h
  obtain ⟨ha, hb, hc, hd⟩ := h
  have hall : ∀ x ∈ [d, c, b, a], isHexDigit x = true := by simp [ha, hb, hc, hd]
  refine ⟨hexStep_of_digits ?_ (by simp), hexStep_of_digits ?_ (by simp),
    hexStep_of_digits ?_ (by simp), unit, hunit, hexStep_of_unit hall rfl hunit⟩
  · simp [ha]
  · simp [ha, hb]
  · simp [ha, hb, hc]

/-- An escape of four digits in a string literal, up to its last digit. -/
theorem feed_first (chars : List Char) :
    feed ⟨chars, .plain⟩ ['\\', 'u', a, b, c] = some ⟨chars, .hex [c, b, a]⟩ := by
  obtain ⟨ha, hb, hc, -⟩ := hexSteps h
  simp [feed, step, ha, hb, hc]

/-- An escape of four digits after a leading surrogate, up to its last digit. -/
theorem feed_second (chars : List Char) (high : Nat) :
    feed ⟨chars, .pairMark high⟩ ['\\', 'u', a, b, c] =
      some ⟨chars, .pairHex high [c, b, a]⟩ := by
  obtain ⟨ha, hb, hc, -⟩ := hexSteps h
  simp [feed, step, ha, hb, hc]

end

end Quoted

/-! ## Numbers -/

namespace Numeral

theorem digit?_backslash : digit? '\\' = none := rfl

/-- No number has a backslash. -/
theorem ne_backslash_of_more {n next : Numeral} {c : Char} (h : n.step c = .more next) :
    c ≠ '\\' := by
  rintro rfl
  exact absurd (isSome_digit?_or_mem_of_more h) (by decide)

theorem not_isUnpaired_of_fault {n : Numeral} {c : Char} {cause : Cause}
    (h : n.step c = .fault cause) : ¬ cause.IsUnpaired := by
  have hafter {n : Numeral} {pointAllowed : Bool} :
      n.afterDigits pointAllowed c ≠ .fault cause := by
    unfold afterDigits
    split_ifs <;> nofun
  have hpower {n : Numeral} {negative : Bool} {value d : Nat}
      (h : n.addPower negative value d = .fault cause) : ¬ cause.IsUnpaired := by
    unfold addPower at h
    split_ifs at h
    cases h
    nofun
  have hmark (h : (if c = '+' then Step.more { n with stage := .markSign false }
      else if c = '-' then .more { n with stage := .markSign true }
      else .fault .invalidNumber) = .fault cause) : ¬ cause.IsUnpaired := by
    split_ifs at h
    cases h
    nofun
  unfold step at h
  split at h
  all_goals first
    | exact absurd h hafter
    | exact hpower h
    | exact hmark h
    | cases h; nofun
    | cases h

end Numeral

namespace Reader

/-- The string literal that a reader is in. -/
def text? (state : Reader) : Option Quoted :=
  match state.expected with
  | .keyText quoted | .valueText quoted => some quoted
  | _ => none

section

variable {state : Reader} {q next : Quoted} {c : Char}

theorem run_of_more (h : state.text? = some q) (hstep : q.step c = .more next) (offset : Nat)
    (text : List Char) : ∃ state' : Reader, state'.text? = some next ∧
      state.run offset (c :: text) = state'.run (offset + c.utf8Size) text := by
  obtain ⟨frames, expected⟩ := state
  cases expected with
  | keyText quoted =>
    cases h
    exact ⟨⟨frames, .keyText next⟩, rfl, by simp only [run, step, hstep]⟩
  | valueText quoted =>
    cases h
    exact ⟨⟨frames, .valueText next⟩, rfl, by simp only [run, step, hstep]⟩
  | _ => cases h

theorem run_of_fault (h : state.text? = some q) {cause : Cause} {past : Nat}
    (hstep : q.step c = .fault cause past) (offset : Nat) (text : List Char) :
    state.run offset (c :: text) = .error ⟨cause, offset + past⟩ := by
  obtain ⟨frames, expected⟩ := state
  cases expected with
  | keyText quoted =>
    cases h
    simp only [run, step, hstep]
  | valueText quoted =>
    cases h
    simp only [run, step, hstep]
  | _ => cases h

theorem run_nil_of_text (h : state.text? = some q) (offset : Nat) :
    state.run offset [] = .error ⟨.endInString, offset⟩ := by
  obtain ⟨frames, expected⟩ := state
  cases expected with
  | keyText quoted | valueText quoted => rfl
  | _ => cases h

theorem run_of_feed {cs : List Char} (h : state.text? = some q) (hfeed : q.feed cs = some next)
    (offset : Nat) (text : List Char) : ∃ (state' : Reader) (offset' : Nat),
      state'.text? = some next ∧ state.run offset (cs ++ text) = state'.run offset' text := by
  induction cs generalizing state q offset with
  | nil =>
    cases hfeed
    exact ⟨state, offset, h, rfl⟩
  | cons c cs ih =>
    simp only [Quoted.feed] at hfeed
    cases hstep : q.step c with
    | more q' =>
      rw [hstep] at hfeed
      obtain ⟨mid, hmid, hrun⟩ := run_of_more h hstep offset (cs ++ text)
      obtain ⟨last, offset', hlast, hrun'⟩ := ih hmid hfeed (offset + c.utf8Size)
      exact ⟨last, offset', hlast, hrun.trans hrun'⟩
    | closed text => rw [hstep] at hfeed; cases hfeed
    | fault cause past => rw [hstep] at hfeed; cases hfeed

/-- An escape without its digits is refused as that. -/
theorem run_of_breaking {text : List Char} (h : state.text? = some q) (hbreaking : q.Breaking text)
    (offset : Nat) : Refused (state.run offset text) := by
  induction text generalizing state q offset with
  | nil => exact ⟨_, run_nil_of_text h offset, nofun⟩
  | cons c text ih =>
    rcases hbreaking.step with ⟨next, hstep, hnext⟩ | ⟨past, hstep⟩
    · obtain ⟨state', hstate, hrun⟩ := run_of_more h hstep offset text
      rw [hrun]
      exact ih hstate hnext _
    · exact ⟨_, run_of_fault h hstep offset text, nofun⟩

end

/-! ## Readers in no escape -/

/-- Whether a reader is in no escape, and in no word that has one. -/
def Clear (state : Reader) : Prop :=
  match state.expected with
  | .keyText quoted | .valueText quoted => quoted.stage = .plain
  | .word rest _ => rest ≠ [] ∧ '\\' ∉ rest
  | _ => True

/-- Whether a step from outside of strings leads to a reader in no escape, or to a fault that is not
    that of a surrogate. No backslash is accepted there. -/
inductive Settles (c : Char) : Except Cause Reader → Prop
  | ok {next : Reader} (hc : c ≠ '\\') (h : next.Clear) : Settles c (.ok next)
  | error {cause : Cause} (h : ¬ cause.IsUnpaired) : Settles c (.error cause)

theorem clear_initial : initial.Clear := trivial

theorem clear_give (frames : List Frame) (value : Json) : (give frames value).Clear := by
  match frames with
  | [] | .array _ :: _ | .object _ _ :: _ => trivial

theorem clear_giveKey (frames : List Frame) (key : String) : (giveKey frames key).Clear := by
  match frames with
  | [] | .array _ :: _ | .object _ _ :: _ => trivial

theorem clear_close (frames : List Frame) : (close frames).Clear := by
  match frames with
  | [] => trivial
  | frame :: outer => exact clear_give outer frame.value

theorem ne_backslash_of_isSpace {c : Char} (h : isSpace c = true) : c ≠ '\\' := by
  rintro rfl
  exact absurd h (by decide)

theorem settles_enter {frames : List Frame} {frame : Frame} {expected : Expected} {c : Char}
    (hc : c ≠ '\\') (h : Clear ⟨frame :: frames, expected⟩) :
    Settles c (enter frames frame expected) := by
  unfold enter
  split_ifs
  · exact .error nofun
  · exact .ok hc h

theorem settles_stepValue (frames : List Frame) (place : Place) (c : Char) :
    Settles c (stepValue frames place c) := by
  unfold stepValue
  split
  next hspace => exact .ok (ne_backslash_of_isSpace hspace) trivial
  next =>
    split
    · exact .ok (by decide) rfl
    · exact settles_enter (by decide) trivial
    · exact settles_enter (by decide) trivial
    · exact .ok (by decide) ⟨by decide, by decide⟩
    · exact .ok (by decide) ⟨by decide, by decide⟩
    · exact .ok (by decide) ⟨by decide, by decide⟩
    · exact .ok (by decide) trivial
    · split
      next d hdigit =>
        refine .ok ?_ trivial
        rintro rfl
        rw [Numeral.digit?_backslash] at hdigit
        cases hdigit
      next =>
        split_ifs with hlast
        · refine .ok ?_ (clear_close frames)
          rintro rfl
          exact absurd hlast.1 (by decide)
        · exact .error nofun
        · exact .error nofun

theorem settles_stepKey (frames : List Frame) (first : Bool) (c : Char) :
    Settles c (stepKey frames first c) := by
  unfold stepKey
  split_ifs with hspace hquote hbrace
  · exact .ok (ne_backslash_of_isSpace hspace) trivial
  · exact .ok (hquote ▸ by decide) rfl
  · exact .ok (hbrace ▸ by decide) (clear_close frames)
  · exact .error nofun
  · exact .error nofun

theorem settles_stepComma (frames : List Frame) (c : Char) : Settles c (stepComma frames c) := by
  unfold stepComma
  split
  next hspace => exact .ok (ne_backslash_of_isSpace hspace) trivial
  next =>
    split
    · split_ifs with hcomma hbrace
      · exact .ok (hcomma ▸ by decide) trivial
      · exact .ok (hbrace ▸ by decide) (clear_close _)
      · exact .error nofun
    · split_ifs with hcomma hbracket
      · exact .ok (hcomma ▸ by decide) trivial
      · exact .ok (hbracket ▸ by decide) (clear_close _)
      · exact .error nofun

theorem settles_stepNothing (value : Json) (c : Char) : Settles c (stepNothing value c) := by
  unfold stepNothing
  split_ifs with hspace
  · exact .ok (ne_backslash_of_isSpace hspace) trivial
  · exact .error nofun

theorem settles_stepAfter (frames : List Frame) (value : Json) (c : Char) :
    Settles c (stepAfter frames value c) := by
  unfold stepAfter
  split
  · exact settles_stepNothing _ c
  · exact settles_stepComma _ c

/-- The cause of a fault that a step reports is the one of the step. -/
theorem mapError_reported (offset : Nat) (result : Except Cause Reader) :
    (reported offset result).mapError Fault.cause = result := by
  cases result <;> rfl

/-- A step from a reader in no escape, if the character is no backslash in a string. -/
theorem Clear.settles_step {state : Reader} (h : state.Clear) {c : Char}
    (hc : state.text? = none ∨ c ≠ '\\') (offset : Nat) :
    Settles c ((state.step offset c).mapError Fault.cause) := by
  obtain ⟨frames, expected⟩ := state
  cases expected with
  | value place =>
    simp only [step, mapError_reported]
    exact settles_stepValue frames place c
  | key first =>
    simp only [step, mapError_reported]
    exact settles_stepKey frames first c
  | colon =>
    simp only [step]
    split_ifs with hspace hcolon
    · exact .ok (ne_backslash_of_isSpace hspace) trivial
    · exact .ok (hcolon ▸ by decide) trivial
    · exact .error (by rintro (h | h) <;> cases h)
  | comma =>
    simp only [step, mapError_reported]
    exact settles_stepComma frames c
  | nothing value =>
    simp only [step, mapError_reported]
    exact settles_stepNothing value c
  | word rest value =>
    obtain ⟨hnil, hbackslash⟩ := h
    cases rest with
    | nil => exact absurd rfl hnil
    | cons w rest =>
      rw [List.mem_cons, not_or] at hbackslash
      simp only [step]
      split_ifs with hw hend
      · exact .error (by rintro (h | h) <;> cases h)
      · rw [not_not] at hw
        exact .ok (hw ▸ Ne.symm hbackslash.1) (clear_give frames value)
      · rw [not_not] at hw
        exact .ok (hw ▸ Ne.symm hbackslash.1) ⟨hend, hbackslash.2⟩
  | number numeral =>
    simp only [step]
    split
    next hmore => exact .ok (Numeral.ne_backslash_of_more hmore) trivial
    next hfault => exact .error (Numeral.not_isUnpaired_of_fault hfault)
    next =>
      split
      · rw [mapError_reported]
        exact settles_stepAfter frames _ c
      · exact .error (by rintro (h | h) <;> cases h)
  | keyText quoted =>
    have hc : c ≠ '\\' := hc.resolve_left (by rintro ⟨⟩)
    simp only [step]
    rcases Quoted.step_of_plain h hc with hstep | ⟨text, hstep⟩ | hstep
    · rw [hstep]
      exact .ok hc rfl
    · rw [hstep]
      exact .ok hc (clear_giveKey frames text)
    · rw [hstep]
      exact .error (by rintro (h | h) <;> cases h)
  | valueText quoted =>
    have hc : c ≠ '\\' := hc.resolve_left (by rintro ⟨⟩)
    simp only [step]
    rcases Quoted.step_of_plain h hc with hstep | ⟨text, hstep⟩ | hstep
    · rw [hstep]
      exact .ok hc rfl
    · rw [hstep]
      exact .ok hc (clear_give frames _)
    · rw [hstep]
      exact .error (by rintro (h | h) <;> cases h)

/-- Outside of strings there is no escape. -/
theorem Clear.run_backslash {state : Reader} (h : state.Clear) (htext : state.text? = none)
    (offset : Nat) (text : List Char) : Refused (state.run offset ('\\' :: text)) := by
  have hsettles := h.settles_step (c := '\\') (Or.inl htext) offset
  rw [run]
  cases hstep : state.step offset '\\' with
  | ok next =>
    rw [hstep] at hsettles
    cases hsettles with
    | ok hc => exact absurd rfl hc
  | error fault =>
    rw [hstep] at hsettles
    cases hsettles with
    | error hcause => exact ⟨fault, rfl, hcause⟩

theorem not_isUnpaired_of_finish {state : Reader} {cause : Cause}
    (h : state.finish = .error cause) : ¬ cause.IsUnpaired := by
  have hend {state : Reader} (h : state.endAfter = .error cause) : ¬ cause.IsUnpaired := by
    unfold endAfter at h
    split at h
    · cases h
    · cases h
      rintro (h | h) <;> cases h
    · cases h
      rintro (h | h) <;> cases h
  obtain ⟨frames, expected⟩ := state
  cases expected with
  | comma => exact hend h
  | nothing value => exact absurd h (by rintro ⟨⟩)
  | number numeral =>
    simp only [finish] at h
    by_cases hcan : numeral.canEnd = true
    · simp only [hcan, not_true_eq_false, if_false] at h
      split at h
      · exact hend h
      · cases h
        rintro (h | h) <;> cases h
    · simp only [hcan, not_false_eq_true, if_true, Bool.false_eq_true] at h
      cases h
      rintro (h | h) <;> cases h
  | value place =>
    cases place <;> (cases h; rintro (h | h) <;> cases h)
  | key first =>
    cases first <;> (cases h; rintro (h | h) <;> cases h)
  | colon | word rest value | keyText quoted | valueText quoted =>
    cases h
    rintro (h | h) <;> cases h

theorem Clear.stage_of_text {state : Reader} (h : state.Clear) {quoted : Quoted}
    (htext : state.text? = some quoted) : quoted.stage = .plain := by
  obtain ⟨frames, expected⟩ := state
  cases expected with
  | keyText _ | valueText _ =>
    cases htext
    exact h
  | _ => cases htext

theorem clear_of_text {state : Reader} {chars : List Char}
    (h : state.text? = some ⟨chars, .plain⟩) : state.Clear := by
  obtain ⟨frames, expected⟩ := state
  cases expected with
  | keyText _ | valueText _ =>
    cases h
    rfl
  | _ => cases h

end Reader

/-! ## Texts and their pieces -/

/-- Whether what is read of a text fits its pieces: there is a value only if surrogates come in
    pairs, and if they do, no surrogate is at fault. -/
inductive Fits (paired : Prop) : Except Fault Json → Prop
  | value (value : Json) (h : paired) : Fits paired (.ok value)
  | fault (fault : Fault) (h : paired → ¬ fault.cause.IsUnpaired) : Fits paired (.error fault)

namespace Fits

variable {paired paired' : Prop} {result : Except Fault Json}

theorem congr (h : Fits paired result) (hiff : paired ↔ paired') : Fits paired' result := by
  rwa [← propext hiff]

theorem of_refused (h : Refused result) : Fits paired result := by
  obtain ⟨fault, rfl, hcause⟩ := h
  exact .fault fault fun _ => hcause

theorem of_not {fault : Fault} (h : result = .error fault) (hnot : ¬ paired) :
    Fits paired result := by
  rw [h]
  exact .fault fault fun hpaired => absurd hpaired hnot

end Fits

namespace Reader

/-- Whether a reader is between two pieces, after a leading surrogate or not. -/
inductive At : Bool → Reader → Prop
  | clear {state : Reader} (h : state.Clear) : At false state
  | pair {state : Reader} {chars : List Char} {high : Nat}
      (h : state.text? = some ⟨chars, .pairMark high⟩) : At true state

/-- A backslash between two pieces is refused, or it stands in a string. -/
theorem At.backslash {high : Bool} {state : Reader} (h : At high state) (offset : Nat)
    (text : List Char) : Refused (state.run offset ('\\' :: text)) ∨
      (∃ chars, high = false ∧ state.text? = some ⟨chars, .plain⟩) ∨
        ∃ chars unit, high = true ∧ state.text? = some ⟨chars, .pairMark unit⟩ := by
  cases h with
  | clear h =>
    cases htext : state.text? with
    | none => exact Or.inl (h.run_backslash htext offset text)
    | some quoted =>
      obtain ⟨chars, _⟩ := quoted
      cases h.stage_of_text htext
      exact Or.inr (Or.inl ⟨chars, rfl, rfl⟩)
  | @pair _ chars unit h => exact Or.inr (Or.inr ⟨chars, unit, rfl, h⟩)

section

variable {state : Reader} {chars : List Char} {ps : List Piece}

/-- A character that is escaped by itself, in a string. -/
theorem fits_run_escape (h : state.text? = some ⟨chars, .plain⟩) {c : Char} {rest : List Char}
    (hc : c = 'u' → (digits rest).length < 4)
    (ih : ∀ {state : Reader} (offset : Nat), state.Clear →
      Fits (Paired false ps) (state.run offset rest)) (offset : Nat) :
    Fits (Paired false ps) (state.run offset ('\\' :: c :: rest)) := by
  have hmark : Quoted.step ⟨chars, .plain⟩ '\\' = .more ⟨chars, .escape⟩ := rfl
  obtain ⟨state', h', hrun⟩ := run_of_more h hmark offset (c :: rest)
  rw [hrun]
  by_cases hu : c = 'u'
  · have hletter : Quoted.step ⟨chars, .escape⟩ c = .more ⟨chars, .hex []⟩ := by
      simp only [Quoted.step, hu, if_true]
    obtain ⟨state'', h'', hrun'⟩ := run_of_more h' hletter (offset + '\\'.utf8Size) rest
    rw [hrun']
    exact .of_refused (run_of_breaking h'' (.hex (Or.inr (by simpa using hc hu))) _)
  · cases hescaped : Quoted.escaped? c with
    | some char =>
      have hletter : Quoted.step ⟨chars, .escape⟩ c = .more ⟨char :: chars, .plain⟩ := by
        simp only [Quoted.step, hu, if_false, hescaped, Quoted.push]
      obtain ⟨state'', h'', hrun'⟩ := run_of_more h' hletter (offset + '\\'.utf8Size) rest
      rw [hrun']
      exact ih _ (clear_of_text h'')
    | none =>
      have hletter : Quoted.step ⟨chars, .escape⟩ c = .fault .invalidEscape 1 := by
        simp only [Quoted.step, hu, if_false, hescaped]
      exact .of_refused ⟨_, run_of_fault h' hletter _ rest, by rintro (h | h) <;> cases h⟩

/-- A character that is escaped by itself, after a leading surrogate. -/
theorem run_pair_escape {high : Nat} (h : state.text? = some ⟨chars, .pairMark high⟩) {c : Char}
    {rest : List Char} (hc : c = 'u' → (digits rest).length < 4) (offset : Nat) :
    ∃ fault, state.run offset ('\\' :: c :: rest) = .error fault := by
  have hmark : Quoted.step ⟨chars, .pairMark high⟩ '\\' = .more ⟨chars, .pairLetter high⟩ := rfl
  obtain ⟨state', h', hrun⟩ := run_of_more h hmark offset (c :: rest)
  rw [hrun]
  by_cases hu : c = 'u'
  · have hletter : Quoted.step ⟨chars, .pairLetter high⟩ c = .more ⟨chars, .pairHex high []⟩ := by
      simp only [Quoted.step, hu, if_true]
    obtain ⟨state'', h'', hrun'⟩ := run_of_more h' hletter (offset + '\\'.utf8Size) rest
    rw [hrun']
    obtain ⟨fault, hfault, -⟩ :=
      run_of_breaking h'' (.pairHex (Or.inr (by simpa using hc hu))) _
    exact ⟨fault, hfault⟩
  · have hletter : Quoted.step ⟨chars, .pairLetter high⟩ c = .fault .unfinishedPair 1 := by
      simp only [Quoted.step, hu, if_false]
    exact ⟨_, run_of_fault h' hletter _ rest⟩

variable {a b c d : Char} {rest : List Char}
  (hdigits : isHexDigit a ∧ isHexDigit b ∧ isHexDigit c ∧ isHexDigit d)
  (ih : ∀ {high : Bool} {state : Reader} (offset : Nat), At high state →
    Fits (Paired high ps) (state.run offset rest))

include hdigits ih

/-- The escape of a code unit, in a string. -/
theorem fits_run_first (h : state.text? = some ⟨chars, .plain⟩) (offset : Nat) :
    Fits (Paired false (.unit a b c d :: ps))
      (state.run offset ('\\' :: 'u' :: a :: b :: c :: d :: rest)) := by
  obtain ⟨-, -, -, unit, hunit, hlast⟩ := Quoted.hexSteps hdigits
  obtain ⟨state', offset', h', hrun⟩ :=
    run_of_feed h (Quoted.feed_first hdigits chars) offset (d :: rest)
  have hstep : Quoted.step ⟨chars, .hex [c, b, a]⟩ d =
      Quoted.firstUnit ⟨chars, .hex [c, b, a]⟩ unit := by
    simp only [Quoted.step, hlast]
  change Fits _ (state.run offset (['\\', 'u', a, b, c] ++ d :: rest))
  rw [hrun, Paired, Piece.isLow_unit hunit, Piece.isHigh_unit hunit]
  unfold Quoted.firstUnit at hstep
  split_ifs at hstep with hlow hhigh
  · exact .of_not (run_of_fault h' hstep offset' rest) fun hpaired => by simp [hlow] at hpaired
  · obtain ⟨state'', h'', hrun'⟩ := run_of_more h' hstep offset' rest
    rw [Bool.not_eq_true] at hlow
    rw [hrun', hhigh]
    exact (ih _ (.pair h'')).congr ⟨fun hps => ⟨hlow, hps⟩, And.right⟩
  · obtain ⟨state'', h'', hrun'⟩ := run_of_more h' hstep offset' rest
    rw [Bool.not_eq_true] at hlow hhigh
    rw [hrun', hhigh]
    exact (ih _ (.clear (clear_of_text h''))).congr ⟨fun hps => ⟨hlow, hps⟩, And.right⟩

/-- The escape of a code unit, after a leading surrogate. -/
theorem fits_run_second {high : Nat} (h : state.text? = some ⟨chars, .pairMark high⟩)
    (offset : Nat) : Fits (Paired true (.unit a b c d :: ps))
      (state.run offset ('\\' :: 'u' :: a :: b :: c :: d :: rest)) := by
  obtain ⟨-, -, -, unit, hunit, hlast⟩ := Quoted.hexSteps hdigits
  obtain ⟨state', offset', h', hrun⟩ :=
    run_of_feed h (Quoted.feed_second hdigits chars high) offset (d :: rest)
  have hstep : Quoted.step ⟨chars, .pairHex high [c, b, a]⟩ d =
      Quoted.secondUnit ⟨chars, .pairHex high [c, b, a]⟩ high unit := by
    simp only [Quoted.step, hlast]
  have hlow := Piece.isLow_unit hunit
  change Fits _ (state.run offset (['\\', 'u', a, b, c] ++ d :: rest))
  rw [hrun]
  unfold Quoted.secondUnit at hstep
  split_ifs at hstep with hislow
  · obtain ⟨state'', h'', hrun'⟩ := run_of_more h' hstep offset' rest
    rw [hislow] at hlow
    rw [hrun', Paired, hlow, Piece.isHigh_eq_false_of_isLow hlow]
    exact (ih _ (.clear (clear_of_text h''))).congr ⟨fun hps => ⟨rfl, hps⟩, And.right⟩
  · refine .of_not (run_of_fault h' hstep offset' rest) fun hpaired => ?_
    exact hislow (hlow.symm.trans hpaired.1)

end

/-- What is read of a text fits its pieces, from every state between two of them. -/
theorem fits_run {high : Bool} {state : Reader} (h : At high state) (offset : Nat)
    (text : List Char) : Fits (Paired high (pieces text)) (state.run offset text) := by
  induction text using pieces_induction generalizing high state offset with
  | nil =>
    cases h with
    | clear h =>
      rw [run]
      cases hfinish : state.finish with
      | ok value => exact .value value rfl
      | error cause => exact .fault _ fun _ => not_isUnpaired_of_finish hfinish
    | pair h => exact .of_refused ⟨_, run_nil_of_text h offset, by rintro (h | h) <;> cases h⟩
  | mark =>
    -- what a backslash begins is not finished
    have hend {quoted next : Quoted} (htext : state.text? = some quoted)
        (hstep : quoted.step '\\' = .more next) : Refused (state.run offset ['\\']) := by
      obtain ⟨state', h', hrun⟩ := run_of_more htext hstep offset []
      exact ⟨_, hrun.trans (run_nil_of_text h' _), by rintro (h | h) <;> cases h⟩
    rcases h.backslash offset [] with hrefused | ⟨chars, rfl, htext⟩ | ⟨chars, unit, rfl, htext⟩
    · exact .of_refused hrefused
    · exact .of_refused (hend htext rfl)
    · exact .of_refused (hend htext rfl)
  | plain c rest hc ih =>
    rw [pieces_cons hc]
    cases h with
    | clear h =>
      have hsettles := h.settles_step (Or.inr hc) offset
      rw [run]
      cases hstep : state.step offset c with
      | ok next =>
        rw [hstep] at hsettles
        cases hsettles with
        | ok _ hnext => exact (ih (.clear hnext) _).congr ⟨fun hps => ⟨rfl, hps⟩, And.right⟩
      | error fault =>
        rw [hstep] at hsettles
        cases hsettles with
        | error hcause => exact .fault fault fun _ => hcause
    | @pair _ chars high h =>
      have hstep : Quoted.step ⟨chars, .pairMark high⟩ c = .fault .unfinishedPair 1 := by
        simp only [Quoted.step, hc, if_false]
      exact .of_not (run_of_fault h hstep offset rest) fun hpaired => by cases hpaired.1
  | escape c rest hc ih =>
    rw [pieces_escape hc]
    rcases h.backslash offset (c :: rest) with
      hrefused | ⟨chars, rfl, htext⟩ | ⟨chars, unit, rfl, htext⟩
    · exact .of_refused hrefused
    · have hfits := fits_run_escape htext hc (fun offset hclear => ih (.clear hclear) offset)
      exact (hfits offset).congr ⟨fun hps => ⟨rfl, hps⟩, And.right⟩
    · obtain ⟨fault, hfault⟩ := run_pair_escape htext hc offset
      exact .of_not hfault fun hpaired => by cases hpaired.1
  | unit a b c d rest hdigits ih =>
    rw [pieces_unit hdigits]
    rcases h.backslash offset ('u' :: a :: b :: c :: d :: rest) with
      hrefused | ⟨chars, rfl, htext⟩ | ⟨chars, unit, rfl, htext⟩
    · exact .of_refused hrefused
    · exact fits_run_first hdigits (fun offset hat => ih hat offset) htext offset
    · exact fits_run_second hdigits (fun offset hat => ih hat offset) htext offset

end Reader

/-! ## Payloads -/

theorem fits_run_initial (text : List Char) :
    Fits (Paired false (pieces text)) (Reader.initial.run 0 text) :=
  Reader.fits_run (.clear Reader.clear_initial) 0 text

/-- A text that is read as it stands has all its surrogates in pairs. -/
theorem paired_of_parse {text : List Char} {value : Json} (h : parse text = .ok value) :
    Paired false (pieces text) := by
  have hfits := fits_run_initial text
  rw [parse, read] at h
  cases hrun : Reader.initial.run 0 text with
  | ok found =>
    rw [hrun] at hfits
    cases hfits with
    | value _ hpaired => exact hpaired
  | error fault =>
    rw [hrun] at h
    cases h

/-- A text with all its surrogates in pairs is refused for no surrogate. -/
theorem not_isUnpaired_of_parse {text : List Char} {error : ReadError}
    (hpaired : Paired false (pieces text)) (h : parse text = .error error) :
    ¬ error.cause.IsUnpaired := by
  have hfits := fits_run_initial text
  rw [parse, read] at h
  cases hrun : Reader.initial.run 0 text with
  | ok found =>
    rw [hrun] at h
    cases h
  | error fault =>
    rw [hrun] at h hfits
    cases h
    cases hfits with
    | fault _ hcause => exact hcause hpaired

end GuideCheck.Json

namespace GuideCheck.Payload

theorem read_json (text : String) : read "json" text =
    match Json.parse (Json.mendSurrogates text.toList) with
    | .ok value => parsed value
    | .error error => malformed error := rfl

/-- **Mending surrogates only adds texts that can be read.** A text that is read as it stands is not
    changed by it and is read as the same value, and no text at all is refused as a payload because
    a surrogate has no partner. -/
theorem read_mended (text : String) :
    (∀ value, Json.parse text.toList = .ok value →
      Json.mendSurrogates text.toList = text.toList ∧ read "json" text = parsed value) ∧
    ∀ error, read "json" text = malformed error →
      error.cause ≠ .loneSurrogate ∧ error.cause ≠ .unfinishedPair := by
  constructor
  · intro value hvalue
    have hmended := Json.mendSurrogates_of_paired (Json.paired_of_parse hvalue)
    refine ⟨hmended, ?_⟩
    rw [read_json, hmended, hvalue]
  · intro error hread
    have hpaired : Json.Paired false (Json.pieces (Json.mendSurrogates text.toList)) := by
      rw [Json.pieces_mendSurrogates]
      exact Json.paired_mend _
    rw [read_json] at hread
    cases hparse : Json.parse (Json.mendSurrogates text.toList) with
    | ok value =>
      rw [hparse] at hread
      cases hread
    | error cause =>
      rw [hparse] at hread
      cases hread
      exact not_or.1 (Json.not_isUnpaired_of_parse hpaired hparse)

/-- A pair of surrogates is read as it stands, and half of one only when it is mended. -/
theorem read_mended_pair :
    read "json" "\"\\ud83d\\ude00\"" = parsed (.str "😀") ∧
      Json.parse "\"\\ud83d\"".toList = .error ⟨.unfinishedPair, ⟨1, 8⟩⟩ ∧
      read "json" "\"\\ud83d\"" = parsed (.str "\ufffd") := by
  have hpair : Json.parse "\"\\ud83d\\ude00\"".toList = .ok (.str "😀") := by
    have hchars : "\"\\ud83d\\ude00\"".toList = _ := String.toList_ofList
    rw [hchars]
    rfl
  have hhalf : "\"\\ud83d\"".toList = _ := String.toList_ofList
  refine ⟨((read_mended "\"\\ud83d\\ude00\"").1 _ hpair).2, ?_, ?_⟩
  · rw [hhalf]
    rfl
  · rw [read, hhalf]
    rfl

end GuideCheck.Payload
