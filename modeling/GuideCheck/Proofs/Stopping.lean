import GuideCheck.Proofs.Reading
import GuideCheck.Proofs.ReadErrors
import Mathlib.Data.List.Basic

set_option autoImplicit false

/-! # Where the reader stops

The reader takes the characters of a text that is no JSON up to one that it refuses, or all of them
(`Reader.exists_of_run`). What it refuses is reported at a byte of that character, the first one
unless an escape is without its digits, and of a number too large the last byte is reported. A text
that ends too early is reported at its end (`stops_of_run`).

So what is reported is a byte of the text, counted from one, if there is any
(`Stops.offset_le`, `Stops.offset_pos`). -/

namespace GuideCheck.Json

/-! ## Literals -/

namespace Quoted

/-- Whether some of the four bytes of a code unit are still to be read, in a literal in the middle
    of one. -/
def Short (q : Quoted) : Prop :=
  match q.stage with
  | .hex seen | .pairHex _ seen => Text.bytes seen < 4
  | _ => True

theorem lt_of_hexStep_more {seen next : List Char} {c : Char} (h : hexStep seen c = .more next) :
    Text.bytes next < 4 := by
  unfold hexStep at h
  dsimp only at h
  split at h
  · next hlt =>
    cases h
    rwa [Nat.add_comm] at hlt
  · split_ifs at h
    split at h
    · cases h
    · cases h

/-- The fourth byte is one of the character that shows that there are no four digits. -/
theorem past_of_hexStep_bad {seen : List Char} {c : Char} {past : Nat}
    (hseen : Text.bytes seen < 4) (h : hexStep seen c = .bad past) :
    1 ≤ past ∧ past ≤ c.utf8Size := by
  have hpast (hle : ¬ Text.bytes seen + c.utf8Size < 4)
      (h : HexStep.bad (4 - Text.bytes seen) = .bad past) : 1 ≤ past ∧ past ≤ c.utf8Size := by
    cases h
    omega
  unfold hexStep at h
  dsimp only at h
  split at h
  · cases h
  · next hle =>
    split at h
    · split at h
      · cases h
      · exact hpast hle h
    · exact hpast hle h

theorem short_of_more {q next : Quoted} {c : Char} (h : q.step c = .more next) : next.Short := by
  have hfirst {unit : Nat} (h : q.firstUnit unit = .more next) : next.Short := by
    unfold firstUnit at h
    split_ifs at h
    · cases h
      trivial
    · cases h
      trivial
  have hsecond {high unit : Nat} (h : q.secondUnit high unit = .more next) : next.Short := by
    unfold secondUnit at h
    split_ifs at h
    cases h
    trivial
  unfold step at h
  cases hstage : q.stage with
  | plain =>
    simp only [hstage] at h
    split_ifs at h
    · cases h
      trivial
    · cases h
      trivial
  | escape =>
    simp only [hstage] at h
    split_ifs at h
    · cases h
      exact Nat.zero_lt_succ 3
    · split at h
      · cases h
        trivial
      · cases h
  | hex seen =>
    simp only [hstage] at h
    split at h
    · next hmore =>
      cases h
      exact lt_of_hexStep_more hmore
    · exact hfirst h
    · cases h
  | pairMark high =>
    simp only [hstage] at h
    split_ifs at h
    cases h
    trivial
  | pairLetter high =>
    simp only [hstage] at h
    split_ifs at h
    cases h
    exact Nat.zero_lt_succ 3
  | pairHex high seen =>
    simp only [hstage] at h
    split at h
    · next hmore =>
      cases h
      exact lt_of_hexStep_more hmore
    · exact hsecond h
    · cases h

/-- A literal reports the first byte of a character, unless it finds no four digits. -/
theorem past_of_fault {q : Quoted} {c : Char} {cause : Cause} {past : Nat} (hshort : q.Short)
    (h : q.step c = .fault cause past) :
    past = 1 ∨ cause = .invalidEscape ∧ 1 ≤ past ∧ past ≤ c.utf8Size := by
  have hfirst {unit : Nat} (h : q.firstUnit unit = .fault cause past) : past = 1 := by
    unfold firstUnit at h
    split_ifs at h
    cases h
    rfl
  have hsecond {high unit : Nat} (h : q.secondUnit high unit = .fault cause past) : past = 1 := by
    unfold secondUnit at h
    split_ifs at h
    cases h
    rfl
  unfold step at h
  unfold Short at hshort
  cases hstage : q.stage with
  | plain =>
    simp only [hstage] at h
    split_ifs at h
    cases h
    exact .inl rfl
  | escape =>
    simp only [hstage] at h
    split_ifs at h
    split at h
    · cases h
    · cases h
      exact .inl rfl
  | hex seen =>
    simp only [hstage] at h hshort
    split at h
    · cases h
    · exact .inl (hfirst h)
    · next hbad =>
      cases h
      exact .inr ⟨rfl, past_of_hexStep_bad hshort hbad⟩
  | pairMark high =>
    simp only [hstage] at h
    split_ifs at h
    cases h
    exact .inl rfl
  | pairLetter high =>
    simp only [hstage] at h
    split_ifs at h
    cases h
    exact .inl rfl
  | pairHex high seen =>
    simp only [hstage] at h hshort
    split at h
    · cases h
    · exact .inl (hsecond h)
    · next hbad =>
      cases h
      exact .inr ⟨rfl, past_of_hexStep_bad hshort hbad⟩

end Quoted

/-- There are no line feeds in numbers. -/
theorem Numeral.ne_newline_of_more {n next : Numeral} {c : Char} (h : n.step c = .more next) :
    c ≠ '\n' := by
  rintro rfl
  exact absurd (isSome_digit?_or_mem_of_more h) (by decide)

/-! ## The characters before a fault -/

namespace Reader

/-- The reader after a text that begins at the byte `offset`, if it takes all of it. -/
def feed (state : Reader) (offset : Nat) : List Char → Except Fault Reader
  | [] => .ok state
  | c :: cs =>
    match state.step offset c with
    | .ok next => next.feed (offset + c.utf8Size) cs
    | .error fault => .error fault

/-- The last character that was taken, and the reader before it. -/
theorem exists_of_feed_concat {state last : Reader} {offset : Nat} {text : List Char} {c : Char}
    (h : state.feed offset (text ++ [c]) = .ok last) :
    ∃ mid : Reader, mid.step (offset + Text.bytes text) c = .ok last := by
  induction text generalizing state offset with
  | nil =>
    refine ⟨state, ?_⟩
    rw [List.nil_append, feed] at h
    split at h
    · next hstep =>
      cases h
      exact hstep
    · cases h
  | cons d text ih =>
    rw [List.cons_append, feed] at h
    split at h
    · obtain ⟨mid, hmid⟩ := ih h
      exact ⟨mid, Nat.add_assoc offset d.utf8Size _ ▸ hmid⟩
    · cases h

/-- A reader finds a fault at a character, after the ones before it, or at the end of the text. -/
theorem exists_of_run {state : Reader} {offset : Nat} {text : List Char} {fault : Fault}
    (h : state.run offset text = .error fault) :
    (∃ before c after last, text = before ++ c :: after ∧ state.feed offset before = .ok last ∧
      last.step (offset + Text.bytes before) c = .error fault) ∨
    ∃ last, state.feed offset text = .ok last ∧ last.finish = .error fault.cause ∧
      fault.offset = offset + Text.bytes text := by
  induction text generalizing state offset with
  | nil =>
    obtain ⟨cause, hfinish, rfl⟩ := mapError_eq_error h
    exact .inr ⟨state, rfl, hfinish, rfl⟩
  | cons c cs ih =>
    rw [run] at h
    split at h
    · next next hstep =>
      have hfeed (text : List Char) :
          state.feed offset (c :: text) = next.feed (offset + c.utf8Size) text := by
        rw [feed, hstep]
      have hbytes (text : List Char) :
          offset + Text.bytes (c :: text) = offset + c.utf8Size + Text.bytes text :=
        (Nat.add_assoc offset c.utf8Size _).symm
      rcases ih h with ⟨before, d, after, last, rfl, hbefore, hfault⟩ | ⟨last, hlast, hfinish, hend⟩
      · refine .inl ⟨c :: before, d, after, last, rfl, hfeed before ▸ hbefore, ?_⟩
        rw [hbytes]
        exact hfault
      · refine .inr ⟨last, hfeed cs ▸ hlast, hfinish, ?_⟩
        rw [hbytes]
        exact hend
    · next hstep =>
      cases h
      exact .inl ⟨[], c, cs, state, rfl, rfl, hstep⟩

/-! ## What a reader knows of them -/

/-- What is true of a reader after a text: the last character of a number is no line feed, and some
    bytes of a code unit are still to be read. -/
def Follows (state : Reader) (text : List Char) : Prop :=
  match state.expected with
  | .number _ => ∃ init d, text = init ++ [d] ∧ d ≠ '\n'
  | .keyText quoted | .valueText quoted => quoted.Short
  | _ => True

theorem follows_of_step {state next : Reader} {offset : Nat} {c : Char}
    (h : state.step offset c = .ok next) (text : List Char) : next.Follows (text ++ [c]) := by
  cases stepsTo_of_step h with
  | sign frames hc => exact ⟨text, c, rfl, hc ▸ by decide⟩
  | firstDigit frames hdigit =>
    refine ⟨text, c, rfl, ?_⟩
    rintro rfl
    cases hdigit
  | number frames _ hmore => exact ⟨text, c, rfl, Numeral.ne_newline_of_more hmore⟩
  | keyText frames _ hmore => exact Quoted.short_of_more hmore
  | valueText frames _ hmore => exact Quoted.short_of_more hmore
  | _ => trivial

theorem follows_of_feed {text : List Char} {last : Reader} (h : initial.feed 0 text = .ok last) :
    last.Follows text := by
  rcases List.eq_nil_or_concat' text with rfl | ⟨text, c, rfl⟩
  · cases h
    trivial
  · obtain ⟨mid, hstep⟩ := exists_of_feed_concat h
    exact follows_of_step hstep text

end Reader

/-! ## Stops -/

/-- Where the reader stops in a text that is no JSON. -/
inductive Stops (text : List Char) (fault : Fault) : Prop
  /-- at a byte of a character that is refused, which is the first one unless it ends an escape -/
  | refused {before after : List Char} {c : Char} {last : Reader} (past : Nat)
      (split : text = before ++ c :: after)
      (taken : Reader.initial.feed 0 before = .ok last)
      (stopped : last.step (Text.bytes before) c = .error fault)
      (inside : 1 ≤ past ∧ past ≤ c.utf8Size)
      (first : past = 1 ∨ fault.cause = .invalidEscape)
      (offset : fault.offset = Text.bytes before + past)
  /-- at the last byte of a number too large, which is not a line feed -/
  | overflow {before after : List Char} {c d : Char} {last : Reader}
      (split : text = before ++ d :: c :: after)
      (taken : Reader.initial.feed 0 (before ++ [d]) = .ok last)
      (stopped : last.step (Text.bytes (before ++ [d])) c = .error fault)
      (inline : d ≠ '\n')
      (cause : fault.cause = .numberOutOfRange)
      (offset : fault.offset = Text.bytes (before ++ [d]))
  /-- at the end of the text -/
  | ended {last : Reader}
      (taken : Reader.initial.feed 0 text = .ok last)
      (stopped : last.finish = .error fault.cause)
      (offset : fault.offset = Text.bytes text)

/-- A fault that is found in a text is where the reader stops. -/
theorem stops_of_run {text : List Char} {fault : Fault}
    (h : Reader.initial.run 0 text = .error fault) : Stops text fault := by
  rcases Reader.exists_of_run h with ⟨before, c, after, last, rfl, hfeed, hstep⟩ |
    ⟨last, hfeed, hfinish, hend⟩
  · have hfollows := Reader.follows_of_feed hfeed
    rw [Nat.zero_add] at hstep
    rcases Reader.fault_of_step hstep with hnext | ⟨quoted, past, hexpected, hfault, hpast⟩ |
      ⟨numeral, hexpected, rfl⟩
    · exact .refused 1 rfl hfeed hstep ⟨Nat.le_refl 1, c.utf8Size_pos⟩ (.inl rfl) hnext
    · have hshort : quoted.Short := by
        rcases hexpected with hexpected | hexpected
        · simpa only [Reader.Follows, hexpected] using hfollows
        · simpa only [Reader.Follows, hexpected] using hfollows
      rcases Quoted.past_of_fault hshort hfault with rfl | ⟨hcause, hinside⟩
      · exact .refused 1 rfl hfeed hstep ⟨Nat.le_refl 1, c.utf8Size_pos⟩ (.inl rfl) hpast
      · exact .refused past rfl hfeed hstep hinside (.inr hcause) hpast
    · simp only [Reader.Follows, hexpected] at hfollows
      obtain ⟨init, d, rfl, hd⟩ := hfollows
      exact .overflow (List.append_assoc _ _ _) hfeed hstep hd rfl rfl
  · exact .ended hfeed hfinish (hend.trans (Nat.zero_add _))

namespace Stops

variable {text : List Char} {fault : Fault}

/-- The reader does not stop before it has seen a character. -/
theorem offset_pos (h : Stops text fault) (hne : text ≠ []) : 0 < fault.offset := by
  cases h with
  | refused past _ _ _ inside _ offset => omega
  | @overflow before _ _ d _ _ _ _ _ _ offset =>
    rw [offset, Text.bytes_append]
    exact Nat.lt_of_lt_of_le d.utf8Size_pos (Nat.le_add_left _ _)
  | ended _ _ offset =>
    cases text with
    | nil => exact absurd rfl hne
    | cons c cs => exact offset ▸ Nat.lt_of_lt_of_le c.utf8Size_pos (Nat.le_add_right _ _)

theorem offset_le (h : Stops text fault) : fault.offset ≤ Text.bytes text := by
  cases h with
  | @refused before after c _ past split _ _ inside _ offset =>
    have hbytes : Text.bytes (c :: after) = c.utf8Size + Text.bytes after := rfl
    rw [offset, split, Text.bytes_append, hbytes]
    omega
  | @overflow before after c d _ split _ _ _ _ offset =>
    have hsplit : text = before ++ [d] ++ c :: after := split.trans (List.append_cons _ _ _)
    rw [offset, hsplit, Text.bytes_append _ (c :: after)]
    exact Nat.le_add_right _ _
  | ended _ _ offset => exact Nat.le_of_eq offset

end Stops

end GuideCheck.Json
