import GuideCheck.Json.Reader
import GuideCheck.Json.Surrogates
import Mathlib.Data.List.Basic

set_option autoImplicit false

/-! # Where errors of reading are reported

A fault is never reported before the character that shows it (`Json.Reader.le_offset_of_run`), so
the line of an error is one of the text (`Json.line_of_parse`), and not the first one if that is
empty (`Json.two_le_line_of_parse`). To mend the surrogates of a text changes neither its number of
lines nor its first one. -/

namespace GuideCheck.Json

/-! ## Positions -/

namespace Position

theorem line_le_line_next (p : Position) (c : Char) : p.line ≤ (p.next c).line := by
  unfold next
  split
  · exact Nat.le_succ _
  · exact Nat.le_refl _

theorem line_le_line_advance (p : Position) (text : List Char) (offset : Nat) :
    p.line ≤ (p.advance text offset).line := by
  induction text generalizing p offset with
  | nil => exact Nat.le_refl _
  | cons c cs ih =>
    rw [advance]
    split
    · exact Nat.le_refl _
    · exact Nat.le_trans (p.line_le_line_next c) (ih (p.next c) _)

/-- Only line feeds lead to other lines. -/
theorem line_advance_le (p : Position) (text : List Char) (offset : Nat) :
    (p.advance text offset).line ≤ p.line + text.count '\n' := by
  induction text generalizing p offset with
  | nil => exact Nat.le_refl _
  | cons c cs ih =>
    have hnext : (p.next c).line + cs.count '\n' ≤ p.line + (c :: cs).count '\n' := by
      unfold next
      by_cases hc : c = '\n'
      · rw [if_pos hc, hc, List.count_cons_self]
        simp only
        omega
      · have hcount : cs.count '\n' = (c :: cs).count '\n' := (List.count_cons_of_ne hc).symm
        rw [if_neg hc]
        exact Nat.le_of_eq (congrArg (p.line + ·) hcount)
    rw [advance]
    split
    · exact Nat.le_add_right _ _
    · exact Nat.le_trans (ih (p.next c) _) hnext

/-- What is reported after a line feed is on a later line. -/
theorem line_lt_line_advance (p : Position) (text : List Char) {offset : Nat} (h : 0 < offset) :
    p.line < (p.advance ('\n' :: text) offset).line := by
  have hsize : ¬ offset < '\n'.utf8Size := Nat.not_lt.2 h
  rw [advance, if_neg hsize]
  exact line_le_line_advance (p.next '\n') text _

end Position

/-! ## Faults -/

theorem mapError_eq_error {α β γ : Type} {result : Except α γ} {f : α → β} {b : β}
    (h : result.mapError f = .error b) : ∃ a, result = .error a ∧ f a = b := by
  cases result with
  | ok value => simp [Except.mapError] at h
  | error a => exact ⟨a, rfl, Except.error.inj h⟩

namespace Reader

/-- A fault is reported just after the first byte of the character that shows it, where a string
    literal says, or before the character that ends a number too large. -/
theorem fault_of_step {state : Reader} {offset : Nat} {c : Char} {fault : Fault}
    (h : state.step offset c = .error fault) :
    fault.offset = offset + 1 ∨
      (∃ quoted past, (state.expected = .keyText quoted ∨ state.expected = .valueText quoted) ∧
        quoted.step c = .fault fault.cause past ∧ fault.offset = offset + past) ∨
      ∃ numeral, state.expected = .number numeral ∧ fault = ⟨.numberOutOfRange, offset⟩ := by
  have hreported {result : Except Cause Reader} (h : reported offset result = .error fault) :
      fault.offset = offset + 1 := by
    obtain ⟨cause, -, rfl⟩ := mapError_eq_error h
    rfl
  cases state with
  | mk frames expected =>
    cases expected with
    | value place => exact .inl (hreported h)
    | key first => exact .inl (hreported h)
    | comma => exact .inl (hreported h)
    | nothing value => exact .inl (hreported h)
    | colon =>
      simp only [step] at h
      split_ifs at h
      cases h
      exact .inl rfl
    | word rest value =>
      cases rest with
      | nil => simp [step] at h
      | cons w rest =>
        simp only [step] at h
        split_ifs at h
        cases h
        exact .inl rfl
    | number numeral =>
      simp only [step] at h
      split at h
      · cases h
      · cases h
        exact .inl rfl
      · split at h
        · exact .inl (hreported h)
        · cases h
          exact .inr (.inr ⟨numeral, rfl, rfl⟩)
    | keyText quoted =>
      simp only [step] at h
      split at h
      · cases h
      · cases h
      · next cause past hstep =>
        cases h
        exact .inr (.inl ⟨quoted, past, .inl rfl, hstep, rfl⟩)
    | valueText quoted =>
      simp only [step] at h
      split at h
      · cases h
      · cases h
      · next cause past hstep =>
        cases h
        exact .inr (.inl ⟨quoted, past, .inr rfl, hstep, rfl⟩)

/-- A fault is not reported before the character that shows it. -/
theorem le_offset_of_step {state : Reader} {offset : Nat} {c : Char} {fault : Fault}
    (h : state.step offset c = .error fault) : offset ≤ fault.offset := by
  rcases fault_of_step h with hnext | ⟨quoted, past, -, -, hpast⟩ | ⟨numeral, -, rfl⟩
  · exact hnext ▸ Nat.le_succ offset
  · exact hpast ▸ Nat.le_add_right offset past
  · exact Nat.le_refl offset

theorem le_offset_of_run {state : Reader} {offset : Nat} {text : List Char} {fault : Fault}
    (h : state.run offset text = .error fault) : offset ≤ fault.offset := by
  induction text generalizing state offset with
  | nil =>
    obtain ⟨cause, -, rfl⟩ := mapError_eq_error h
    exact Nat.le_refl offset
  | cons c cs ih =>
    rw [run] at h
    split at h
    · exact Nat.le_trans (Nat.le_add_right _ _) (ih h)
    · next hstep =>
      rw [← Except.error.inj h]
      exact le_offset_of_step hstep

end Reader

/-! ## Errors -/

variable {text : List Char} {error : ReadError}

theorem exists_fault_of_parse (h : parse text = .error error) :
    ∃ fault, Reader.initial.run 0 text = .error fault ∧ fault.locate text = error := by
  refine mapError_eq_error ?_
  show read text = .error error
  cases hread : read text with
  | ok value => simp [parse, hread, Except.map] at h
  | error other =>
    rw [parse, hread] at h
    exact h

/-- The line of an error is one of the lines of the text. -/
theorem line_of_parse (h : parse text = .error error) :
    1 ≤ error.position.line ∧ error.position.line ≤ text.count '\n' + 1 := by
  obtain ⟨fault, -, rfl⟩ := exists_fault_of_parse h
  have hle := Position.line_advance_le Position.start text fault.offset
  exact ⟨Position.line_le_line_advance Position.start text fault.offset, Nat.add_comm 1 _ ▸ hle⟩

/-- No error is on the first line if that is empty. -/
theorem two_le_line_of_parse (h : parse ('\n' :: text) = .error error) :
    2 ≤ error.position.line := by
  obtain ⟨fault, hrun, rfl⟩ := exists_fault_of_parse h
  -- the line feed is skipped, so the fault is in what follows
  have hskip : Reader.initial.run 0 ('\n' :: text) = Reader.initial.run 1 text := rfl
  rw [hskip] at hrun
  exact Position.line_lt_line_advance Position.start text (Reader.le_offset_of_run hrun)

/-! ## Mended surrogates -/

theorem Quoted.notMem_of_unit? {digits : List Char} {value : Nat}
    (h : unit? digits = some value) : '\n' ∉ digits := by
  induction digits generalizing value with
  | nil => exact List.not_mem_nil
  | cons c cs ih =>
    obtain ⟨high, hhigh, hlow⟩ := Option.bind_eq_some_iff.1 h
    obtain ⟨low, hdigit, -⟩ := Option.map_eq_some_iff.1 hlow
    have hc : c ≠ '\n' := by
      rintro rfl
      have hnone : Text.hexDigit? '\n' = none := by decide
      simp [hnone] at hdigit
    exact fun hmem => (List.mem_cons.1 hmem).elim (fun e => hc e.symm) (ih hhigh)

namespace Piece

theorem notMem_text_of_unit? {p : Piece} {value : Nat} (h : p.unit? = some value) :
    '\n' ∉ p.text := by
  cases p with
  | plain c => simp [unit?] at h
  | escape c => simp [unit?] at h
  | unit a b c d =>
    have hdigits := Quoted.notMem_of_unit? h
    simp_all [text]

/-- Only the escape of a code unit is ever replaced, and by one that is on one line too. -/
theorem count_text_alone (p : Piece) : p.alone.text.count '\n' = p.text.count '\n' := by
  unfold alone
  split
  · next h =>
    obtain ⟨value, hvalue⟩ : ∃ value, p.unit? = some value := by
      cases hunit : p.unit? with
      | none => simp [isHigh, isLow, hunit] at h
      | some value => exact ⟨value, rfl⟩
    rw [List.count_eq_zero_of_not_mem (notMem_text_of_unit? hvalue)]
    rfl
  · rfl

end Piece

theorem count_textOf_mend (ps : List Piece) :
    (textOf (mend ps)).count '\n' = (textOf ps).count '\n' := by
  fun_induction mend ps with
  | case1 => rfl
  | case2 p => simp [textOf, Piece.count_text_alone]
  | case3 p q rest _ ih => simp_all [textOf]
  | case4 p q rest _ ih => simp_all [textOf, Piece.count_text_alone]

/-- Mending changes nothing about the number of lines. -/
theorem count_mendSurrogates (text : List Char) :
    (mendSurrogates text).count '\n' = text.count '\n' := by
  rw [mendSurrogates, count_textOf_mend, textOf_pieces]

/-- Mending leaves an empty first line as it is. -/
theorem mendSurrogates_cons_newline (text : List Char) :
    mendSurrogates ('\n' :: text) = '\n' :: mendSurrogates text := by
  have hpieces : pieces ('\n' :: text) = .plain '\n' :: pieces text := by
    rw [pieces]
    · exact fun a b c d rest h => absurd h (by decide)
    · exact fun c rest h => absurd h (by decide)
  have hmend (ps : List Piece) : mend (.plain '\n' :: ps) = .plain '\n' :: mend ps := by
    cases ps <;> rfl
  rw [mendSurrogates, hpieces, hmend]
  rfl

end GuideCheck.Json
