import GuideCheck.Json.Surrogates
import GuideCheck.Proofs.Reading
import Mathlib.Data.List.Basic

set_option autoImplicit false

/-! # Carriage returns at the ends of lines mean nothing in JSON

`Text.Returned` says that a text is another one with carriage returns before some of its line feeds,
and perhaps one at the end. To a reader of JSON both are the same value, or neither is one
(`Json.toOption_parse_mendSurrogates`).

Between tokens a carriage return is skipped, and a word or a number ends at it as at the line feed.
In a string either of them leads to a fault, if not at once then when the escape it stands in is
complete (`Json.Quoted.Spoiled`). So a reader need not see a carriage return before a line feed or
the end of the text (`Json.Reader.value?_cons_return`). Mending surrogates keeps the two texts
related, because pieces that are cut around a line feed are no code units. -/

namespace GuideCheck

/-- Whether a text is another one with carriage returns before some line feeds, and perhaps at the
    end. -/
inductive Text.Returned : List Char → List Char → Prop
  | nil : Returned [] []
  | ending : Returned [] ['\r']
  | cons (c : Char) {cs cs' : List Char} (h : Returned cs cs') : Returned (c :: cs) (c :: cs')
  | feed {cs cs' : List Char} (h : Returned cs cs') : Returned ('\n' :: cs) ('\r' :: '\n' :: cs')

namespace Text.Returned

theorem refl (cs : List Char) : Returned cs cs := by
  induction cs with
  | nil => exact .nil
  | cons c cs ih => exact .cons c ih

theorem append_left {cs cs' : List Char} (h : Returned cs cs') (before : List Char) :
    Returned (before ++ cs) (before ++ cs') := by
  induction before with
  | nil => exact h
  | cons c before ih => exact .cons c ih

/-- Texts with a line feed between them; a carriage return at the end of the first stands before
    it. -/
theorem append_feed {as bs cs ds : List Char} (h : Returned as bs) (h' : Returned cs ds) :
    Returned (as ++ '\n' :: cs) (bs ++ '\n' :: ds) := by
  induction h with
  | nil => exact .cons _ h'
  | ending => exact .feed h'
  | cons c _ ih => exact .cons c ih
  | feed _ ih => exact .feed ih

/-- Only a line feed can have a carriage return put before it. -/
theorem exists_of_cons {c : Char} {cs ds : List Char} (h : Returned (c :: cs) ds)
    (hc : c ≠ '\n') : ∃ cs', ds = c :: cs' ∧ Returned cs cs' := by
  cases h with
  | cons _ h => exact ⟨_, rfl, h⟩
  | feed => exact absurd rfl hc

end Text.Returned

namespace Json

/-! ## Strings -/

namespace Quoted

/-- Whether a string literal is in the middle of four bytes that are no hexadecimal digits. -/
inductive Spoiled : Quoted → Prop
  | hex {chars seen : List Char} (h : unit? seen = none) : Spoiled ⟨chars, .hex seen⟩
  | pairHex {chars seen : List Char} {high : Nat} (h : unit? seen = none) :
      Spoiled ⟨chars, .pairHex high seen⟩

/-- Whether a step leads to a fault, sooner or later. -/
inductive Step.Fails : Step → Prop
  | more {quoted : Quoted} (h : quoted.Spoiled) : Fails (.more quoted)
  | fault (cause : Cause) (past : Nat) : Fails (.fault cause past)

theorem unit?_cons {seen : List Char} (h : unit? seen = none) (c : Char) :
    unit? (c :: seen) = none := by
  simp [unit?, h]

/-- A character that leaves no code unit is kept, or is the last one. -/
theorem hexStep_of_unit? {seen : List Char} {c : Char} (h : unit? (c :: seen) = none) :
    hexStep seen c = .more (c :: seen) ∨ ∃ past, hexStep seen c = .bad past := by
  unfold hexStep
  simp only [h]
  split
  · exact Or.inl rfl
  · split
    · exact Or.inr ⟨_, rfl⟩
    · exact Or.inr ⟨_, rfl⟩

theorem fails_step_of_hex {chars seen : List Char} {c : Char} (h : unit? (c :: seen) = none) :
    (step ⟨chars, .hex seen⟩ c).Fails := by
  simp only [step]
  rcases hexStep_of_unit? h with hmore | ⟨past, hbad⟩
  · rw [hmore]
    exact .more (.hex h)
  · rw [hbad]
    exact .fault _ _

theorem fails_step_of_pairHex {chars seen : List Char} {high : Nat} {c : Char}
    (h : unit? (c :: seen) = none) : (step ⟨chars, .pairHex high seen⟩ c).Fails := by
  simp only [step]
  rcases hexStep_of_unit? h with hmore | ⟨past, hbad⟩
  · rw [hmore]
    exact .more (.pairHex h)
  · rw [hbad]
    exact .fault _ _

theorem Spoiled.fails_step {q : Quoted} (h : q.Spoiled) (c : Char) : (q.step c).Fails := by
  cases h with
  | hex h => exact fails_step_of_hex (unit?_cons h c)
  | pairHex h => exact fails_step_of_pairHex (unit?_cons h c)

/-- No string literal goes on over the end of a line. -/
theorem fails_step_of_lineEnd (q : Quoted) {c : Char} (hc : c = '\r' ∨ c = '\n') :
    (q.step c).Fails := by
  have hnone (seen : List Char) : unit? (c :: seen) = none := by
    have hdigit : Text.hexDigit? c = none := by rcases hc with rfl | rfl <;> decide
    simp [unit?, hdigit]
  obtain ⟨chars, stage⟩ := q
  cases stage with
  | plain => rcases hc with rfl | rfl <;> exact .fault _ _
  | escape => rcases hc with rfl | rfl <;> exact .fault _ _
  | hex seen => exact fails_step_of_hex (hnone seen)
  | pairMark high => rcases hc with rfl | rfl <;> exact .fault _ _
  | pairLetter high => rcases hc with rfl | rfl <;> exact .fault _ _
  | pairHex high seen => exact fails_step_of_pairHex (hnone seen)

end Quoted

/-! ## Numbers -/

namespace Numeral

/-- The number of a literal that ends here, if it can. -/
def ended? (n : Numeral) : Option Number := if n.canEnd then n.finish else none

/-- A number literal ends at the end of a line, or is none. -/
theorem step_of_lineEnd (n : Numeral) {c : Char} (hc : c = '\r' ∨ c = '\n') :
    n.step c = if n.canEnd then .done else .fault .invalidNumber := by
  obtain ⟨negative, significand, exponent, stage⟩ := n
  rcases hc with rfl | rfl <;> cases stage <;> rfl

end Numeral

/-! ## Readers -/

namespace Reader

/-! ### Literals at the end of a line -/

/-- The reader is inside a string literal that cannot be completed. -/
def Lost (state : Reader) : Prop :=
  ∃ quoted : Quoted, quoted.Spoiled ∧
    (state.expected = .keyText quoted ∨ state.expected = .valueText quoted)

/-- After a step of its string literal that fails, a reader is lost, or has found the fault. -/
theorem next?_of_fails {frames : List Frame} {quoted : Quoted} {c : Char}
    (h : (quoted.step c).Fails) :
    (∀ next ∈ next? ⟨frames, .keyText quoted⟩ c, next.Lost) ∧
      ∀ next ∈ next? ⟨frames, .valueText quoted⟩ c, next.Lost := by
  simp only [next?, step]
  cases hstep : quoted.step c with
  | more quoted' =>
    rw [hstep] at h
    cases h with
    | more hspoiled =>
      constructor
      · rintro next ⟨⟩
        exact ⟨quoted', hspoiled, .inl rfl⟩
      · rintro next ⟨⟩
        exact ⟨quoted', hspoiled, .inr rfl⟩
  | closed text =>
    rw [hstep] at h
    cases h
  | fault cause past =>
    constructor
    · intro next hnext
      cases hnext
    · intro next hnext
      cases hnext

theorem Lost.next? {state : Reader} (h : state.Lost) (c : Char) :
    ∀ next ∈ state.next? c, next.Lost := by
  obtain ⟨frames, expected⟩ := state
  obtain ⟨quoted, hspoiled, rfl | rfl⟩ := h
  · exact (next?_of_fails (hspoiled.fails_step c)).1
  · exact (next?_of_fails (hspoiled.fails_step c)).2

theorem Lost.value? {state : Reader} (h : state.Lost) (text : List Char) :
    state.value? text = none := by
  induction text generalizing state with
  | nil =>
    obtain ⟨frames, expected⟩ := state
    obtain ⟨quoted, -, rfl | rfl⟩ := h <;> rfl
  | cons c text ih =>
    rw [value?_cons, Option.bind_eq_none_iff]
    intro next hnext
    exact ih (h.next? c next hnext)

/-- No string literal goes on over the end of a line. -/
theorem value?_text_of_lineEnd (frames : List Frame) (quoted : Quoted) {c : Char}
    (hc : c = '\r' ∨ c = '\n') (text : List Char) :
    value? ⟨frames, .keyText quoted⟩ (c :: text) = none ∧
      value? ⟨frames, .valueText quoted⟩ (c :: text) = none := by
  have hlost : (∀ next ∈ next? ⟨frames, .keyText quoted⟩ c, next.Lost) ∧ _ :=
    next?_of_fails (quoted.fails_step_of_lineEnd hc)
  rw [value?_cons, value?_cons, Option.bind_eq_none_iff, Option.bind_eq_none_iff]
  constructor
  · intro next hnext
    exact (hlost.1 next hnext).value? text
  · intro next hnext
    exact (hlost.2 next hnext).value? text

/-- What follows a value inside the given frames begins with any number of spaces. -/
theorem next?_give_of_isSpace (frames : List Frame) (value : Json) {c : Char}
    (hc : isSpace c = true) : (give frames value).next? c = some (give frames value) := by
  match frames with
  | [] | .array _ :: _ | .object _ _ :: _ =>
    simp [give, Reader.next?, step, stepNothing, stepComma, hc, reported, Except.mapError,
      Except.toOption]

theorem stepAfter_of_isSpace (frames : List Frame) (value : Json) {c : Char}
    (hc : isSpace c = true) : stepAfter frames value c = .ok (give frames value) := by
  match frames with
  | [] | .array _ :: _ | .object _ _ :: _ =>
    simp [give, stepAfter, stepNothing, stepComma, hc]

/-- At the end of a line a number is the value that it is at the end of the text. -/
theorem value?_number_of_lineEnd (frames : List Frame) (n : Numeral) {c : Char}
    (hc : c = '\r' ∨ c = '\n') (text : List Char) :
    value? ⟨frames, .number n⟩ (c :: text) =
      n.ended?.bind fun number => (give frames (.num number)).value? text := by
  have hspace : isSpace c = true := by rcases hc with rfl | rfl <;> rfl
  have hnext : next? ⟨frames, .number n⟩ c =
      n.ended?.map fun number => give frames (.num number) := by
    simp only [next?, step, n.step_of_lineEnd hc, Numeral.ended?]
    by_cases hend : n.canEnd = true
    · simp only [hend, if_true]
      cases n.finish with
      | none => rfl
      | some number => simp only [stepAfter_of_isSpace _ _ hspace]; rfl
    · simp only [hend, if_false, Bool.false_eq_true]
      rfl
  rw [value?_cons, hnext, Option.bind_map]
  rfl

theorem value?_number_nil (frames : List Frame) (n : Numeral) :
    value? ⟨frames, .number n⟩ [] =
      n.ended?.bind fun number => (give frames (.num number)).value? [] := by
  rw [value?_nil, finish, Numeral.ended?]
  by_cases hend : n.canEnd = true
  · simp only [hend, not_true_eq_false, if_true, if_false]
    cases n.finish with
    | none => rfl
    | some number =>
      simp only [Option.bind_some]
      rw [value?_nil]
      match frames with
      | [] | .array _ :: _ | .object _ _ :: _ => rfl
  · simp only [hend, not_false_eq_true, if_true, if_false, Bool.false_eq_true]
    rfl

/-! ### States that a reader gets to -/

/-- What holds of all states that a reader gets to: no word has been read to its end, or goes on
    over the end of a line, and no frame is open after the value of the text. -/
def Sound (state : Reader) : Prop :=
  match state.expected with
  | .word rest _ => rest ≠ [] ∧ '\r' ∉ rest ∧ '\n' ∉ rest
  | .nothing _ => state.frames = []
  | _ => True

theorem sound_initial : initial.Sound := trivial

theorem Sound.next? {state : Reader} (hs : state.Sound) {c : Char} {next : Reader}
    (h : next ∈ state.next? c) : next.Sound := by
  cases stepsTo_of_next? h with
  | nothing value => rfl
  | @word frames rest value hrest =>
    have hwords : ∀ rest ∈ [['u', 'l', 'l'], ['r', 'u', 'e'], ['a', 'l', 's', 'e']],
        rest ≠ [] ∧ '\r' ∉ rest ∧ '\n' ∉ rest := by decide
    exact hwords rest hrest
  | letter frames hexpected hne =>
    simp only [Sound, hexpected] at hs
    exact ⟨hne, List.not_mem_of_not_mem_cons hs.2.1, List.not_mem_of_not_mem_cons hs.2.2⟩
  | _ => trivial

/-! ### Carriage returns -/

/-- Before a line feed or the end of the text a carriage return need not be seen. -/
theorem value?_cons_return {state : Reader} (hs : state.Sound) {text : List Char}
    (htext : text = [] ∨ ∃ rest, text = '\n' :: rest) :
    state.value? ('\r' :: text) = state.value? text := by
  obtain ⟨frames, expected⟩ := state
  cases expected with
  -- between tokens the carriage return is skipped
  | value place | key first | colon | comma => exact value?_cons _ _ text
  | nothing value =>
    cases (hs : frames = [])
    exact value?_cons _ _ text
  | word rest value =>
    obtain ⟨hnil, hreturn, hfeed⟩ := hs
    -- a word is refused at the end of a line, with a carriage return or without
    have hlineEnd {c : Char} (hc : c ∉ rest) (text : List Char) :
        value? ⟨frames, .word rest value⟩ (c :: text) = none := by
      match rest, hnil with
      | w :: rest, _ =>
        rw [value?_cons]
        simp only [Reader.next?, step, List.ne_of_not_mem_cons hc, ne_eq, not_false_eq_true,
          if_true]
        rfl
    rw [hlineEnd hreturn]
    rcases htext with rfl | ⟨rest, rfl⟩
    · rfl
    · rw [hlineEnd hfeed]
  | number n =>
    rw [value?_number_of_lineEnd frames n (.inl rfl)]
    rcases htext with rfl | ⟨rest, rfl⟩
    · rw [value?_number_nil]
    · rw [value?_number_of_lineEnd frames n (.inr rfl)]
      congr 1
      funext number
      rw [value?_cons, next?_give_of_isSpace _ _ rfl]
      rfl
  | keyText quoted =>
    rw [(value?_text_of_lineEnd frames quoted (.inl rfl) text).1]
    rcases htext with rfl | ⟨rest, rfl⟩
    · rfl
    · rw [(value?_text_of_lineEnd frames quoted (.inr rfl) rest).1]
  | valueText quoted =>
    rw [(value?_text_of_lineEnd frames quoted (.inl rfl) text).2]
    rcases htext with rfl | ⟨rest, rfl⟩
    · rfl
    · rw [(value?_text_of_lineEnd frames quoted (.inr rfl) rest).2]

/-- A reader makes the same of both texts, whatever state it is in. -/
theorem value?_returned {state : Reader} (hs : state.Sound) {text text' : List Char}
    (h : Text.Returned text text') : state.value? text' = state.value? text := by
  induction h generalizing state with
  | nil => rfl
  | ending => exact value?_cons_return hs (.inl rfl)
  | cons c _ ih =>
    rw [value?_cons, value?_cons]
    exact Option.bind_congr fun next hnext => ih (hs.next? hnext)
  | feed _ ih =>
    rw [value?_cons_return hs (.inr ⟨_, rfl⟩), value?_cons, value?_cons]
    exact Option.bind_congr fun next hnext => ih (hs.next? hnext)

end Reader

/-! ## Surrogates -/

/-- Whether pieces are those of a text with carriage returns put before some line feeds, and perhaps
    at the end. A backslash before a line feed or at the end takes the carriage return along. -/
inductive Piece.Returned : List Piece → List Piece → Prop
  | nil : Returned [] []
  | ending : Returned [] [plain '\r']
  | escapedEnding : Returned [plain '\\'] [escape '\r']
  | cons (p : Piece) {ps ps' : List Piece} (h : Returned ps ps') : Returned (p :: ps) (p :: ps')
  | feed {ps ps' : List Piece} (h : Returned ps ps') :
      Returned (plain '\n' :: ps) (plain '\r' :: plain '\n' :: ps')
  | escapedFeed {ps ps' : List Piece} (h : Returned ps ps') :
      Returned (escape '\n' :: ps) (escape '\r' :: plain '\n' :: ps')

/-! ### Cutting -/

theorem pieces_cons {c : Char} (h : c ≠ '\\') (rest : List Char) :
    pieces (c :: rest) = .plain c :: pieces rest := by
  rw [pieces]
  · rintro _ _ _ _ _ rfl
    exact absurd rfl h
  · rintro _ _ rfl
    exact absurd rfl h

/-- The digits at the start of a text, on which it depends whether the escape before it is that of a
    code unit. -/
def digits (text : List Char) : List Char := text.takeWhile isHexDigit

theorem digits_returned {cs cs' : List Char} (h : Text.Returned cs cs') :
    digits cs' = digits cs := by
  induction h with
  | nil => rfl
  | ending => rfl
  | cons c _ ih => simp only [digits, List.takeWhile_cons] at ih ⊢; rw [ih]
  | feed _ _ => rfl

theorem digits_length_lt {text : List Char}
    (h : ∀ a b c d rest, text = a :: b :: c :: d :: rest →
      ¬ (isHexDigit a ∧ isHexDigit b ∧ isHexDigit c ∧ isHexDigit d)) :
    (digits text).length < 4 := by
  by_contra hlength
  have hall : (digits text).all isHexDigit = true := List.all_takeWhile
  have happend : digits text ++ text.dropWhile isHexDigit = text := List.takeWhile_append_dropWhile
  match hdigits : digits text with
  | [] | [_] | [_, _] | [_, _, _] => simp [hdigits] at hlength
  | a :: b :: c :: d :: rest =>
    rw [hdigits] at hall happend
    simp only [List.all_cons, Bool.and_eq_true] at hall
    exact h a b c d _ happend.symm ⟨hall.1, hall.2.1, hall.2.2.1, hall.2.2.2.1⟩

/-- After a backslash any other character stands by itself, and so does the letter `u` unless four
    digits follow. -/
theorem pieces_escape {c : Char} {rest : List Char} (h : c = 'u' → (digits rest).length < 4) :
    pieces ('\\' :: c :: rest) = .escape c :: pieces rest := by
  rw [pieces.eq_def]
  split
  next heq => cases heq
  next a b c d rest heq =>
    cases heq
    split
    next hdigits =>
      have hlength := h rfl
      simp only [digits, List.takeWhile_cons, hdigits, if_true, List.length_cons] at hlength
      omega
    next => rfl
  next heq =>
    cases heq
    rfl
  next hnone heq =>
    cases heq
    exact absurd rfl (hnone _ _ rfl)

theorem pieces_returned {cs cs' : List Char} (h : Text.Returned cs cs') :
    Piece.Returned (pieces cs) (pieces cs') := by
  fun_induction pieces cs generalizing cs' with
  | case1 =>
    cases h with
    | nil => exact .nil
    | ending => exact .ending
  | case2 a b c d rest hdigits ih =>
    -- no line feed stands inside the escape of a code unit
    have hfeed {x : Char} (hx : isHexDigit x = true) : x ≠ '\n' := by
      rintro rfl
      exact absurd hx (by decide)
    obtain ⟨_, rfl, hu⟩ := h.exists_of_cons (by decide)
    obtain ⟨_, rfl, ha⟩ := hu.exists_of_cons (by decide)
    obtain ⟨_, rfl, hb⟩ := ha.exists_of_cons (hfeed hdigits.1)
    obtain ⟨_, rfl, hc⟩ := hb.exists_of_cons (hfeed hdigits.2.1)
    obtain ⟨_, rfl, hd⟩ := hc.exists_of_cons (hfeed hdigits.2.2.1)
    obtain ⟨_, rfl, hrest⟩ := hd.exists_of_cons (hfeed hdigits.2.2.2)
    rw [pieces, if_pos hdigits]
    exact .cons _ (ih hrest)
  | case3 a b c d rest hdigits ih =>
    obtain ⟨_, rfl, hu⟩ := h.exists_of_cons (by decide)
    obtain ⟨_, rfl, hrest⟩ := hu.exists_of_cons (by decide)
    rw [pieces_escape]
    · exact .cons _ (ih hrest)
    · rintro -
      rw [digits_returned hrest]
      refine digits_length_lt ?_
      rintro _ _ _ _ _ ⟨⟩
      exact hdigits
  | case4 c rest hnone ih =>
    obtain ⟨_, rfl, hc⟩ := h.exists_of_cons (by decide)
    cases hc with
    | cons _ hrest =>
      rw [pieces_escape]
      · exact .cons _ (ih hrest)
      · rintro rfl
        rw [digits_returned hrest]
        exact digits_length_lt fun _ _ _ _ _ heq => (hnone _ _ _ _ _ rfl heq).elim
    | feed hrest =>
      -- the backslash takes the carriage return along and leaves the line feed
      rw [pieces_escape (fun hu => absurd hu (by decide)), pieces_cons (by decide)]
      exact .escapedFeed (ih hrest)
  | case5 c rest _ hnone ih =>
    by_cases hc : c = '\\'
    · -- a backslash that is a piece of its own is the last character
      cases hc
      cases rest with
      | cons c rest => exact absurd rfl (hnone _ _ rfl)
      | nil =>
        obtain ⟨_, rfl, hrest⟩ := h.exists_of_cons (by decide)
        cases hrest with
        | nil => exact .cons _ .nil
        | ending => exact .escapedEnding
    · cases h with
      | cons _ hrest =>
        rw [pieces_cons hc]
        exact .cons _ (ih hrest)
      | feed hrest =>
        rw [pieces_cons (by decide), pieces_cons hc]
        exact .feed (ih hrest)

/-! ### Mending -/

/-- The mended pieces after a piece that is a leading surrogate or not. A surrogate is mended unless
    its partner stands beside it. -/
def mendAfter (high : Bool) : List Piece → List Piece
  | [] => []
  | p :: ps =>
    (if (high ∧ p.isLow) ∨ (p.isHigh ∧ ps.head?.any Piece.isLow) then p else p.alone) ::
      mendAfter p.isHigh ps

theorem Piece.isHigh_eq_false_of_isLow {p : Piece} (h : p.isLow = true) : p.isHigh = false := by
  cases p with
  | plain c => rfl
  | escape c => rfl
  | unit a b c d =>
    simp only [isLow, isHigh, unit?] at h ⊢
    cases hunit : Quoted.unit? [d, c, b, a] with
    | none => rfl
    | some unit =>
      simp only [hunit, Option.any_some, Quoted.isLow, Quoted.isHigh, Bool.and_eq_true,
        decide_eq_true_eq, Bool.and_eq_false_iff, decide_eq_false_iff_not] at h ⊢
      omega

/-- Whether a leading surrogate stands before them only matters to pieces that begin with a trailing
    one. -/
theorem mendAfter_of_head {ps : List Piece} (h : ps.head?.any Piece.isLow = false) (high : Bool) :
    mendAfter high ps = mendAfter false ps := by
  cases ps with
  | nil => rfl
  | cons p ps =>
    have hlow : p.isLow = false := h
    simp [mendAfter, hlow]

/-- To mend pairs of pieces is to mend piece by piece. -/
theorem mend_eq_mendAfter (ps : List Piece) : mend ps = mendAfter false ps := by
  fun_induction mend ps with
  | case1 => rfl
  | case2 p => simp [mendAfter]
  | case3 p q rest hpair ih =>
    have hq := Piece.isHigh_eq_false_of_isLow hpair.2
    simp [mendAfter, hpair, hq, ih]
  | case4 p q rest hpair ih =>
    have htail : mendAfter p.isHigh (q :: rest) = mendAfter false (q :: rest) := by
      by_cases hp : p.isHigh = true
      · exact mendAfter_of_head (by simpa [hp] using hpair) _
      · rw [Bool.eq_false_iff.mpr hp]
    rw [mendAfter, htail, ← ih, if_neg (by simpa using hpair)]

theorem head?_returned {ps ps' : List Piece} (h : Piece.Returned ps ps') :
    ps'.head?.any Piece.isLow = ps.head?.any Piece.isLow := by
  cases h <;> rfl

theorem mendAfter_plain (high : Bool) (c : Char) (ps : List Piece) :
    mendAfter high (.plain c :: ps) = .plain c :: mendAfter false ps := by
  simp [mendAfter, Piece.isHigh, Piece.isLow, Piece.unit?, Piece.alone]

theorem mendAfter_escape (high : Bool) (c : Char) (ps : List Piece) :
    mendAfter high (.escape c :: ps) = .escape c :: mendAfter false ps := by
  simp [mendAfter, Piece.isHigh, Piece.isLow, Piece.unit?, Piece.alone]

/-- Mending goes piece by piece, and the pieces that differ are no surrogates. -/
theorem mendAfter_returned {ps ps' : List Piece} (h : Piece.Returned ps ps') (high : Bool) :
    Piece.Returned (mendAfter high ps) (mendAfter high ps') := by
  induction h generalizing high with
  | nil => exact .nil
  | ending =>
    rw [mendAfter_plain]
    exact .ending
  | escapedEnding =>
    rw [mendAfter_plain, mendAfter_escape]
    exact .escapedEnding
  | cons p h ih =>
    rw [mendAfter, mendAfter, head?_returned h]
    exact .cons _ (ih _)
  | feed _ ih =>
    rw [mendAfter_plain, mendAfter_plain, mendAfter_plain]
    exact .feed (ih _)
  | escapedFeed _ ih =>
    rw [mendAfter_escape, mendAfter_escape, mendAfter_plain]
    exact .escapedFeed (ih _)

/-- Related pieces make up related texts. -/
theorem textOf_returned {ps ps' : List Piece} (h : Piece.Returned ps ps') :
    Text.Returned (textOf ps) (textOf ps') := by
  induction h with
  | nil => exact .nil
  | ending => exact .ending
  | escapedEnding => exact .cons _ .ending
  | cons p _ ih => exact ih.append_left p.text
  | feed _ ih => exact .feed ih
  | escapedFeed _ ih => exact .cons _ (.feed ih)

theorem mendSurrogates_returned {text text' : List Char} (h : Text.Returned text text') :
    Text.Returned (mendSurrogates text) (mendSurrogates text') := by
  simp only [mendSurrogates, mend_eq_mendAfter]
  exact textOf_returned (mendAfter_returned (pieces_returned h) false)

/-! ## Whole texts -/

theorem toOption_parse (text : List Char) :
    (parse text).toOption = (Reader.initial.value? text).map normal := by
  rw [← Reader.toOption_run _ 0, parse, read]
  cases Reader.initial.run 0 text <;> rfl

/-- Texts that differ by carriage returns at the ends of lines are read as the same value, or both
    refused, after their surrogates are mended. -/
theorem toOption_parse_mendSurrogates {text text' : List Char} (h : Text.Returned text text') :
    (parse (mendSurrogates text')).toOption = (parse (mendSurrogates text)).toOption := by
  rw [toOption_parse, toOption_parse,
    Reader.value?_returned Reader.sound_initial (mendSurrogates_returned h)]

end Json

end GuideCheck
