import GuideCheck.Proofs.CarriageReturns

set_option autoImplicit false

/-! # Surrogates in pairs

`Paired` says of pieces that each surrogate among them stands beside its partner. Mending leaves
such pieces as they are (`mend_of_paired`) and makes all others so (`paired_mend`).

The text of mended pieces is cut into the same pieces again, because mending takes no digit from the
text that follows an escape, and gives it none (`pieces_mendSurrogates`). So there is nothing left
to mend in a mended text. -/

namespace GuideCheck.Json

/-! ## Code units -/

theorem toNat_le_of_isHexDigit {c : Char} (h : isHexDigit c = true) : c.toNat ≤ 127 := by
  obtain ⟨value, hvalue⟩ := Option.isSome_iff_exists.1 h
  unfold Text.hexDigit? at hvalue
  split_ifs at hvalue with hdecimal hlower hupper
  · exact Nat.le_trans (UInt32.le_iff_toNat_le.1 hdecimal.2) (by decide)
  · exact Nat.le_trans (UInt32.le_iff_toNat_le.1 hlower.2) (by decide)
  · exact Nat.le_trans (UInt32.le_iff_toNat_le.1 hupper.2) (by decide)

theorem utf8Size_of_isHexDigit {c : Char} (h : isHexDigit c = true) : c.utf8Size = 1 := by
  rw [Char.utf8Size_eq_one_iff, UInt32.le_iff_toNat_le]
  exact toNat_le_of_isHexDigit h

/-- Digits make up a code unit, and nothing else does. -/
theorem Quoted.isSome_unit?_iff {seen : List Char} :
    (unit? seen).isSome = true ↔ ∀ c ∈ seen, isHexDigit c = true := by
  induction seen with
  | nil => simp [unit?]
  | cons c seen ih =>
    rw [List.forall_mem_cons, ← ih, unit?, isHexDigit]
    cases unit? seen <;> simp

theorem Quoted.exists_unit?_iff {a b c d : Char} : (∃ unit, unit? [d, c, b, a] = some unit) ↔
    isHexDigit a ∧ isHexDigit b ∧ isHexDigit c ∧ isHexDigit d := by
  rw [← Option.isSome_iff_exists, isSome_unit?_iff]
  simp only [List.forall_mem_cons, List.not_mem_nil, false_implies, implies_true, and_true]
  constructor
  · rintro ⟨hd, hc, hb, ha⟩
    exact ⟨ha, hb, hc, hd⟩
  · rintro ⟨ha, hb, hc, hd⟩
    exact ⟨hd, hc, hb, ha⟩

/-! ## Pairs -/

/-- Whether each surrogate has its partner, in pieces that stand after a leading one or not. -/
def Paired (high : Bool) : List Piece → Prop
  | [] => high = false
  | p :: ps => p.isLow = high ∧ Paired p.isHigh ps

namespace Piece

section

variable {a b c d : Char} {value : Nat} (h : Quoted.unit? [d, c, b, a] = some value)

include h

theorem isHigh_unit : (unit a b c d).isHigh = Quoted.isHigh value := by
  rw [isHigh, unit?, h, Option.any_some]

theorem isLow_unit : (unit a b c d).isLow = Quoted.isLow value := by
  rw [isLow, unit?, h, Option.any_some]

end

theorem isLow_eq_false_of_isHigh {p : Piece} (h : p.isHigh = true) : p.isLow = false := by
  by_contra hlow
  rw [Bool.not_eq_false] at hlow
  rw [isHigh_eq_false_of_isLow hlow] at h
  cases h

theorem alone_of_not {p : Piece} (hhigh : p.isHigh = false) (hlow : p.isLow = false) :
    p.alone = p := by
  simp [alone, hhigh, hlow]

/-- A piece that has been mended is no surrogate. -/
theorem isHigh_alone (p : Piece) : p.alone.isHigh = false := by
  unfold alone
  split_ifs with h
  · rfl
  · simpa using (not_or.1 h).1

theorem isLow_alone (p : Piece) : p.alone.isLow = false := by
  unfold alone
  split_ifs with h
  · rfl
  · simpa using (not_or.1 h).2

end Piece

/-! ## Mending -/

theorem mendAfter_of_paired {high : Bool} {ps : List Piece} (h : Paired high ps) :
    mendAfter high ps = ps := by
  induction ps generalizing high with
  | nil => rfl
  | cons p ps ih =>
    obtain ⟨hlow, hrest⟩ := h
    rw [mendAfter, ih hrest]
    congr 1
    split_ifs with hkept
    · rfl
    · rw [not_or, not_and, not_and] at hkept
      -- a leading surrogate has its partner after it, a trailing one before it
      have hhigh : p.isHigh = false := by
        by_contra hhigh
        rw [Bool.not_eq_false] at hhigh
        rw [hhigh] at hrest
        cases ps with
        | nil => cases hrest
        | cons q ps => exact hkept.2 hhigh hrest.1
      refine Piece.alone_of_not hhigh ?_
      by_contra hlow'
      rw [Bool.not_eq_false] at hlow'
      exact hkept.1 (hlow.symm.trans hlow') hlow'

theorem mend_cons {p : Piece} {ps : List Piece} (h : ¬ (p.isHigh ∧ ps.head?.any Piece.isLow)) :
    mend (p :: ps) = p.alone :: mend ps := by
  cases ps with
  | nil => rfl
  | cons q ps =>
    rw [mend, if_neg]
    exact h

theorem mend_plain (c : Char) (ps : List Piece) : mend (.plain c :: ps) = .plain c :: mend ps :=
  mend_cons (p := .plain c) nofun

theorem mend_escape (c : Char) (ps : List Piece) :
    mend (.escape c :: ps) = .escape c :: mend ps :=
  mend_cons (p := .escape c) nofun

/-- There is nothing to mend in surrogates that come in pairs. -/
theorem mend_of_paired {ps : List Piece} (h : Paired false ps) : mend ps = ps := by
  rw [mend_eq_mendAfter, mendAfter_of_paired h]

/-- **Mended surrogates come in pairs.** -/
theorem paired_mend (ps : List Piece) : Paired false (mend ps) := by
  fun_induction mend ps with
  | case1 => rfl
  | case2 p => exact ⟨p.isLow_alone, p.isHigh_alone⟩
  | case3 p q rest hpair ih =>
    refine ⟨Piece.isLow_eq_false_of_isHigh hpair.1, ?_⟩
    rw [hpair.1]
    refine ⟨hpair.2, ?_⟩
    rw [Piece.isHigh_eq_false_of_isLow hpair.2]
    exact ih
  | case4 p q rest _ ih =>
    refine ⟨p.isLow_alone, ?_⟩
    rw [p.isHigh_alone]
    exact ih

/-! ## Cutting again -/

theorem pieces_mark : pieces ['\\'] = [.plain '\\'] := rfl

theorem pieces_unit {a b c d : Char}
    (h : isHexDigit a ∧ isHexDigit b ∧ isHexDigit c ∧ isHexDigit d) (rest : List Char) :
    pieces ('\\' :: 'u' :: a :: b :: c :: d :: rest) = .unit a b c d :: pieces rest := by
  rw [pieces, if_pos h]

theorem not_length_digits_lt {a b c d : Char}
    (h : isHexDigit a ∧ isHexDigit b ∧ isHexDigit c ∧ isHexDigit d) (rest : List Char) :
    ¬ (digits (a :: b :: c :: d :: rest)).length < 4 := by
  simp only [digits, List.takeWhile_cons, h, if_true, List.length_cons]
  omega

/-- Induction over a text piece by piece. A backslash that is a piece of its own is the last
    character, and the letter `u` that is escaped by itself has less than four digits after it. -/
theorem pieces_induction {motive : List Char → Prop} (nil : motive []) (mark : motive ['\\'])
    (plain : ∀ c rest, c ≠ '\\' → motive rest → motive (c :: rest))
    (escape : ∀ c rest, (c = 'u' → (digits rest).length < 4) → motive rest →
      motive ('\\' :: c :: rest))
    (unit : ∀ a b c d rest, (isHexDigit a ∧ isHexDigit b ∧ isHexDigit c ∧ isHexDigit d) →
      motive rest → motive ('\\' :: 'u' :: a :: b :: c :: d :: rest))
    (text : List Char) : motive text := by
  fun_induction pieces text with
  | case1 => exact nil
  | case2 a b c d rest hdigits ih => exact unit a b c d rest hdigits ih
  | case3 a b c d rest hdigits ih =>
    refine escape 'u' _ (fun _ => digits_length_lt ?_) ih
    rintro _ _ _ _ _ ⟨⟩
    exact hdigits
  | case4 c rest hnone ih =>
    refine escape c rest ?_ ih
    rintro rfl
    exact digits_length_lt fun _ _ _ _ _ heq => (hnone _ _ _ _ _ rfl heq).elim
  | case5 c rest _ hnone ih =>
    by_cases hc : c = '\\'
    · cases hc
      cases rest with
      | cons c rest => exact absurd rfl (hnone _ _ rfl)
      | nil => exact mark
    · exact plain c rest hc ih

/-- A trailing surrogate is the escape of a code unit. -/
theorem exists_of_isLow_head {text : List Char}
    (h : (pieces text).head?.any Piece.isLow = true) : ∃ a b c d rest,
      text = '\\' :: 'u' :: a :: b :: c :: d :: rest ∧
        (isHexDigit a ∧ isHexDigit b ∧ isHexDigit c ∧ isHexDigit d) ∧
          (Piece.unit a b c d).isLow = true := by
  induction text using pieces_induction with
  | nil => cases h
  | mark => cases h
  | plain c rest hc _ =>
    rw [pieces_cons hc] at h
    cases h
  | escape c rest hdigits _ =>
    rw [pieces_escape hdigits] at h
    cases h
  | unit a b c d rest hdigits _ =>
    rw [pieces_unit hdigits] at h
    exact ⟨a, b, c, d, rest, rfl, hdigits, h⟩

/-- Induction over a text as it is mended: the two halves of a pair are taken at once. -/
theorem mend_induction {motive : List Char → Prop} (nil : motive []) (mark : motive ['\\'])
    (plain : ∀ c rest, c ≠ '\\' → motive rest → motive (c :: rest))
    (escape : ∀ c rest, (c = 'u' → (digits rest).length < 4) → motive rest →
      motive ('\\' :: c :: rest))
    (pair : ∀ a b c d a' b' c' d' rest,
      (isHexDigit a ∧ isHexDigit b ∧ isHexDigit c ∧ isHexDigit d) →
      (isHexDigit a' ∧ isHexDigit b' ∧ isHexDigit c' ∧ isHexDigit d') →
      (Piece.unit a b c d).isHigh = true → (Piece.unit a' b' c' d').isLow = true → motive rest →
      motive ('\\' :: 'u' :: a :: b :: c :: d :: '\\' :: 'u' :: a' :: b' :: c' :: d' :: rest))
    (unit : ∀ a b c d rest, (isHexDigit a ∧ isHexDigit b ∧ isHexDigit c ∧ isHexDigit d) →
      ¬ ((Piece.unit a b c d).isHigh ∧ (pieces rest).head?.any Piece.isLow) → motive rest →
      motive ('\\' :: 'u' :: a :: b :: c :: d :: rest))
    (text : List Char) : motive text := by
  -- with a text goes what follows the code unit that it begins with
  suffices h : motive text ∧ ∀ a b c d rest, text = '\\' :: 'u' :: a :: b :: c :: d :: rest →
      (isHexDigit a ∧ isHexDigit b ∧ isHexDigit c ∧ isHexDigit d) → motive rest from h.1
  induction text using pieces_induction with
  | nil => exact ⟨nil, nofun⟩
  | mark => exact ⟨mark, nofun⟩
  | plain c rest hc ih =>
    refine ⟨plain c rest hc ih.1, ?_⟩
    rintro _ _ _ _ _ ⟨⟩
    exact absurd rfl hc
  | escape c rest h ih =>
    refine ⟨escape c rest h ih.1, ?_⟩
    rintro a b c d rest ⟨⟩ hdigits
    exact absurd (h rfl) (not_length_digits_lt hdigits rest)
  | unit a b c d rest hdigits ih =>
    constructor
    · by_cases hpair : (Piece.unit a b c d).isHigh ∧ (pieces rest).head?.any Piece.isLow
      · obtain ⟨a', b', c', d', rest', rfl, hdigits', hlow⟩ := exists_of_isLow_head hpair.2
        exact pair a b c d a' b' c' d' rest' hdigits hdigits' hpair.1 hlow
          (ih.2 a' b' c' d' rest' rfl hdigits')
      · exact unit a b c d rest hdigits hpair ih.1
    · rintro _ _ _ _ _ ⟨⟩ -
      exact ih.1

/-- Digits stand in pieces of their own, and escapes begin with none. -/
theorem digits_textOf_mendAfter (high : Bool) (ps : List Piece) :
    digits (textOf (mendAfter high ps)) = digits (textOf ps) := by
  induction ps generalizing high with
  | nil => rfl
  | cons p ps ih =>
    cases p with
    | plain c =>
      simp only [mendAfter_plain, textOf, List.flatMap_cons, Piece.text, List.cons_append,
        List.nil_append, digits, List.takeWhile_cons] at ih ⊢
      rw [ih]
    | escape c =>
      rw [mendAfter_escape]
      rfl
    | unit a b c d =>
      rw [mendAfter, Piece.alone]
      split_ifs <;> rfl

/-- The mended pieces of a text are the pieces of their text. -/
theorem pieces_textOf_mendAfter (high : Bool) (text : List Char) :
    pieces (textOf (mendAfter high (pieces text))) = mendAfter high (pieces text) := by
  induction text using pieces_induction generalizing high with
  | nil => rfl
  | mark =>
    rw [pieces_mark, mendAfter_plain]
    rfl
  | plain c rest hc ih =>
    rw [pieces_cons hc, mendAfter_plain]
    exact (pieces_cons hc _).trans (congrArg _ (ih false))
  | escape c rest h ih =>
    have hdigits : digits (textOf (mendAfter false (pieces rest))) = digits rest := by
      rw [digits_textOf_mendAfter, textOf_pieces]
    rw [pieces_escape h, mendAfter_escape]
    exact (pieces_escape (hdigits ▸ h)).trans (congrArg _ (ih false))
  | unit a b c d rest hdigits ih =>
    rw [pieces_unit hdigits, mendAfter, Piece.alone]
    split_ifs
    · exact (pieces_unit hdigits _).trans (congrArg _ (ih _))
    · exact (pieces_unit (by decide) _).trans (congrArg _ (ih _))
    · exact (pieces_unit hdigits _).trans (congrArg _ (ih _))

theorem pieces_mendSurrogates (text : List Char) :
    pieces (mendSurrogates text) = mend (pieces text) := by
  rw [mendSurrogates, mend_eq_mendAfter, pieces_textOf_mendAfter]

theorem mendSurrogates_nil : mendSurrogates [] = [] := rfl

theorem mendSurrogates_mark : mendSurrogates ['\\'] = ['\\'] := rfl

theorem mendSurrogates_plain {c : Char} (h : c ≠ '\\') (rest : List Char) :
    mendSurrogates (c :: rest) = c :: mendSurrogates rest := by
  rw [mendSurrogates, pieces_cons h, mend_plain]
  rfl

theorem mendSurrogates_escape {c : Char} {rest : List Char}
    (h : c = 'u' → (digits rest).length < 4) :
    mendSurrogates ('\\' :: c :: rest) = '\\' :: c :: mendSurrogates rest := by
  rw [mendSurrogates, pieces_escape h, mend_escape]
  rfl

theorem mendSurrogates_pair {a b c d a' b' c' d' : Char}
    (hfirst : isHexDigit a ∧ isHexDigit b ∧ isHexDigit c ∧ isHexDigit d)
    (hsecond : isHexDigit a' ∧ isHexDigit b' ∧ isHexDigit c' ∧ isHexDigit d')
    (hhigh : (Piece.unit a b c d).isHigh = true) (hlow : (Piece.unit a' b' c' d').isLow = true)
    (rest : List Char) :
    mendSurrogates
        ('\\' :: 'u' :: a :: b :: c :: d :: '\\' :: 'u' :: a' :: b' :: c' :: d' :: rest) =
      '\\' :: 'u' :: a :: b :: c :: d :: '\\' :: 'u' :: a' :: b' :: c' :: d' ::
        mendSurrogates rest := by
  rw [mendSurrogates, pieces_unit hfirst, pieces_unit hsecond, mend, if_pos ⟨hhigh, hlow⟩]
  rfl

theorem mendSurrogates_unit {a b c d : Char} {rest : List Char}
    (hdigits : isHexDigit a ∧ isHexDigit b ∧ isHexDigit c ∧ isHexDigit d)
    (h : ¬ ((Piece.unit a b c d).isHigh ∧ (pieces rest).head?.any Piece.isLow)) :
    mendSurrogates ('\\' :: 'u' :: a :: b :: c :: d :: rest) =
      (Piece.unit a b c d).alone.text ++ mendSurrogates rest := by
  rw [mendSurrogates, pieces_unit hdigits, mend_cons h]
  rfl

/-- A text whose surrogates come in pairs stays as it is. -/
theorem mendSurrogates_of_paired {text : List Char} (h : Paired false (pieces text)) :
    mendSurrogates text = text := by
  rw [mendSurrogates, mend_of_paired h, textOf_pieces]

/-- There is nothing left to mend in a mended text. -/
theorem mendSurrogates_mendSurrogates (text : List Char) :
    mendSurrogates (mendSurrogates text) = mendSurrogates text := by
  refine mendSurrogates_of_paired ?_
  rw [pieces_mendSurrogates]
  exact paired_mend _

end GuideCheck.Json
