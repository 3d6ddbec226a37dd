set_option autoImplicit false

/-! # Searching a text for another text -/

namespace GuideCheck.Text

/-- The rest of a text after `opening`, if the text begins with it. -/
def stripPrefix? : (opening : List Char) → List Char → Option (List Char)
  | [], text => some text
  | _ :: _, [] => none
  | o :: os, c :: cs => if o = c then stripPrefix? os cs else none

theorem stripPrefix?_eq_some_iff {opening text rest : List Char} :
    stripPrefix? opening text = some rest ↔ text = opening ++ rest := by
  induction opening generalizing text with
  | nil => simp [stripPrefix?]
  | cons o os ih =>
    cases text with
    | nil => simp [stripPrefix?]
    | cons c cs =>
      by_cases h : o = c
      · simp [stripPrefix?, h, ih]
      · simp [stripPrefix?, h, Ne.symm h]

/-- Whether `needle` stands somewhere in a text. -/
def occursIn (needle : List Char) : List Char → Bool
  | [] => needle.isEmpty
  | c :: cs => needle.isPrefixOf (c :: cs) || occursIn needle cs

theorem occursIn_eq_true_iff {needle text : List Char} :
    occursIn needle text = true ↔ needle <:+: text := by
  induction text with
  | nil => rw [occursIn, List.isEmpty_iff, List.infix_nil]
  | cons c cs ih =>
    rw [occursIn, Bool.or_eq_true, List.isPrefixOf_iff_prefix, ih, List.infix_cons_iff]

/-! ## Marks -/

section

variable {α : Type} [DecidableEq α]

/-- The parts of a text before and after the first `mark`, if there is one. -/
def cutAt? (mark : α) : List α → Option (List α × List α)
  | [] => none
  | c :: cs => if c = mark then some ([], cs) else (cutAt? mark cs).map fun (a, b) => (c :: a, b)

theorem cutAt?_eq_some_iff {mark : α} {text before rest : List α} :
    cutAt? mark text = some (before, rest) ↔ text = before ++ mark :: rest ∧ mark ∉ before := by
  induction text generalizing before with
  | nil => simp [cutAt?]
  | cons c cs ih =>
    by_cases h : c = mark
    · subst h
      cases before <;> simp [cutAt?]
      rintro rfl _ ; simp
    · cases before with
      | nil => simp [cutAt?, h]
      | cons b before => simp [cutAt?, h, ih]; grind

theorem cutAt?_eq_none_iff {mark : α} {text : List α} :
    cutAt? mark text = none ↔ mark ∉ text := by
  induction text with
  | nil => simp [cutAt?]
  | cons c cs ih =>
    by_cases h : c = mark
    · simp [cutAt?, h]
    · simp [cutAt?, h, ih, Ne.symm h]

theorem length_lt_of_cutAt? {mark : α} {text before rest : List α}
    (h : cutAt? mark text = some (before, rest)) : rest.length < text.length := by
  rw [(cutAt?_eq_some_iff.1 h).1]
  simp
  omega

/-- The parts of a text before and after the last `mark`, if there is one. -/
def cutAtLast? (mark : α) (cs : List α) : Option (List α × List α) :=
  (cutAt? mark cs.reverse).map fun (after, before) => (before.reverse, after.reverse)

end

end GuideCheck.Text
