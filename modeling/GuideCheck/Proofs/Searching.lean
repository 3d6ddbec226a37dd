import GuideCheck.Text.Lines

set_option autoImplicit false

/-! # Searching a text for a form

A form is a list of parts: a character of a class, as many characters of a class as there may be or
as few, and the end of a displayed line. Where a part can take more characters or fewer, the choices
are tried in the order that the part prefers until the parts after it fit, so that a form takes at
most one beginning of a text (`Form.take?`).

A search goes through a text from the left. Where the form takes something the search goes on behind
it, and elsewhere it passes a character by (`Form.cuts`). It finds what was taken (`Form.found`), or
puts another text in its place (`Form.replaced`). -/

namespace GuideCheck.Text

/-- A part of a form. -/
inductive Part
  /-- one character of a class -/
  | one (p : Char → Bool)
  /-- characters of a class, rather more than fewer -/
  | most (p : Char → Bool)
  /-- characters of a class, rather fewer than more -/
  | fewest (p : Char → Bool)
  /-- no character, where a displayed line ends -/
  | lineEnd

/-- What a text is searched for. -/
abbrev Form := List Part

/-- What a form takes of a text, and what it leaves. -/
abbrev Taken := List Char × List Char

/-- Whether a displayed line ends before a text: at the end of all text, before a carriage return,
    and before a line feed that has no carriage return right before it. -/
def endsLine (previous : Option Char) : List Char → Bool
  | [] => true
  | c :: _ => c = '\r' || c = '\n' && previous ≠ some '\r'

/-- The same with one more character taken before. -/
def Taken.after (c : Char) (taken : Taken) : Taken := (c :: taken.1, taken.2)

/-- Characters of a class and then what comes `next`, rather more of them than fewer. -/
def takeMost (p : Char → Bool) (next : Option Char → List Char → Option Taken) :
    Option Char → List Char → Option Taken
  | previous, [] => next previous []
  | previous, c :: cs =>
    if p c then ((takeMost p next (some c) cs).map (·.after c)).or (next previous (c :: cs))
    else next previous (c :: cs)

/-- Characters of a class and then what comes `next`, rather fewer of them than more. -/
def takeFewest (p : Char → Bool) (next : Option Char → List Char → Option Taken) :
    Option Char → List Char → Option Taken
  | previous, [] => next previous []
  | previous, c :: cs =>
    (next previous (c :: cs)).or
      (if p c then (takeFewest p next (some c) cs).map (·.after c) else none)

namespace Form

/-- What a form takes of a text that stands after a character. -/
def take? : Form → Option Char → List Char → Option Taken
  | [], _, text => some ([], text)
  | .one _ :: _, _, [] => none
  | .one p :: form, _, c :: cs => if p c then (take? form (some c) cs).map (·.after c) else none
  | .most p :: form, previous, text => takeMost p (take? form) previous text
  | .fewest p :: form, previous, text => takeFewest p (take? form) previous text
  | .lineEnd :: form, previous, text =>
    if endsLine previous text then take? form previous text else none

/-! ## What is taken is a beginning of the text -/

/-- Whether what is taken and what is left make up the text. -/
def Splits (next : Option Char → List Char → Option Taken) : Prop :=
  ∀ previous text taken rest, next previous text = some (taken, rest) → text = taken ++ rest

/-- Taking one more character before splits the text with that character before. -/
theorem eq_cons_of_map_after {c : Char} {text taken rest : List Char} {found : Option Taken}
    (h : ∀ taken rest, found = some (taken, rest) → text = taken ++ rest)
    (hmap : found.map (·.after c) = some (taken, rest)) : c :: text = taken ++ rest := by
  obtain ⟨⟨taken', rest'⟩, hfound, hafter⟩ := Option.map_eq_some_iff.1 hmap
  simp only [Taken.after, Prod.mk.injEq] at hafter
  obtain ⟨rfl, rfl⟩ := hafter
  rw [h taken' rest' hfound, List.cons_append]

theorem splits_takeMost {p : Char → Bool} {next : Option Char → List Char → Option Taken}
    (h : Splits next) : Splits (takeMost p next) := by
  intro previous text
  induction text generalizing previous with
  | nil => exact h previous []
  | cons c cs ih =>
    intro taken rest htake
    rw [takeMost] at htake
    split at htake
    · rcases Option.or_eq_some_iff.1 htake with hmore | ⟨-, hnext⟩
      · exact eq_cons_of_map_after (ih (some c)) hmore
      · exact h _ _ _ _ hnext
    · exact h _ _ _ _ htake

theorem splits_takeFewest {p : Char → Bool} {next : Option Char → List Char → Option Taken}
    (h : Splits next) : Splits (takeFewest p next) := by
  intro previous text
  induction text generalizing previous with
  | nil => exact h previous []
  | cons c cs ih =>
    intro taken rest htake
    rw [takeFewest] at htake
    rcases Option.or_eq_some_iff.1 htake with hnext | ⟨-, hmore⟩
    · exact h _ _ _ _ hnext
    · split at hmore
      · exact eq_cons_of_map_after (ih (some c)) hmore
      · cases hmore

/-- What a form takes and what it leaves make up the text. -/
theorem splits_take? (form : Form) : Splits form.take? := by
  induction form with
  | nil =>
    intro previous text taken rest h
    simp only [take?, Option.some.injEq, Prod.mk.injEq] at h
    rw [← h.1, ← h.2, List.nil_append]
  | cons part form ih =>
    cases part with
    | one p =>
      intro previous text taken rest h
      cases text with
      | nil => cases h
      | cons c cs =>
        rw [take?] at h
        split at h
        · exact eq_cons_of_map_after (ih (some c) cs) h
        · cases h
    | most p => exact splits_takeMost ih
    | fewest p => exact splits_takeFewest ih
    | lineEnd =>
      intro previous text taken rest h
      rw [take?] at h
      split at h
      · exact ih _ _ _ _ h
      · cases h

theorem length_lt_of_take? {form : Form} {previous : Option Char} {text taken rest : List Char}
    {c : Char} (h : form.take? previous text = some (c :: taken, rest)) :
    rest.length < text.length := by
  rw [splits_take? form _ _ _ _ h]
  simp only [List.cons_append, List.length_cons, List.length_append]
  omega

/-! ## Searching -/

/-- The text as a search from the left goes through it: characters that it passes by, and what the
    form takes. To take no characters is to take nothing. -/
def cuts (form : Form) (previous : Option Char) (text : List Char) : List (Char ⊕ List Char) :=
  match text with
  | [] => []
  | c :: cs =>
    match h : form.take? previous (c :: cs) with
    | some (d :: taken, rest) =>
      have := length_lt_of_take? h
      .inr (d :: taken) :: cuts form ((d :: taken).getLast?) rest
    | some ([], _) | none => .inl c :: cuts form (some c) cs
termination_by text.length
decreasing_by
  · assumption
  · exact Nat.lt_succ_self cs.length
  · exact Nat.lt_succ_self cs.length

/-- What a search finds in a text. -/
def found (form : Form) (text : List Char) : List (List Char) :=
  (form.cuts none text).filterMap Sum.getRight?

/-- The text with another one in place of all that a search finds. -/
def replaced (form : Form) (other text : List Char) : List Char :=
  (form.cuts none text).flatMap (Sum.elim (fun c => [c]) fun _ => other)

variable {form : Form} {previous : Option Char}

@[simp] theorem cuts_nil : form.cuts previous [] = [] := by
  rw [cuts]

theorem cuts_of_take? {text taken rest : List Char} {d : Char}
    (h : form.take? previous text = some (d :: taken, rest)) :
    form.cuts previous text = .inr (d :: taken) :: form.cuts ((d :: taken).getLast?) rest := by
  cases text with
  | nil => exact absurd (splits_take? form _ _ _ _ h) (by simp)
  | cons c cs =>
    rw [cuts]
    split
    next heq =>
      rw [h] at heq
      cases heq
      rfl
    next heq =>
      rw [h] at heq
      cases heq
    next heq =>
      rw [h] at heq
      cases heq

theorem cuts_of_none {c : Char} {cs : List Char} (h : form.take? previous (c :: cs) = none) :
    form.cuts previous (c :: cs) = .inl c :: form.cuts (some c) cs := by
  rw [cuts]
  split
  next heq =>
    rw [h] at heq
    cases heq
  next => rfl
  next => rfl

end Form

end GuideCheck.Text
