set_option autoImplicit false

/-! # Cutting a text into lines

`lines` cuts at every line feed and at nothing else; a text always has at least one line, and
`unlines` undoes the cut. `displayLines` cuts the way a reader sees lines: at a carriage return
followed by a line feed, at a line feed, and at a carriage return that stands alone. The separators
of `split` may as well be bytes among bytes. -/

namespace GuideCheck.Text

section

variable {α : Type} [DecidableEq α]

/-- The part of a text before its first separator, and the parts after it. -/
def pieces (separator : α) : List α → List α × List (List α)
  | [] => ([], [])
  | c :: cs =>
    let (first, rest) := pieces separator cs
    if c = separator then ([], first :: rest) else (c :: first, rest)

/-- The parts of a text between separators: one more than there are separators. -/
def split (separator : α) (cs : List α) : List (List α) :=
  (pieces separator cs).1 :: (pieces separator cs).2

end

/-- The parts put together again, with a separator between neighbours. -/
def join {α : Type} (separator : α) : List (List α) → List α
  | [] => []
  | [part] => part
  | part :: rest => part ++ separator :: join separator rest

/-- The lines of a text; a text that ends in a line feed has an empty last line. -/
def lines (text : List Char) : List (List Char) := split '\n' text

/-- The text that has these lines. -/
def unlines (lines : List (List Char)) : List Char := join '\n' lines

/-- The first displayed line of a text, and those after it. -/
def displayPieces : List Char → List Char × List (List Char)
  | [] => ([], [])
  | '\r' :: '\n' :: cs =>
    let (first, rest) := displayPieces cs
    ([], first :: rest)
  | c :: cs =>
    let (first, rest) := displayPieces cs
    if c = '\r' ∨ c = '\n' then ([], first :: rest) else (c :: first, rest)

/-- The lines of a text as they are displayed. -/
def displayLines (text : List Char) : List (List Char) :=
  (displayPieces text).1 :: (displayPieces text).2

/-! ## Laws -/

/-- A part put behind others comes after a separator. -/
theorem join_append_singleton {α : Type} (separator : α) {parts : List (List α)} (h : parts ≠ [])
    (part : List α) :
    join separator (parts ++ [part]) = join separator parts ++ separator :: part := by
  induction parts with
  | nil => exact absurd rfl h
  | cons first rest ih =>
    cases rest with
    | nil => rfl
    | cons second rest =>
      have hrest := ih (List.cons_ne_nil second rest)
      rw [List.cons_append] at hrest
      simp only [List.cons_append, join, hrest, List.append_assoc]

section

variable {α : Type} [DecidableEq α]

theorem split_cons_separator (separator : α) (cs : List α) :
    split separator (separator :: cs) = [] :: split separator cs := by
  simp [split, pieces]

theorem split_ne_nil (separator : α) (cs : List α) : split separator cs ≠ [] := by
  simp [split]

/-- The parts of two texts with a separator between them. -/
theorem split_append_separator (separator : α) (a b : List α) :
    split separator (a ++ separator :: b) = split separator a ++ split separator b := by
  induction a with
  | nil => exact split_cons_separator separator b
  | cons c cs ih =>
    simp only [split, List.cons_append, List.cons.injEq] at ih ⊢
    obtain ⟨hfirst, hrest⟩ := ih
    simp only [pieces, hfirst, hrest]
    split <;> simp

theorem length_split (separator : α) (cs : List α) :
    (split separator cs).length = cs.count separator + 1 := by
  induction cs with
  | nil => rfl
  | cons c cs ih =>
    simp only [split, pieces, List.length_cons] at ih ⊢
    by_cases h : c = separator
    · simp [h, ih]
    · simp [h, ih]

/-- A text without separators is one part. -/
theorem split_of_notMem {separator : α} {cs : List α} (h : separator ∉ cs) :
    split separator cs = [cs] := by
  induction cs with
  | nil => rfl
  | cons c cs ih =>
    have hc : c ≠ separator := fun e => h (by simp [e])
    have hcs : split separator cs = [cs] := ih fun hmem => h (List.mem_cons_of_mem c hmem)
    simp only [split, pieces, List.cons.injEq] at hcs ⊢
    simp [hc, hcs.1, hcs.2]

/-- Joining parts without separators and cutting again gives back the parts. -/
theorem split_join {separator : α} {parts : List (List α)} (hne : parts ≠ [])
    (h : ∀ part ∈ parts, separator ∉ part) : split separator (join separator parts) = parts := by
  induction parts with
  | nil => exact absurd rfl hne
  | cons part rest ih =>
    have hpart := split_of_notMem (h part List.mem_cons_self)
    cases rest with
    | nil => exact hpart
    | cons next rest =>
      have hrest := ih (List.cons_ne_nil next rest) fun p hp => h p (List.mem_cons_of_mem part hp)
      rw [join, split_append_separator, hpart, hrest]
      · rfl
      · exact List.cons_ne_nil next rest

/-- There are no separators in the parts of a text. -/
theorem notMem_of_mem_split {separator : α} {cs part : List α}
    (h : part ∈ split separator cs) : separator ∉ part := by
  induction cs generalizing part with
  | nil =>
    rw [List.mem_singleton.1 h]
    exact List.not_mem_nil
  | cons c cs ih =>
    have hfirst : separator ∉ (pieces separator cs).1 := ih List.mem_cons_self
    have hrest : ∀ p ∈ (pieces separator cs).2, separator ∉ p :=
      fun p hp => ih (List.mem_cons_of_mem _ hp)
    simp only [split, pieces] at h
    by_cases hc : c = separator
    · rw [if_pos hc] at h
      rcases List.mem_cons.1 h with rfl | h
      · exact List.not_mem_nil
      · rcases List.mem_cons.1 h with rfl | h
        · exact hfirst
        · exact hrest part h
    · rw [if_neg hc] at h
      rcases List.mem_cons.1 h with rfl | h
      · exact fun hmem => (List.mem_cons.1 hmem).elim (fun e => hc e.symm) hfirst
      · exact hrest part h

/-- Cutting and joining again gives back the text. -/
theorem join_split (separator : α) (cs : List α) :
    join separator (split separator cs) = cs := by
  induction cs with
  | nil => rfl
  | cons c cs ih =>
    simp only [split, pieces] at ih ⊢
    by_cases h : c = separator
    · simp [h, join, ih]
    · rw [if_neg h]
      cases hrest : (pieces separator cs).2 with
      | nil => simp [hrest, join] at ih ⊢; exact ih
      | cons part parts => simp [hrest, join] at ih ⊢; exact ih

end

end GuideCheck.Text
