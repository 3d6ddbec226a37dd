import GuideCheck.Message
import GuideCheck.Proofs.Searching
import Mathlib.Tactic.ByContra
import Mathlib.Tactic.SplitIfs

set_option autoImplicit false

/-! # Links

A link mark begins with its opening, and ends at the first dollar after it on the same line. Putting
the stand-in link for each mark from the left is replacing all that the search for a mark finds
(`replaceLinkChars_eq_replaced`).

Afterwards there is no mark left (`not_hasLink_replaceLinkChars`). The stand-in link has no dollar,
so a mark would have to begin at a dollar of the text; there is an opening there only if the text
has one, and the dollar that would end the mark would stand on the same line of the text. A line
feed ends every search for a dollar, so lines do not matter to each other
(`replaceLinkChars_append_newline`). -/

namespace GuideCheck

/-- Whether a link mark stands somewhere in a text. -/
def HasLink (text : List Char) : Prop :=
  ∃ before name after, text = before ++ linkOpening ++ name ++ '$' :: after ∧
    ∀ c ∈ name, c ≠ '\r' ∧ c ≠ '\n'

/-! ## One mark -/

theorem afterDollar?_of_ne {c : Char} (hdollar : c ≠ '$') (hend : ¬ (c = '\r' ∨ c = '\n'))
    (cs : List Char) : afterDollar? (c :: cs) = afterDollar? cs := by
  rw [afterDollar?, if_neg hdollar, if_neg hend]

/-- A dollar ends a mark if only characters of the line stand before it. -/
theorem isSome_afterDollar? {name : List Char} (h : ∀ c ∈ name, c ≠ '\r' ∧ c ≠ '\n')
    (after : List Char) : (afterDollar? (name ++ '$' :: after)).isSome = true := by
  induction name with
  | nil => rfl
  | cons c name ih =>
    obtain ⟨hc, hname⟩ := List.forall_mem_cons.1 h
    rw [List.cons_append]
    by_cases hdollar : c = '$'
    · rw [hdollar]
      rfl
    · rw [afterDollar?_of_ne hdollar (not_or.2 hc)]
      exact ih hname

theorem exists_of_afterDollar? {text rest : List Char} (h : afterDollar? text = some rest) :
    ∃ name, text = name ++ '$' :: rest ∧ ∀ c ∈ name, c ≠ '\r' ∧ c ≠ '\n' := by
  induction text with
  | nil => cases h
  | cons c cs ih =>
    by_cases hdollar : c = '$'
    · rw [afterDollar?, if_pos hdollar, Option.some.injEq] at h
      exact ⟨[], by rw [hdollar, h]; rfl, by simp⟩
    · by_cases hend : c = '\r' ∨ c = '\n'
      · rw [afterDollar?, if_neg hdollar, if_pos hend] at h
        cases h
      · rw [afterDollar?_of_ne hdollar hend] at h
        obtain ⟨name, rfl, hname⟩ := ih h
        exact ⟨c :: name, rfl, List.forall_mem_cons.2 ⟨not_or.1 hend, hname⟩⟩

/-- At the beginning of a mark there is one to replace. -/
theorem isSome_afterLink? {name : List Char} (h : ∀ c ∈ name, c ≠ '\r' ∧ c ≠ '\n')
    (after : List Char) : (afterLink? (linkOpening ++ name ++ '$' :: after)).isSome = true := by
  have hopening : Text.stripPrefix? linkOpening (linkOpening ++ name ++ '$' :: after) =
      some (name ++ '$' :: after) :=
    Text.stripPrefix?_eq_some_iff.2 (List.append_assoc _ _ _)
  rw [afterLink?, hopening, Option.bind_some]
  exact isSome_afterDollar? h after

/-- A mark begins with a dollar. -/
theorem afterLink?_of_ne {c : Char} (hc : c ≠ '$') (cs : List Char) :
    afterLink? (c :: cs) = none := by
  have hopening : Text.stripPrefix? linkOpening (c :: cs) = none := if_neg (Ne.symm hc)
  rw [afterLink?, hopening]
  rfl

theorem hasLink_of_afterLink? {text rest : List Char} (h : afterLink? text = some rest) :
    HasLink text := by
  obtain ⟨middle, hmiddle, hdollar⟩ := Option.bind_eq_some_iff.1 h
  obtain ⟨name, rfl, hname⟩ := exists_of_afterDollar? hdollar
  refine ⟨[], name, rest, ?_, hname⟩
  rw [Text.stripPrefix?_eq_some_iff.1 hmiddle, List.nil_append, List.append_assoc]

/-- A mark in a text stands at its beginning or behind the first character. -/
theorem HasLink.cons {c : Char} {cs : List Char} (h : HasLink (c :: cs)) :
    (afterLink? (c :: cs)).isSome = true ∨ HasLink cs := by
  obtain ⟨before, name, after, htext, hname⟩ := h
  cases before with
  | nil =>
    rw [htext]
    exact .inl (isSome_afterLink? hname after)
  | cons d before =>
    exact .inr ⟨before, name, after, (List.cons.inj htext).2, hname⟩

theorem not_hasLink_nil : ¬ HasLink [] := by
  rintro ⟨before, name, after, htext, -⟩
  simp at htext

/-- A mark does not begin in a text without dollars. -/
theorem HasLink.of_append {cs rest : List Char} (hcs : '$' ∉ cs) (h : HasLink (cs ++ rest)) :
    HasLink rest := by
  induction cs with
  | nil => exact h
  | cons c cs ih =>
    obtain ⟨hc, hcs⟩ := List.ne_and_not_mem_of_not_mem_cons hcs
    rcases h.cons with hlink | hlink
    · -- no opening begins with another character
      rw [afterLink?_of_ne (Ne.symm hc)] at hlink
      cases hlink
    · exact ih hcs hlink

/-! ## Replacing -/

theorem replaceLinkChars_nil : replaceLinkChars [] = [] := by
  rw [replaceLinkChars]
  rfl

theorem replaceLinkChars_of_afterLink? {text rest : List Char} (h : afterLink? text = some rest) :
    replaceLinkChars text = placeholderLink.toList ++ replaceLinkChars rest := by
  rw [replaceLinkChars]
  split
  next heq =>
    rw [h] at heq
    cases heq
    rfl
  next heq =>
    rw [h] at heq
    cases heq

theorem replaceLinkChars_of_none {c : Char} {cs : List Char} (h : afterLink? (c :: cs) = none) :
    replaceLinkChars (c :: cs) = c :: replaceLinkChars cs := by
  rw [replaceLinkChars]
  split
  next heq =>
    rw [h] at heq
    cases heq
  next => rfl

/-- What holds of the empty text, of a text whose first character is kept and of one that begins
    with a mark holds of every text. -/
theorem replaceLinkChars_induction {motive : List Char → Prop} (nil : motive [])
    (keep : ∀ c cs, afterLink? (c :: cs) = none → motive cs → motive (c :: cs))
    (mark : ∀ text rest, afterLink? text = some rest → motive rest → motive text)
    (text : List Char) : motive text := by
  induction hlength : text.length using Nat.strongRecOn generalizing text with
  | ind n ih =>
    subst hlength
    cases hlink : afterLink? text with
    | some rest => exact mark text rest hlink (ih _ (length_afterLink? hlink) rest rfl)
    | none =>
      cases text with
      | nil => exact nil
      | cons c cs => exact keep c cs hlink (ih _ (Nat.lt_succ_self _) cs rfl)

/-- A character that the stand-in link does not begin with was there before. -/
theorem exists_of_replaceLinkChars_eq_cons {text cs : List Char} {c : Char} (hc : c ≠ 'h')
    (h : replaceLinkChars text = c :: cs) :
    ∃ rest, text = c :: rest ∧ cs = replaceLinkChars rest := by
  cases hlink : afterLink? text with
  | some rest =>
    rw [replaceLinkChars_of_afterLink? hlink] at h
    exact absurd (List.cons.inj h).1.symm hc
  | none =>
    cases text with
    | nil =>
      rw [replaceLinkChars_nil] at h
      cases h
    | cons d rest =>
      rw [replaceLinkChars_of_none hlink] at h
      obtain ⟨rfl, rfl⟩ := List.cons.inj h
      exact ⟨rest, rfl, rfl⟩

/-- So was a text without the first character of the stand-in link. -/
theorem exists_of_replaceLinkChars_eq_append {word text cs : List Char} (hword : 'h' ∉ word)
    (h : replaceLinkChars text = word ++ cs) :
    ∃ rest, text = word ++ rest ∧ cs = replaceLinkChars rest := by
  induction word generalizing text with
  | nil => exact ⟨text, rfl, h.symm⟩
  | cons c word ih =>
    obtain ⟨hc, hword⟩ := List.ne_and_not_mem_of_not_mem_cons hword
    obtain ⟨rest, rfl, hrest⟩ := exists_of_replaceLinkChars_eq_cons (Ne.symm hc) h
    obtain ⟨rest', rfl, hcs⟩ := ih hword hrest.symm
    exact ⟨rest', rfl, hcs⟩

/-- A line without a dollar is left as it is. -/
theorem afterDollar?_replaceLinkChars {text : List Char} (h : afterDollar? text = none) :
    afterDollar? (replaceLinkChars text) = none := by
  induction text with
  | nil => rw [replaceLinkChars_nil, h]
  | cons c cs ih =>
    have hdollar : c ≠ '$' := by
      rintro rfl
      cases h
    rw [replaceLinkChars_of_none (afterLink?_of_ne hdollar cs)]
    by_cases hend : c = '\r' ∨ c = '\n'
    · rw [afterDollar?, if_neg hdollar, if_pos hend]
    · rw [afterDollar?_of_ne hdollar hend] at h ⊢
      exact ih h

theorem linkOpening_eq : linkOpening = '$' :: ['l', 'i', 'n', 'k', 'm', 's', 'g', '_'] := by
  decide

/-- No mark comes about at a character that is kept. -/
theorem afterLink?_cons_replaceLinkChars {c : Char} {cs : List Char}
    (h : afterLink? (c :: cs) = none) : afterLink? (c :: replaceLinkChars cs) = none := by
  by_contra hlink
  obtain ⟨rest, hrest⟩ := Option.ne_none_iff_exists'.1 hlink
  obtain ⟨middle, hmiddle, hdollar⟩ := Option.bind_eq_some_iff.1 hrest
  have htext := Text.stripPrefix?_eq_some_iff.1 hmiddle
  rw [linkOpening_eq, List.cons_append, List.cons.injEq] at htext
  obtain ⟨rfl, htail⟩ := htext
  -- the opening is one of the text, since the stand-in link begins with another letter
  obtain ⟨middle', rfl, rfl⟩ := exists_of_replaceLinkChars_eq_append (by decide) htail
  have hopening : Text.stripPrefix? linkOpening
      ('$' :: (['l', 'i', 'n', 'k', 'm', 's', 'g', '_'] ++ middle')) = some middle' := by
    rw [Text.stripPrefix?_eq_some_iff, linkOpening_eq]
    rfl
  rw [afterLink?, hopening, Option.bind_some] at h
  -- and so would be the dollar
  rw [afterDollar?_replaceLinkChars h] at hdollar
  cases hdollar

theorem not_hasLink_replaceLinkChars (text : List Char) : ¬ HasLink (replaceLinkChars text) := by
  induction text using replaceLinkChars_induction with
  | nil =>
    rw [replaceLinkChars_nil]
    exact not_hasLink_nil
  | keep c cs hlink ih =>
    rw [replaceLinkChars_of_none hlink]
    intro h
    rcases h.cons with h | h
    · rw [afterLink?_cons_replaceLinkChars hlink] at h
      cases h
    · exact ih h
  | mark text rest hlink ih =>
    rw [replaceLinkChars_of_afterLink? hlink]
    exact fun h => ih (h.of_append (by decide))

/-- A text without marks is left as it is. -/
theorem replaceLinkChars_of_not_hasLink {text : List Char} (h : ¬ HasLink text) :
    replaceLinkChars text = text := by
  induction text using replaceLinkChars_induction with
  | nil => exact replaceLinkChars_nil
  | keep c cs hlink ih =>
    rw [replaceLinkChars_of_none hlink, ih fun ⟨before, name, after, hcs, hname⟩ =>
      h ⟨c :: before, name, after, by rw [hcs]; rfl, hname⟩]
  | mark text rest hlink ih => exact absurd (hasLink_of_afterLink? hlink) h

/-! ## Lines -/

theorem stripPrefix?_append {opening a b : List Char} (h : '\n' ∉ opening) :
    Text.stripPrefix? opening (a ++ '\n' :: b) =
      (Text.stripPrefix? opening a).map (· ++ '\n' :: b) := by
  induction opening generalizing a with
  | nil => rfl
  | cons o opening ih =>
    obtain ⟨ho, hopening⟩ := List.ne_and_not_mem_of_not_mem_cons h
    cases a with
    | nil => exact if_neg (Ne.symm ho)
    | cons c a =>
      rw [List.cons_append, Text.stripPrefix?, Text.stripPrefix?]
      split
      · exact ih hopening
      · rfl

theorem afterDollar?_append (a b : List Char) :
    afterDollar? (a ++ '\n' :: b) = (afterDollar? a).map (· ++ '\n' :: b) := by
  induction a with
  | nil => rfl
  | cons c a ih =>
    rw [List.cons_append, afterDollar?, afterDollar?, ih]
    split_ifs <;> rfl

/-- A mark does not go on after a line feed. -/
theorem afterLink?_append (a b : List Char) :
    afterLink? (a ++ '\n' :: b) = (afterLink? a).map (· ++ '\n' :: b) := by
  rw [afterLink?, afterLink?, stripPrefix?_append (by decide)]
  cases Text.stripPrefix? linkOpening a with
  | none => rfl
  | some rest => exact afterDollar?_append rest b

/-- The lines of a text are replaced one by one. -/
theorem replaceLinkChars_append_newline (a b : List Char) :
    replaceLinkChars (a ++ '\n' :: b) = replaceLinkChars a ++ '\n' :: replaceLinkChars b := by
  induction a using replaceLinkChars_induction with
  | nil =>
    rw [List.nil_append, replaceLinkChars_of_none (afterLink?_of_ne (by decide) b),
      replaceLinkChars_nil, List.nil_append]
  | keep c cs hlink ih =>
    have happend : afterLink? (c :: cs ++ '\n' :: b) = none := by rw [afterLink?_append, hlink]; rfl
    rw [replaceLinkChars_of_none hlink, List.cons_append, List.cons_append, ← ih]
    exact replaceLinkChars_of_none happend
  | mark text rest hlink ih =>
    have happend : afterLink? (text ++ '\n' :: b) = some (rest ++ '\n' :: b) := by
      rw [afterLink?_append, hlink]
      rfl
    rw [replaceLinkChars_of_afterLink? happend, replaceLinkChars_of_afterLink? hlink, ih,
      List.append_assoc]

/-! ## The search for marks -/

/-- A link mark: its opening, as little of a line as possible, and a dollar. -/
def linkMark : Text.Form :=
  linkOpening.map (fun c => .one (· = c)) ++
    [.fewest fun c => c ≠ '\r' && c ≠ '\n', .one (· = '$')]

/-- Characters that are asked for one by one, and a form that leaves what a function does. -/
theorem take?_map_one {form : Text.Form} {rest? : List Char → Option (List Char)}
    (h : ∀ previous text, (form.take? previous text).map Prod.snd = rest? text)
    (word : List Char) (previous : Option Char) (text : List Char) :
    (Text.Form.take? (word.map (fun c => .one (· = c)) ++ form) previous text).map Prod.snd =
      (Text.stripPrefix? word text).bind rest? := by
  induction word generalizing previous text with
  | nil => exact h previous text
  | cons w word ih =>
    rw [List.map_cons, List.cons_append]
    cases text with
    | nil => rfl
    | cons c cs =>
      rw [Text.Form.take?, Text.stripPrefix?]
      by_cases hc : w = c
      · rw [if_pos (decide_eq_true hc.symm), if_pos hc, Option.map_map]
        exact ih (some c) cs
      · rw [if_neg (by simpa using Ne.symm hc), if_neg hc]
        rfl

/-- Little of a line before a dollar leaves what stands after the first dollar. -/
theorem take?_fewest_dollar (previous : Option Char) (text : List Char) :
    (Text.Form.take? [.fewest fun c => c ≠ '\r' && c ≠ '\n', .one (· = '$')] previous text).map
      Prod.snd = afterDollar? text := by
  rw [Text.Form.take?]
  induction text generalizing previous with
  | nil => rfl
  | cons c cs ih =>
    rw [Text.takeFewest, Text.Form.take?]
    by_cases hdollar : c = '$'
    · rw [if_pos (decide_eq_true hdollar), afterDollar?, if_pos hdollar]
      rfl
    · rw [if_neg (by simpa using hdollar), Option.none_or]
      by_cases hend : c = '\r' ∨ c = '\n'
      · have hline : (decide (c ≠ '\r') && decide (c ≠ '\n')) = false := by
          rcases hend with rfl | rfl <;> decide
        rw [hline, afterDollar?, if_neg hdollar, if_pos hend]
        rfl
      · rw [if_pos (by simpa using hend), afterDollar?_of_ne hdollar hend, ← ih (some c),
          Option.map_map]
        rfl

/-- The form takes the mark at the beginning of a text. -/
theorem take?_linkMark (previous : Option Char) (text : List Char) :
    (linkMark.take? previous text).map Prod.snd = afterLink? text :=
  take?_map_one take?_fewest_dollar linkOpening previous text

/-- **Links are replaced as the search for marks finds them.** -/
theorem replaceLinkChars_eq_replaced (text : List Char) :
    replaceLinkChars text = linkMark.replaced placeholderLink.toList text := by
  rw [Text.Form.replaced]
  generalize none = previous
  induction text using replaceLinkChars_induction generalizing previous with
  | nil =>
    rw [replaceLinkChars_nil, Text.Form.cuts_nil]
    rfl
  | keep c cs hlink ih =>
    have htake : linkMark.take? previous (c :: cs) = none := by
      have hmap := take?_linkMark previous (c :: cs)
      rwa [hlink, Option.map_eq_none_iff] at hmap
    rw [replaceLinkChars_of_none hlink, Text.Form.cuts_of_none htake, List.flatMap_cons,
      ih (some c)]
    rfl
  | mark text rest hlink ih =>
    have hmap := take?_linkMark previous text
    rw [hlink] at hmap
    obtain ⟨⟨taken, left⟩, htake, hrest⟩ := Option.map_eq_some_iff.1 hmap
    obtain rfl : left = rest := hrest
    have hlength := length_afterLink? hlink
    rw [Text.Form.splits_take? _ _ _ _ _ htake] at hlength
    cases taken with
    | nil => exact absurd hlength (Nat.lt_irrefl _)
    | cons d taken =>
      rw [replaceLinkChars_of_afterLink? hlink, Text.Form.cuts_of_take? htake, List.flatMap_cons,
        ih]
      rfl

/-! ## Texts -/

/-- **Replacing links leaves no mark and keeps to lines.** It replaces what the search for marks
    finds from the left, after which there is no mark any more and nothing to replace; and the lines
    of a text are replaced one by one. -/
theorem replaceLinks_leaves_none (a b : String) :
    (replaceLinks a).toList = linkMark.replaced placeholderLink.toList a.toList ∧
      ¬ HasLink (replaceLinks a).toList ∧
      replaceLinks (replaceLinks a) = replaceLinks a ∧
      replaceLinks (a ++ "\n" ++ b) = replaceLinks a ++ "\n" ++ replaceLinks b := by
  have hchars : (replaceLinks a).toList = replaceLinkChars a.toList := String.toList_ofList
  have hnone : ¬ HasLink (replaceLinks a).toList := hchars ▸ not_hasLink_replaceLinkChars a.toList
  refine ⟨hchars.trans (replaceLinkChars_eq_replaced a.toList), hnone, ?_, ?_⟩
  · rw [replaceLinks, replaceLinkChars_of_not_hasLink hnone, String.ofList_toList]
  · have htext : (a ++ "\n" ++ b).toList = a.toList ++ '\n' :: b.toList := by simp
    apply String.toList_injective
    rw [replaceLinks, htext, replaceLinkChars_append_newline]
    simp [replaceLinks]

/-- A dollar that ends a mark begins no other one, and a mark does not go on in the next line. -/
example : replaceLinks "$linkmsg_a$linkmsg_b$ $$linkmsg_$ $linkmsg_c\n$" =
    placeholderLink ++ "linkmsg_b$ $" ++ placeholderLink ++ " $linkmsg_c\n$" := by
  decide +kernel

end GuideCheck
