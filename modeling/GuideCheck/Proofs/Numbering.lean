import GuideCheck.Document
import GuideCheck.Line
import Mathlib.Data.List.Basic
import Mathlib.Data.Nat.Find
import Mathlib.Tactic.ByContra

set_option autoImplicit false

/-! # Lines of a document by number

Each number of a document is a line of text, a directive or a separator, or no line at all, and
never two of these. A run is a greatest range of neighbouring numbers with a property; where a run
begins it is settled where it ends (`IsRun.last_unique`), and every beginning belongs to a run
(`IsRun.exists_of_first`). -/

namespace GuideCheck

namespace Document

/-- What the line of a number is, if there is one. Numbers begin at one. -/
def line? (doc : Document) : Nat → Option Line
  | 0 => none
  | k + 1 => doc.lines[k]?.map Line.classify

/-- The text that the line of a number adds to a message, an escape dot removed. -/
def content? (doc : Document) (k : Nat) : Option String := (doc.line? k).bind Line.content?

/-- Whether a line of text has this number. -/
def IsText (doc : Document) (k : Nat) : Prop := ∃ text, doc.content? k = some text

/-- Whether a directive has this number. -/
def IsDirective (doc : Document) (k : Nat) : Prop := ∃ body, doc.line? k = some (.directive body)

/-- Whether a separator has this number. -/
def IsSeparator (doc : Document) (k : Nat) : Prop := doc.line? k = some .separator

/-- The lines of text from one number to another, each after a line feed. -/
def textOf (doc : Document) (first last : Nat) : String :=
  String.join (((List.range' first (last + 1 - first)).filterMap doc.content?).map ("\n" ++ ·))

variable {doc : Document} {k : Nat}

/-- Every text has a line. -/
theorem one_le_lineCount_ofText (text : String) : 1 ≤ (ofText text).lineCount := by
  simp [lineCount, ofText, Text.lines, Text.split]

/-! ## Kinds of lines -/

theorem not_isText_of_isDirective (h : doc.IsDirective k) : ¬ doc.IsText k := by
  rintro ⟨text, htext⟩
  obtain ⟨body, hbody⟩ := h
  simp [content?, hbody, Line.content?] at htext

theorem not_isText_of_isSeparator (h : doc.IsSeparator k) : ¬ doc.IsText k := by
  rintro ⟨text, htext⟩
  simp [content?, show doc.line? k = some .separator from h, Line.content?] at htext

theorem not_isDirective_of_isSeparator (h : doc.IsSeparator k) : ¬ doc.IsDirective k := by
  rintro ⟨body, hbody⟩
  rw [show doc.line? k = some .separator from h] at hbody
  simp at hbody

/-- Only the numbers from one to the number of lines have lines. -/
theorem line?_eq_none (h : k = 0 ∨ doc.lineCount < k) : doc.line? k = none := by
  cases k with
  | zero => rfl
  | succ k =>
    have hk : doc.lines.length ≤ k := by
      rcases h with h | h
      · omega
      · exact Nat.lt_succ_iff.1 h
    simp [line?, List.getElem?_eq_none hk]

/-- Lines are numbered from one in the order of the document. -/
theorem line?_of_getElem? {i : Nat} {line : String} (h : doc.lines[i]? = some line) :
    doc.line? (1 + i) = some (Line.classify line) := by
  rw [Nat.add_comm 1 i, line?, h]
  rfl

theorem bounds_of_line? {line : Line} (h : doc.line? k = some line) :
    1 ≤ k ∧ k ≤ doc.lineCount := by
  by_contra hk
  rw [line?_eq_none (by omega)] at h
  simp at h

theorem bounds_of_isText (h : doc.IsText k) : 1 ≤ k ∧ k ≤ doc.lineCount := by
  obtain ⟨text, htext⟩ := h
  obtain ⟨line, hline, -⟩ := Option.bind_eq_some_iff.1 htext
  exact bounds_of_line? hline

theorem bounds_of_isDirective (h : doc.IsDirective k) : 1 ≤ k ∧ k ≤ doc.lineCount := by
  obtain ⟨body, hbody⟩ := h
  exact bounds_of_line? hbody

/-! ## The text of a range -/

/-- A range that ends before it begins has no text. -/
theorem textOf_eq_empty {first last : Nat} (h : last < first) : doc.textOf first last = "" := by
  have hzero : last + 1 - first = 0 := by omega
  simp [textOf, hzero]

/-- The last line of text of a range adds a line feed and its text. -/
theorem textOf_eq_append {first : Nat} {text : String} (hle : first ≤ k)
    (h : doc.content? k = some text) :
    doc.textOf first k = doc.textOf first (k - 1) ++ "\n" ++ text := by
  have hpos := (bounds_of_isText ⟨text, h⟩).1
  have hlen : k + 1 - first = (k - 1 + 1 - first) + 1 := by omega
  have hlast : first + (k - 1 + 1 - first) = k := by omega
  unfold textOf
  rw [hlen, List.range'_1_concat, hlast]
  simp [List.filterMap_append, h, String.append_assoc]

/-- A range that ends in a line of text has text. -/
theorem textOf_ne_empty {first : Nat} (hle : first ≤ k) (h : doc.IsText k) :
    doc.textOf first k ≠ "" := by
  obtain ⟨text, htext⟩ := h
  rw [textOf_eq_append hle htext]
  simp

/-- Whether no line adds a line feed to a message. -/
def IsFeedFree (doc : Document) : Prop := ∀ k text, doc.content? k = some text → '\n' ∉ text.toList

section Lines

variable {first last : Nat} (htext : ∀ k, first ≤ k → k ≤ last → doc.IsText k)
  (hfeeds : doc.IsFeedFree)

include htext hfeeds

/-- The lines of the text of a range: an empty one, and then those of the range. -/
theorem lines_textOf :
    Text.lines (doc.textOf first last).toList =
      [] :: (List.range' first (last + 1 - first)).map
        fun k => ((doc.content? k).getD "").toList := by
  have hcontents : (List.range' first (last + 1 - first)).filterMap doc.content? =
      (List.range' first (last + 1 - first)).map fun k => (doc.content? k).getD "" := by
    rw [← List.filterMap_eq_map]
    refine List.filterMap_congr fun k hk => ?_
    obtain ⟨hfirst, hlast⟩ := List.mem_range'_1.1 hk
    obtain ⟨text, hk⟩ := htext k hfirst (by omega)
    simp [hk]
  rw [textOf, lines_join, hcontents, List.map_map]
  · rfl
  · intro text hmem
    obtain ⟨k, -, hk⟩ := List.mem_filterMap.1 hmem
    exact hfeeds k text hk

theorem length_lines_textOf :
    (Text.lines (doc.textOf first last).toList).length = last + 1 - first + 1 := by
  simp [lines_textOf htext hfeeds]

/-- The line of a range is so many lines after the empty one. -/
theorem getElem?_lines_textOf (hfirst : first ≤ k) (hlast : k ≤ last) :
    (Text.lines (doc.textOf first last).toList)[k - first + 1]? =
      (doc.content? k).map String.toList := by
  obtain ⟨text, hk⟩ := htext k hfirst hlast
  have hlt : k - first < last + 1 - first := by omega
  have hadd : first + (k - first) = k := by omega
  simp [lines_textOf htext hfeeds, hlt, hadd, hk]

end Lines

end Document

/-! ## Runs -/

/-- The numbers from `first` to `last` have a property, and those next to them do not. -/
structure IsRun (p : Nat → Prop) (first last : Nat) : Prop where
  nonempty : first ≤ last
  all : ∀ k, first ≤ k → k ≤ last → p k
  before : ¬ p (first - 1)
  after : ¬ p (last + 1)

namespace IsRun

variable {p : Nat → Prop} {first last : Nat}

theorem first_mem (h : IsRun p first last) : p first := h.all first (Nat.le_refl first) h.nonempty

/-- The beginning of a run settles its end. -/
theorem last_unique {last' : Nat} (h : IsRun p first last) (h' : IsRun p first last') :
    last = last' := by
  rcases Nat.lt_trichotomy last last' with hlt | heq | hlt
  · exact absurd (h'.all (last + 1) (by have := h.nonempty; omega) hlt) h.after
  · exact heq
  · exact absurd (h.all (last' + 1) (by have := h'.nonempty; omega) hlt) h'.after

/-- A number with the property after one without it begins a run, if the property ends
    somewhere. -/
theorem exists_of_first {bound : Nat} (hbound : ∀ k, p k → k ≤ bound) (h : p first)
    (hbefore : ¬ p (first - 1)) : ∃ last, IsRun p first last := by
  classical
  -- the end is one below the least number from here on without the property
  have hend : ∃ k, first < k ∧ ¬ p k := by
    refine ⟨max first bound + 1, by omega, fun hp => ?_⟩
    have := hbound _ hp
    omega
  obtain ⟨hlt, hnot⟩ := Nat.find_spec hend
  refine ⟨Nat.find hend - 1, by omega, fun k hfirst hlast => ?_, hbefore, ?_⟩
  · rcases Nat.eq_or_lt_of_le hfirst with rfl | hlt'
    · exact h
    · by_contra hk
      exact Nat.find_min hend (by omega) ⟨hlt', hk⟩
  · rwa [Nat.sub_add_cancel (by omega)]

end IsRun

end GuideCheck
