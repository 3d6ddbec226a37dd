import GuideCheck.Text.Lines

set_option autoImplicit false

/-! # Documents

A guide document is its lines. Lines are numbered from one, and even the empty text has one. -/

namespace GuideCheck

structure Document where
  lines : List String
deriving DecidableEq, Repr

namespace Document

/-- The document with this text. -/
def ofText (text : String) : Document := ⟨(Text.lines text.toList).map String.ofList⟩

def text (doc : Document) : String := String.ofList (Text.unlines (doc.lines.map String.toList))

def lineCount (doc : Document) : Nat := doc.lines.length

/-- The number of the first line with a property. -/
def findLine? (doc : Document) (p : String → Bool) : Option Nat :=
  (doc.lines.findIdx? p).map (· + 1)

/-- Cutting a text into lines loses nothing. -/
theorem text_ofText (text : String) : (ofText text).text = text := by
  simp [ofText, Document.text, Text.unlines, Text.lines, Text.join_split, Function.comp_def]

/-- There are no line feeds in the lines of a text. -/
theorem notMem_of_mem_lines {text line : String} (h : line ∈ (ofText text).lines) :
    '\n' ∉ line.toList := by
  obtain ⟨part, hpart, rfl⟩ := List.mem_map.1 h
  rw [String.toList_ofList]
  exact Text.notMem_of_mem_split hpart

/-- Putting lines together loses nothing either, as long as there are no line feeds in them. -/
theorem lines_ofText_text (doc : Document) (hne : doc.lines ≠ [])
    (h : ∀ line ∈ doc.lines, '\n' ∉ line.toList) : (ofText doc.text).lines = doc.lines := by
  have hparts : Text.lines (Text.unlines (doc.lines.map String.toList)) =
      doc.lines.map String.toList := by
    refine Text.split_join (by simpa using hne) fun part hpart => ?_
    obtain ⟨line, hline, rfl⟩ := List.mem_map.1 hpart
    exact h line hline
  simp only [ofText, Document.text, String.toList_ofList, hparts, List.map_map]
  simp [Function.comp_def]

/-- The lines of a document, each after a line feed, are its text after one line feed. -/
theorem join_lines {doc : Document} (h : doc.lines ≠ []) :
    String.join (doc.lines.map ("\n" ++ ·)) = "\n" ++ doc.text := by
  obtain ⟨lines⟩ := doc
  induction lines with
  | nil => exact absurd rfl h
  | cons line rest ih =>
    cases rest with
    | nil => simp [Document.text, Text.unlines, Text.join, String.join]
    | cons next rest =>
      have hrest := ih (List.cons_ne_nil next rest)
      simp only [List.map_cons, String.join_cons] at hrest ⊢
      rw [hrest]
      apply String.toList_injective
      simp [Document.text, Text.unlines, Text.join]

/-- Texts without line feeds, each after a line feed, make an empty line and then theirs. -/
theorem lines_join {texts : List String} (h : ∀ text ∈ texts, '\n' ∉ text.toList) :
    Text.lines (String.join (texts.map ("\n" ++ ·))).toList = [] :: texts.map String.toList := by
  by_cases hne : texts = []
  · rw [hne]
    rfl
  · have hparts : Text.split '\n' (Text.join '\n' (texts.map String.toList)) =
        texts.map String.toList := by
      refine Text.split_join (by simpa using hne) fun part hpart => ?_
      obtain ⟨text, htext, rfl⟩ := List.mem_map.1 hpart
      exact h text htext
    have htext : (String.join (texts.map ("\n" ++ ·))).toList =
        '\n' :: Text.join '\n' (texts.map String.toList) := by
      rw [show texts = (Document.mk texts).lines from rfl, join_lines hne]
      simp [Document.text, Text.unlines]
    rw [htext, Text.lines, Text.split_cons_separator, hparts]

end Document

end GuideCheck
