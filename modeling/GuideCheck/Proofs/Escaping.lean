import GuideCheck.Analysis
import GuideCheck.Proofs.Feed
import GuideCheck.Proofs.Numbering
import Mathlib.Data.List.Forall2

set_option autoImplicit false

/-! # Any text can be written as content

Doubling the dot at the start of every line that has one makes a document of content lines and
nothing else. Classification takes these dots away again, and only these: a line carries a text
exactly if it is the escaped form of it (`Line.content?_classify_eq_some_iff`). A document of
content lines is one block with the text of the lines in it (`Segmentation.State.feed_escape`),
so the escaped form of a text becomes one message with the text (`analyze_escapeText`).

The text is not sent as it stands. Link marks become links and zero-width spaces are added in
escaped texts as in any others. -/

namespace GuideCheck

/-! ## One line -/

namespace Line

theorem escape_of_dot {text : String} {rest : List Char} (h : text.toList = '.' :: rest) :
    escape text = "." ++ text := by
  simp only [escape, h]

theorem escape_of_head? {text : String} (h : text.toList.head? ≠ some '.') :
    escape text = text := by
  unfold escape
  split
  · next rest htext =>
    rw [htext] at h
    exact absurd rfl h
  · rfl

/-- The escaped form of a text is a line that carries the text. -/
theorem content?_classify_escape (text : String) :
    (classify (escape text)).content? = some text := by
  by_cases h : text.toList.head? = some '.'
  · obtain ⟨rest, htext⟩ := List.head?_eq_some_iff.1 h
    -- the dot of the text is no blank, so the line is no separator
    have hall : text.toList.all Text.isBlank = false := by
      rw [htext, List.all_cons]
      rfl
    have hline : (escape text).toList = '.' :: text.toList := by
      rw [escape_of_dot htext]
      simp
    simp [classify, hline, hall, h, content?]
  · rw [escape_of_head? h]
    unfold classify
    split
    · next rest htext =>
      rw [htext] at h
      exact absurd rfl h
    · rfl

/-- A line that carries a text is the escaped form of it. -/
theorem escape_of_content?_classify {line text : String}
    (h : (classify line).content? = some text) : escape text = line := by
  unfold classify at h
  split at h
  · next rest hline =>
    split at h
    · simp [content?] at h
    · split at h
      · next hhead =>
        -- two dots at the start: the text has the second one
        obtain ⟨more, rfl⟩ := List.head?_eq_some_iff.1 hhead
        simp only [content?, Option.some.injEq] at h
        subst h
        rw [escape_of_dot (String.toList_ofList)]
        exact String.toList_injective (by simp [hline])
      · simp [content?] at h
  · next hline =>
    simp only [content?, Option.some.injEq] at h
    subst h
    refine escape_of_head? fun hhead => ?_
    obtain ⟨rest, hrest⟩ := List.head?_eq_some_iff.1 hhead
    exact hline rest hrest

theorem content?_classify_eq_some_iff {line text : String} :
    (classify line).content? = some text ↔ escape text = line :=
  ⟨escape_of_content?_classify, fun h => h ▸ content?_classify_escape text⟩

/-- An escaped line has the line feeds of the line. -/
theorem newline_mem_escape_iff {text : String} :
    '\n' ∈ (escape text).toList ↔ '\n' ∈ text.toList := by
  unfold escape
  split
  · simp
  · rfl

end Line

/-! ## Documents of content lines -/

/-- The text with a dot before every line that starts with one. -/
def escapeText (text : String) : String :=
  Document.text ⟨(Document.ofText text).lines.map Line.escape⟩

/-- The lines of an escaped text are the escaped lines of the text. -/
theorem lines_escapeText (text : String) :
    (Document.ofText (escapeText text)).lines = (Document.ofText text).lines.map Line.escape := by
  have hne : (Document.ofText text).lines ≠ [] :=
    List.ne_nil_of_length_pos (Document.one_le_lineCount_ofText text)
  refine Document.lines_ofText_text ⟨(Document.ofText text).lines.map Line.escape⟩
    (by simpa using hne) fun line hline => ?_
  obtain ⟨part, hpart, rfl⟩ := List.mem_map.1 hline
  rw [Line.newline_mem_escape_iff]
  exact Document.notMem_of_mem_lines hpart

namespace Segmentation

/-- Lines of text are added to the open block one after the other. -/
theorem State.feed_escape {s : State} (hmode : s.mode = .content) (rules : Ruleset)
    (doc : Document) (number : Nat) (texts : List String) :
    s.feed rules doc number (texts.map Line.escape) =
      ({ s with block := { s.block with
          text := s.block.text ++ String.join (texts.map ("\n" ++ ·)) } }, {}) := by
  induction texts generalizing s number with
  | nil => simp [feed_nil]
  | cons text rest ih =>
    have hstep : s.step rules doc number (Line.escape text) =
        ({ s with block := s.block.appendLine text }, {}) := by
      rw [step_of_text (Line.content?_classify_escape text), addContent, hmode]
    have hrest := ih (s := { s with block := s.block.appendLine text }) hmode (number + 1)
    simp only [List.map_cons, feed_cons, hstep, hrest]
    simp [Block.appendLine, String.join_cons, String.append_assoc]

/-- The escaped form of a text is one block with the text. -/
theorem segment_escapeText (rules : Ruleset) (text : String) :
    segment rules (Document.ofText (escapeText text)) =
      { blocks := [{ Block.startingAt 1 with
                     lastLine := some (Document.ofText text).lineCount, text := "\n" ++ text }],
        tags := {}, findings := {} } := by
  have hne : (Document.ofText text).lines ≠ [] :=
    List.ne_nil_of_length_pos (Document.one_le_lineCount_ofText text)
  have hfeed := State.feed_escape (s := State.initial) rfl rules
    (Document.ofText (escapeText text)) 1 (Document.ofText text).lines
  rw [Document.join_lines hne, Document.text_ofText] at hfeed
  simp only [segment, segmentLines, lines_escapeText, hfeed, List.length_map]
  simp [State.initial, State.finish, Block.startingAt, Block.closeAt, Document.lineCount]

end Segmentation

/-! ## Messages -/

/-- **Escaping writes any text as content.** Whatever the rules, the escaped form of a text is
    segmented into one block with the text in it, without a finding, and becomes one message. And a
    line carries a text exactly if it is the escaped form of the text. -/
theorem analyze_escapeText (rules : Ruleset) (text : String) :
    Segmentation.segment rules (Document.ofText (escapeText text)) =
        { blocks := [{ firstLine := 1
                       lastLine := some (Document.ofText text).lineCount
                       text := "\n" ++ text
                       attachment := false
                       tag := none
                       rewritten := false }]
          tags := {}
          findings := { diagnostics := [], markers := [] } } ∧
      (analyze rules (escapeText text)).messages =
        [{ text := pad (replaceLinks text), firstLine := 1,
           lastLine := (Document.ofText text).lineCount, attachment := false, tag := none }] ∧
      (analyze rules (escapeText text)).markers = [] ∧
      ∀ line content, (Line.classify line).content? = some content ↔ Line.escape content = line := by
  have hsegment := Segmentation.segment_escapeText rules text
  refine ⟨hsegment, ?_, ?_, fun _ _ => Line.content?_classify_eq_some_iff⟩
  · rw [messages_analyze, hsegment]
    simp [Message.ofBlock, Block.body, Block.startingAt]
  · rw [analyze, Analysis.ofDocument, Analysis.ofSegmented, hsegment]

/-- Lines of dots alone, with blanks after them or not, come out as they were. -/
example : (analyze ⟨fun _ => [], {}⟩ (escapeText ".\n..\n. \nend")).messages.map Message.text =
    [".\n..\n. \nend"] := by
  decide +kernel

end GuideCheck
