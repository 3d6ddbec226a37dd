import GuideCheck.Proofs.Markers
import GuideCheck.Proofs.Pairs
import GuideCheck.Proofs.Stopping
import Mathlib.Data.List.DropRight

set_option autoImplicit false

/-! # What the columns of markers say

A text that is cut anywhere is cut on the line that has its last line feed before it
(`Text.getElem?_lines_append`), and the column of a byte there counts the bytes of that line up to
it (`Json.positionAt_of_inline`). So the column of a byte that belongs to no line feed is one of
the line, counted from one, and the column of a line feed is zero, on the line that follows it.

Mending surrogates changes digits of escapes to other digits (`Json.alike_mendSurrogates`), so
positions in the mended text are those of the payload (`Json.positionAt_mendSurrogates`). The
payload has the text that the line adds to the message; if that begins with a dot, the line of the
document has one more before it, which no column counts. -/

namespace GuideCheck

/-! ## Lines and columns -/

namespace Text

/-- The end of a text after its last line feed. -/
def lastLine (text : List Char) : List Char := text.rtakeWhile (· ≠ '\n')

/-- The beginning of a text before its first line feed. -/
def firstLine (text : List Char) : List Char := text.takeWhile (· ≠ '\n')

theorem lastLine_concat {c : Char} (h : c ≠ '\n') (text : List Char) :
    lastLine (text ++ [c]) = lastLine text ++ [c] :=
  List.rtakeWhile_concat_pos _ _ c (decide_eq_true h)

theorem lastLine_newline (text : List Char) : lastLine (text ++ ['\n']) = [] :=
  List.rtakeWhile_concat_neg _ _ _ (by decide)

theorem firstLine_cons {c : Char} (h : c ≠ '\n') (text : List Char) :
    firstLine (c :: text) = c :: firstLine text :=
  List.takeWhile_cons_of_pos (decide_eq_true h)

theorem head?_lines (text : List Char) : (lines text)[0]? = some (firstLine text) := by
  simp only [lines, split, List.getElem?_cons_zero, Option.some.injEq]
  induction text with
  | nil => rfl
  | cons c text ih =>
    by_cases hc : c = '\n'
    · simp [pieces, firstLine, hc]
    · rw [firstLine_cons hc, ← ih]
      simp only [pieces, hc, if_false]

/-- The line on which a text is cut. -/
theorem getElem?_lines_append (before after : List Char) :
    (lines (before ++ after))[before.count '\n']? =
      some (lastLine before ++ firstLine after) := by
  induction before using List.reverseRecOn generalizing after with
  | nil => exact head?_lines after
  | append_singleton before c ih =>
    rw [List.append_assoc, List.singleton_append, List.count_append]
    by_cases hc : c = '\n'
    · have hlength : (split '\n' before).length = before.count '\n' + ['\n'].count '\n' :=
        length_split '\n' before
      rw [hc, lines, split_append_separator, lastLine_newline, List.nil_append, ← hlength,
        List.getElem?_append_right (Nat.le_refl _), Nat.sub_self]
      exact head?_lines after
    · have hcount : [c].count '\n' = 0 := by simp [hc]
      rw [hcount, Nat.add_zero, ih, firstLine_cons hc, lastLine_concat hc, List.append_assoc]
      rfl

/-- The character that has a byte of a text, counted from one. -/
theorem exists_of_byte {text : List Char} {stop : Nat} (hpos : 0 < stop) (hle : stop ≤ bytes text) :
    ∃ before c after past, text = before ++ c :: after ∧ stop = bytes before + past ∧
      1 ≤ past ∧ past ≤ c.utf8Size := by
  induction text generalizing stop with
  | nil => exact absurd hle (Nat.not_le.2 hpos)
  | cons c text ih =>
    by_cases hc : stop ≤ c.utf8Size
    · exact ⟨[], c, text, stop, rfl, (Nat.zero_add stop).symm, hpos, hc⟩
    · have hcons (cs : List Char) : bytes (c :: cs) = c.utf8Size + bytes cs := rfl
      rw [hcons] at hle
      have hpos' : 0 < stop - c.utf8Size := by omega
      obtain ⟨before, d, after, past, rfl, hstop, hinside⟩ := ih hpos' (by omega)
      refine ⟨c :: before, d, after, past, rfl, ?_, hinside⟩
      rw [hcons]
      omega

end Text

namespace Json

namespace Position

theorem advance_zero (p : Position) (text : List Char) : p.advance text 0 = p := by
  cases text with
  | nil => rfl
  | cons c text =>
    rw [advance, if_pos c.utf8Size_pos]
    rfl

/-- To advance over a text leads to where it ends, whatever follows. -/
theorem advance_append (p : Position) (before after : List Char) (offset : Nat) :
    p.advance (before ++ after) (Text.bytes before + offset) =
      (before.foldl next p).advance after offset := by
  induction before generalizing p with
  | nil => rw [List.nil_append, List.foldl_nil, show Text.bytes [] = 0 from rfl, Nat.zero_add]
  | cons c before ih =>
    have hbytes : Text.bytes (c :: before) + offset =
        c.utf8Size + (Text.bytes before + offset) := Nat.add_assoc _ _ _
    rw [List.cons_append, List.foldl_cons, hbytes, advance,
      if_neg (Nat.not_lt.2 (Nat.le_add_right _ _)), Nat.add_sub_cancel_left, ih]

/-- A text ends on its last line. -/
theorem foldl_next_start (text : List Char) :
    text.foldl next start = ⟨text.count '\n' + 1, Text.bytes (Text.lastLine text)⟩ := by
  induction text using List.reverseRecOn with
  | nil => rfl
  | append_singleton text c ih =>
    rw [List.foldl_concat, ih, next, List.count_append, List.count_singleton]
    by_cases hc : c = '\n'
    · rw [if_pos hc, hc, Text.lastLine_newline]
      rfl
    · rw [if_neg hc, beq_false_of_ne hc, Text.lastLine_concat hc, Text.bytes_append]
      rfl

end Position

/-- The position of a byte is on the line of its character, unless that is a line feed. -/
theorem positionAt_of_inline {c : Char} (hc : c ≠ '\n') {past : Nat} (hle : past ≤ c.utf8Size)
    (before after : List Char) :
    positionAt (before ++ c :: after) (Text.bytes before + past) =
      ⟨before.count '\n' + 1, Text.bytes (Text.lastLine before) + past⟩ := by
  rw [positionAt, Position.advance_append, Position.foldl_next_start, Position.advance]
  split_ifs with hlt
  · rfl
  · have hpast : past = c.utf8Size := Nat.le_antisymm hle (Nat.not_lt.1 hlt)
    rw [hpast, Nat.sub_self, Position.advance_zero, Position.next, if_neg hc]

/-- A line feed is in column zero of the line that follows it. -/
theorem positionAt_of_newline (before after : List Char) :
    positionAt (before ++ '\n' :: after) (Text.bytes before + 1) =
      ⟨before.count '\n' + 2, 0⟩ := by
  rw [positionAt, Position.advance_append, Position.foldl_next_start, Position.advance,
    if_neg (by decide), show 1 - '\n'.utf8Size = 0 from rfl, Position.advance_zero]
  rfl

/-! ## Mended surrogates -/

/-- Whether two characters are the same, or digits of escapes. -/
def Alike (c d : Char) : Prop := c = d ∨ isHexDigit c = true ∧ isHexDigit d = true

theorem Alike.utf8Size_eq {c d : Char} (h : Alike c d) : c.utf8Size = d.utf8Size := by
  rcases h with rfl | ⟨hc, hd⟩
  · rfl
  · rw [utf8Size_of_isHexDigit hc, utf8Size_of_isHexDigit hd]

theorem Alike.eq_newline_iff {c d : Char} (h : Alike c d) : c = '\n' ↔ d = '\n' := by
  have hnot {c : Char} (h : isHexDigit c = true) : c ≠ '\n' := by
    rintro rfl
    exact absurd h (by decide)
  rcases h with rfl | ⟨hc, hd⟩
  · exact Iff.rfl
  · exact iff_of_false (hnot hc) (hnot hd)

theorem alike_self (text : List Char) : List.Forall₂ Alike text text :=
  List.forall₂_same.2 fun _ _ => .inl rfl

theorem Piece.alike_alone (p : Piece) : List.Forall₂ Alike p.text p.alone.text := by
  unfold alone
  split
  · next h =>
    cases p with
    | plain c => simp [isHigh, isLow, unit?] at h
    | escape c => simp [isHigh, isLow, unit?] at h
    | unit a b c d =>
      obtain ⟨value, hvalue⟩ : ∃ value, Quoted.unit? [d, c, b, a] = some value := by
        cases hunit : Quoted.unit? [d, c, b, a] with
        | none => simp [isHigh, isLow, unit?, hunit] at h
        | some value => exact ⟨value, rfl⟩
      obtain ⟨ha, hb, hc, hd⟩ := Quoted.exists_unit?_iff.1 ⟨value, hvalue⟩
      have hf : isHexDigit 'f' = true := by decide
      exact .cons (.inl rfl) <| .cons (.inl rfl) <| .cons (.inr ⟨ha, hf⟩) <|
        .cons (.inr ⟨hb, hf⟩) <| .cons (.inr ⟨hc, hf⟩) <| .cons (.inr ⟨hd, by decide⟩) .nil
  · exact alike_self _

theorem alike_textOf_mend (ps : List Piece) :
    List.Forall₂ Alike (textOf ps) (textOf (mend ps)) := by
  fun_induction mend ps with
  | case1 => exact .nil
  | case2 p => exact List.rel_append p.alike_alone .nil
  | case3 p q rest _ ih =>
    exact List.rel_append (alike_self p.text) (List.rel_append (alike_self q.text) ih)
  | case4 p q rest _ ih => exact List.rel_append p.alike_alone ih

/-- Mending changes digits of escapes to other digits, and nothing else. -/
theorem alike_mendSurrogates (text : List Char) :
    List.Forall₂ Alike text (mendSurrogates text) := by
  have h := alike_textOf_mend (pieces text)
  rwa [textOf_pieces] at h

section

variable {text other : List Char} (h : List.Forall₂ Alike text other)

include h

theorem bytes_eq_of_alike : Text.bytes text = Text.bytes other := by
  induction h with
  | nil => rfl
  | cons hc _ ih => exact congrArg₂ (· + ·) hc.utf8Size_eq ih

theorem Position.advance_eq_of_alike (p : Position) (offset : Nat) :
    p.advance text offset = p.advance other offset := by
  induction h generalizing p offset with
  | nil => rfl
  | @cons c d text other hc _ ih =>
    have hnext : p.next c = p.next d := by simp only [next, hc.eq_newline_iff, hc.utf8Size_eq]
    rw [advance, advance, hnext, hc.utf8Size_eq, ih]

end

theorem positionAt_mendSurrogates (text : List Char) (offset : Nat) :
    positionAt (mendSurrogates text) offset = positionAt text offset :=
  (Position.start.advance_eq_of_alike (alike_mendSurrogates text) offset).symm

end Json

/-! ## Markers -/

/-- The line of the document that adds a text to a payload is the escaped form of the text. -/
theorem Document.getElem?_lines_of_content? {doc : Document} {k : Nat}
    {content : String} (h : doc.content? k = some content) :
    doc.lines[k - 1]? = some (Line.escape content) := by
  obtain ⟨line, hline, hcontent⟩ := Option.bind_eq_some_iff.1 h
  cases k with
  | zero => cases hline
  | succ k =>
    obtain ⟨raw, hraw, rfl⟩ := Option.map_eq_some_iff.1 hline
    rw [Line.escape_of_content?_classify hcontent]
    exact hraw

/-- Which byte of a payload a marker names. The payload begins with a line feed, after which its
    lines have the text of the lines of the document from `first` on, and `stop` counts the bytes up
    to the one that is named. -/
inductive Marker.Points (payload : List Char) (first stop : Nat) (content : List Char)
    (marker : Marker) : Prop
  /-- a byte of a character of the line, by the bytes of the line up to it -/
  | character {before after : List Char} {c : Char} (past : Nat)
      (split : payload = before ++ c :: after)
      (inline : c ≠ '\n')
      (inside : 1 ≤ past ∧ past ≤ c.utf8Size)
      (stop_eq : stop = Text.bytes before + past)
      (line_eq : marker.line + 1 = first + before.count '\n')
      (content_eq : content = Text.lastLine before ++ c :: Text.firstLine after)
      (column_eq : marker.column = Text.bytes (Text.lastLine before) + past)
  /-- the line feed before the line, by column zero -/
  | lineFeed {before after : List Char}
      (split : payload = before ++ '\n' :: after)
      (stop_eq : stop = Text.bytes before + 1)
      (line_eq : marker.line = first + before.count '\n')
      (content_eq : content = Text.firstLine after)
      (column_eq : marker.column = 0)

/-- Where a marker is in a document: the reader finds the fault in the payload of the lines from
    `first` to `last`, to which the line of the marker adds `content`. -/
structure Marker.Located (doc : Document) (first last : Nat) (content : String)
    (fault : Json.Fault) (marker : Marker) : Prop where
  inside : first ≤ marker.line ∧ marker.line ≤ last
  line_eq : doc.lines[marker.line - 1]? = some (Line.escape content)
  column_le : marker.column ≤ Text.bytes content.toList
  message_eq : marker.message =
    (fault.locate (Json.mendSurrogates (doc.textOf first last).toList)).message
  stops : Json.Stops (Json.mendSurrogates (doc.textOf first last).toList) fault
  alike : List.Forall₂ Json.Alike (doc.textOf first last).toList
    (Json.mendSurrogates (doc.textOf first last).toList)
  points : marker.Points (doc.textOf first last).toList first fault.offset content.toList

namespace Marker

variable {payload content : List Char} {first stop : Nat} {marker : Marker}

theorem Points.column_le (h : marker.Points payload first stop content) :
    marker.column ≤ Text.bytes content := by
  cases h with
  | @character before after c past _ _ inside _ _ content_eq column_eq =>
    have hbytes : Text.bytes (c :: Text.firstLine after) =
        c.utf8Size + Text.bytes (Text.firstLine after) := rfl
    rw [column_eq, content_eq, Text.bytes_append, hbytes]
    omega
  | lineFeed _ _ _ _ column_eq => exact column_eq ▸ Nat.zero_le _

/-- A marker with the position of a byte of the payload points to that byte. -/
theorem points_of_position (hpos : 0 < stop) (hle : stop ≤ Text.bytes payload)
    (hline : marker.line = first + (Json.positionAt payload stop).line - 2)
    (hcolumn : marker.column = (Json.positionAt payload stop).column)
    (hlow : 2 ≤ (Json.positionAt payload stop).line)
    (hcontent : (Text.lines payload)[(Json.positionAt payload stop).line - 1]? = some content) :
    marker.Points payload first stop content := by
  obtain ⟨before, c, after, past, rfl, rfl, hinside⟩ := Text.exists_of_byte hpos hle
  by_cases hc : c = '\n'
  · subst hc
    obtain rfl : past = 1 := Nat.le_antisymm hinside.2 hinside.1
    rw [Json.positionAt_of_newline] at hline hcolumn hlow hcontent
    -- the line feed is the last character before the cut
    have hcut := Text.getElem?_lines_append (before ++ ['\n']) after
    rw [Text.lastLine_newline, List.nil_append, List.append_assoc, List.count_append] at hcut
    have hsome : some (Text.firstLine after) = some content := hcut.symm.trans hcontent
    exact .lineFeed rfl rfl hline (Option.some.inj hsome).symm hcolumn
  · rw [Json.positionAt_of_inline hc hinside.2] at hline hcolumn hlow hcontent
    simp only [Nat.add_sub_cancel, Text.getElem?_lines_append, Text.firstLine_cons hc,
      Option.some.injEq] at hline hcolumn hlow hcontent
    exact .character past rfl hc hinside rfl (by omega) hcontent.symm hcolumn

/-- The fault that a marker is about, and where it is. -/
theorem Names.exists_located {doc : Document} {last : Nat} (h : marker.Names doc first last) :
    ∃ content fault, marker.Located doc first last content fault := by
  obtain ⟨error, hparse, hmessage, hcolumn, hlow, hline, content, hcontent, hlines⟩ := h.place
  obtain ⟨fault, hrun, rfl⟩ := Json.exists_fault_of_parse hparse
  have hstops := Json.stops_of_run hrun
  have halike := Json.alike_mendSurrogates (doc.textOf first last).toList
  have hposition := Json.positionAt_mendSurrogates (doc.textOf first last).toList fault.offset
  simp only [Json.Fault.locate, hposition] at hcolumn hlow hline hlines
  have hne : Json.mendSurrogates (doc.textOf first last).toList ≠ [] := by
    intro hnil
    rw [hnil] at hposition
    have hstart : (Json.positionAt [] fault.offset).line = 1 := rfl
    rw [← hposition, hstart] at hlow
    exact absurd hlow (by decide)
  have hle : fault.offset ≤ Text.bytes (doc.textOf first last).toList :=
    Json.bytes_eq_of_alike halike ▸ hstops.offset_le
  have hpoints := points_of_position (hstops.offset_pos hne) hle hline hcolumn hlow hlines
  exact ⟨content, fault, h.inside, Document.getElem?_lines_of_content? hcontent,
    hpoints.column_le, hmessage, hstops, halike, hpoints⟩

end Marker

theorem MarksOf.exists_of_mem {doc : Document} {diagnostics : List Diagnostic}
    {markers : List Marker} {blocks : List Block} (h : MarksOf doc diagnostics markers blocks)
    {marker : Marker} (hmarker : marker ∈ markers) :
    ∃ message ∈ blocks.map Message.ofBlock, message.Marked doc diagnostics marker := by
  obtain ⟨marked, hmarked, hsub⟩ := List.sublistForall₂_iff.1 h.messages
  obtain ⟨hlength, hget⟩ := List.forall₂_iff_get.1 hmarked
  obtain ⟨i, hi, rfl⟩ := List.getElem_of_mem hmarker
  exact ⟨marked[i], hsub.subset (List.getElem_mem _), hget i hi (hlength ▸ hi)⟩

/-- **What a marker says of a place.** Each marker is on a line of its message, and its column is
    that of the byte at which the reader stops in the payload. It is a column of the text that the
    line adds to the payload, counted from one, unless the reader stops at a line feed: then it is
    zero, on the line after the line feed. -/
theorem analyze_marker_columns (rules : Ruleset) (text : String) :
    ∀ marker ∈ (analyze rules text).markers, ∃ message ∈ (analyze rules text).messages,
      ∃ content fault, marker.Located (Document.ofText text) message.firstLine message.lastLine
        content fault := by
  rw [markers_analyze, messages_analyze]
  intro marker hmarker
  have hmarks := Segmentation.marksOf_segment rules (Document.isFeedFree_ofText text)
  obtain ⟨message, hmessage, hmarked⟩ := hmarks.exists_of_mem hmarker
  exact ⟨message, hmessage, hmarked.names.exists_located⟩

/-- A line feed in an escape, with two of its four bytes on a line that begins with a dot. The dot
    for the escape of the line is not counted. -/
theorem analyze_marker_columns_escape :
    ⟨2, 2, "invalid escape at line 3 column 2"⟩ ∈
        (analyze ⟨fun _ => [], {}⟩ "\"\\u1\n..23\"\n.embed:json").markers ∧
      ∃ message ∈ (analyze ⟨fun _ => [], {}⟩ "\"\\u1\n..23\"\n.embed:json").messages,
        ∃ content fault, Marker.Located (Document.ofText "\"\\u1\n..23\"\n.embed:json")
          message.firstLine message.lastLine content fault
          ⟨2, 2, "invalid escape at line 3 column 2"⟩ := by
  have hmarker : ⟨2, 2, "invalid escape at line 3 column 2"⟩ ∈
      (analyze ⟨fun _ => [], {}⟩ "\"\\u1\n..23\"\n.embed:json").markers := by decide +kernel
  exact ⟨hmarker, analyze_marker_columns _ _ _ hmarker⟩

/-- A text that ends in an empty line has its marker in column zero of that. -/
theorem not_one_le_column : ¬ ∀ (rules : Ruleset) (text : String),
    ∀ marker ∈ (analyze rules text).markers, 1 ≤ marker.column := by
  intro h
  have hmarker : ⟨2, 0, "EOF while parsing an object at line 3 column 0"⟩ ∈
      (analyze ⟨fun _ => [], {}⟩ "\x7b\n\n.embed:json").markers := by decide +kernel
  exact Nat.not_succ_le_zero 0 (h _ _ _ hmarker)

end GuideCheck
