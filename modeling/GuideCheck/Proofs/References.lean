import Mathlib.Data.List.TakeWhile
import GuideCheck.Proofs.Escaping
import GuideCheck.Proofs.Searching
import GuideCheck.Proofs.Sending

set_option autoImplicit false

/-! # References to tags

A line of a message refers to a tag if it ends in an underscore and letters and digits, the last of
which does not belong to the name. Searching the whole text of a message for an underscore, as many
letters and digits as there are, and the end of a line finds the same names in the same order
(`found_referenceForm`): none of these characters ends a line, so that what the form takes is the
rest of one, and a line has only one rest like this, after its last underscore.

A message has a warning for each name that no directive of the document declares, before the message
or after it (`analyze_references`). The line feed that frames the text of a block ends an empty
line, which refers to nothing. -/

namespace GuideCheck

/-! ## One line -/

/-- What a line refers to. -/
theorem reference?_eq_some_iff {line : List Char} {name : String} :
    reference? line = some name ↔
      ∃ before word, line = before ++ '_' :: word ∧ (∀ c ∈ word, isNameChar c = true) ∧
        name = String.ofList word.dropLast := by
  unfold reference?
  constructor
  · intro h
    split at h
    · next before hbefore =>
      refine ⟨before.reverse, (line.reverse.takeWhile isNameChar).reverse, ?_, ?_, ?_⟩
      · have hline := List.takeWhile_append_dropWhile (p := isNameChar) (l := line.reverse)
        rw [hbefore] at hline
        have hreverse := congrArg List.reverse hline
        simpa using hreverse.symm
      · intro c hc
        exact List.mem_takeWhile_imp (List.mem_reverse.1 hc)
      · exact (Option.some.inj h).symm
    · cases h
  · rintro ⟨before, word, rfl, hword, rfl⟩
    have hreverse : (before ++ '_' :: word).reverse = word.reverse ++ '_' :: before.reverse := by
      simp
    have hword' : ∀ c ∈ word.reverse, isNameChar c = true :=
      fun c hc => hword c (List.mem_reverse.1 hc)
    have hdrop : (before ++ '_' :: word).reverse.dropWhile isNameChar = '_' :: before.reverse := by
      rw [hreverse, List.dropWhile_append_of_pos hword']
      rfl
    have htake : (before ++ '_' :: word).reverse.takeWhile isNameChar = word.reverse := by
      rw [hreverse, List.takeWhile_append_of_pos hword']
      exact List.append_nil _
    simp only [hdrop, htake, List.reverse_reverse]

/-- The first character of a line matters if the rest of it belongs to a name. -/
theorem reference?_cons_of_all {c : Char} {line : List Char} (h : ∀ d ∈ line, isNameChar d = true) :
    reference? (c :: line) = if c = '_' then some (String.ofList line.dropLast) else none := by
  split
  · next hc => exact reference?_eq_some_iff.2 ⟨[], line, by rw [hc]; rfl, h, rfl⟩
  · next hc =>
    rw [Option.eq_none_iff_forall_ne_some]
    intro name hname
    obtain ⟨before, word, hline, -⟩ := reference?_eq_some_iff.1 hname
    cases before with
    | nil => exact hc (List.cons.inj hline).1
    | cons b before =>
      -- an underscore in the rest
      have hmem : '_' ∈ line := by
        rw [(List.cons.inj hline).2]
        simp
      exact absurd (h '_' hmem) (by decide)

/-- And it does not matter otherwise. -/
theorem reference?_cons_of_not_all {c : Char} {line : List Char}
    (h : ¬ ∀ d ∈ line, isNameChar d = true) : reference? (c :: line) = reference? line := by
  refine Option.ext fun name => ?_
  rw [reference?_eq_some_iff, reference?_eq_some_iff]
  constructor
  · rintro ⟨before, word, hline, hword, hname⟩
    cases before with
    | nil =>
      rw [List.nil_append, List.cons.injEq] at hline
      exact absurd (hline.2 ▸ hword) h
    | cons b before => exact ⟨before, word, (List.cons.inj hline).2, hword, hname⟩
  · rintro ⟨before, word, rfl, hword, hname⟩
    exact ⟨c :: before, word, rfl, hword, hname⟩

theorem reference?_nil : reference? [] = none := rfl

/-! ## The search -/

/-- A reference: an underscore and as many letters and digits as there are, up to the end of a
    line. -/
def referenceForm : Text.Form := [.one (· = '_'), .most isNameChar, .lineEnd]

/-- The name in what the search finds: all but the first and the last character. -/
def referenceName (found : List Char) : String := String.ofList found.tail.dropLast

theorem isNameChar_of_lineEnd {c : Char} (h : c = '\r' ∨ c = '\n') : isNameChar c = false := by
  rcases h with rfl | rfl <;> decide

/-- Only after a carriage return it matters what stands before. -/
theorem endsLine_of_ne {previous : Option Char} (h : previous ≠ some '\r') (text : List Char) :
    Text.endsLine previous text = Text.endsLine none text := by
  cases text with
  | nil => rfl
  | cons c cs => simp [Text.endsLine, h]

/-- All letters and digits are taken, or none. -/
theorem takeMost_lineEnd {previous : Option Char} (h : previous ≠ some '\r') (text : List Char) :
    Text.takeMost isNameChar (Text.Form.take? [.lineEnd]) previous text =
      if Text.endsLine none (text.dropWhile isNameChar) then
        some (text.takeWhile isNameChar, text.dropWhile isNameChar)
      else none := by
  induction text generalizing previous with
  | nil => rfl
  | cons c cs ih =>
    rw [Text.takeMost]
    by_cases hc : isNameChar c = true
    · have hnext : some c ≠ some '\r' := by
        rintro heq
        rw [Option.some.inj heq] at hc
        exact absurd hc (by decide)
      have hstop : Text.Form.take? [.lineEnd] previous (c :: cs) = none := by
        have hend : ¬ (c = '\r' ∨ c = '\n') := fun hend => by
          rw [isNameChar_of_lineEnd hend] at hc
          cases hc
        have hline : Text.endsLine none (c :: cs) = false := by simpa [Text.endsLine] using hend
        rw [Text.Form.take?, endsLine_of_ne h, hline]
        rfl
      rw [if_pos hc, hstop, Option.or_none, ih hnext, List.dropWhile_cons_of_pos hc,
        List.takeWhile_cons_of_pos hc]
      split <;> rfl
    · rw [if_neg hc, Text.Form.take?, endsLine_of_ne h, List.dropWhile_cons_of_neg hc,
        List.takeWhile_cons_of_neg hc]
      rfl

/-- What the form takes: an underscore and the rest of a line. -/
theorem take?_referenceForm (previous : Option Char) (c : Char) (cs : List Char) :
    referenceForm.take? previous (c :: cs) =
      if c = '_' ∧ Text.endsLine none (cs.dropWhile isNameChar) = true then
        some ('_' :: cs.takeWhile isNameChar, cs.dropWhile isNameChar)
      else none := by
  rw [referenceForm, Text.Form.take?]
  by_cases hc : c = '_'
  · subst hc
    rw [if_pos (by decide), Text.Form.take?, takeMost_lineEnd (by decide)]
    by_cases hend : Text.endsLine none (cs.dropWhile isNameChar) = true
    · rw [if_pos hend, if_pos ⟨rfl, hend⟩]
      rfl
    · rw [if_neg hend, if_neg fun h => hend h.2]
      rfl
  · rw [if_neg (by simpa using hc), if_neg fun h => hc h.1]

/-! ## Lines -/

/-- Letters and digits go on to the end of a line if the line has nothing else. -/
theorem endsLine_dropWhile_iff (text : List Char) :
    Text.endsLine none (text.dropWhile isNameChar) = true ↔
      ∀ c ∈ (Text.displayPieces text).1, isNameChar c = true := by
  induction text with
  | nil => simp [Text.endsLine, Text.displayPieces]
  | cons c cs ih =>
    by_cases hend : c = '\r' ∨ c = '\n'
    · have hdrop : (c :: cs).dropWhile isNameChar = c :: cs :=
        List.dropWhile_cons_of_neg (by rw [isNameChar_of_lineEnd hend]; decide)
      rw [hdrop, (Text.displayPieces_of_lineEnd hend cs).1]
      simpa [Text.endsLine] using hend
    · rw [Text.displayPieces_of_ne hend]
      by_cases hc : isNameChar c = true
      · rw [List.dropWhile_cons_of_pos hc, ih]
        simp [hc]
      · rw [List.dropWhile_cons_of_neg hc]
        simpa [Text.endsLine, hc] using hend

/-- What is left then is the end of the line and the lines after it. -/
theorem displayPieces_dropWhile {text : List Char}
    (h : ∀ c ∈ (Text.displayPieces text).1, isNameChar c = true) :
    (Text.displayPieces text).1 = text.takeWhile isNameChar ∧
      Text.displayPieces (text.dropWhile isNameChar) = ([], (Text.displayPieces text).2) := by
  induction text with
  | nil => exact ⟨rfl, rfl⟩
  | cons c cs ih =>
    by_cases hend : c = '\r' ∨ c = '\n'
    · have hc : ¬ isNameChar c = true := by rw [isNameChar_of_lineEnd hend]; decide
      have hfirst := (Text.displayPieces_of_lineEnd hend cs).1
      rw [List.dropWhile_cons_of_neg hc, List.takeWhile_cons_of_neg hc]
      exact ⟨hfirst, Prod.ext hfirst rfl⟩
    · rw [Text.displayPieces_of_ne hend] at h ⊢
      obtain ⟨hc, hcs⟩ := List.forall_mem_cons.1 h
      obtain ⟨hfirst, hrest⟩ := ih hcs
      rw [List.dropWhile_cons_of_pos hc, List.takeWhile_cons_of_pos hc, hfirst, hrest]
      exact ⟨rfl, rfl⟩

/-- **The search finds the references of the lines.** -/
theorem found_referenceForm (text : List Char) :
    (referenceForm.found text).map referenceName =
      (Text.displayLines text).filterMap reference? := by
  rw [Text.Form.found]
  generalize none = previous
  -- the search goes on behind what it finds, which is the rest of a line
  induction hlength : text.length using Nat.strongRecOn generalizing text previous with
  | ind n ih =>
    subst hlength
    cases text with
    | nil =>
      rw [Text.Form.cuts_nil]
      rfl
    | cons c cs =>
      by_cases htake : c = '_' ∧ Text.endsLine none (cs.dropWhile isNameChar) = true
      · obtain ⟨rfl, hends⟩ := htake
        have hall := (endsLine_dropWhile_iff cs).1 hends
        obtain ⟨hfirst, hrest⟩ := displayPieces_dropWhile hall
        have hfound : referenceForm.take? previous ('_' :: cs) =
            some ('_' :: cs.takeWhile isNameChar, cs.dropWhile isNameChar) := by
          rw [take?_referenceForm, if_pos ⟨rfl, hends⟩]
        have hlater := ih _ (Text.Form.length_lt_of_take? hfound) (cs.dropWhile isNameChar)
          (('_' :: cs.takeWhile isNameChar).getLast?) rfl
        rw [Text.filterMap_displayLines, hrest, reference?_nil] at hlater
        rw [Text.Form.cuts_of_take? hfound, List.filterMap_cons, Text.filterMap_displayLines,
          Text.displayPieces_of_ne (by decide), reference?_cons_of_all hall, hfirst]
        simp only [Sum.getRight?_inr, List.map_cons, hlater]
        rfl
      · have hnone : referenceForm.take? previous (c :: cs) = none := by
          rw [take?_referenceForm, if_neg htake]
        have hlater := ih _ (Nat.lt_succ_self _) cs (some c) rfl
        rw [Text.Form.cuts_of_none hnone, List.filterMap_cons]
        simp only [Sum.getRight?_inl, hlater]
        rw [Text.filterMap_displayLines (c :: cs)]
        by_cases hend : c = '\r' ∨ c = '\n'
        · obtain ⟨hfirst, hrest⟩ := Text.displayPieces_of_lineEnd hend cs
          rw [hfirst, hrest]
          rfl
        · rw [Text.displayPieces_of_ne hend, Text.filterMap_displayLines]
          by_cases hall : ∀ d ∈ (Text.displayPieces cs).1, isNameChar d = true
          · -- only an underscore before it would make this a reference
            have hc : c ≠ '_' := fun hc => htake ⟨hc, (endsLine_dropWhile_iff cs).2 hall⟩
            have hnot : reference? (Text.displayPieces cs).1 = none := by
              rw [Option.eq_none_iff_forall_ne_some]
              intro name hname
              obtain ⟨before, word, hline, -⟩ := reference?_eq_some_iff.1 hname
              exact absurd (hall '_' (by rw [hline]; simp)) (by decide)
            rw [reference?_cons_of_all hall, if_neg hc, hnot]
          · rw [reference?_cons_of_not_all hall]

theorem references_eq_found (content : String) :
    references content = (referenceForm.found content.toList).map referenceName :=
  (found_referenceForm content.toList).symm

/-! ## Messages -/

/-- The empty line that a line feed at the start ends refers to nothing. -/
theorem references_newline_append (body : String) :
    references ("\n" ++ body) = references body := by
  have htext : ("\n" ++ body).toList = '\n' :: body.toList := by simp
  obtain ⟨hfirst, hrest⟩ := Text.displayPieces_of_lineEnd (.inr rfl) body.toList
  rw [references, htext, Text.filterMap_displayLines, hfirst, hrest]
  rfl

/-- A block refers to what its body refers to. -/
theorem Block.references_body {block : Block} (h : IsFramed block.text) :
    references block.text = references block.body := by
  rcases Block.eq_of_isFramed h with ⟨htext, hbody⟩ | htext
  · rw [htext, hbody]
  · rw [htext, references_newline_append]

/-- A document without directives and separators is one block. -/
theorem Segmentation.segment_of_no_dots (rules : Ruleset) {text : String}
    (h : ∀ line ∈ (Document.ofText text).lines, line.toList.head? ≠ some '.') :
    ∃ block : Block,
      segment rules (Document.ofText text) = { blocks := [block], tags := {}, findings := {} } ∧
        block.firstLine = 1 ∧ block.lastLine = some (Document.ofText text).lineCount ∧
        block.text = "\n" ++ text := by
  have hlines : (Document.ofText text).lines.map Line.escape = (Document.ofText text).lines :=
    (List.map_congr_left fun line hline => Line.escape_of_head? (h line hline)).trans
      (List.map_id' _)
  have htext : escapeText text = text := by rw [escapeText, hlines, Document.text_ofText]
  have hsegment := segment_escapeText rules text
  rw [htext] at hsegment
  exact ⟨_, hsegment, rfl, rfl, rfl⟩

/-- **Warnings about references are exact.** A line of a message refers to a name if it ends in an
    underscore, the name and one more letter or digit, where the name may be empty and the letter
    missing. What a message refers to is what a search of its text finds. Message by message, in the
    order of the lines, there is a warning for each name that no directive of the document declares,
    and no other warning of this kind. A document without a dot at the start of a line is one
    message, and nothing but these warnings and its length is reported about it. -/
theorem analyze_references (rules : Ruleset) (text : String) :
    (∀ content, references content = (Text.displayLines content.toList).filterMap reference? ∧
      references content = (referenceForm.found content.toList).map referenceName) ∧
      (∀ line name, reference? line = some name ↔
        ∃ before word, line = before ++ '_' :: word ∧ (∀ c ∈ word, c.isAlphanum = true) ∧
          name = String.ofList word.dropLast) ∧
      (analyze rules text).messages =
        (Segmentation.segment rules (Document.ofText text)).blocks.map Message.ofBlock ∧
      (analyze rules text).diagnostics.filter (·.saysUndefined) =
        ((Segmentation.segment rules (Document.ofText text)).blocks.flatMap fun block =>
          ((references block.body).filter fun name =>
            name ∉ declaredTags (Document.ofText text).lines).map fun name =>
              ⟨(Message.ofBlock block).firstLine, (Message.ofBlock block).lastLine,
                .undefinedTag name⟩) ∧
      ((∀ line ∈ (Document.ofText text).lines, line.toList.head? ≠ some '.') →
        ∃ m, (analyze rules text).messages = [m] ∧
          m.firstLine = 1 ∧ m.lastLine = (Document.ofText text).lineCount ∧
          (analyze rules text).diagnostics =
            (references text).map (fun name => ⟨m.firstLine, m.lastLine, .undefinedTag name⟩) ++
              if rules.limits.messageLength < Text.units16 m.text.toList then
                [⟨m.firstLine, m.lastLine, .tooLong rules.limits.messageLength⟩]
              else []) := by
  refine ⟨fun content => ⟨rfl, references_eq_found content⟩,
    fun line name => reference?_eq_some_iff, messages_analyze rules text, ?_, fun hdots => ?_⟩
  · rw [filter_saysUndefined_analyze]
    refine List.flatMap_congr fun block hblock => ?_
    have hframed := Segmentation.isFramed_segment rules _ block hblock
    have hnames : ∀ name ∈ references block.body,
        (!(Segmentation.segment rules (Document.ofText text)).tags.contains name) =
          decide (name ∉ declaredTags (Document.ofText text).lines) := by
      intro name _
      rw [Bool.eq_iff_iff, Bool.not_eq_true', decide_eq_true_iff, ← Bool.not_eq_true,
        Segmentation.contains_tags_segment_iff]
    rw [Block.references_body hframed, List.filter_congr hnames]
    rfl
  · obtain ⟨block, hsegment, hfirst, hlast, htext⟩ := Segmentation.segment_of_no_dots rules hdots
    have hall : (references text).filter (fun name => !({} : Tags).contains name) =
        references text :=
      List.filter_eq_self.2 fun name _ => rfl
    refine ⟨Message.ofBlock block, ?_, hfirst, ?_, ?_⟩
    · rw [messages_analyze, hsegment]
      rfl
    · rw [Message.ofBlock, hlast]
      rfl
    · rw [diagnostics_analyze, hsegment, List.nil_append, List.flatMap_singleton, Block.diagnostics,
        htext, references_newline_append, hall]
      rfl

/-- A carriage return ends a line as well, and a space after a name is not part of a reference. -/
theorem analyze_references_without_dots :
    (∀ line ∈ (Document.ofText "see a_b_cd\r\n_\rx_1 ").lines, line.toList.head? ≠ some '.') ∧
      ∃ m, (analyze ⟨fun _ => [], {}⟩ "see a_b_cd\r\n_\rx_1 ").messages = [m] ∧
        m.firstLine = 1 ∧ m.lastLine = 2 ∧
        (analyze ⟨fun _ => [], {}⟩ "see a_b_cd\r\n_\rx_1 ").diagnostics =
          [⟨m.firstLine, m.lastLine, .undefinedTag "c"⟩,
            ⟨m.firstLine, m.lastLine, .undefinedTag ""⟩] ++
            if 2000 < Text.units16 m.text.toList then
              [⟨m.firstLine, m.lastLine, .tooLong 2000⟩]
            else [] := by
  have hdots : ∀ line ∈ (Document.ofText "see a_b_cd\r\n_\rx_1 ").lines,
      line.toList.head? ≠ some '.' := by
    decide +kernel
  have hnames : references "see a_b_cd\r\n_\rx_1 " = ["c", ""] := by decide +kernel
  obtain ⟨m, hmessages, hfirst, hlast, hdiagnostics⟩ :=
    (analyze_references ⟨fun _ => [], {}⟩ "see a_b_cd\r\n_\rx_1 ").2.2.2.2 hdots
  rw [hnames] at hdiagnostics
  exact ⟨hdots, m, hmessages, hfirst, hlast, hdiagnostics⟩

end GuideCheck
