import GuideCheck.Proofs.Grouping
import GuideCheck.Proofs.Wordings

set_option autoImplicit false

/-! # Messages can be sent as they are

A message has the text of its block, without the line feed before the first line of it, with its
links replaced, and padded. Padding keeps the platform from trimming a text: a padded text has no
space or line feed at its start and no line feed at its end (`isSendable_pad`), and there is nothing
more to pad (`pad_of_isSendable`).

Each line follows a line feed, and so does the content of a payload. The text of a block is thus
empty or begins with a line feed that no author wrote (`Segmentation.isFramed_segment`), and a line
feed after it is the author's. What is compared with the limit is the text that is sent
(`analyze_isSendable`). -/

namespace GuideCheck

/-! ## Padding -/

/-- Whether the platform sends a text as it is. -/
structure IsSendable (text : String) : Prop where
  ne_empty : text ≠ ""
  first : text.toList.head? ≠ some ' ' ∧ text.toList.head? ≠ some '\n'
  last : text.toList.getLast? ≠ some '\n'

/-- A zero-width space where it is needed. -/
def paddingIf (needed : Prop) [Decidable needed] : String :=
  if needed then String.singleton zeroWidthSpace else ""

/-- A text that is not empty is padded at both ends. -/
theorem pad_of_ne_empty {text : String} (h : text ≠ "") :
    pad text =
      paddingIf (text.toList.head? = some ' ' ∨ text.toList.head? = some '\n') ++ text ++
        paddingIf (text.toList.getLast? = some '\n') := by
  apply String.toList_injective
  unfold pad paddingIf
  cases htext : text.toList with
  | nil => exact absurd (String.toList_eq_nil_iff.1 htext) h
  | cons c cs =>
    simp only [String.toList_ofList, String.toList_append, htext, List.head?_cons,
      Option.some.injEq]
    split_ifs <;> simp

theorem toList_paddingIf (needed : Prop) [Decidable needed] :
    (paddingIf needed).toList = if needed then [zeroWidthSpace] else [] := by
  unfold paddingIf
  split <;> simp

/-- A padded text can be sent. -/
theorem isSendable_pad (text : String) : IsSendable (pad text) := by
  by_cases hempty : text = ""
  · subst hempty
    exact ⟨by decide, by decide, by decide⟩
  · have hne : text.toList ≠ [] := fun h => hempty (String.toList_eq_nil_iff.1 h)
    have hspace : zeroWidthSpace ≠ ' ' ∧ zeroWidthSpace ≠ '\n' := by decide
    rw [pad_of_ne_empty hempty]
    refine ⟨by simp [hempty], ?_, ?_⟩
    · -- the first character is the padding, or that of a text that needs none
      rw [String.toList_append, String.toList_append, toList_paddingIf, List.append_assoc,
        List.head?_append]
      split_ifs with hfirst
      · simpa using hspace
      · rw [List.head?_nil, Option.none_or, List.head?_append_of_ne_nil _ hne]
        exact not_or.1 hfirst
    · rw [String.toList_append, toList_paddingIf, List.getLast?_append]
      split_ifs with hlast
      · simpa using hspace.2
      · rw [List.getLast?_nil, Option.none_or, String.toList_append,
          List.getLast?_append_of_ne_nil _ hne]
        exact hlast

/-- A text that can be sent needs no padding. -/
theorem pad_of_isSendable {text : String} (h : IsSendable text) : pad text = text := by
  have hfirst := not_or.2 h.first
  rw [pad_of_ne_empty h.ne_empty, paddingIf, if_neg hfirst, paddingIf, if_neg h.last,
    String.empty_append, String.append_empty]

/-- Padding adds at most one zero-width space at each end. -/
theorem exists_pad_eq (text : String) :
    ∃ before after, pad text = before ++ text ++ after ∧
      (before = "" ∨ before = String.singleton zeroWidthSpace) ∧
      (after = "" ∨ after = String.singleton zeroWidthSpace) := by
  have hpadding : ∀ (needed : Prop) [Decidable needed],
      paddingIf needed = "" ∨ paddingIf needed = String.singleton zeroWidthSpace := by
    intro needed _
    unfold paddingIf
    split
    · exact .inr rfl
    · exact .inl rfl
  by_cases hempty : text = ""
  · subst hempty
    exact ⟨String.singleton zeroWidthSpace, "", by decide, .inr rfl, .inl rfl⟩
  · exact ⟨_, _, pad_of_ne_empty hempty, hpadding _, hpadding _⟩

/-! ## The line feed before a text -/

/-- Whether a text is empty or stands after a line feed. -/
def IsFramed (text : String) : Prop := text = "" ∨ ∃ body, text = "\n" ++ body

/-- The texts of blocks are framed, whatever lines they come from: lines of text keep them so, and
    so do the effects of directives. -/
theorem lockstep_isFramed :
    Lockstep (fun _ line line' => line' = line) (fun _ _ text _ => IsFramed text) where
  corresponds := fun {_ line line'} h => by
    rw [h]
    exact .refl _
  empty := fun _ => .inl rfl
  append := by
    rintro first number line line' text text' a b - - - (rfl | ⟨body, rfl⟩)
    · exact .inr ⟨text, by rw [String.empty_append]⟩
    · exact .inr ⟨body ++ "\n" ++ text, by simp only [String.append_assoc]⟩
  settle := by
    intro first next a b effect h
    cases effect with
    | nothing | attach | declare => exact h
    | read param =>
      rw [Effect.textAfter]
      cases Payload.read param a with
      | plain => exact h
      | refused | malformed => exact .inl rfl
      | parsed value =>
        rw [Payload.textAfter]
        split
        · exact .inl rfl
        · exact .inr ⟨_, rfl⟩

/-- Every block has a framed text. -/
theorem Segmentation.isFramed_segment (rules : Ruleset) (doc : Document) :
    ∀ block ∈ (segment rules doc).blocks, IsFramed block.text := by
  have hlines : ∀ (i : Nat) (line line' : String), doc.lines[i]? = some line →
      doc.lines[i]? = some line' → line' = line := by
    intro i line line' hline hline'
    rw [hline, Option.some.injEq] at hline'
    exact hline'.symm
  obtain ⟨hblocks, -⟩ := lockstep_isFramed.segment rules rules rfl hlines
  intro block hblock
  obtain ⟨-, last, -, hframed⟩ := List.forall₂_same.1 hblocks block hblock
  exact hframed

/-- The body of a block is its text but for the line feed that frames it. -/
theorem Block.eq_of_isFramed {block : Block} (h : IsFramed block.text) :
    block.text = "" ∧ block.body = "" ∨ block.text = "\n" ++ block.body := by
  rcases h with h | ⟨body, h⟩
  · exact .inl ⟨h, by simp [Block.body, h]⟩
  · have hbody : block.body = body := by
      simp only [Block.body, h, String.toList_append]
      exact String.ofList_toList
    exact .inr (by rw [hbody, h])

/-! ## Messages -/

/-- Messages begin further and further down. -/
theorem pairwise_firstLine_messages (rules : Ruleset) (text : String) :
    (analyze rules text).messages.Pairwise fun m next => m.firstLine < next.firstLine := by
  rw [messages_analyze, List.pairwise_map]
  exact (Segmentation.segment_groups rules text).ordered.imp fun h => h.1

/-- Whether a diagnostic is about the lines of a message. -/
def Diagnostic.isAbout (m : Message) (d : Diagnostic) : Bool :=
  d.first == m.firstLine && d.last == m.lastLine

/-- Among problems of messages that begin on different lines each is found by its lines. -/
theorem countP_isAbout {messages : List Message} {m : Message} (p : Problem) (q : Message → Bool)
    (hordered : messages.Pairwise fun m next => m.firstLine < next.firstLine)
    (hm : m ∈ messages) :
    ((messages.filter q).map (·.problem p)).countP (·.isAbout m) = if q m then 1 else 0 := by
  have hlines : (messages.map Message.firstLine).Nodup :=
    List.pairwise_map.2 (hordered.imp Nat.ne_of_lt)
  have habout : ∀ x ∈ messages, (x.problem p).isAbout m = decide (x = m) := by
    intro x hx
    rw [Bool.eq_iff_iff, decide_eq_true_iff]
    simp only [Diagnostic.isAbout, Message.problem, Bool.and_eq_true, beq_iff_eq]
    refine ⟨fun h => List.inj_on_of_nodup_map hlines hx hm h.1, fun h => ?_⟩
    rw [h]
    exact ⟨rfl, rfl⟩
  have hcongr : ∀ x ∈ messages, ((·.isAbout m) ∘ (·.problem p)) x && q x ↔ (x == m && q m) := by
    intro x hx
    rw [Function.comp_apply, habout x hx]
    by_cases h : x = m <;> simp [h]
  rw [List.countP_map, List.countP_filter, List.countP_congr hcongr]
  split_ifs with hq
  · simp only [hq, Bool.and_true]
    exact List.count_eq_one_of_mem hlines.of_map hm
  · simp [hq]

/-- **Messages can be sent as they are, and their length is judged as they are sent.** Whatever the
    rules, the text of a message can be sent and needs no more padding. It is the body of a block
    with its links replaced and with at most one zero-width space at each end, where the body is the
    text of the block but for the one line feed that frames it. Errors about lengths are those of
    the messages that are too long, in their order and on their lines, and so one for each. -/
theorem analyze_isSendable (rules : Ruleset) (text : String) :
    (∀ m ∈ (analyze rules text).messages, IsSendable m.text ∧ pad m.text = m.text) ∧
      (analyze rules text).messages =
        (Segmentation.segment rules (Document.ofText text)).blocks.map Message.ofBlock ∧
      (∀ block ∈ (Segmentation.segment rules (Document.ofText text)).blocks,
        (block.text = "" ∧ block.body = "" ∨ block.text = "\n" ++ block.body) ∧
          ∃ before after,
            (Message.ofBlock block).text = before ++ replaceLinks block.body ++ after ∧
              (before = "" ∨ before = String.singleton zeroWidthSpace) ∧
              (after = "" ∨ after = String.singleton zeroWidthSpace)) ∧
      (analyze rules text).diagnostics.filter (·.saysTooLong) =
        ((analyze rules text).messages.filter
          (rules.limits.messageLength < Text.units16 ·.text.toList)).map
            (fun m => ⟨m.firstLine, m.lastLine, .tooLong rules.limits.messageLength⟩) ∧
      ∀ m ∈ (analyze rules text).messages,
        (analyze rules text).diagnostics.countP (fun d => d.isAbout m && d.saysTooLong) =
          if rules.limits.messageLength < Text.units16 m.text.toList then 1 else 0 := by
  refine ⟨fun m hm => ?_, messages_analyze rules text, fun block hblock => ?_,
    filter_saysTooLong_analyze rules text, fun m hm => ?_⟩
  · rw [messages_analyze] at hm
    obtain ⟨block, -, rfl⟩ := List.mem_map.1 hm
    exact ⟨isSendable_pad _, pad_of_isSendable (isSendable_pad _)⟩
  · exact ⟨Block.eq_of_isFramed (Segmentation.isFramed_segment rules _ block hblock),
      exists_pad_eq _⟩
  · rw [← List.countP_filter, filter_saysTooLong_analyze,
      countP_isAbout _ _ (pairwise_firstLine_messages rules text) hm]
    simp only [decide_eq_true_eq]
    rfl

/-- A payload whose content begins with a line feed, and a line that begins with a space. -/
theorem analyze_isSendable_content :
    (⟨"\u200b hi", 3, 3, false, none⟩ : Message) ∈ (analyze ⟨fun _ => [], { messageLength := 3 }⟩
        "\x7b\"content\": \"\\n$linkmsg_a$\"\x7d\n.embed:json\n hi").messages ∧
      IsSendable "\u200b hi" ∧ pad "\u200b hi" = "\u200b hi" ∧
      (analyze ⟨fun _ => [], { messageLength := 3 }⟩
        "\x7b\"content\": \"\\n$linkmsg_a$\"\x7d\n.embed:json\n hi").diagnostics.countP
          (fun d => d.isAbout ⟨"\u200b hi", 3, 3, false, none⟩ && d.saysTooLong) = 1 ∧
      ∃ block ∈ (Segmentation.segment ⟨fun _ => [], { messageLength := 3 }⟩ (Document.ofText
        "\x7b\"content\": \"\\n$linkmsg_a$\"\x7d\n.embed:json\n hi")).blocks,
        block.text = "\n\n$linkmsg_a$" ∧ block.body = "\n$linkmsg_a$" ∧
          ∃ before after,
            (Message.ofBlock block).text = before ++ replaceLinks block.body ++ after ∧
              (before = "" ∨ before = String.singleton zeroWidthSpace) ∧
              (after = "" ∨ after = String.singleton zeroWidthSpace) := by
  obtain ⟨hsendable, -, hblocks, -, hcount⟩ :=
    analyze_isSendable ⟨fun _ => [], { messageLength := 3 }⟩
      "\x7b\"content\": \"\\n$linkmsg_a$\"\x7d\n.embed:json\n hi"
  have hmessage : (⟨"\u200b hi", 3, 3, false, none⟩ : Message) ∈
      (analyze ⟨fun _ => [], { messageLength := 3 }⟩
        "\x7b\"content\": \"\\n$linkmsg_a$\"\x7d\n.embed:json\n hi").messages := by
    decide +kernel
  have hblock : (⟨1, some 1, "\n\n$linkmsg_a$", false, none, true⟩ : Block) ∈
      (Segmentation.segment ⟨fun _ => [], { messageLength := 3 }⟩ (Document.ofText
        "\x7b\"content\": \"\\n$linkmsg_a$\"\x7d\n.embed:json\n hi")).blocks := by
    decide +kernel
  obtain ⟨hfirst, hpadded⟩ := hsendable _ hmessage
  exact ⟨hmessage, hfirst, hpadded, hcount _ hmessage, _, hblock, rfl, by decide +kernel,
    (hblocks _ hblock).2⟩

end GuideCheck
