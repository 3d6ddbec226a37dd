import GuideCheck.Proofs.Lockstep
import GuideCheck.Proofs.Placement

set_option autoImplicit false

/-! # Messages are local to their own lines

The outline of a document is what its lines are, with the directives as they are written but not
the text between them. It settles how many messages there are, with which ranges, attachments and
tags; and what a message says depends on the text in its own range besides. Nothing of the text
elsewhere gets into it, though directives share the declared tags, search the whole document for
lines, and report to one place (`analyze_local`).

Two documents with one outline keep the machine in step. The relation on texts is that they are
equal if the lines they are made of are (`Document.lockstep_sameText`). -/

namespace GuideCheck

/-- The kinds of lines that make up the outline of a document. -/
inductive Line.Kind
  | text
  | separator
  | directive
deriving DecidableEq, Repr

/-- The kind of a line; a line with an escaped dot is one of text. -/
def Line.kind : Line → Line.Kind
  | content _ | escaped _ => .text
  | separator => .separator
  | directive _ => .directive

/-- Whether two lines are of one kind, and the same if they are directives. -/
structure Line.Alike (line line' : String) : Prop where
  kind : (classify line').kind = (classify line).kind
  directive : (classify line).kind = .directive → line' = line

theorem Line.Alike.corresponds {line line' : String} (h : Alike line line') :
    (classify line).Corresponds (classify line') := by
  obtain ⟨hkind, hdirective⟩ := h
  cases hline : classify line with
  | content text | escaped text =>
    rw [hline] at hkind
    cases hline' : classify line' with
    | content text' => exact .text rfl rfl
    | escaped text' => exact .text rfl rfl
    | separator => simp [hline', Line.kind] at hkind
    | directive body => simp [hline', Line.kind] at hkind
  | separator =>
    rw [hline] at hkind
    cases hline' : classify line' with
    | separator => exact .separator
    | content text | escaped text => simp [hline', Line.kind] at hkind
    | directive body => simp [hline', Line.kind] at hkind
  | directive body =>
    rw [hline] at hdirective
    rw [hdirective rfl, hline]
    exact .directive rfl

namespace Document

/-- Whether two documents have as many lines, and lines alike one by one. -/
def SameOutline (doc doc' : Document) : Prop := List.Forall₂ Line.Alike doc.lines doc'.lines

/-- The line of a number as it is written. Numbers begin at one. -/
def written? (doc : Document) : Nat → Option String
  | 0 => none
  | k + 1 => doc.lines[k]?

theorem line?_eq (doc : Document) (k : Nat) : doc.line? k = (doc.written? k).map Line.classify := by
  cases k <;> rfl

/-- Whether the lines of text in a range are written the same in both documents. -/
def SameText (doc doc' : Document) (first last : Nat) : Prop :=
  ∀ k, doc.IsText k → first ≤ k → k ≤ last → doc'.written? k = doc.written? k

/-- Texts are equal if the lines of text they are made of are. -/
theorem lockstep_sameText (doc doc' : Document) :
    Lockstep
      (fun number line line' => Line.Alike line line' ∧
        doc.written? number = some line ∧ doc'.written? number = some line')
      (fun first next a b => first ≤ next ∧ (SameText doc doc' first (next - 1) → b = a)) where
  corresponds := fun hline => hline.1.corresponds
  empty := fun first => ⟨Nat.le_refl first, fun _ => rfl⟩
  append := by
    rintro first number line line' text text' a b ⟨-, hline, hline'⟩ htext htext' ⟨hle, hequal⟩
    refine ⟨Nat.le_succ_of_le hle, fun hsame => ?_⟩
    -- the line that is added is in the range, and hence the same in both documents
    have hnumber : doc.IsText number := ⟨text, by simp [content?, line?_eq, hline, htext]⟩
    have hwritten : doc'.written? number = doc.written? number :=
      hsame number hnumber hle (Nat.le_refl number)
    rw [hline, hline', Option.some.injEq] at hwritten
    rw [hwritten, htext, Option.some.injEq] at htext'
    rw [htext', hequal fun k hk hfirst hlast => hsame k hk hfirst (by omega)]
  settle := by
    rintro first next a b effect ⟨hle, hequal⟩
    refine ⟨hle, fun hsame => ?_⟩
    rw [hequal hsame]

end Document

/-- **Messages are local to their own lines.** Let two texts have one outline. Then whatever the
    rules of each, they have as many messages, with the same ranges, attachments and tags, and a
    message whose lines of text are the same in both says the same. -/
theorem analyze_local (rules rules' : Ruleset) {text text' : String}
    (h : (Document.ofText text).SameOutline (Document.ofText text')) :
    List.Forall₂
      (fun m m' => m.SameFrame m' ∧
        ((Document.ofText text).SameText (Document.ofText text') m.firstLine m.lastLine →
          m'.text = m.text))
      (analyze rules text).messages (analyze rules' text').messages := by
  obtain ⟨hlength, halike⟩ := List.forall₂_iff_get.1 h
  have hlines : ∀ i line line', (Document.ofText text).lines[i]? = some line →
      (Document.ofText text').lines[i]? = some line' → Line.Alike line line' ∧
        (Document.ofText text).written? (1 + i) = some line ∧
        (Document.ofText text').written? (1 + i) = some line' := by
    intro i line line' hline hline'
    obtain ⟨hi, rfl⟩ := List.getElem?_eq_some_iff.1 hline
    obtain ⟨hi', rfl⟩ := List.getElem?_eq_some_iff.1 hline'
    rw [Nat.add_comm 1 i]
    exact ⟨halike i hi hi', hline, hline'⟩
  obtain ⟨hblocks, -⟩ := (Document.lockstep_sameText (Document.ofText text)
    (Document.ofText text')).segment rules rules' hlength.symm hlines
  rw [messages_analyze, messages_analyze, List.forall₂_map_left_iff, List.forall₂_map_right_iff]
  refine hblocks.imp fun block block' hmatch => ⟨hmatch.frame.ofBlock, fun hsame => ?_⟩
  obtain ⟨last, hlast, -, hequal⟩ := hmatch.text
  have hend : (Message.ofBlock block).lastLine = last := by
    simp only [Message.ofBlock, hlast, Option.getD_some]
  rw [hend] at hsame
  have htext : block'.text = block.text := hequal hsame
  simp only [Message.ofBlock, Block.body, htext]

/-- The first message differs; the second one, which is the content of a payload, does not. -/
theorem analyze_local_payload :
    (Document.ofText "one\n.tag:a\n\x7b\"content\": 2\x7d\n.embed:json").SameOutline
        (Document.ofText "..two\n.tag:a\n\x7b\"content\": 2\x7d\n.embed:json") ∧
      ∀ m m', (analyze ⟨fun _ => [], {}⟩
          "one\n.tag:a\n\x7b\"content\": 2\x7d\n.embed:json").messages[1]? = some m →
        (analyze ⟨fun _ => [], {}⟩
          "..two\n.tag:a\n\x7b\"content\": 2\x7d\n.embed:json").messages[1]? = some m' →
        m'.text = m.text := by
  have hlines : (Document.ofText "one\n.tag:a\n\x7b\"content\": 2\x7d\n.embed:json").lines =
      ["one", ".tag:a", "\x7b\"content\": 2\x7d", ".embed:json"] := by decide +kernel
  have hlines' : (Document.ofText "..two\n.tag:a\n\x7b\"content\": 2\x7d\n.embed:json").lines =
      ["..two", ".tag:a", "\x7b\"content\": 2\x7d", ".embed:json"] := by decide +kernel
  have houtline : (Document.ofText "one\n.tag:a\n\x7b\"content\": 2\x7d\n.embed:json").SameOutline
      (Document.ofText "..two\n.tag:a\n\x7b\"content\": 2\x7d\n.embed:json") := by
    rw [Document.SameOutline, hlines, hlines']
    refine .cons ⟨by decide +kernel, by decide +kernel⟩ (.cons ⟨rfl, fun _ => rfl⟩
      (.cons ⟨rfl, fun _ => rfl⟩ (.cons ⟨rfl, fun _ => rfl⟩ .nil)))
  refine ⟨houtline, fun m m' hm hm' => ?_⟩
  have hrange : ((analyze ⟨fun _ => [], {}⟩
      "one\n.tag:a\n\x7b\"content\": 2\x7d\n.embed:json").messages[1]?).map
        (fun m => (m.firstLine, m.lastLine)) = some (3, 3) := by decide +kernel
  obtain ⟨hi, rfl⟩ := List.getElem?_eq_some_iff.1 hm
  obtain ⟨hi', rfl⟩ := List.getElem?_eq_some_iff.1 hm'
  rw [hm, Option.map_some, Option.some.injEq, Prod.mk.injEq] at hrange
  have hlocal := analyze_local ⟨fun _ => [], {}⟩ ⟨fun _ => [], {}⟩ houtline
  refine ((List.forall₂_iff_get.1 hlocal).2 1 hi hi').2 fun k _ hfirst hlast => ?_
  simp only [List.get_eq_getElem, hrange] at hfirst hlast
  have hk : k = 3 := Nat.le_antisymm hlast hfirst
  rw [hk, Document.written?, Document.written?, hlines, hlines']
  rfl

end GuideCheck
