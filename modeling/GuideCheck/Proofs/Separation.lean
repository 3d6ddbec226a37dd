import GuideCheck.Analysis
import GuideCheck.Proofs.Grouping
import Mathlib.Data.List.Forall2

set_option autoImplicit false

/-! # Separators are boundaries between messages

After a separator the machine works on as if a document began there. `Mirrors` relates a machine in
the second part of a document to one that starts with this part: numbers are moved by the lines
before, and the tags declared before come on top. Every line preserves this, whatever it is
(`Mirrors.step`), because directives look at the text of their block, and the tags declared before
only matter to a block that declares one of them again.

`analyze_separated` puts two texts together with a separator between them. The first must not end in
a separator itself: that would open a block of its own at the end of the text, which the separator
of the whole text drops. -/

namespace GuideCheck

/-- The message so many lines further down. -/
def Message.shift (m : Message) (k : Nat) : Message :=
  { m with firstLine := m.firstLine + k, lastLine := m.lastLine + k }

/-- The message without its tag. -/
def Message.untagged (m : Message) : Message := { m with tag := none }

/-- Whether a block is another one, so many lines further down; tags need to be the same only if
    `sameTag` holds. -/
structure Block.IsShift (k : Nat) (sameTag : Prop) (block moved : Block) : Prop where
  firstLine : moved.firstLine = block.firstLine + k
  lastLine : moved.lastLine = block.lastLine.map (· + k)
  text : moved.text = block.text
  attachment : moved.attachment = block.attachment
  rewritten : moved.rewritten = block.rewritten
  tag : sameTag → moved.tag = block.tag

namespace Block.IsShift

variable {k : Nat} {sameTag : Prop} {block moved : Block}

/-- Less may be asked of tags. -/
theorem mono {fewer : Prop} (h : block.IsShift k sameTag moved) (himp : fewer → sameTag) :
    block.IsShift k fewer moved :=
  { h with tag := fun hfewer => h.tag (himp hfewer) }

theorem startingAt (k : Nat) (sameTag : Prop) (line : Nat) :
    IsShift k sameTag (.startingAt line) (.startingAt (line + k)) :=
  ⟨rfl, rfl, rfl, rfl, rfl, fun _ => rfl⟩

theorem appendLine (h : block.IsShift k sameTag moved) (text : String) :
    (block.appendLine text).IsShift k sameTag (moved.appendLine text) :=
  ⟨h.firstLine, h.lastLine, by simp only [Block.appendLine, h.text], h.attachment, h.rewritten,
    h.tag⟩

theorem closeAt (h : block.IsShift k sameTag moved) (line : Nat) :
    (block.closeAt line).IsShift k sameTag (moved.closeAt (line + k)) := by
  refine ⟨h.firstLine, ?_, h.text, h.attachment, h.rewritten, h.tag⟩
  simp only [Block.closeAt, h.lastLine]
  cases block.lastLine <;> rfl

theorem isBlank (h : block.IsShift k sameTag moved) (hsame : sameTag) :
    moved.isBlank = block.isBlank := by
  simp only [Block.isBlank, h.text, h.attachment, h.tag hsame]

/-- A shifted payload block is settled the same way, by its text. -/
theorem settle (h : block.IsShift k sameTag moved) (payload : Payload) :
    (payload.settle block).IsShift k sameTag (payload.settle moved) := by
  cases payload with
  | plain => exact h
  | refused => exact ⟨h.firstLine, h.lastLine, rfl, h.attachment, rfl, h.tag⟩
  | malformed error => exact ⟨h.firstLine, h.lastLine, rfl, h.attachment, rfl, h.tag⟩
  | parsed value => exact ⟨h.firstLine, h.lastLine, rfl, h.attachment, rfl, h.tag⟩

/-- An effect does the same to a shifted block, if the tag that it declares is declared for both or
    for neither. -/
theorem onBlock (h : block.IsShift k sameTag moved) {tags tags' : Tags} (effect : Effect)
    (htags : sameTag → ∀ name, effect = .declare name → tags'.contains name = tags.contains name) :
    (effect.onBlock block tags).IsShift k sameTag (effect.onBlock moved tags') := by
  cases effect with
  | nothing => exact h
  | attach => exact ⟨h.firstLine, h.lastLine, h.text, rfl, h.rewritten, h.tag⟩
  | read param =>
    simp only [Effect.onBlock, h.text]
    exact h.settle _
  | declare name =>
    rw [Effect.onBlock, Effect.onBlock, Block.declare_eq, Block.declare_eq]
    refine ⟨h.firstLine, h.lastLine, h.text, h.attachment, h.rewritten, fun hsame => ?_⟩
    simp only [htags hsame name rfl, h.tag hsame]

/-- The messages of shifted blocks that are closed. -/
theorem untagged_ofBlock (h : block.IsShift k sameTag moved) :
    (Message.ofBlock moved).untagged = ((Message.ofBlock block).shift k).untagged := by
  have hbody : moved.body = block.body := by simp only [Block.body, h.text]
  simp only [Message.ofBlock, Message.untagged, Message.shift, hbody, h.firstLine, h.lastLine,
    h.attachment]
  cases block.lastLine <;> rfl

theorem ofBlock (h : block.IsShift k sameTag moved) (hsame : sameTag) :
    Message.ofBlock moved = (Message.ofBlock block).shift k := by
  have hmessage := h.untagged_ofBlock
  have htag : (Message.ofBlock moved).tag = ((Message.ofBlock block).shift k).tag := h.tag hsame
  simp only [Message.untagged, Message.mk.injEq, and_true] at hmessage
  obtain ⟨htext, hfirst, hlast, hattachment⟩ := hmessage
  cases hm : Message.ofBlock moved
  simp_all [Message.shift]

end Block.IsShift

namespace Segmentation

/-! ## Two machines on the same lines -/

/-- A machine `t` does what `s` does, so many lines further down and with tags declared before. In
    content mode the open block has no tag yet, so that tags are the same there anyway. -/
structure Mirrors (k : Nat) (before : Tags) (sameTag : Prop) (s t : State) : Prop where
  mode : t.mode = s.mode
  block : s.block.IsShift k (s.mode = .content ∨ sameTag) t.block
  tags : ∀ name, t.tags.contains name = (before.contains name || s.tags.contains name)

/-- The same of the machines after a step or a run, and of the blocks closed in it. -/
def Mirrored (k : Nat) (before : Tags) (sameTag : Prop) (a b : State × Output) : Prop :=
  Mirrors k before sameTag a.1 b.1 ∧
    List.Forall₂ (Block.IsShift k sameTag) a.2.blocks b.2.blocks

namespace Mirrors

variable {k number : Nat} {before : Tags} {sameTag : Prop} {s t : State}
  {rules rules' : Ruleset} {doc doc' : Document}

theorem addContent (h : Mirrors k before sameTag s t) (number : Nat) (text : String) :
    Mirrored k before sameTag (s.addContent number text) (t.addContent (number + k) text) := by
  unfold State.addContent
  rw [h.mode]
  cases hmode : s.mode with
  | content =>
    refine ⟨⟨rfl, ?_, h.tags⟩, .nil⟩
    exact (h.block.mono fun _ => Or.inl hmode).appendLine text
  | directive =>
    refine ⟨⟨rfl, ?_, h.tags⟩, .cons (h.block.mono Or.inr) .nil⟩
    exact (Block.IsShift.startingAt k _ number).appendLine text

theorem separate (h : Mirrors k before sameTag s t) (hpos : 1 ≤ number) :
    Mirrored k before sameTag (s.separate number) (t.separate (number + k)) := by
  have hnext : Mirrors k before sameTag (s.startBlock (number + 1))
      (t.startBlock (number + k + 1)) := by
    refine ⟨rfl, ?_, h.tags⟩
    rw [Nat.add_right_comm]
    exact .startingAt k _ _
  -- only in content mode it matters whether the block is blank, and there tags are the same
  have hblank : (t.mode = .content ∧ t.block.isBlank = true) ↔
      (s.mode = .content ∧ s.block.isBlank = true) := by
    rw [h.mode]
    exact and_congr_right fun hmode => by rw [h.block.isBlank (Or.inl hmode)]
  have hlast : number + k - 1 = number - 1 + k := by omega
  unfold State.separate
  simp only [hblank, hlast]
  split
  · exact ⟨hnext, .nil⟩
  · exact ⟨hnext, .cons ((h.block.closeAt _).mono Or.inr) .nil⟩

theorem closedBlock (h : Mirrors k before sameTag s t) (hpos : 1 ≤ number) :
    (s.closedBlock number).IsShift k sameTag (t.closedBlock (number + k)) := by
  have hblock := h.block.mono Or.inr
  have hlast : number + k - 1 = number - 1 + k := by omega
  unfold State.closedBlock
  rw [h.mode]
  cases s.mode with
  | content => exact { hblock with lastLine := by simp only [hlast, Option.map_some] }
  | directive => exact hblock

theorem direct (h : Mirrors k before sameTag s t) (hpos : 1 ≤ number) {body : String}
    (hfresh : sameTag → ∀ name, Effect.ofBody body = .declare name →
      before.contains name = false) :
    Mirrored k before sameTag (s.direct rules doc number body)
      (t.direct rules' doc' (number + k) body) := by
  refine ⟨?_, .nil⟩
  rw [State.direct_fst, State.direct_fst]
  refine ⟨rfl, ?_, fun name => ?_⟩
  · -- a tag that is fresh after the first part is taken in both runs or in none
    have htags : sameTag → ∀ name, Effect.ofBody body = .declare name →
        t.tags.contains name = s.tags.contains name := fun hsame name hdeclare => by
      rw [h.tags, hfresh hsame name hdeclare, Bool.false_or]
    have hblock := (h.closedBlock hpos).onBlock (Effect.ofBody body) htags
    exact hblock.mono fun hor => hor.resolve_left nofun
  · cases Effect.ofBody body with
    | declare tag => simp only [Effect.onTags, Tags.contains_insert, h.tags, Bool.or_assoc]
    | nothing => exact h.tags name
    | attach => exact h.tags name
    | read param => exact h.tags name

/-- Every line does the same to both machines. Tags stay the same as long as the line declares none
    of the tags declared before. -/
theorem step (h : Mirrors k before sameTag s t) (hpos : 1 ≤ number) {line : String}
    (hfresh : sameTag → ∀ name, (Line.classify line).declared? = some name →
      before.contains name = false) :
    Mirrored k before sameTag (s.step rules doc number line)
      (t.step rules' doc' (number + k) line) := by
  rcases (Line.classify line).kind_cases with ⟨text, hkind⟩ | hkind | ⟨body, hkind⟩
  · rw [State.step_of_text hkind, State.step_of_text hkind]
    exact h.addContent number text
  · rw [State.step_of_separator hkind, State.step_of_separator hkind]
    exact h.separate hpos
  · rw [State.step_of_directive hkind, State.step_of_directive hkind]
    refine h.direct hpos fun hsame name hdeclare => hfresh hsame name ?_
    rw [hkind, State.declared?_directive, hdeclare]

/-- A run over lines that declare none of the tags declared before. -/
theorem feed (h : Mirrors k before sameTag s t) (hpos : 1 ≤ number) (lines : List String)
    (hfresh : sameTag → ∀ name ∈ declaredTags lines, before.contains name = false) :
    Mirrored k before sameTag (s.feed rules doc number lines)
      (t.feed rules' doc' (number + k) lines) := by
  induction lines generalizing s t number with
  | nil => exact ⟨h, .nil⟩
  | cons line rest ih =>
    have hline : Mirrored k before sameTag (s.step rules doc number line)
        (t.step rules' doc' (number + k) line) :=
      h.step hpos fun hsame name hdeclare =>
        hfresh hsame name (mem_declaredTags_cons.2 (Or.inl hdeclare))
    have hrest := ih hline.1 (Nat.le_succ_of_le hpos) fun hsame name hname =>
      hfresh hsame name (mem_declaredTags_cons.2 (Or.inr hname))
    rw [Nat.succ_add] at hrest
    exact ⟨hrest.1, List.rel_append hline.2 hrest.2⟩

end Mirrors

/-- The machine that works on the second part of a document mirrors one at its beginning. -/
theorem Mirrors.initial (k : Nat) (sameTag : Prop) (s : State) :
    Mirrors k s.tags sameTag State.initial (s.startBlock (1 + k)) where
  mode := rfl
  block := .startingAt k _ 1
  tags := fun _ => (Bool.or_false _).symm

/-! ## Documents put together -/

/-- A separator after a document closes the block that the end of the document closes, unless the
    document ends in a separator: then the block is blank. -/
theorem Reached.step_dot {doc : Document} {s : State} {closed : List Block}
    (h : Reached doc (1 + doc.lineCount) s closed) (hpos : 1 ≤ doc.lineCount)
    (hend : ¬ doc.IsSeparator doc.lineCount) (rules : Ruleset) (search : Document) :
    s.step rules search (1 + doc.lineCount) "." =
      (s.startBlock (1 + (doc.lineCount + 1)), { blocks := [s.finish doc.lineCount] }) := by
  have hdot : Line.classify "." = .separator := by decide
  -- the document has a line, and its last one is no separator
  have hblank : ¬ (s.mode = .content ∧ s.block.isBlank) := by
    rcases h.opened.blank_or_begun with ⟨-, -, hone | hseparator⟩ | ⟨-, hblank, -⟩
    · omega
    · rw [Nat.add_sub_cancel_left] at hseparator
      exact absurd hseparator hend
    · exact hblank
  rw [State.step_of_separator hdot, State.separate, if_neg hblank, Nat.add_sub_cancel_left]
  rfl

/-- The blocks of two documents with a separator between them are those of the first and, further
    down, those of the second. -/
theorem exists_shifted_blocks (rules : Ruleset) {first second joined : Document}
    (hlines : joined.lines = first.lines ++ "." :: second.lines) (hpos : 1 ≤ first.lineCount)
    (hend : ¬ first.IsSeparator first.lineCount) {sameTag : Prop}
    (hfresh : sameTag → ∀ name ∈ declaredTags second.lines, name ∉ declaredTags first.lines) :
    ∃ moved, (segment rules joined).blocks = (segment rules first).blocks ++ moved ∧
      List.Forall₂ (Block.IsShift (first.lineCount + 1) sameTag) (segment rules second).blocks
        moved := by
  let k := first.lineCount + 1
  let s := (State.initial.feed rules first 1 first.lines).1
  let later := (s.startBlock (1 + k)).feed rules joined (1 + k) second.lines
  -- over the lines of the first document the machine does what it does on that document alone
  have hfirst : (State.initial.feed rules first 1 first.lines).1 =
      (State.initial.feed rules joined 1 first.lines).1 ∧ _ :=
    State.feed_congr rules joined first.lines
  have hdot : s.step rules joined (1 + first.lines.length) "." =
      (s.startBlock (1 + k), { blocks := [s.finish first.lineCount] }) :=
    (reached_feed rules first).step_dot hpos hend rules joined
  -- after the separator it mirrors the machine on the second document
  have hlater : Mirrored k s.tags sameTag (State.initial.feed rules second 1 second.lines)
      later := by
    refine (Mirrors.initial k sameTag s).feed (Nat.le_refl 1) second.lines
      fun hsame name hname => ?_
    have htags : s.tags.contains name =
        (State.initial.tags.contains name || decide (name ∈ declaredTags first.lines)) :=
      State.contains_tags_feed first.lines name
    rw [htags, decide_eq_false (hfresh hsame name hname)]
    rfl
  have hlength : joined.lines.length = second.lines.length + k := by
    simp only [hlines, List.length_append, List.length_cons, k, Document.lineCount]
    omega
  refine ⟨later.2.blocks ++ [later.1.finish joined.lines.length], ?_, ?_⟩
  · have hrun : State.initial.feed rules joined 1 joined.lines =
        (later.1, (State.initial.feed rules joined 1 first.lines).2 ++
          ({ blocks := [s.finish first.lineCount] } ++ later.2)) := by
      simp only [hlines, State.feed_append, State.feed_cons, ← hfirst.1, s, hdot]
      rfl
    simp only [segment, segmentLines, hrun, Output.blocks_append, ← hfirst.2, List.append_assoc]
    rfl
  · refine List.rel_append hlater.2 (.cons ?_ .nil)
    rw [hlength]
    exact (hlater.1.block.closeAt _).mono Or.inr

end Segmentation

/-! ## Texts put together -/

/-- The lines of two texts with a separator between them. -/
theorem Document.lines_separated (a b : String) :
    (ofText (a ++ "\n.\n" ++ b)).lines = (ofText a).lines ++ "." :: (ofText b).lines := by
  have htext : (a ++ "\n.\n" ++ b).toList = a.toList ++ '\n' :: ('.' :: '\n' :: b.toList) := by
    simp
  have hdot : Text.split '\n' ('.' :: '\n' :: b.toList) = ['.'] :: Text.split '\n' b.toList :=
    Text.split_append_separator '\n' ['.'] b.toList
  simp only [ofText, Text.lines, htext, Text.split_append_separator, hdot, List.map_append,
    List.map_cons]

/-! ## Messages -/

section

variable {k : Nat} {sameTag : Prop} {blocks moved : List Block}

theorem map_untagged_of_shift (h : List.Forall₂ (Block.IsShift k sameTag) blocks moved) :
    (moved.map Message.ofBlock).map Message.untagged =
      ((blocks.map Message.ofBlock).map (·.shift k)).map Message.untagged := by
  induction h with
  | nil => rfl
  | cons hblock _ ih => simp only [List.map_cons, hblock.untagged_ofBlock, ih]

theorem map_ofBlock_of_shift (h : List.Forall₂ (Block.IsShift k sameTag) blocks moved)
    (hsame : sameTag) :
    moved.map Message.ofBlock = (blocks.map Message.ofBlock).map (·.shift k) := by
  induction h with
  | nil => rfl
  | cons hblock _ ih => simp only [List.map_cons, hblock.ofBlock hsame, ih]

end

/-- **A separator is a boundary between messages.** The messages of two texts with a separator
    between them are those of the first and, moved below the separator, those of the second. Only
    tags can differ, and they do not if no tag is declared in both texts. -/
theorem analyze_separated (rules : Ruleset) (a b : String)
    (ha : ¬ (Document.ofText a).IsSeparator (Document.ofText a).lineCount) :
    let joined := (analyze rules (a ++ "\n.\n" ++ b)).messages
    let separate := (analyze rules a).messages ++
      (analyze rules b).messages.map (·.shift ((analyze rules a).lineCount + 1))
    joined.map Message.untagged = separate.map Message.untagged ∧
      ((∀ name ∈ declaredTags (Document.ofText b).lines,
          name ∉ declaredTags (Document.ofText a).lines) → joined = separate) := by
  obtain ⟨moved, hblocks, hmoved⟩ := Segmentation.exists_shifted_blocks rules
    (Document.lines_separated a b) (Document.one_le_lineCount_ofText a) ha id
  simp only [messages_analyze, lineCount_analyze, hblocks, List.map_append]
  refine ⟨?_, fun hfresh => ?_⟩
  · rw [map_untagged_of_shift hmoved]
  · rw [map_ofBlock_of_shift hmoved hfresh]

/-- Two texts with a tag each. -/
theorem analyze_separated_tags :
    ¬ (Document.ofText "Hello\n.tag:intro").IsSeparator
        (Document.ofText "Hello\n.tag:intro").lineCount ∧
      ((analyze ⟨fun _ => [], {}⟩ ("Hello\n.tag:intro" ++ "\n.\n" ++ ".tag:end")).messages.map
        fun m => (m.firstLine, m.tag)) = [(1, some "intro"), (4, some "end")] := by
  have hend : ¬ (Document.ofText "Hello\n.tag:intro").IsSeparator
      (Document.ofText "Hello\n.tag:intro").lineCount := by
    unfold Document.IsSeparator
    decide +kernel
  refine ⟨hend, ?_⟩
  rw [(analyze_separated ⟨fun _ => [], {}⟩ _ ".tag:end" hend).2 (by decide +kernel)]
  decide +kernel

end GuideCheck
