import GuideCheck.Analysis
import GuideCheck.Proofs.Feed
import Mathlib.Data.List.Forall2

set_option autoImplicit false

/-! # Two machines in step

Let the lines of two documents do the same, one by one: add text, separate messages, or give the
same command. Then the machine takes both documents through the same modes, declares the same tags,
and makes blocks that are alike in everything but their texts, since no directive lets the text of
a block out into its range, its attachment or its tag.

How the texts are related is left open. A relation on texts may depend on the lines they come from;
`Lockstep` asks that it holds of no text, survives one more line, and survives the effects of
directives. It then holds between the texts of blocks that correspond (`Lockstep.segment`). -/

namespace GuideCheck

/-- Whether two lines do the same. -/
inductive Line.Corresponds : Line → Line → Prop
  | text {line line' : Line} {text text' : String} (h : line.content? = some text)
      (h' : line'.content? = some text') : Corresponds line line'
  | separator : Corresponds .separator .separator
  | directive {body body' : String} (h : Command.parse body' = Command.parse body) :
      Corresponds (.directive body) (.directive body')

/-! ## Alike but for the text -/

/-- Whether two blocks are alike in everything but their texts. -/
structure Block.SameFrame (block block' : Block) : Prop where
  firstLine : block'.firstLine = block.firstLine
  lastLine : block'.lastLine = block.lastLine
  attachment : block'.attachment = block.attachment
  tag : block'.tag = block.tag

/-- Whether two messages have the same range, attachment and tag. -/
structure Message.SameFrame (m m' : Message) : Prop where
  firstLine : m'.firstLine = m.firstLine
  lastLine : m'.lastLine = m.lastLine
  attachment : m'.attachment = m.attachment
  tag : m'.tag = m.tag

theorem Block.SameFrame.ofBlock {block block' : Block} (h : block.SameFrame block') :
    (Message.ofBlock block).SameFrame (Message.ofBlock block') where
  firstLine := h.firstLine
  lastLine := by simp only [Message.ofBlock, h.firstLine, h.lastLine]
  attachment := h.attachment
  tag := h.tag

/-- The text of a block after it was read as a payload. -/
def Payload.textAfter (text : String) : Payload → String
  | plain => text
  | refused | malformed _ => ""
  | parsed value => if value.content = "" then "" else "\n" ++ value.content

theorem Payload.text_settle (block : Block) (payload : Payload) :
    (payload.settle block).text = payload.textAfter block.text := by
  cases payload <;> rfl

namespace Effect

/-- The text of a block after an effect. -/
def textAfter (text : String) : Effect → String
  | read param => (Payload.read param text).textAfter text
  | _ => text

theorem text_onBlock_eq (block : Block) (tags : Tags) (effect : Effect) :
    (effect.onBlock block tags).text = effect.textAfter block.text := by
  cases effect with
  | nothing => rfl
  | attach => rfl
  | declare name =>
    rw [onBlock, Block.declare_eq]
    rfl
  | read param => exact Payload.text_settle block _

/-- The text of a block does not get into the rest of it. -/
theorem sameFrame_onBlock {block block' : Block} (h : block.SameFrame block') (tags : Tags)
    (effect : Effect) : (effect.onBlock block tags).SameFrame (effect.onBlock block' tags) := by
  cases effect with
  | nothing => exact h
  | attach => exact { h with attachment := rfl }
  | declare name =>
    rw [onBlock, onBlock, Block.declare_eq, Block.declare_eq]
    exact { h with tag := by simp only [h.tag] }
  | read param =>
    have hsettle (block : Block) (payload : Payload) : block.SameFrame (payload.settle block) := by
      cases payload <;> exact ⟨rfl, rfl, rfl, rfl⟩
    have hread := hsettle block (Payload.read param block.text)
    have hread' := hsettle block' (Payload.read param block'.text)
    exact ⟨by rw [onBlock, onBlock, hread'.firstLine, h.firstLine, hread.firstLine],
      by rw [onBlock, onBlock, hread'.lastLine, h.lastLine, hread.lastLine],
      by rw [onBlock, onBlock, hread'.attachment, h.attachment, hread.attachment],
      by rw [onBlock, onBlock, hread'.tag, h.tag, hread.tag]⟩

end Effect

/-! ## Relations on texts -/

/-- A relation on the texts of the lines from a first one up to a next one, exclusive: `Q` relates
    the lines of a number, and `R` the texts made of them. -/
structure Lockstep (Q : Nat → String → String → Prop) (R : Nat → Nat → String → String → Prop) :
    Prop where
  corresponds : ∀ {number : Nat} {line line' : String}, Q number line line' →
    (Line.classify line).Corresponds (Line.classify line')
  empty : ∀ first, R first first "" ""
  append : ∀ {first number : Nat} {line line' text text' a b : String}, Q number line line' →
    (Line.classify line).content? = some text → (Line.classify line').content? = some text' →
    R first number a b → R first (number + 1) (a ++ "\n" ++ text) (b ++ "\n" ++ text')
  settle : ∀ {first next : Nat} {a b : String} (effect : Effect), R first next a b →
    R first next (effect.textAfter a) (effect.textAfter b)

variable {Q : Nat → String → String → Prop} {R : Nat → Nat → String → String → Prop}

/-- Whether two closed blocks are alike and have related texts. -/
structure Block.Matches (R : Nat → Nat → String → String → Prop) (block block' : Block) : Prop where
  frame : block.SameFrame block'
  text : ∃ last, block.lastLine = some last ∧
    R block.firstLine (last + 1) block.text block'.text

namespace Segmentation

/-- Whether two machines are in step before the line of a number. -/
inductive InStep (R : Nat → Nat → String → String → Prop) (number : Nat) : State → State → Prop
  | content {block block' : Block} {tags : Tags} (frame : block.SameFrame block')
      (lastLine : block.lastLine = none) (blank : block'.text = "" ↔ block.text = "")
      (text : R block.firstLine number block.text block'.text) :
      InStep R number ⟨.content, block, tags⟩ ⟨.content, block', tags⟩
  | directive {block block' : Block} {tags : Tags} (blocks : block.Matches R block') :
      InStep R number ⟨.directive, block, tags⟩ ⟨.directive, block', tags⟩

/-- The same of the machines after a step or a run, and of the blocks closed in it. -/
def StaysInStep (R : Nat → Nat → String → String → Prop) (number : Nat)
    (a b : State × Output) : Prop :=
  InStep R number a.1 b.1 ∧ List.Forall₂ (Block.Matches R) a.2.blocks b.2.blocks

namespace InStep

variable {number : Nat} {s t : State} {rules rules' : Ruleset} {doc doc' : Document}

theorem tags (h : InStep R number s t) : t.tags = s.tags := by
  cases h <;> rfl

/-- The machines on a new block. -/
theorem startBlock (hrel : Lockstep Q R) (tags : Tags) :
    InStep R number ⟨.content, .startingAt number, tags⟩ ⟨.content, .startingAt number, tags⟩ :=
  .content ⟨rfl, rfl, rfl, rfl⟩ rfl Iff.rfl (hrel.empty number)

/-- A line of text on an open block. -/
theorem appendLine (hrel : Lockstep Q R) {line line' text text' : String} {block block' : Block}
    {tags : Tags} (hline : Q number line line') (htext : (Line.classify line).content? = some text)
    (htext' : (Line.classify line').content? = some text')
    (h : InStep R number ⟨.content, block, tags⟩ ⟨.content, block', tags⟩) :
    InStep R (number + 1) ⟨.content, block.appendLine text, tags⟩
      ⟨.content, block'.appendLine text', tags⟩ := by
  cases h with
  | content frame lastLine blank htexts =>
    refine .content ⟨frame.firstLine, frame.lastLine, frame.attachment, frame.tag⟩ lastLine ?_
      (hrel.append hline htext htext' htexts)
    simp [Block.appendLine]

theorem addContent (hrel : Lockstep Q R) {line line' text text' : String}
    (h : InStep R number s t) (hline : Q number line line')
    (htext : (Line.classify line).content? = some text)
    (htext' : (Line.classify line').content? = some text') :
    StaysInStep R (number + 1) (s.addContent number text) (t.addContent number text') := by
  cases h with
  | content frame lastLine blank htexts =>
    exact ⟨appendLine hrel hline htext htext' (.content frame lastLine blank htexts), .nil⟩
  | directive blocks =>
    exact ⟨appendLine hrel hline htext htext' (startBlock hrel _), .cons blocks .nil⟩

/-- The open blocks, closed before a line. -/
theorem closeAt (h : InStep R number s t) (hpos : 1 ≤ number) :
    (s.block.closeAt (number - 1)).Matches R (t.block.closeAt (number - 1)) := by
  cases h with
  | content frame lastLine blank text =>
    refine ⟨⟨frame.firstLine, ?_, frame.attachment, frame.tag⟩, number - 1, ?_, ?_⟩
    · simp only [Block.closeAt, frame.lastLine]
    · simp only [Block.closeAt, lastLine, Option.getD_none]
    · rw [Nat.sub_add_cancel hpos]
      exact text
  | directive blocks =>
    obtain ⟨last, hlast, htext⟩ := blocks.text
    refine ⟨⟨blocks.frame.firstLine, ?_, blocks.frame.attachment, blocks.frame.tag⟩, last, ?_,
      htext⟩
    · simp only [Block.closeAt, blocks.frame.lastLine]
    · simp only [Block.closeAt, hlast, Option.getD_some]

theorem separate (hrel : Lockstep Q R) (h : InStep R number s t) (hpos : 1 ≤ number) :
    StaysInStep R (number + 1) (s.separate number) (t.separate number) := by
  have hclosed := h.closeAt hpos
  have hnext : InStep R (number + 1) (s.startBlock (number + 1)) (t.startBlock (number + 1)) := by
    rw [State.startBlock, State.startBlock, h.tags]
    exact startBlock hrel s.tags
  have hblank : (t.mode = .content ∧ t.block.isBlank = true) ↔
      (s.mode = .content ∧ s.block.isBlank = true) := by
    cases h with
    | content frame lastLine blank text =>
      simp [Block.isBlank, blank, frame.attachment, frame.tag]
    | directive blocks => simp
  unfold State.separate
  simp only [hblank]
  split
  · exact ⟨hnext, .nil⟩
  · exact ⟨hnext, .cons hclosed .nil⟩

/-- The open blocks as directives find them. -/
theorem closedBlock (h : InStep R number s t) (hpos : 1 ≤ number) :
    (s.closedBlock number).Matches R (t.closedBlock number) := by
  cases h with
  | content frame lastLine blank text =>
    refine ⟨⟨frame.firstLine, rfl, frame.attachment, frame.tag⟩, number - 1, rfl, ?_⟩
    rw [Nat.sub_add_cancel hpos]
    exact text
  | directive blocks => exact blocks

theorem direct (hrel : Lockstep Q R) {body body' : String} (h : InStep R number s t)
    (hpos : 1 ≤ number) (hbody : Command.parse body' = Command.parse body) :
    StaysInStep R (number + 1) (s.direct rules doc number body)
      (t.direct rules' doc' number body') := by
  have heffect : Effect.ofBody body' = Effect.ofBody body := by
    rw [Effect.ofBody, Effect.ofBody, hbody]
  obtain ⟨hframe, last, hlast, htext⟩ := h.closedBlock hpos
  refine ⟨?_, .nil⟩
  rw [State.direct_fst, State.direct_fst, heffect, h.tags]
  refine .directive ⟨Effect.sameFrame_onBlock hframe s.tags _, last, ?_, ?_⟩
  · rw [Effect.lastLine_onBlock, hlast]
  · rw [Effect.firstLine_onBlock, Effect.text_onBlock_eq, Effect.text_onBlock_eq]
    exact hrel.settle _ htext

/-- Lines that correspond keep machines in step. -/
theorem step (hrel : Lockstep Q R) {line line' : String} (h : InStep R number s t)
    (hpos : 1 ≤ number) (hline : Q number line line') :
    StaysInStep R (number + 1) (s.step rules doc number line)
      (t.step rules' doc' number line') := by
  have hlines := hrel.corresponds hline
  generalize hkind : Line.classify line = kind at hlines
  generalize hkind' : Line.classify line' = kind' at hlines
  cases hlines with
  | text htext htext' =>
    rw [← hkind] at htext
    rw [← hkind'] at htext'
    rw [State.step_of_text htext, State.step_of_text htext']
    exact h.addContent hrel hline htext htext'
  | separator =>
    rw [State.step_of_separator hkind, State.step_of_separator hkind']
    exact h.separate hrel hpos
  | directive hbody =>
    rw [State.step_of_directive hkind, State.step_of_directive hkind']
    exact h.direct hrel hpos hbody

/-- Hence so do runs over such lines. -/
theorem feed (hrel : Lockstep Q R) (h : InStep R number s t) (hpos : 1 ≤ number)
    {lines lines' : List String} (hlength : lines'.length = lines.length)
    (hlines : ∀ i line line', lines[i]? = some line → lines'[i]? = some line' →
      Q (number + i) line line') :
    StaysInStep R (number + lines.length) (s.feed rules doc number lines)
      (t.feed rules' doc' number lines') := by
  induction lines generalizing s t number lines' with
  | nil =>
    rw [List.length_eq_zero_iff.1 hlength]
    exact ⟨h, .nil⟩
  | cons line rest ih =>
    cases lines' with
    | nil => simp at hlength
    | cons line' rest' =>
      obtain ⟨hnext, hblocks⟩ : StaysInStep R (number + 1) (s.step rules doc number line)
          (t.step rules' doc' number line') := h.step hrel hpos (hlines 0 line line' rfl rfl)
      have hrest := ih hnext (Nat.le_succ_of_le hpos) (Nat.succ.inj hlength)
        fun i a b ha hb => by
          rw [Nat.add_assoc, Nat.add_comm 1 i]
          exact hlines (i + 1) a b ha hb
      rw [State.feed_cons, State.feed_cons, List.length_cons, Nat.add_comm rest.length 1,
        ← Nat.add_assoc]
      exact ⟨hrest.1, List.rel_append hblocks hrest.2⟩

end InStep

end Segmentation

/-- The blocks of two documents whose lines correspond. -/
theorem Lockstep.segment (hrel : Lockstep Q R) (rules rules' : Ruleset) {doc doc' : Document}
    (hlength : doc'.lines.length = doc.lines.length)
    (hlines : ∀ i line line', doc.lines[i]? = some line → doc'.lines[i]? = some line' →
      Q (1 + i) line line') :
    List.Forall₂ (Block.Matches R) (Segmentation.segment rules doc).blocks
        (Segmentation.segment rules' doc').blocks ∧
      (Segmentation.segment rules' doc').tags = (Segmentation.segment rules doc).tags := by
  have hinitial : Segmentation.InStep R 1 Segmentation.State.initial Segmentation.State.initial :=
    .startBlock hrel {}
  obtain ⟨hlast, hblocks⟩ : Segmentation.StaysInStep R (1 + doc.lines.length)
      (Segmentation.State.initial.feed rules doc 1 doc.lines)
      (Segmentation.State.initial.feed rules' doc' 1 doc'.lines) :=
    hinitial.feed hrel (Nat.le_refl 1) hlength hlines
  have hend := hlast.closeAt (Nat.le_add_right 1 _)
  rw [Nat.add_sub_cancel_left] at hend
  refine ⟨List.rel_append hblocks (.cons ?_ .nil), hlast.tags⟩
  rw [hlength]
  exact hend

end GuideCheck
