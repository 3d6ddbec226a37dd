import GuideCheck.Proofs.Feed
import GuideCheck.Proofs.Numbering
import Mathlib.Data.List.Pairwise

set_option autoImplicit false

/-! # Segmentation groups the lines of a document

The blocks of a document are described by its lines alone, without the machine: one block for each
run of lines of text, one without text for each run of directives that does not follow a line of
text, and one past the end if the last line is a separator (`Document.IsBlockRange`). `Groups` says
that blocks are exactly these, in order, and hold the text of their lines.

The machine keeps `Reached`: closed blocks are those that begin before the open one, the open block
is in one of three situations (`Opened`), and nothing begins between it and the next line. Each kind
of line preserves this, hence a run does, and at the end of the document the open block is the last
one of the grouping (`segment_groups`). -/

namespace GuideCheck

namespace Document

/-- The ranges of blocks, as the lines of a document settle them. A range whose last number is below
    its first one holds no line. -/
inductive IsBlockRange (doc : Document) : (first last : Nat) → Prop
  /-- a run of lines of text -/
  | text {first last : Nat} (run : IsRun doc.IsText first last) : doc.IsBlockRange first last
  /-- a run of directives that no line of text precedes -/
  | directives {first last : Nat} (run : IsRun doc.IsDirective first last)
      (before : ¬ doc.IsText (first - 1)) : doc.IsBlockRange first (first - 1)
  /-- what a separator at the end of the document opens -/
  | ending (separator : doc.IsSeparator doc.lineCount) :
      doc.IsBlockRange (doc.lineCount + 1) doc.lineCount

variable {doc : Document} {first last : Nat}

namespace IsBlockRange

/-- A directive that follows neither text nor a directive begins a block. -/
theorem of_directive (h : doc.IsDirective first) (before : ¬ doc.IsDirective (first - 1))
    (notText : ¬ doc.IsText (first - 1)) : doc.IsBlockRange first (first - 1) := by
  obtain ⟨last, run⟩ := IsRun.exists_of_first (fun k hk => (bounds_of_isDirective hk).2) h before
  exact .directives run notText

/-- Lines of text up to a number that is none make a block. -/
theorem of_text {number : Nat} (lt : first < number)
    (all : ∀ k, first ≤ k → k < number → doc.IsText k) (before : ¬ doc.IsText (first - 1))
    (after : ¬ doc.IsText number) : doc.IsBlockRange first (number - 1) := by
  refine .text ⟨by omega, fun k hk hk' => all k hk (by omega), before, ?_⟩
  rwa [Nat.sub_add_cancel (by omega)]

/-- What stands at the first number of a block. -/
theorem first_cases (h : doc.IsBlockRange first last) :
    (doc.IsText first ∧ ¬ doc.IsText (first - 1)) ∨
      (doc.IsDirective first ∧ ¬ doc.IsDirective (first - 1) ∧ ¬ doc.IsText (first - 1)) ∨
      (first = doc.lineCount + 1 ∧ doc.IsSeparator doc.lineCount) := by
  cases h with
  | text run => exact Or.inl ⟨run.first_mem, run.before⟩
  | directives run before => exact Or.inr (Or.inl ⟨run.first_mem, run.before, before⟩)
  | ending separator => exact Or.inr (Or.inr ⟨rfl, separator⟩)

theorem first_pos (h : doc.IsBlockRange first last) : 1 ≤ first := by
  rcases h.first_cases with ⟨htext, -⟩ | ⟨hdirective, -⟩ | ⟨rfl, -⟩
  · exact (bounds_of_isText htext).1
  · exact (bounds_of_isDirective hdirective).1
  · omega

theorem first_le (h : doc.IsBlockRange first last) : first ≤ doc.lineCount + 1 := by
  rcases h.first_cases with ⟨htext, -⟩ | ⟨hdirective, -⟩ | ⟨rfl, -⟩
  · exact Nat.le_succ_of_le (bounds_of_isText htext).2
  · exact Nat.le_succ_of_le (bounds_of_isDirective hdirective).2
  · exact Nat.le_refl _

/-- A block past the last line is the one that a separator opens there. -/
theorem isSeparator_of_first (h : doc.IsBlockRange (doc.lineCount + 1) last) :
    doc.IsSeparator doc.lineCount := by
  rcases h.first_cases with ⟨htext, -⟩ | ⟨hdirective, -⟩ | ⟨-, hseparator⟩
  · exact absurd (bounds_of_isText htext).2 (by omega)
  · exact absurd (bounds_of_isDirective hdirective).2 (by omega)
  · exact hseparator

/-- A block has at most one range for its first number. -/
theorem last_unique {last' : Nat} (h : doc.IsBlockRange first last)
    (h' : doc.IsBlockRange first last') : last = last' := by
  cases h with
  | text run =>
    cases h' with
    | text run' => exact run.last_unique run'
    | directives run' => exact absurd run.first_mem (not_isText_of_isDirective run'.first_mem)
    | ending => have := (bounds_of_isText run.first_mem).2; omega
  | directives run =>
    cases h' with
    | text run' => exact absurd run'.first_mem (not_isText_of_isDirective run.first_mem)
    | directives run' => rfl
    | ending => have := (bounds_of_isDirective run.first_mem).2; omega
  | ending =>
    cases h' with
    | text run' => have := (bounds_of_isText run'.first_mem).2; omega
    | directives run' => have := (bounds_of_isDirective run'.first_mem).2; omega
    | ending => rfl

/-- The numbers in a block are lines of text. -/
theorem isText (h : doc.IsBlockRange first last) {k : Nat} (hfirst : first ≤ k) (hlast : k ≤ last) :
    doc.IsText k := by
  cases h with
  | text run => exact run.all k hfirst hlast
  | directives run => have := (bounds_of_isDirective run.first_mem).1; omega
  | ending => omega

end IsBlockRange

/-- Every line of text stands in a block. -/
theorem exists_blockRange_of_isText {k : Nat} (h : doc.IsText k) :
    ∃ first last, doc.IsBlockRange first last ∧ first ≤ k ∧ k ≤ last := by
  induction k with
  | zero => exact absurd (bounds_of_isText h).1 (by omega)
  | succ k ih =>
    by_cases hk : doc.IsText k
    · obtain ⟨first, last, range, hfirst, hlast⟩ := ih hk
      -- the run that holds the line before goes on
      cases range with
      | text run =>
        refine ⟨first, last, .text run, by omega, ?_⟩
        by_contra hlt
        exact run.after (by rwa [show last + 1 = k + 1 by omega])
      | directives run => have := (bounds_of_isDirective run.first_mem).1; omega
      | ending => omega
    · obtain ⟨last, run⟩ := IsRun.exists_of_first (fun j hj => (bounds_of_isText hj).2) h hk
      exact ⟨k + 1, last, .text run, Nat.le_refl _, run.nonempty⟩

end Document

/-- Whether the range of a block holds a number. -/
def Block.Covers (block : Block) (k : Nat) : Prop :=
  block.firstLine ≤ k ∧ ∃ last, block.lastLine = some last ∧ k ≤ last

/-- A block with the text of the lines of its range: line by line if it was not rewritten, and none
    if the range holds no line. -/
structure Block.HoldsText (doc : Document) (block : Block) (last : Nat) : Prop where
  text_eq : block.rewritten = false → block.text = doc.textOf block.firstLine last
  text_empty : last < block.firstLine → block.text = ""

/-- What it means that blocks are the grouping of the lines of a document. -/
structure Groups (doc : Document) (blocks : List Block) : Prop where
  /-- every block is closed, on a range of the document -/
  range : ∀ block ∈ blocks, ∃ last, block.lastLine = some last ∧
    doc.IsBlockRange block.firstLine last
  /-- every range of the document has its block -/
  complete : ∀ first last, doc.IsBlockRange first last →
    ∃ block ∈ blocks, block.firstLine = first ∧ block.lastLine = some last
  /-- first numbers increase, and a block ends before the next one begins -/
  ordered : blocks.Pairwise fun block next => block.firstLine < next.firstLine ∧
    ∀ last, block.lastLine = some last → last < next.firstLine
  /-- every line of text stands in one block -/
  covered : ∀ k, doc.IsText k → ∃! block, block ∈ blocks ∧ block.Covers k
  /-- nothing else stands in a block -/
  isText : ∀ block ∈ blocks, ∀ k, block.Covers k → doc.IsText k
  /-- blocks hold the text of their lines -/
  text : ∀ block ∈ blocks, ∀ last, block.lastLine = some last → block.HoldsText doc last

/-- Blocks in order share no number. -/
theorem existsUnique_covers {doc : Document} {blocks : List Block}
    (complete : ∀ first last, doc.IsBlockRange first last →
      ∃ block ∈ blocks, block.firstLine = first ∧ block.lastLine = some last)
    (ordered : blocks.Pairwise fun block next => block.firstLine < next.firstLine ∧
      ∀ last, block.lastLine = some last → last < next.firstLine)
    {k : Nat} (h : doc.IsText k) : ∃! block, block ∈ blocks ∧ block.Covers k := by
  obtain ⟨first, last, range, hfirst, hlast⟩ := Document.exists_blockRange_of_isText h
  obtain ⟨block, hblock, rfl, hbl⟩ := complete first last range
  have hapart : blocks.Pairwise fun b c => ¬ (b.Covers k ∧ c.Covers k) := by
    refine ordered.imp ?_
    rintro b c ⟨-, hlt⟩ ⟨⟨-, l, hl, hkl⟩, hkc, -⟩
    have := hlt l hl
    omega
  have : Std.Symm fun b c : Block => ¬ (b.Covers k ∧ c.Covers k) :=
    ⟨fun b c hnot hcovers => hnot hcovers.symm⟩
  refine ⟨block, ⟨hblock, hfirst, last, hbl, hlast⟩, ?_⟩
  rintro other ⟨hother, hcovers⟩
  by_contra hne
  exact hapart.forall hother hblock hne ⟨hcovers, hfirst, last, hbl, hlast⟩

/-! ## Where blocks begin -/

namespace Document

variable {doc : Document} {number last : Nat}

theorem not_blockRange_of_isSeparator (h : doc.IsSeparator number) :
    ¬ doc.IsBlockRange number last := by
  intro range
  rcases range.first_cases with ⟨htext, -⟩ | ⟨hdirective, -⟩ | ⟨rfl, -⟩
  · exact not_isText_of_isSeparator h htext
  · exact not_isDirective_of_isSeparator h hdirective
  · have := (bounds_of_line? h).2
    omega

/-- A line of text after a line of text begins no block. -/
theorem not_blockRange_of_isText (h : doc.IsText number) (before : doc.IsText (number - 1)) :
    ¬ doc.IsBlockRange number last := by
  intro range
  rcases range.first_cases with ⟨-, hbefore⟩ | ⟨hdirective, -⟩ | ⟨rfl, -⟩
  · exact hbefore before
  · exact not_isText_of_isDirective hdirective h
  · have := (bounds_of_isText h).2
    omega

/-- A directive after a line of text or a directive begins no block. -/
theorem not_blockRange_of_isDirective (h : doc.IsDirective number)
    (before : doc.IsText (number - 1) ∨ doc.IsDirective (number - 1)) :
    ¬ doc.IsBlockRange number last := by
  intro range
  rcases range.first_cases with ⟨htext, -⟩ | ⟨-, hdirective, htext⟩ | ⟨rfl, -⟩
  · exact not_isText_of_isDirective h htext
  · exact before.elim htext hdirective
  · have := (bounds_of_isDirective h).2
    omega

end Document

theorem Block.HoldsText.of_text_eq {doc : Document} {block : Block} {last : Nat}
    (h : block.text = doc.textOf block.firstLine last) : block.HoldsText doc last :=
  ⟨fun _ => h, fun hlast => h.trans (Document.textOf_eq_empty hlast)⟩

/-- An effect leaves a block with the text of its lines. -/
theorem Block.HoldsText.onBlock {doc : Document} {block : Block} {last : Nat}
    (h : block.HoldsText doc last) (tags : Tags) (effect : Effect) :
    (effect.onBlock block tags).HoldsText doc last := by
  refine ⟨fun hrewritten => ?_, fun hlast => ?_⟩
  · obtain ⟨htext, hbefore⟩ := Effect.text_onBlock hrewritten
    rw [htext, Effect.firstLine_onBlock]
    exact h.text_eq hbefore
  · rw [Effect.firstLine_onBlock] at hlast
    exact Effect.text_onBlock_eq_empty tags effect (h.text_empty hlast)

namespace Segmentation

open Document

/-! ## What the machine keeps -/

/-- The situations of the open block before the line of a number. -/
inductive Opened (doc : Document) (number : Nat) : State → Prop
  /-- nothing since the beginning of the document or the last separator -/
  | blank {tags : Tags} (after : number = 1 ∨ doc.IsSeparator (number - 1)) :
      Opened doc number ⟨.content, .startingAt number, tags⟩
  /-- lines of text up to here -/
  | text {first : Nat} {tags : Tags} (lt : first < number)
      (all : ∀ k, first ≤ k → k < number → doc.IsText k) (before : ¬ doc.IsText (first - 1)) :
      Opened doc number
        ⟨.content, { Block.startingAt first with text := doc.textOf first (number - 1) }, tags⟩
  /-- directives up to here, on a block with a known range -/
  | closed {block : Block} {tags : Tags} {last : Nat} (lastLine_eq : block.lastLine = some last)
      (range : doc.IsBlockRange block.firstLine last) (lt : block.firstLine < number)
      (last_lt : last < number) (directive : doc.IsDirective (number - 1))
      (text : block.HoldsText doc last) : Opened doc number ⟨.directive, block, tags⟩

/-- What holds of the machine and the blocks closed so far before the line of a number. -/
structure Reached (doc : Document) (number : Nat) (s : State) (closed : List Block) : Prop where
  opened : Opened doc number s
  /-- closed blocks have ranges of the document and end before the open block -/
  range : ∀ block ∈ closed, ∃ last, block.lastLine = some last ∧
    doc.IsBlockRange block.firstLine last ∧ block.HoldsText doc last ∧
    block.firstLine < s.block.firstLine ∧ last < s.block.firstLine
  /-- every range that begins before the open block is that of a closed one -/
  complete : ∀ first last, doc.IsBlockRange first last → first < s.block.firstLine →
    ∃ block ∈ closed, block.firstLine = first ∧ block.lastLine = some last
  ordered : closed.Pairwise fun block next => block.firstLine < next.firstLine ∧
    ∀ last, block.lastLine = some last → last < next.firstLine
  /-- nothing begins between the open block and the next line -/
  quiet : ∀ k last, s.block.firstLine < k → k < number → ¬ doc.IsBlockRange k last

namespace Reached

variable {doc : Document} {number : Nat} {s next : State} {closed : List Block}

theorem initial (doc : Document) : Reached doc 1 State.initial [] where
  opened := .blank (Or.inl rfl)
  range := by simp
  complete := by
    intro first last range hlt
    have hfirst : first < 1 := hlt
    have := range.first_pos
    omega
  ordered := List.Pairwise.nil
  quiet := by
    intro k last hlt hk
    have hone : 1 < k := hlt
    omega

/-- The open block stays open over the line of a number. -/
theorem keep (h : Reached doc number s closed) (hfirst : next.block.firstLine = s.block.firstLine)
    (hopened : Opened doc (number + 1) next)
    (hquiet : s.block.firstLine < number → ∀ last, ¬ doc.IsBlockRange number last) :
    Reached doc (number + 1) next closed where
  opened := hopened
  range := by rw [hfirst]; exact h.range
  complete := by rw [hfirst]; exact h.complete
  ordered := h.ordered
  quiet := by
    intro k last hlt hk
    rw [hfirst] at hlt
    rcases Nat.lt_or_eq_of_le (Nat.lt_succ_iff.1 hk) with hk | rfl
    · exact h.quiet k last hlt hk
    · exact hquiet hlt last

/-- A separator skips a block in which nothing was put. -/
theorem skip (h : Reached doc number s closed) (hfirst : s.block.firstLine = number)
    (hnext : next.block.firstLine = number + 1) (hopened : Opened doc (number + 1) next)
    (hquiet : ∀ last, ¬ doc.IsBlockRange number last) : Reached doc (number + 1) next closed where
  opened := hopened
  range := by
    intro block hblock
    obtain ⟨last, hlast, hrange, htext, hf, hl⟩ := h.range block hblock
    exact ⟨last, hlast, hrange, htext, by omega, by omega⟩
  complete := by
    intro first last range hlt
    rcases Nat.lt_or_eq_of_le (Nat.lt_succ_iff.1 (hnext ▸ hlt)) with hlt | rfl
    · exact h.complete first last range (by omega)
    · exact absurd range (hquiet last)
  ordered := h.ordered
  quiet := by
    intro k last hlt hk
    omega

/-- The open block is left by the line of a number, and no block begins before the next one. -/
theorem leave (h : Reached doc number s closed) {block : Block} {last : Nat}
    (hopened : Opened doc (number + 1) next)
    (hfirst : block.firstLine = s.block.firstLine) (hlast : block.lastLine = some last)
    (hrange : doc.IsBlockRange block.firstLine last) (htext : block.HoldsText doc last)
    (hlt : block.firstLine < number) (hlast_lt : last < number)
    (hnext : number ≤ next.block.firstLine)
    (hquiet : number < next.block.firstLine → ∀ last, ¬ doc.IsBlockRange number last)
    (hle : next.block.firstLine ≤ number + 1) :
    Reached doc (number + 1) next (closed ++ [block]) where
  opened := hopened
  range := by
    intro b hb
    rcases List.mem_append.1 hb with hb | hb
    · obtain ⟨l, hl, hr, ht, hf, hll⟩ := h.range b hb
      exact ⟨l, hl, hr, ht, by omega, by omega⟩
    · rw [List.mem_singleton.1 hb]
      exact ⟨last, hlast, hrange, htext, by omega, by omega⟩
  complete := by
    intro first l range hbefore
    rcases Nat.lt_trichotomy first s.block.firstLine with hf | rfl | hf
    · obtain ⟨b, hb, hbfirst⟩ := h.complete first l range hf
      exact ⟨b, List.mem_append_left _ hb, hbfirst⟩
    · refine ⟨block, by simp, hfirst, ?_⟩
      rw [hlast, hrange.last_unique (hfirst ▸ range)]
    · -- nothing begins between the block that is left and the next one
      exfalso
      rcases Nat.lt_trichotomy first number with hn | rfl | hn
      · exact h.quiet first l hf hn range
      · exact hquiet hbefore l range
      · omega
  ordered := by
    refine List.pairwise_append.2 ⟨h.ordered, List.pairwise_singleton _ _, ?_⟩
    intro b hb c hc
    rw [List.mem_singleton.1 hc, hfirst]
    obtain ⟨l, hl, -, -, hf, hll⟩ := h.range b hb
    refine ⟨hf, fun l' hl' => ?_⟩
    rw [hl, Option.some.injEq] at hl'
    omega
  quiet := by
    intro k l hk hk'
    omega

end Reached

/-! ### One line -/

namespace Opened

variable {doc : Document} {number : Nat}

/-- A line of text that continues a block. -/
theorem appendLine {first : Nat} {text : String} (hle : first ≤ number)
    (all : ∀ k, first ≤ k → k < number → doc.IsText k) (before : ¬ doc.IsText (first - 1))
    (htext : doc.content? number = some text) (tags : Tags) :
    Opened doc (number + 1) ⟨.content, { Block.startingAt first with
      text := doc.textOf first (number - 1) ++ "\n" ++ text }, tags⟩ := by
  rw [← textOf_eq_append hle htext]
  refine .text (by omega) (fun k hk hk' => ?_) before
  rcases Nat.lt_or_eq_of_le (Nat.lt_succ_iff.1 hk') with hk' | rfl
  · exact all k hk hk'
  · exact ⟨text, htext⟩

/-- A line of text that begins a block. -/
theorem first_text {text : String} (before : ¬ doc.IsText (number - 1))
    (htext : doc.content? number = some text) (tags : Tags) :
    Opened doc (number + 1) ⟨.content, (Block.startingAt number).appendLine text, tags⟩ := by
  have hopened := appendLine (Nat.le_refl number) (fun k hk hk' => absurd hk' (by omega)) before
    htext tags
  have hpos := (bounds_of_isText ⟨text, htext⟩).1
  rw [textOf_eq_empty (by omega)] at hopened
  exact hopened

theorem not_isText_of_after (after : number = 1 ∨ doc.IsSeparator (number - 1)) :
    ¬ doc.IsText (number - 1) := by
  rcases after with rfl | hseparator
  · exact fun hzero => absurd (bounds_of_isText hzero).1 (by omega)
  · exact not_isText_of_isSeparator hseparator

theorem not_isDirective_of_after (after : number = 1 ∨ doc.IsSeparator (number - 1)) :
    ¬ doc.IsDirective (number - 1) := by
  rcases after with rfl | hseparator
  · exact fun hzero => absurd (bounds_of_isDirective hzero).1 (by omega)
  · exact not_isDirective_of_isSeparator hseparator

/-- Either nothing was put into the open block, or it begins before the line of text or the
    directive that was last. -/
theorem blank_or_begun {s : State} (h : Opened doc number s) :
    (s.block.firstLine = number ∧ (s.mode = .content ∧ s.block.isBlank) ∧
      (number = 1 ∨ doc.IsSeparator (number - 1))) ∨
    (s.block.firstLine < number ∧ ¬ (s.mode = .content ∧ s.block.isBlank) ∧
      (doc.IsText (number - 1) ∨ doc.IsDirective (number - 1))) := by
  cases h with
  | blank after => exact Or.inl ⟨rfl, ⟨rfl, rfl⟩, after⟩
  | text lt all before =>
    have hlast := all (number - 1) (by omega) (by omega)
    have hne := textOf_ne_empty (Nat.le_sub_one_of_lt lt) hlast
    exact Or.inr ⟨lt, by simp [Block.isBlank, hne], Or.inl hlast⟩
  | closed lastLine_eq range lt last_lt directive text =>
    exact Or.inr ⟨lt, by simp, Or.inr directive⟩

/-- The range of the open block when it is closed before a line that is no line of text. -/
theorem range_closeAt {s : State} (h : Opened doc number s) (hnext : ¬ doc.IsText number)
    (hblank : s.block.firstLine = number → doc.IsBlockRange number (number - 1)) :
    ∃ last, (s.block.closeAt (number - 1)).lastLine = some last ∧ last < number ∧
      doc.IsBlockRange s.block.firstLine last ∧
      (s.block.closeAt (number - 1)).HoldsText doc last := by
  cases h with
  | blank after =>
    have hrange := hblank rfl
    have hlast : number - 1 < number := by have := hrange.first_pos; omega
    exact ⟨number - 1, rfl, hlast, hrange, .of_text_eq (textOf_eq_empty hlast).symm⟩
  | text lt all before =>
    exact ⟨number - 1, rfl, by omega, .of_text lt all before hnext, .of_text_eq rfl⟩
  | @closed block tags last lastLine_eq range lt last_lt directive text =>
    refine ⟨last, ?_, last_lt, range, ⟨text.text_eq, text.text_empty⟩⟩
    simp only [Block.closeAt, lastLine_eq, Option.getD_some]

/-- The block that a directive acts on is the open block, closed before the directive. -/
theorem closedBlock_eq {s : State} (h : Opened doc number s) :
    s.closedBlock number = s.block.closeAt (number - 1) := by
  cases h with
  | blank after => rfl
  | text lt all before => rfl
  | closed lastLine_eq =>
    simp only [State.closedBlock, Block.closeAt, lastLine_eq, Option.getD_some]
    rw [← lastLine_eq]

end Opened

namespace Reached

variable {doc : Document} {number : Nat} {s : State} {closed : List Block}

/-- A line of text joins the open block, unless directives ended that. -/
theorem addContent (h : Reached doc number s closed) {text : String}
    (htext : doc.content? number = some text) :
    Reached doc (number + 1) (s.addContent number text).1
      (closed ++ (s.addContent number text).2.blocks) := by
  have hline : doc.IsText number := ⟨text, htext⟩
  cases h.opened with
  | @blank tags after =>
    have hopened := Opened.first_text (Opened.not_isText_of_after after) htext tags
    simp only [State.addContent, List.append_nil]
    exact h.keep rfl hopened fun hlt => absurd hlt (Nat.lt_irrefl _)
  | @text first tags lt all before =>
    have hopened := Opened.appendLine (Nat.le_of_lt lt) all before htext tags
    simp only [State.addContent, List.append_nil]
    exact h.keep rfl hopened fun _ _ =>
      not_blockRange_of_isText hline (all (number - 1) (by omega) (by omega))
  | @closed block tags last lastLine_eq range lt last_lt directive text' =>
    have hopened := Opened.first_text (not_isText_of_isDirective directive) htext tags
    simp only [State.addContent]
    exact h.leave hopened rfl lastLine_eq range text' lt last_lt (Nat.le_refl _)
      (fun hlt => absurd hlt (Nat.lt_irrefl _)) (Nat.le_succ _)

/-- A separator leaves the open block, unless that is blank. -/
theorem separate (h : Reached doc number s closed) (hline : doc.IsSeparator number) :
    Reached doc (number + 1) (s.separate number).1
      (closed ++ (s.separate number).2.blocks) := by
  have hopened : Opened doc (number + 1) (s.startBlock (number + 1)) := .blank (Or.inr hline)
  have hquiet : ∀ last, ¬ doc.IsBlockRange number last :=
    fun last => not_blockRange_of_isSeparator hline
  rcases h.opened.blank_or_begun with ⟨hfirst, hblank, -⟩ | ⟨hlt, hblank, -⟩
  · rw [State.separate, if_pos hblank, List.append_nil]
    exact h.skip hfirst rfl hopened hquiet
  · obtain ⟨last, hlast, hlast_lt, hrange, htext⟩ :=
      h.opened.range_closeAt (not_isText_of_isSeparator hline) fun hfirst => by omega
    rw [State.separate, if_neg hblank]
    exact h.leave hopened rfl hlast hrange htext hlt hlast_lt (Nat.le_succ _) (fun _ => hquiet)
      (Nat.le_refl _)

/-- The block that a directive acts on has a range of the document before the directive. -/
theorem range_closedBlock (h : Reached doc number s closed) (hline : doc.IsDirective number) :
    ∃ last, (s.closedBlock number).lastLine = some last ∧ last < number ∧
      doc.IsBlockRange s.block.firstLine last ∧ (s.closedBlock number).HoldsText doc last := by
  rw [h.opened.closedBlock_eq]
  refine h.opened.range_closeAt (not_isText_of_isDirective hline) fun hfirst => ?_
  rcases h.opened.blank_or_begun with ⟨-, -, after⟩ | ⟨hlt, -⟩
  · exact .of_directive hline (Opened.not_isDirective_of_after after)
      (Opened.not_isText_of_after after)
  · omega

/-- A directive acts on the open block and fixes its range. -/
theorem direct (h : Reached doc number s closed) {rules : Ruleset} {search : Document}
    {body : String} (hline : doc.IsDirective number) :
    Reached doc (number + 1) (s.direct rules search number body).1 closed := by
  have hle : s.block.firstLine ≤ number := by
    rcases h.opened.blank_or_begun with ⟨hfirst, -⟩ | ⟨hlt, -⟩ <;> omega
  obtain ⟨last, hlast, hlast_lt, hrange, htext⟩ := h.range_closedBlock hline
  rw [h.opened.closedBlock_eq] at hlast htext
  rw [State.direct_fst, h.opened.closedBlock_eq]
  refine h.keep (Effect.firstLine_onBlock ..) (.closed ?_ ?_ ?_ ?_ hline (htext.onBlock ..)) ?_
  · rw [Effect.lastLine_onBlock, hlast]
  · rwa [Effect.firstLine_onBlock]
  · rw [Effect.firstLine_onBlock]
    exact Nat.lt_succ_of_le hle
  · omega
  · -- the block is open since an earlier line, so what stands before is text or a directive
    intro hlt last
    rcases h.opened.blank_or_begun with ⟨hfirst, -⟩ | ⟨-, -, hbefore⟩
    · omega
    · exact not_blockRange_of_isDirective hline hbefore

/-- Feeding the line of a number. -/
theorem step (h : Reached doc number s closed) {rules : Ruleset} {search : Document}
    {line : String} (hline : doc.line? number = some (Line.classify line)) :
    Reached doc (number + 1) (s.step rules search number line).1
      (closed ++ (s.step rules search number line).2.blocks) := by
  rcases (Line.classify line).kind_cases with ⟨text, hkind⟩ | hkind | ⟨body, hkind⟩
  · rw [State.step_of_text hkind]
    exact h.addContent (by rw [content?, hline]; exact hkind)
  · rw [State.step_of_separator hkind]
    exact h.separate (hline.trans (congrArg some hkind))
  · rw [State.step_of_directive hkind, State.blocks_direct, List.append_nil]
    exact h.direct ⟨body, hline.trans (congrArg some hkind)⟩

end Reached

/-! ## Whole documents -/

/-- The machine after all lines of a document. -/
theorem reached_feed (rules : Ruleset) (doc : Document) :
    Reached doc (1 + doc.lineCount) (State.initial.feed rules doc 1 doc.lines).1
      (State.initial.feed rules doc 1 doc.lines).2.blocks := by
  have hnext : ∀ (i : Nat) (line : String) (s : State) (out : Output), doc.lines[i]? = some line →
      Reached doc (1 + i) s out.blocks →
      Reached doc (1 + i + 1) (s.step rules doc (1 + i) line).1
        (out ++ (s.step rules doc (1 + i) line).2).blocks := by
    intro i line s out hline h
    exact h.step (Document.line?_of_getElem? hline)
  exact State.feed_induction (fun number s out => Reached doc number s out.blocks) doc.lines
    (Reached.initial doc) hnext

namespace Reached

variable {doc : Document} {s : State} {closed : List Block}

/-- No block begins after the one that is open at the end. -/
theorem not_blockRange_of_lt (h : Reached doc (doc.lineCount + 1) s closed) {first last : Nat}
    (hlt : s.block.firstLine < first) : ¬ doc.IsBlockRange first last := by
  intro range
  rcases Nat.lt_or_eq_of_le range.first_le with hbefore | rfl
  · exact h.quiet first last hlt hbefore range
  · have hseparator := range.isSeparator_of_first
    rcases h.opened.blank_or_begun with ⟨hfirst, -⟩ | ⟨-, -, htext | hdirective⟩
    · omega
    · exact not_isText_of_isSeparator hseparator htext
    · exact not_isDirective_of_isSeparator hseparator hdirective

/-- The open block at the end has a range of the document and holds the text of its lines. -/
theorem range_finish (h : Reached doc (doc.lineCount + 1) s closed) (hpos : 1 ≤ doc.lineCount) :
    ∃ last, (s.finish doc.lineCount).lastLine = some last ∧
      doc.IsBlockRange (s.finish doc.lineCount).firstLine last ∧
      (s.finish doc.lineCount).HoldsText doc last := by
  have hend : ¬ doc.IsText (doc.lineCount + 1) :=
    fun htext => absurd (bounds_of_isText htext).2 (by omega)
  obtain ⟨last, hlast, -, hrange, htext⟩ := h.opened.range_closeAt hend fun hfirst => by
    rcases h.opened.blank_or_begun with ⟨-, -, hone | hseparator⟩ | ⟨hlt, -⟩
    · omega
    · exact .ending hseparator
    · omega
  exact ⟨last, hlast, hrange, htext⟩

/-- The closed blocks and the one that is open at the end are the grouping. -/
theorem groups (h : Reached doc (doc.lineCount + 1) s closed) (hpos : 1 ≤ doc.lineCount) :
    Groups doc (closed ++ [s.finish doc.lineCount]) := by
  obtain ⟨last, hlast, hrange, htext⟩ := h.range_finish hpos
  have hall : ∀ block ∈ closed ++ [s.finish doc.lineCount], ∃ last, block.lastLine = some last ∧
      doc.IsBlockRange block.firstLine last ∧ block.HoldsText doc last := by
    intro block hblock
    rcases List.mem_append.1 hblock with hblock | hblock
    · obtain ⟨l, hl, hr, ht, -⟩ := h.range block hblock
      exact ⟨l, hl, hr, ht⟩
    · rw [List.mem_singleton.1 hblock]
      exact ⟨last, hlast, hrange, htext⟩
  have hcomplete : ∀ first last, doc.IsBlockRange first last →
      ∃ block ∈ closed ++ [s.finish doc.lineCount],
        block.firstLine = first ∧ block.lastLine = some last := by
    intro first l range
    rcases Nat.lt_trichotomy first s.block.firstLine with hlt | rfl | hlt
    · obtain ⟨block, hblock, heq⟩ := h.complete first l range hlt
      exact ⟨block, List.mem_append_left _ hblock, heq⟩
    · exact ⟨s.finish doc.lineCount, by simp, rfl, by rw [hlast, hrange.last_unique range]⟩
    · exact absurd range (h.not_blockRange_of_lt hlt)
  have hordered : (closed ++ [s.finish doc.lineCount]).Pairwise fun block next =>
      block.firstLine < next.firstLine ∧
        ∀ last, block.lastLine = some last → last < next.firstLine := by
    refine List.pairwise_append.2 ⟨h.ordered, List.pairwise_singleton _ _, ?_⟩
    intro block hblock next hnext
    rw [List.mem_singleton.1 hnext]
    obtain ⟨l, hl, -, -, hf, hll⟩ := h.range block hblock
    refine ⟨hf, fun l' hl' => ?_⟩
    rw [hl, Option.some.injEq] at hl'
    exact hl' ▸ hll
  refine ⟨fun block hblock => ?_, hcomplete, hordered,
    fun k htext => existsUnique_covers hcomplete hordered htext, ?_, ?_⟩
  · obtain ⟨l, hl, hr, -⟩ := hall block hblock
    exact ⟨l, hl, hr⟩
  · rintro block hblock k ⟨hfirst, l', hl', hk⟩
    obtain ⟨l, hl, hr, -⟩ := hall block hblock
    rw [hl, Option.some.injEq] at hl'
    exact hr.isText hfirst (hl' ▸ hk)
  · intro block hblock l' hl'
    obtain ⟨l, hl, -, ht⟩ := hall block hblock
    rw [hl, Option.some.injEq] at hl'
    exact hl' ▸ ht

end Reached

/-- The blocks of a document with a line are the grouping of its lines. -/
theorem groups_segment (rules : Ruleset) {doc : Document} (hpos : 1 ≤ doc.lineCount) :
    Groups doc (segment rules doc).blocks := by
  have hreached := reached_feed rules doc
  rw [Nat.add_comm 1] at hreached
  exact hreached.groups hpos

/-- **Segmentation groups the lines of a document.** Whatever the rules and the directives are, the
    blocks of a document are those of its runs of lines of text, of its runs of directives after no
    text, and of a separator at its end, in order and each with its text. -/
theorem segment_groups (rules : Ruleset) (text : String) :
    Groups (Document.ofText text) (segment rules (Document.ofText text)).blocks :=
  groups_segment rules (Document.one_le_lineCount_ofText text)

example :
    (segment ⟨fun _ => [], {}⟩ (Document.ofText ".pin:\nHello\nworld\n.tag:a\n.\n.")).blocks.map
      (fun block => (block.firstLine, block.lastLine)) = [(1, some 0), (2, some 3), (7, some 6)] := by
  decide +kernel

end Segmentation

end GuideCheck
