import GuideCheck.Proofs.Numbering
import GuideCheck.Proofs.Reports

set_option autoImplicit false

/-! # Directives about different things commute

Directives fall into groups by what they are about: an attachment, a tag, a payload, or nothing that
lasts. Each group has its own part of the block, or the tags, to go by and to change. So an effect
leaves what another group goes by as it was (`Effect.seesSame_onBlock`), and the effects of two
groups come to the same in either order (`Effect.onBlock_comm`).

Two neighbouring directives of such groups may therefore be swapped. The state after them, the
closed blocks and the markers are the same, and the problems are the same up to their order
(`Segmentation.rearranges_swap`); this goes on over the rest of the document, which is searched for
lines but does not settle what problems there are. -/

namespace GuideCheck

/-! ## Groups of directives -/

/-- What a directive is about. -/
inductive Group
  | attach
  | tag
  | payload
  /-- nothing that lasts: pins, reactions, unknown names, and texts that are no command -/
  | inert
deriving DecidableEq, Repr

namespace Group

/-- The group of the commands with a name. -/
def ofName : String → Group
  | "img" | "file" => attach
  | "tag" => tag
  | "embed" | "componentsV2" => payload
  | _ => inert

/-- The group of the text of a directive. -/
def ofBody (body : String) : Group :=
  match Command.parse body with
  | .ok command => ofName command.name
  | .error _ => inert

/-- Whether directives of two groups have nothing to do with each other. -/
def Independent (a b : Group) : Prop := a ≠ b ∨ a = inert ∨ b = inert

instance (a b : Group) : Decidable (a.Independent b) :=
  inferInstanceAs (Decidable (a ≠ b ∨ a = inert ∨ b = inert))

theorem Independent.symm {a b : Group} (h : a.Independent b) : b.Independent a := by
  rcases h with hne | hinert
  · exact Or.inl hne.symm
  · exact Or.inr hinert.symm

/-- The group of a directive, unknown ones included. -/
def ofDirective? : Option Directive → Group
  | some .attach => attach
  | some .tag => tag
  | some (.payload _) => payload
  | _ => inert

theorem ofDirective?_ofName? (name : String) :
    ofDirective? (Directive.ofName? name) = ofName name := by
  unfold Directive.ofName?
  split
  · rfl
  · rfl
  · rfl
  · rfl
  · rfl
  · rfl
  · rfl
  · -- none of the known names, so none of those that have a group of their own
    unfold ofName
    split <;> simp_all [ofDirective?]

end Group

theorem Payload.settle_eq (block : Block) (payload : Payload) :
    payload.settle block = { block with
      text := (payload.settle block).text, rewritten := (payload.settle block).rewritten } := by
  cases payload <;> rfl

namespace Effect

/-- The group of the directives with an effect. -/
def group : Effect → Group
  | nothing => .inert
  | attach => .attach
  | declare _ => .tag
  | read _ => .payload

theorem group_ofBody (body : String) : (ofBody body).group = Group.ofBody body := by
  unfold ofBody Group.ofBody
  cases Command.parse body with
  | error fault => rfl
  | ok command =>
    simp only [← Group.ofDirective?_ofName?]
    rcases Directive.ofName? command.name with _ | (_ | _ | _ | _ | _) <;> rfl

/-! ## Effects of different groups -/

variable {a b : Effect}

/-- An effect leaves alone what an effect of another group goes by. -/
theorem seesSame_onBlock (h : a.group.Independent b.group) (block : Block) (tags : Tags) :
    a.SeesSame block tags (b.onBlock block tags) (b.onTags tags) := by
  cases a with
  | nothing => exact trivial
  | attach =>
    cases b with
    | nothing => rfl
    | attach => exact absurd h (by decide)
    | declare name => rw [SeesSame, onBlock, Block.declare_eq]
    | read param => rw [SeesSame, onBlock, Payload.settle_eq]
  | declare name =>
    cases b with
    | nothing => exact ⟨rfl, rfl⟩
    | attach => exact ⟨rfl, rfl⟩
    | declare other => exact absurd h (by simp only [group]; decide)
    | read param =>
      refine ⟨?_, rfl⟩
      rw [onBlock, Payload.settle_eq]
  | read param =>
    cases b with
    | nothing => exact ⟨rfl, rfl, rfl⟩
    | attach => exact ⟨rfl, rfl, rfl⟩
    | declare name =>
      rw [SeesSame, onBlock, Block.declare_eq]
      exact ⟨rfl, rfl, rfl⟩
    | read other => exact absurd h (by simp only [group]; decide)

/-- At most one of two effects of different groups declares a tag. -/
theorem onTags_comm (h : a.group.Independent b.group) (tags : Tags) :
    b.onTags (a.onTags tags) = a.onTags (b.onTags tags) := by
  cases a with
  | declare name =>
    cases b with
    | declare other => exact absurd h (by simp only [group]; decide)
    | nothing | attach | read => rfl
  | nothing | attach | read => rfl

/-- At most one of two effects of different groups leaves a marker. -/
theorem marker?_eq_none_or (h : a.group.Independent b.group) (block block' : Block) :
    a.marker? block = none ∨ b.marker? block' = none := by
  cases a with
  | read param =>
    cases b with
    | read other => exact absurd h (by simp only [group]; decide)
    | nothing | attach | declare => exact Or.inr rfl
  | nothing | attach | declare => exact Or.inl rfl

/-- Effects of different groups come to the same in either order. -/
theorem onBlock_comm (h : a.group.Independent b.group) (block : Block) (tags : Tags) :
    b.onBlock (a.onBlock block tags) (a.onTags tags) =
      a.onBlock (b.onBlock block tags) (b.onTags tags) := by
  cases a with
  | nothing => rfl
  | attach =>
    cases b with
    | nothing => rfl
    | attach => rfl
    | declare name =>
      simp only [onBlock, onTags, Block.declare_eq]
    | read param =>
      simp only [onBlock]
      cases Payload.read param block.text <;> rfl
  | declare name =>
    cases b with
    | nothing => rfl
    | attach =>
      simp only [onBlock, onTags, Block.declare_eq]
    | declare other => exact absurd h (by simp only [group]; decide)
    | read param =>
      simp only [onBlock, onTags, Block.declare_eq]
      cases Payload.read param block.text <;> rfl
  | read param =>
    cases b with
    | nothing => rfl
    | attach =>
      simp only [onBlock]
      cases Payload.read param block.text <;> rfl
    | declare name =>
      simp only [onBlock, onTags, Block.declare_eq]
      cases Payload.read param block.text <;> rfl
    | read other => exact absurd h (by simp only [group]; decide)

end Effect

/-! ## Swapping directives -/

namespace Segmentation

/-- Whether a run ends in the state of another one, with the same blocks and markers as output, and
    with the same problems in any order. -/
structure Rearranges (run other : State × Output) : Prop where
  state : other.1 = run.1
  blocks : other.2.blocks = run.2.blocks
  markers : other.2.findings.markers = run.2.findings.markers
  problems : other.2.findings.problems.Perm run.2.findings.problems

namespace Rearranges

variable {rules : Ruleset} {doc doc' : Document} {s : State} {number : Nat}

/-- The same lines in another document. -/
theorem feed (lines : List String) :
    Rearranges (s.feed rules doc number lines) (s.feed rules doc' number lines) where
  state := (State.feed_congr rules doc lines).1
  blocks := (State.feed_congr rules doc lines).2
  markers := State.markers_feed_congr rules doc lines
  problems := List.Perm.of_eq (State.problems_feed_congr doc lines)

theorem append {lines lines' more more' : List String} (hlength : lines'.length = lines.length)
    (h : Rearranges (s.feed rules doc number lines) (s.feed rules doc' number lines'))
    (hmore : ∀ t : State, Rearranges (t.feed rules doc (number + lines.length) more)
      (t.feed rules doc' (number + lines.length) more')) :
    Rearranges (s.feed rules doc number (lines ++ more))
      (s.feed rules doc' number (lines' ++ more')) := by
  have hlater := hmore (s.feed rules doc number lines).1
  simp only [State.feed_append, hlength, h.state]
  refine ⟨hlater.state, ?_, ?_, ?_⟩
  · simp only [Output.blocks_append, h.blocks, hlater.blocks]
  · simp only [Output.findings_append, Findings.markers_append, h.markers, hlater.markers]
  · simp only [Output.findings_append, Findings.problems_append]
    exact h.problems.append hlater.problems

end Rearranges

/-- What two directives one after the other do, by their effects. -/
theorem State.feed_pair {rules : Ruleset} {doc : Document} {number : Nat}
    {a b first second : String} (s : State)
    (ha : Line.classify a = .directive first) (hb : Line.classify b = .directive second) :
    let block := s.closedBlock number
    let block' := (Effect.ofBody first).onBlock block s.tags
    let tags' := (Effect.ofBody first).onTags s.tags
    s.feed rules doc number [a, b] =
      (⟨.directive, (Effect.ofBody second).onBlock block' tags',
          (Effect.ofBody second).onTags tags'⟩,
        { findings := (Command.runText rules doc number first block s.tags).findings ++
            (Command.runText rules doc (number + 1) second block' tags').findings }) := by
  simp only [feed_cons, feed_nil, Output.append_empty, step_of_directive ha, step_of_directive hb]
  rw [direct_fst, direct_fst]
  simp only [direct, Command.runText_block, Command.runText_tags]
  rfl

/-- Two directives of different groups may be swapped. -/
theorem rearranges_swap {rules : Ruleset} {doc doc' : Document} {number : Nat}
    {a b first second : String} (s : State)
    (ha : Line.classify a = .directive first) (hb : Line.classify b = .directive second)
    (h : (Group.ofBody first).Independent (Group.ofBody second)) :
    Rearranges (s.feed rules doc number [a, b]) (s.feed rules doc' number [b, a]) := by
  rw [← Effect.group_ofBody, ← Effect.group_ofBody] at h
  rw [State.feed_pair s ha hb, State.feed_pair s hb ha]
  -- each directive finds the same after the other one as before it
  have hfirst := Effect.seesSame_onBlock h (s.closedBlock number) s.tags
  have hsecond := Effect.seesSame_onBlock h.symm (s.closedBlock number) s.tags
  refine ⟨?_, rfl, ?_, ?_⟩
  · rw [Effect.onBlock_comm h, Effect.onTags_comm h]
  · simp only [Findings.markers_append, Command.runText_markers, ← Effect.marker?_congr hfirst,
      ← Effect.marker?_congr hsecond]
    rcases Effect.marker?_eq_none_or h (s.closedBlock number) (s.closedBlock number)
      with hnone | hnone
    · rw [hnone, Option.toList_none, List.nil_append, List.append_nil]
    · rw [hnone, Option.toList_none, List.nil_append, List.append_nil]
  · simp only [Findings.problems_append]
    rw [← Command.problems_runText_congr rules doc doc' number (number + 1) hfirst,
      ← Command.problems_runText_congr rules doc' doc number (number + 1) hsecond]
    exact List.perm_append_comm

/-- The same of two directives among other lines. -/
theorem rearranges_swap_among (rules : Ruleset) (doc doc' : Document) (before after : List String)
    {a b first second : String}
    (ha : Line.classify a = .directive first) (hb : Line.classify b = .directive second)
    (h : (Group.ofBody first).Independent (Group.ofBody second)) :
    Rearranges (State.initial.feed rules doc 1 (before ++ a :: b :: after))
      (State.initial.feed rules doc' 1 (before ++ b :: a :: after)) := by
  refine Rearranges.append rfl (.feed before) fun s => ?_
  show Rearranges (s.feed rules doc (1 + before.length) ([a, b] ++ after))
    (s.feed rules doc' (1 + before.length) ([b, a] ++ after))
  exact Rearranges.append rfl (rearranges_swap s ha hb h) fun t => .feed after

theorem segment_of_rearranges {rules : Ruleset} {doc doc' : Document}
    (hlength : doc'.lines.length = doc.lines.length)
    (h : Rearranges (State.initial.feed rules doc 1 doc.lines)
      (State.initial.feed rules doc' 1 doc'.lines)) :
    (segment rules doc').blocks = (segment rules doc).blocks ∧
      (segment rules doc').tags = (segment rules doc).tags ∧
      (segment rules doc').findings.markers = (segment rules doc).findings.markers ∧
      (segment rules doc').findings.problems.Perm (segment rules doc).findings.problems := by
  refine ⟨?_, ?_, h.markers, h.problems⟩
  · simp only [segment, segmentLines, h.blocks, h.state, hlength]
  · simp only [segment, segmentLines, h.state]

end Segmentation

/-! ## Documents with neighbouring lines swapped -/

/-- The text with the line of a number and the next line swapped. -/
def swapLines (text : String) (k : Nat) : String :=
  let lines := (Document.ofText text).lines
  match lines.drop (k - 1) with
  | a :: b :: after => Document.text ⟨lines.take (k - 1) ++ b :: a :: after⟩
  | _ => text

theorem exists_lines_swapLines {text : String} {k : Nat} {a b : Line}
    (ha : (Document.ofText text).line? k = some a)
    (hb : (Document.ofText text).line? (k + 1) = some b) :
    ∃ before after first second, Line.classify first = a ∧ Line.classify second = b ∧
      (Document.ofText text).lines = before ++ first :: second :: after ∧
      (Document.ofText (swapLines text k)).lines = before ++ second :: first :: after := by
  cases k with
  | zero => simp [Document.line?] at ha
  | succ i =>
    obtain ⟨first, hfirst, rfl⟩ := Option.map_eq_some_iff.1 ha
    obtain ⟨second, hsecond, rfl⟩ := Option.map_eq_some_iff.1 hb
    obtain ⟨hi, rfl⟩ := List.getElem?_eq_some_iff.1 hfirst
    obtain ⟨hi', rfl⟩ := List.getElem?_eq_some_iff.1 hsecond
    have hdrop : (Document.ofText text).lines.drop i =
        (Document.ofText text).lines[i] :: (Document.ofText text).lines[i + 1] ::
          (Document.ofText text).lines.drop (i + 2) := by
      rw [List.drop_eq_getElem_cons hi, List.drop_eq_getElem_cons hi']
    have hlines : (Document.ofText text).lines = (Document.ofText text).lines.take i ++
        (Document.ofText text).lines[i] :: (Document.ofText text).lines[i + 1] ::
          (Document.ofText text).lines.drop (i + 2) := by
      rw [← hdrop, List.take_append_drop]
    refine ⟨_, _, _, _, rfl, rfl, hlines, ?_⟩
    simp only [swapLines, Nat.add_sub_cancel, hdrop]
    refine Document.lines_ofText_text ⟨_⟩ (by simp) fun line hline => ?_
    -- the swapped lines are lines of the text
    have hmem : line ∈ (Document.ofText text).lines := by
      rw [hlines]
      exact ((List.Perm.swap _ _ _).append_left _).mem_iff.1 hline
    exact Document.notMem_of_mem_lines hmem

/-! ## Analyses -/

/-- **Directives about different things commute.** Swapping two neighbouring directives of different
    groups, or of which one is inert, changes neither messages nor markers, and neither the number
    of errors nor that of warnings. -/
theorem analyze_swapLines (rules : Ruleset) {text : String} {k : Nat} {first second : String}
    (hfirst : (Document.ofText text).line? k = some (.directive first))
    (hsecond : (Document.ofText text).line? (k + 1) = some (.directive second))
    (h : (Group.ofBody first).Independent (Group.ofBody second)) :
    (analyze rules (swapLines text k)).messages = (analyze rules text).messages ∧
      (analyze rules (swapLines text k)).markers = (analyze rules text).markers ∧
      (analyze rules (swapLines text k)).count .error = (analyze rules text).count .error ∧
      (analyze rules (swapLines text k)).count .warning = (analyze rules text).count .warning := by
  obtain ⟨before, after, a, b, ha, hb, hlines, hswapped⟩ := exists_lines_swapLines hfirst hsecond
  have hlength : (Document.ofText (swapLines text k)).lines.length =
      (Document.ofText text).lines.length := by
    rw [hlines, hswapped, List.length_append, List.length_append]
    rfl
  have hrun := Segmentation.rearranges_swap_among rules (Document.ofText text)
    (Document.ofText (swapLines text k)) before after ha hb h
  rw [← hlines, ← hswapped] at hrun
  obtain ⟨hblocks, htags, hmarkers, hproblems⟩ := Segmentation.segment_of_rearranges hlength hrun
  have hcount (severity : Severity) : (analyze rules (swapLines text k)).count severity =
      (analyze rules text).count severity := by
    rw [Analysis.count, Analysis.count, diagnostics_analyze, diagnostics_analyze, hblocks, htags,
      List.countP_append, List.countP_append, Findings.countP_severity, Findings.countP_severity,
      hproblems.countP_eq]
  refine ⟨?_, ?_, hcount .error, hcount .warning⟩
  · rw [messages_analyze, messages_analyze, hblocks]
  · rw [markers_analyze, markers_analyze, hmarkers]

/-- A payload that is no JSON, and a tag that is taken: either may come first. -/
theorem analyze_swapLines_payload :
    (Document.ofText ".tag:a\nx\n.tag:a\n.embed:json").line? 3 = some (.directive "tag:a") ∧
      (Document.ofText ".tag:a\nx\n.tag:a\n.embed:json").line? 4 =
        some (.directive "embed:json") ∧
      (Group.ofBody "tag:a").Independent (Group.ofBody "embed:json") ∧
      (analyze ⟨fun _ => [], {}⟩ ".tag:a\nx\n.embed:json\n.tag:a").markers =
        (analyze ⟨fun _ => [], {}⟩ ".tag:a\nx\n.tag:a\n.embed:json").markers ∧
      (analyze ⟨fun _ => [], {}⟩ ".tag:a\nx\n.embed:json\n.tag:a").count .error =
        (analyze ⟨fun _ => [], {}⟩ ".tag:a\nx\n.tag:a\n.embed:json").count .error := by
  have hfirst : (Document.ofText ".tag:a\nx\n.tag:a\n.embed:json").line? 3 =
      some (.directive "tag:a") := by decide +kernel
  have hsecond : (Document.ofText ".tag:a\nx\n.tag:a\n.embed:json").line? (3 + 1) =
      some (.directive "embed:json") := by decide +kernel
  have hgroups : (Group.ofBody "tag:a").Independent (Group.ofBody "embed:json") := by
    decide +kernel
  have hswap : swapLines ".tag:a\nx\n.tag:a\n.embed:json" 3 =
      ".tag:a\nx\n.embed:json\n.tag:a" := by decide +kernel
  obtain ⟨-, hmarkers, herrors, -⟩ :=
    analyze_swapLines ⟨fun _ => [], {}⟩ hfirst hsecond hgroups
  rw [hswap] at hmarkers herrors
  exact ⟨hfirst, hsecond, hgroups, hmarkers, herrors⟩

end GuideCheck
