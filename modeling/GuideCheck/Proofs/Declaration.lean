import GuideCheck.Analysis
import GuideCheck.Proofs.Feed
import Mathlib.Data.List.Dedup

set_option autoImplicit false

/-! # Tags are declared once and carried by one message

A `tag` directive declares its parameter unless it is declared already, and gives it to the open
block whatever tag the block had. Everything else leaves declarations and the tags of blocks alone
(`Segmentation.State.step_of_declares`, `Segmentation.State.step_of_declares_none`). `Keeps` follows
from this line by line: the names are kept without repetition, each directive adds a name or an
error, blocks carry declared names and no two of them the same, and all names are carried as long as
no block was tagged twice.

What is counted are errors by their wording. No other problem of a document is worded like those of
a `tag` directive (`Problem.message_notMem_tagWordings`), so these are counts of directives. -/

namespace GuideCheck

/-! ## Wordings -/

/-- Whether a diagnostic is an error with this wording. -/
def Diagnostic.isErrorSaying (wording : String) (d : Diagnostic) : Bool :=
  d.isError && d.message = wording

/-- The number of errors with a wording. -/
def Analysis.errorsSaying (a : Analysis) (wording : String) : Nat :=
  a.diagnostics.countP (·.isErrorSaying wording)

/-- The wordings of the two problems of a `tag` directive. -/
def tagWordings : List String := ["Tag already defined", "Message already tagged"]

/-- Whether a problem is about tags, or in words of its own that could be about anything. -/
def Problem.isAboutTags : Problem → Bool
  | secondTag | tagTaken | undefinedTag _ | other _ _ => true
  | _ => false

/-- Whether a problem is one that a directive may have. -/
def Problem.isOfDirective : Problem → Bool
  | undefinedTag _ | tooLong _ | other _ _ => false
  | _ => true

/-- Whether a problem is one that a directive may have that declares no tag. -/
def Problem.isOfOther (p : Problem) : Bool := p.isOfDirective && !p.isAboutTags

theorem Problem.isAboutTags_of_isOfOther {p : Problem} (h : p.isOfOther = true) :
    p.isAboutTags = false := by
  rw [isOfOther, Bool.and_eq_true, Bool.not_eq_true'] at h
  exact h.2

/-- What texts begin with that are worded in another way. -/
def otherOpenings : List (List Char) :=
  [['A'], ['C'], ['S'], ['T', 'o'], ['U'], ['\''], ['M', 'e', 's', 's', 'a', 'g', 'e', ' ', 't'],
    ['M', 'e', 's', 's', 'a', 'g', 'e', ' ', 'u']]

theorem notMem_tagWordings {text : String} (opening : List Char) (hmem : opening ∈ otherOpenings)
    (h : opening <+: text.toList) : text ∉ tagWordings := by
  have hnone : ∀ opening ∈ otherOpenings, ∀ wording ∈ tagWordings,
      ¬ opening <+: wording.toList := by decide +kernel
  exact fun htext => hnone opening hmem text htext h

theorem isPrefix_append_toList (opening rest more : List Char) :
    opening <+: (String.ofList (opening ++ rest)).toList ++ more := by
  rw [String.toList_ofList, List.append_assoc]
  exact List.prefix_append opening _

/-- What problems of component trees begin with. -/
theorem Component.Problem.exists_opening (p : Component.Problem) :
    ∃ opening ∈ [['A'], ['C'], ['S'], ['T', 'o']], opening <+: p.message.toList := by
  unfold Component.Problem.message
  cases p <;> simp only [String.toList_append, List.append_assoc]
  case rootType => exact ⟨['C'], by decide, _, String.toList_ofList.symm⟩
  case missingComponents => exact ⟨['C'], by decide, _, String.toList_ofList.symm⟩
  case tooManyRows => exact ⟨['T', 'o'], by decide, isPrefix_append_toList _ _ _⟩
  case tooManyRowChildren => exact ⟨['A'], by decide, isPrefix_append_toList _ _ _⟩
  case tooManyOptions => exact ⟨['S'], by decide, isPrefix_append_toList _ _ _⟩
  case tooManySectionChildren => exact ⟨['S'], by decide, isPrefix_append_toList _ _ _⟩
  all_goals exact ⟨['C'], by decide, isPrefix_append_toList _ _ _⟩

/-- What violations begin with. -/
theorem Violation.exists_opening (v : Violation) :
    ∃ opening ∈ [['U'], ['\'']], opening <+: v.description.toList := by
  unfold description
  split
  · refine ⟨['U'], by decide, ?_⟩
    simp only [String.toList_append, List.append_assoc]
    exact isPrefix_append_toList _ _ _
  · refine ⟨['\''], by decide, ?_⟩
    simp only [String.toList_append, List.append_assoc]
    exact isPrefix_append_toList _ _ _

theorem Component.Problem.message_notMem_tagWordings (p : Component.Problem) :
    p.message ∉ tagWordings := by
  obtain ⟨opening, hmem, h⟩ := p.exists_opening
  have hother : ∀ opening ∈ [['A'], ['C'], ['S'], ['T', 'o']], opening ∈ otherOpenings := by decide
  exact notMem_tagWordings opening (hother opening hmem) h

theorem Violation.description_notMem_tagWordings (v : Violation) :
    v.description ∉ tagWordings := by
  obtain ⟨opening, hmem, h⟩ := v.exists_opening
  have hother : ∀ opening ∈ [['U'], ['\'']], opening ∈ otherOpenings := by decide
  exact notMem_tagWordings opening (hother opening hmem) h

/-- A problem of another kind is not worded like those of a `tag` directive. -/
theorem Problem.message_notMem_tagWordings {p : Problem} (h : p.isAboutTags = false) :
    p.message ∉ tagWordings := by
  unfold message
  cases p with
  | secondTag | tagTaken | undefinedTag | other => simp [isAboutTags] at h
  | violation v => exact v.description_notMem_tagWordings
  | component problem => exact problem.message_notMem_tagWordings
  | tooLong limit =>
    refine notMem_tagWordings ['M', 'e', 's', 's', 'a', 'g', 'e', ' ', 't'] (by decide) ?_
    simp only [String.toList_append, List.append_assoc]
    exact isPrefix_append_toList _ _ _
  | command fault => cases fault <;> decide +kernel
  | payloadParameter kind => cases kind <;> decide +kernel
  | payloadText kind => cases kind <;> decide +kernel
  | emptyField field => cases field <;> decide +kernel
  | unknownCommand | attachmentUrl | secondAttachment | pinParameter => decide +kernel

theorem Problem.undefinedTag_message_notMem_tagWordings (name : String) :
    (undefinedTag name).message ∉ tagWordings := by
  unfold message
  refine notMem_tagWordings ['M', 'e', 's', 's', 'a', 'g', 'e', ' ', 'u'] (by decide) ?_
  simp only [String.toList_append, List.append_assoc]
  exact isPrefix_append_toList _ _ _

/-- Diagnostics without such problems add nothing to the counts. -/
theorem countP_isErrorSaying_eq_zero {diagnostics : List Diagnostic}
    (h : ∀ d ∈ diagnostics, d.message ∉ tagWordings) (wording : String)
    (hwording : wording ∈ tagWordings) : diagnostics.countP (·.isErrorSaying wording) = 0 := by
  refine List.countP_eq_zero.2 fun d hd hsaying => h d hd ?_
  simp only [Diagnostic.isErrorSaying, Bool.and_eq_true, decide_eq_true_eq] at hsaying
  rw [hsaying.2]
  exact hwording

/-! ## Directives -/

theorem Findings.isOfOther_onLine {problems : List Problem}
    (h : ∀ p ∈ problems, p.isOfOther = true) (line : Nat) :
    ∀ d ∈ (onLine line problems).diagnostics, d.problem.isOfOther = true := by
  intro d hd
  obtain ⟨p, hp, rfl⟩ := List.mem_map.1 hd
  exact h p hp

theorem isOfOther_of_mem_attachProblems {param : String} {block : Block} {p : Problem}
    (h : p ∈ attachProblems param block) : p.isOfOther = true := by
  rcases List.mem_append.1 h with h | h
  · rw [(mem_problemIf.1 h).2]
    rfl
  · rw [(mem_problemIf.1 h).2]
    rfl

/-- A `tag` directive has only the two problems of its own. -/
theorem of_mem_tagProblems {param : String} {block : Block} {tags : Tags} {p : Problem}
    (h : p ∈ tagProblems param block tags) : p = .secondTag ∨ p = .tagTaken := by
  rcases List.mem_append.1 h with h | h
  · exact Or.inl (mem_problemIf.1 h).2
  · exact Or.inr (mem_problemIf.1 h).2

/-- A `tag` directive has an error for a tag that is taken. -/
theorem countP_taken_tagProblems (line : Nat) (param : String) (block : Block) (tags : Tags) :
    (Findings.onLine line (tagProblems param block tags)).diagnostics.countP
      (·.isErrorSaying "Tag already defined") = (tags.contains param).toNat := by
  rw [Findings.onLine, List.countP_map]
  -- the line of an error does not matter
  show (tagProblems param block tags).countP
    (fun p => p.severity = .error && p.message = "Tag already defined") = _
  unfold tagProblems
  cases block.tag.isSome <;> cases tags.contains param <;> decide +kernel

/-- A `tag` directive has an error for a block that has a tag. -/
theorem countP_second_tagProblems (line : Nat) (param : String) (block : Block) (tags : Tags) :
    (Findings.onLine line (tagProblems param block tags)).diagnostics.countP
      (·.isErrorSaying "Message already tagged") = block.tag.isSome.toNat := by
  rw [Findings.onLine, List.countP_map]
  -- the line of an error does not matter
  show (tagProblems param block tags).countP
    (fun p => p.severity = .error && p.message = "Message already tagged") = _
  unfold tagProblems
  cases block.tag.isSome <;> cases tags.contains param <;> decide +kernel

theorem Embed.isOfOther_check (doc : Document) (validate : Validator) (line : Nat)
    (payload : Json) :
    ∀ d ∈ (Embed.check doc validate line payload).diagnostics, d.problem.isOfOther = true := by
  intro d hd
  rcases List.mem_append.1 hd with hd | hd
  · obtain ⟨text, -, rfl⟩ := List.mem_map.1 hd
    rfl
  · obtain ⟨v, -, rfl⟩ := List.mem_map.1 hd
    rfl

theorem Payload.isOfOther_findings (rules : Ruleset) (doc : Document) (kind : PayloadKind)
    (line : Nat) (block : Block) (payload : Payload) :
    ∀ d ∈ (payload.findings rules doc kind line block).diagnostics,
      d.problem.isOfOther = true := by
  cases payload with
  | plain => simp [findings]
  | refused => exact Findings.isOfOther_onLine (List.forall_mem_singleton.2 rfl) line
  | malformed error => exact Findings.isOfOther_onLine (List.forall_mem_singleton.2 rfl) line
  | parsed value =>
    cases kind with
    | embed => exact Embed.isOfOther_check doc rules.validate line value
    | componentsV2 =>
      refine Findings.isOfOther_onLine (fun p hp => ?_) line
      obtain ⟨problem, -, rfl⟩ := List.mem_map.1 hp
      rfl

theorem Payload.tag_settle (block : Block) (payload : Payload) :
    (payload.settle block).tag = block.tag := by
  cases payload <;> rfl

namespace Command

variable {rules : Ruleset} {doc : Document} {line : Nat} {body : String} {block : Block}
  {tags : Tags}

/-- A directive that declares a tag does nothing else. -/
theorem runText_of_declares {name : String}
    (h : (Line.directive body).declared? = some name) :
    runText rules doc line body block tags =
      ⟨block.declare tags name, tags.insert name, .onLine line (tagProblems name block tags)⟩ := by
  simp only [Line.declared?] at h
  unfold runText
  cases hparse : parse body with
  | error fault => simp [hparse] at h
  | ok command =>
    simp only [hparse, Option.ite_none_right_eq_some, Option.some.injEq] at h
    obtain ⟨hname, rfl⟩ := h
    simp only [run, (Directive.ofName?_eq_tag_iff command.name).2 hname]

/-- The problems of any other directive are not about tags. -/
theorem isOfOther_runText (h : (Line.directive body).declared? = none) :
    ∀ d ∈ (runText rules doc line body block tags).findings.diagnostics,
      d.problem.isOfOther = true := by
  simp only [Line.declared?] at h
  unfold runText
  cases hparse : parse body with
  | error fault => exact Findings.isOfOther_onLine (List.forall_mem_singleton.2 rfl) line
  | ok command =>
    simp only [hparse, ite_eq_right_iff, reduceCtorEq, imp_false] at h
    simp only [run]
    rcases hdirective : Directive.ofName? command.name with _ | (_ | _ | _ | kind | _)
    · exact Findings.isOfOther_onLine (List.forall_mem_singleton.2 rfl) line
    · exact Findings.isOfOther_onLine (fun p => isOfOther_of_mem_attachProblems) line
    · exact absurd ((Directive.ofName?_eq_tag_iff command.name).1 hdirective) h
    · refine Findings.isOfOther_onLine (fun p hp => ?_) line
      rw [(mem_problemIf.1 hp).2]
      rfl
    · exact Payload.isOfOther_findings rules doc kind line block _
    · simp

end Command

namespace Effect

variable {effect : Effect}

theorem onTags_of_ne_declare (h : ∀ name, effect ≠ .declare name) (tags : Tags) :
    effect.onTags tags = tags := by
  cases effect with
  | declare name => exact absurd rfl (h name)
  | nothing | attach | read => rfl

theorem tag_onBlock_of_ne_declare (h : ∀ name, effect ≠ .declare name) (block : Block)
    (tags : Tags) : (effect.onBlock block tags).tag = block.tag := by
  cases effect with
  | declare name => exact absurd rfl (h name)
  | nothing | attach => rfl
  | read param => exact Payload.tag_settle block _

end Effect

/-! ## Lines -/

namespace Segmentation

/-- The tags of closed blocks and of the open one. -/
def State.carried (s : State) (closed : List Block) : List String :=
  closed.filterMap Block.tag ++ s.block.tag.toList

@[simp] theorem filterMap_tag_singleton (block : Block) :
    [block].filterMap Block.tag = block.tag.toList := by
  cases htag : block.tag <;> simp [htag]

namespace State

variable {rules : Ruleset} {doc : Document} {s : State} {number : Nat} {line : String}

theorem tag_closedBlock : (s.closedBlock number).tag = s.block.tag := by
  unfold closedBlock
  split <;> rfl

/-- What a line does that declares a tag. -/
theorem step_of_declares {name : String} (h : (Line.classify line).declared? = some name) :
    s.step rules doc number line =
      (⟨.directive, (s.closedBlock number).declare s.tags name, s.tags.insert name⟩,
        { findings := .onLine number (tagProblems name (s.closedBlock number) s.tags) }) := by
  rcases (Line.classify line).kind_cases with ⟨text, hkind⟩ | hkind | ⟨body, hkind⟩
  · cases hline : Line.classify line <;> simp_all [Line.content?, Line.declared?]
  · rw [hkind] at h
    simp [Line.declared?] at h
  · rw [hkind] at h
    rw [step_of_directive hkind, direct, Command.runText_of_declares h]

/-- Any other line leaves the tags alone, those declared and those carried, and has no problem with
    them. -/
theorem step_of_declares_none (rules : Ruleset) (doc : Document) (number : Nat)
    (h : (Line.classify line).declared? = none) :
    (s.step rules doc number line).1.tags = s.tags ∧
      (∀ closed, (s.step rules doc number line).1.carried
        (closed ++ (s.step rules doc number line).2.blocks) = s.carried closed) ∧
      ∀ d ∈ (s.step rules doc number line).2.findings.diagnostics,
        d.problem.isOfOther = true := by
  rcases (Line.classify line).kind_cases with ⟨text, hkind⟩ | hkind | ⟨body, hkind⟩
  · rw [step_of_text hkind]
    unfold addContent
    cases s.mode with
    | content => simp [carried, Block.appendLine]
    | directive => simp [carried, Block.appendLine, Block.startingAt]
  · rw [step_of_separator hkind]
    unfold separate
    split
    · next hblank =>
      have htag : s.block.tag = none := by simp_all [Block.isBlank]
      simp [carried, startBlock, Block.startingAt, htag]
    · simp [carried, startBlock, Block.startingAt, Block.closeAt]
  · rw [hkind] at h
    rw [step_of_directive hkind]
    have heffect : ∀ name, Effect.ofBody body ≠ .declare name := by
      intro name hname
      simp [declared?_directive, hname] at h
    refine ⟨?_, fun closed => ?_, Command.isOfOther_runText h⟩
    · rw [direct_fst]
      exact Effect.onTags_of_ne_declare heffect s.tags
    · rw [blocks_direct, List.append_nil, carried, carried, direct_fst,
        Effect.tag_onBlock_of_ne_declare heffect, tag_closedBlock]

end State

/-! ## Runs -/

/-- What holds of the names declared so far and of the blocks that carry them. -/
structure Keeps (declared : List String) (s : State) (out : Output) : Prop where
  nodup : s.tags.names.Nodup
  /-- every directive has added a name or an error -/
  taken : out.findings.diagnostics.countP (·.isErrorSaying "Tag already defined") +
    s.tags.names.length = declared.length
  carried_nodup : (s.carried out.blocks).Nodup
  carried_subset : ∀ name ∈ s.carried out.blocks, name ∈ s.tags.names
  /-- no name is lost but by a second tag on a block -/
  subset_carried :
    out.findings.diagnostics.countP (·.isErrorSaying "Message already tagged") = 0 →
      ∀ name ∈ s.tags.names, name ∈ s.carried out.blocks

namespace Keeps

variable {rules : Ruleset} {doc : Document} {declared : List String} {s : State} {out : Output}
  {number : Nat} {line : String}

theorem initial : Keeps [] State.initial {} where
  nodup := List.nodup_nil
  taken := rfl
  carried_nodup := List.nodup_nil
  carried_subset := by simp [State.carried, State.initial, Block.startingAt]
  subset_carried := by simp [State.initial]

theorem step_of_declares_none (h : Keeps declared s out)
    (hline : (Line.classify line).declared? = none) :
    Keeps declared (s.step rules doc number line).1 (out ++ (s.step rules doc number line).2) := by
  obtain ⟨htags, hcarried, habout⟩ := s.step_of_declares_none rules doc number hline
  have hzero := countP_isErrorSaying_eq_zero fun d hd =>
    Problem.message_notMem_tagWordings (Problem.isAboutTags_of_isOfOther (habout d hd))
  have htaken := hzero "Tag already defined" (by simp [tagWordings])
  have hsecond := hzero "Message already tagged" (by simp [tagWordings])
  refine ⟨?_, ?_, ?_, ?_, ?_⟩
  · rw [htags]
    exact h.nodup
  · rw [htags, Output.findings_append, Findings.diagnostics_append, List.countP_append, htaken]
    exact h.taken
  · rw [Output.blocks_append, hcarried]
    exact h.carried_nodup
  · rw [Output.blocks_append, hcarried, htags]
    exact h.carried_subset
  · rw [Output.blocks_append, hcarried, htags, Output.findings_append,
      Findings.diagnostics_append, List.countP_append, hsecond]
    exact h.subset_carried

/-- A directive that declares a tag again changes nothing but the number of errors. -/
theorem declare_of_contains (h : Keeps declared s out) {name : String}
    (hname : s.tags.contains name = true) :
    Keeps (declared ++ [name])
      ⟨.directive, (s.closedBlock number).declare s.tags name, s.tags.insert name⟩
      (out ++ { findings := .onLine number (tagProblems name (s.closedBlock number) s.tags) }) := by
  have htags : s.tags.insert name = s.tags := by rw [Tags.insert, if_pos hname]
  have htag : ((s.closedBlock number).declare s.tags name).tag = s.block.tag := by
    rw [Block.declare, if_pos hname, State.tag_closedBlock]
  have hcarried : ∀ mode tags, State.carried
      ⟨mode, (s.closedBlock number).declare s.tags name, tags⟩ out.blocks = s.carried out.blocks :=
    fun _ _ => by simp only [State.carried, htag]
  refine ⟨?_, ?_, ?_, ?_, ?_⟩
  · rw [htags]
    exact h.nodup
  · have htaken := h.taken
    rw [Output.findings_append, Findings.diagnostics_append, List.countP_append,
      countP_taken_tagProblems, hname, htags, List.length_append, List.length_singleton]
    simp only [Bool.toNat_true]
    omega
  · rw [Output.blocks_append, List.append_nil, hcarried]
    exact h.carried_nodup
  · rw [Output.blocks_append, List.append_nil, hcarried, htags]
    exact h.carried_subset
  · rw [Output.blocks_append, List.append_nil, hcarried, htags, Output.findings_append,
      Findings.diagnostics_append, List.countP_append]
    exact fun hsecond => h.subset_carried (by omega)

/-- A directive that declares a new tag gives it to the open block. -/
theorem declare_of_not_contains (h : Keeps declared s out) {name : String}
    (hname : s.tags.contains name = false) :
    Keeps (declared ++ [name])
      ⟨.directive, (s.closedBlock number).declare s.tags name, s.tags.insert name⟩
      (out ++ { findings := .onLine number (tagProblems name (s.closedBlock number) s.tags) }) := by
  have hnotMem : name ∉ s.tags.names := by simpa [Tags.contains] using hname
  have hnames : (s.tags.insert name).names = name :: s.tags.names := by
    simp [Tags.insert, hname]
  have htag : ((s.closedBlock number).declare s.tags name).tag = some name := by
    simp [Block.declare, hname]
  -- the block may lose a tag, so that closed blocks and the new tag are all there is
  have hcarried : ∀ mode tags, State.carried
      ⟨mode, (s.closedBlock number).declare s.tags name, tags⟩ out.blocks =
        out.blocks.filterMap Block.tag ++ [name] :=
    fun _ _ => by simp only [State.carried, htag, Option.toList_some]
  have hclosed : ∀ other ∈ out.blocks.filterMap Block.tag, other ∈ s.tags.names :=
    fun other hother => h.carried_subset other (List.mem_append_left _ hother)
  refine ⟨?_, ?_, ?_, ?_, ?_⟩
  · rw [hnames]
    exact List.nodup_cons.2 ⟨hnotMem, h.nodup⟩
  · have htaken := h.taken
    rw [Output.findings_append, Findings.diagnostics_append, List.countP_append,
      countP_taken_tagProblems, hname, hnames, List.length_cons, List.length_append,
      List.length_singleton]
    simp only [Bool.toNat_false]
    omega
  · rw [Output.blocks_append, List.append_nil, hcarried]
    refine List.Nodup.append (List.Nodup.of_append_left h.carried_nodup) (List.nodup_singleton _) ?_
    exact fun other hother hname' => hnotMem (List.mem_singleton.1 hname' ▸ hclosed other hother)
  · rw [Output.blocks_append, List.append_nil, hcarried, hnames]
    intro other hother
    rcases List.mem_append.1 hother with hother | hother
    · exact List.mem_cons_of_mem _ (hclosed other hother)
    · exact List.mem_cons.2 (Or.inl (List.mem_singleton.1 hother))
  · rw [Output.blocks_append, List.append_nil, hcarried, hnames, Output.findings_append,
      Findings.diagnostics_append, List.countP_append, countP_second_tagProblems,
      State.tag_closedBlock]
    intro hsecond other hother
    have hnone : s.block.tag = none := by
      cases htag : s.block.tag with
      | none => rfl
      | some tag => simp [htag] at hsecond
    rcases List.mem_cons.1 hother with rfl | hother
    · exact List.mem_append_right _ (List.mem_singleton_self _)
    · have hmem := h.subset_carried (by omega) other hother
      rw [State.carried, hnone, Option.toList_none, List.append_nil] at hmem
      exact List.mem_append_left _ hmem

/-- Feeding a line. -/
theorem step (h : Keeps declared s out) (rules : Ruleset) (doc : Document) (number : Nat)
    (line : String) :
    Keeps (declared ++ ((Line.classify line).declared?).toList) (s.step rules doc number line).1
      (out ++ (s.step rules doc number line).2) := by
  cases hline : (Line.classify line).declared? with
  | none =>
    rw [Option.toList_none, List.append_nil]
    exact h.step_of_declares_none hline
  | some name =>
    rw [State.step_of_declares hline]
    cases hname : s.tags.contains name with
    | true => exact h.declare_of_contains hname
    | false => exact h.declare_of_not_contains hname

/-- Feeding lines. -/
theorem feed (h : Keeps declared s out) (lines : List String) (number : Nat) :
    Keeps (declared ++ declaredTags lines) (s.feed rules doc number lines).1
      (out ++ (s.feed rules doc number lines).2) := by
  induction lines generalizing declared s out number with
  | nil => simpa [declaredTags] using h
  | cons line rest ih =>
    have hdeclared : declaredTags (line :: rest) =
        ((Line.classify line).declared?).toList ++ declaredTags rest := by
      cases hline : (Line.classify line).declared? <;> simp [declaredTags, hline]
    have hrest := ih (h.step rules doc number line) (number + 1)
    rw [hdeclared, State.feed_cons, ← List.append_assoc]
    rwa [Output.append_assoc] at hrest

end Keeps

theorem tags_segment (rules : Ruleset) (doc : Document) :
    (segment rules doc).tags = (State.initial.feed rules doc 1 doc.lines).1.tags := rfl

theorem findings_segment (rules : Ruleset) (doc : Document) :
    (segment rules doc).findings = (State.initial.feed rules doc 1 doc.lines).2.findings := rfl

/-- What holds after all lines of a document. -/
theorem keeps_feed (rules : Ruleset) (doc : Document) :
    Keeps (declaredTags doc.lines) (State.initial.feed rules doc 1 doc.lines).1
      (State.initial.feed rules doc 1 doc.lines).2 :=
  Keeps.initial.feed doc.lines 1

/-- A line has the problems of a directive and no other ones. -/
theorem State.isOfDirective_step {rules : Ruleset} {doc : Document} {number : Nat} {line : String}
    (s : State) :
    ∀ d ∈ (s.step rules doc number line).2.findings.diagnostics,
      d.problem.isOfDirective = true := by
  intro d hd
  cases hline : (Line.classify line).declared? with
  | none =>
    have hother := (s.step_of_declares_none rules doc number hline).2.2 d hd
    exact (Bool.and_eq_true_iff.1 hother).1
  | some tag =>
    rw [step_of_declares hline] at hd
    obtain ⟨p, hp, rfl⟩ := List.mem_map.1 hd
    rcases of_mem_tagProblems hp with rfl | rfl <;> rfl

/-- Segmentation reports nothing about finished messages. -/
theorem isOfDirective_of_mem_segment {rules : Ruleset} {doc : Document} {d : Diagnostic}
    (hd : d ∈ (segment rules doc).findings.diagnostics) : d.problem.isOfDirective = true := by
  have hnext : ∀ (i : Nat) (line : String) (s : State) (out : Output), doc.lines[i]? = some line →
      (∀ d ∈ out.findings.diagnostics, d.problem.isOfDirective = true) →
      ∀ d ∈ (out ++ (s.step rules doc (1 + i) line).2).findings.diagnostics,
        d.problem.isOfDirective = true := by
    intro i line s out _ hout d hd
    rw [Output.findings_append, Findings.diagnostics_append] at hd
    rcases List.mem_append.1 hd with hd | hd
    · exact hout d hd
    · exact s.isOfDirective_step d hd
  exact State.feed_induction
    (fun _ _ out => ∀ d ∈ out.findings.diagnostics, d.problem.isOfDirective = true) doc.lines
    (by simp) hnext d hd

/-- The names that a document declares, each once. -/
theorem perm_names_segment (rules : Ruleset) (doc : Document) :
    (segment rules doc).tags.names.Perm (declaredTags doc.lines).dedup := by
  have hcontains : ∀ name, (segment rules doc).tags.contains name =
      (State.initial.tags.contains name || decide (name ∈ declaredTags doc.lines)) :=
    State.contains_tags_feed doc.lines
  have hnodup : (segment rules doc).tags.names.Nodup := by
    rw [tags_segment]
    exact (keeps_feed rules doc).nodup
  refine (List.perm_ext_iff_of_nodup hnodup (List.nodup_dedup _)).2 fun name => ?_
  rw [List.mem_dedup]
  simpa [Tags.contains, State.initial] using hcontains name

theorem contains_tags_segment_iff (rules : Ruleset) {doc : Document} {name : String} :
    (segment rules doc).tags.contains name = true ↔ name ∈ declaredTags doc.lines := by
  rw [Tags.contains, decide_eq_true_eq, (perm_names_segment rules doc).mem_iff, List.mem_dedup]

/-- The tags that the blocks of a document carry. -/
theorem filterMap_tag_segment (rules : Ruleset) (doc : Document) :
    (segment rules doc).blocks.filterMap Block.tag =
      (State.initial.feed rules doc 1 doc.lines).1.carried
        (State.initial.feed rules doc 1 doc.lines).2.blocks := by
  simp only [segment, segmentLines, List.filterMap_append, filterMap_tag_singleton]
  rfl

end Segmentation

/-! ## Messages -/

/-- A block has no problem that is worded like those of a `tag` directive. -/
theorem Block.message_notMem_tagWordings {block : Block} {limits : Limits} {tags : Tags}
    {d : Diagnostic} (hd : d ∈ block.diagnostics limits tags) : d.message ∉ tagWordings := by
  rcases List.mem_append.1 hd with hd | hd
  · obtain ⟨name, -, rfl⟩ := List.mem_map.1 hd
    exact Problem.undefinedTag_message_notMem_tagWordings name
  · split at hd
    · rw [List.mem_singleton.1 hd]
      exact Problem.message_notMem_tagWordings rfl
    · simp at hd

theorem Block.of_undefinedTag_mem_diagnostics {block : Block} {limits : Limits} {tags : Tags}
    {d : Diagnostic} {name : String} (hd : d ∈ block.diagnostics limits tags)
    (hproblem : d.problem = .undefinedTag name) :
    name ∈ references block.text ∧ tags.contains name = false := by
  rcases List.mem_append.1 hd with hd | hd
  · obtain ⟨other, hother, rfl⟩ := List.mem_map.1 hd
    simp only [Message.problem, Problem.undefinedTag.injEq] at hproblem
    subst hproblem
    obtain ⟨hmem, hnot⟩ := List.mem_filter.1 hother
    exact ⟨hmem, by simpa using hnot⟩
  · split at hd
    · rw [List.mem_singleton.1 hd] at hproblem
      simp [Message.problem] at hproblem
    · simp at hd

/-- The errors with the wording of a problem of a `tag` directive are those of segmentation. -/
theorem errorsSaying_analyze (rules : Ruleset) (text : String) {wording : String}
    (h : wording ∈ tagWordings) :
    (analyze rules text).errorsSaying wording =
      (Segmentation.segment rules (Document.ofText text)).findings.diagnostics.countP
        (·.isErrorSaying wording) := by
  rw [Analysis.errorsSaying, diagnostics_analyze, List.countP_append]
  refine Nat.add_eq_left.2 (countP_isErrorSaying_eq_zero (fun d hd => ?_) wording h)
  obtain ⟨block, -, hd⟩ := List.mem_flatMap.1 hd
  exact Block.message_notMem_tagWordings hd

theorem tags_messages_analyze (rules : Ruleset) (text : String) :
    (analyze rules text).messages.filterMap Message.tag =
      (Segmentation.segment rules (Document.ofText text)).blocks.filterMap Block.tag := by
  rw [messages_analyze, List.filterMap_map]
  rfl

/-- The number of messages with a tag is that of the tag among those carried. -/
theorem Message.countP_tag (messages : List Message) (name : String) :
    messages.countP (fun m => m.tag = some name) = (messages.filterMap Message.tag).count name := by
  rw [List.count_filterMap]
  exact List.countP_congr fun m _ => by simp

/-- References are checked against the names that the document declares anywhere. -/
theorem exists_undefinedTag_iff (rules : Ruleset) (text name : String) :
    (∃ d ∈ (analyze rules text).diagnostics, d.problem = .undefinedTag name) ↔
      name ∉ declaredTags (Document.ofText text).lines ∧
        ∃ block ∈ (Segmentation.segment rules (Document.ofText text)).blocks,
          name ∈ references block.text := by
  rw [diagnostics_analyze, ← Segmentation.contains_tags_segment_iff rules]
  constructor
  · rintro ⟨d, hd, hproblem⟩
    rcases List.mem_append.1 hd with hd | hd
    · have hdirective := Segmentation.isOfDirective_of_mem_segment hd
      rw [hproblem] at hdirective
      cases hdirective
    · obtain ⟨block, hblock, hd⟩ := List.mem_flatMap.1 hd
      obtain ⟨hname, hnot⟩ := Block.of_undefinedTag_mem_diagnostics hd hproblem
      exact ⟨by simpa using hnot, block, hblock, hname⟩
  · rintro ⟨hnot, block, hblock, hname⟩
    refine ⟨(Message.ofBlock block).problem (.undefinedTag name), ?_, rfl⟩
    refine List.mem_append_right _ (List.mem_flatMap.2 ⟨block, hblock, ?_⟩)
    exact List.mem_append_left _ (List.mem_map.2
      ⟨name, List.mem_filter.2 ⟨hname, by simpa using hnot⟩, rfl⟩)

/-- **Tags are declared once and carried by one message.** No two messages carry the same tag. Each
    directive that declares a tag declares a name of its own or makes an error. References are
    checked against the names that are declared anywhere, and without a block that is tagged twice
    each of these names is carried by one message. -/
theorem analyze_tags (rules : Ruleset) (text : String) :
    ((analyze rules text).messages.filterMap Message.tag).Nodup ∧
      (analyze rules text).errorsSaying "Tag already defined" +
          (declaredTags (Document.ofText text).lines).dedup.length =
        (declaredTags (Document.ofText text).lines).length ∧
      (Segmentation.segment rules (Document.ofText text)).tags.names.Perm
        (declaredTags (Document.ofText text).lines).dedup ∧
      (∀ name, (∃ d ∈ (analyze rules text).diagnostics, d.problem = .undefinedTag name) ↔
        name ∉ declaredTags (Document.ofText text).lines ∧
          ∃ block ∈ (Segmentation.segment rules (Document.ofText text)).blocks,
            name ∈ references block.text) ∧
      ((analyze rules text).errorsSaying "Message already tagged" = 0 →
        ∀ name ∈ declaredTags (Document.ofText text).lines,
          (analyze rules text).messages.countP (fun m => m.tag = some name) = 1) := by
  have hkeeps := Segmentation.keeps_feed rules (Document.ofText text)
  have hperm := Segmentation.perm_names_segment rules (Document.ofText text)
  have hnodup : ((analyze rules text).messages.filterMap Message.tag).Nodup := by
    rw [tags_messages_analyze, Segmentation.filterMap_tag_segment]
    exact hkeeps.carried_nodup
  refine ⟨hnodup, ?_, hperm, exists_undefinedTag_iff rules text, fun hsecond name hname => ?_⟩
  · rw [errorsSaying_analyze rules text (by simp [tagWordings]), ← hperm.length_eq,
      Segmentation.tags_segment, Segmentation.findings_segment]
    exact hkeeps.taken
  · rw [Message.countP_tag]
    refine List.count_eq_one_of_mem hnodup ?_
    rw [errorsSaying_analyze rules text (by simp [tagWordings]),
      Segmentation.findings_segment] at hsecond
    rw [Segmentation.tags_segment] at hperm
    rw [tags_messages_analyze, Segmentation.filterMap_tag_segment]
    exact hkeeps.subset_carried hsecond name (hperm.mem_iff.2 (List.mem_dedup.2 hname))

/-- Two messages with three `tag` directives, one of them for a tag that is taken. -/
theorem analyze_tags_taken :
    (analyze ⟨fun _ => [], {}⟩ "one\n.tag:a\ntwo\n.tag:a\nthree\n.tag:b").errorsSaying
        "Message already tagged" = 0 ∧
      "b" ∈ declaredTags
        (Document.ofText "one\n.tag:a\ntwo\n.tag:a\nthree\n.tag:b").lines ∧
      (analyze ⟨fun _ => [], {}⟩ "one\n.tag:a\ntwo\n.tag:a\nthree\n.tag:b").messages.countP
        (fun m => m.tag = some "b") = 1 := by
  have hsecond : (analyze ⟨fun _ => [], {}⟩
      "one\n.tag:a\ntwo\n.tag:a\nthree\n.tag:b").errorsSaying "Message already tagged" = 0 := by
    decide +kernel
  have hname : "b" ∈ declaredTags
      (Document.ofText "one\n.tag:a\ntwo\n.tag:a\nthree\n.tag:b").lines := by
    decide +kernel
  exact ⟨hsecond, hname, (analyze_tags _ _).2.2.2.2 hsecond "b" hname⟩

end GuideCheck
