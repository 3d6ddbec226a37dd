import GuideCheck.Proofs.Placement

set_option autoImplicit false

/-! # A payload that fails silences its block

A payload directive fails if its parameter is wrong or if the text before it is no JSON, and then
the text is discarded. No directive brings it back: only a payload puts a text in place of another,
and nothing can be read from the empty text. So the open block has no text up to the end of the run
of directives, and is closed that way (`Segmentation.Silent`). Each later payload directive of the
run that has a parameter fails in turn, and reports that and nothing else; and after the run there
is nothing left to report about the message (`analyze_silenced`). -/

namespace GuideCheck

/-! ## Payload directives that fail -/

/-- The kind and the parameter of a payload directive. -/
def Line.payload? : Line → Option (PayloadKind × String)
  | directive body =>
    match Command.parse body with
    | .ok command =>
      match Directive.ofName? command.name with
      | some (.payload kind) => some (kind, command.param)
      | _ => none
    | .error _ => none
  | _ => none

theorem Line.exists_of_payload? {line : Line} {kind : PayloadKind} {param : String}
    (h : line.payload? = some (kind, param)) :
    ∃ body command, line = .directive body ∧ Command.parse body = .ok command ∧
      Directive.ofName? command.name = some (.payload kind) ∧ command.param = param := by
  cases line with
  | directive body =>
    cases hparse : Command.parse body with
    | error fault => simp [payload?, hparse] at h
    | ok command =>
      simp only [payload?, hparse] at h
      split at h
      · next hname =>
        cases h
        exact ⟨body, command, rfl, hparse, hname, rfl⟩
      · simp at h
  | content text => simp [payload?] at h
  | escaped text => simp [payload?] at h
  | separator => simp [payload?] at h

namespace Payload

/-- Whether a payload directive fails for a text: its parameter is neither `json` nor empty, or it
    is `json` and the text is not. -/
inductive Fails (text : String) : (param : String) → Prop
  | parameter {param : String} (notJson : param ≠ "json") (notEmpty : param ≠ "") :
      Fails text param
  | text {error : Json.ReadError}
      (parse : Json.parse (Json.mendSurrogates text.toList) = .error error) : Fails text "json"

variable {text param : String}

theorem Fails.read (h : Fails text param) :
    Payload.read param text = .refused ∨ ∃ error, Payload.read param text = .malformed error := by
  cases h with
  | parameter notJson notEmpty =>
    refine Or.inl ?_
    unfold Payload.read
    split
    · exact absurd rfl notJson
    · exact absurd rfl notEmpty
    · rfl
  | @text error parse => exact Or.inr ⟨error, by simp only [Payload.read, parse]⟩

/-- Nothing can be read from the empty text. -/
theorem fails_empty (h : param ≠ "") : Fails "" param := by
  by_cases hjson : param = "json"
  · obtain ⟨error, herror⟩ : ∃ error, Json.parse (Json.mendSurrogates "".toList) = .error error :=
      ⟨_, rfl⟩
    rw [hjson]
    exact .text herror
  · exact .parameter hjson h

theorem Fails.text_settle {block : Block} (h : Fails block.text param) :
    ((Payload.read param block.text).settle block).text = "" := by
  rcases h.read with hread | ⟨error, hread⟩
  · rw [hread]
    rfl
  · rw [hread]
    rfl

/-- A failure is one error, and leaves no marker where there is no text. -/
theorem Fails.findings {block : Block} (h : Fails block.text param) (hempty : block.text = "")
    (rules : Ruleset) (doc : Document) (kind : PayloadKind) (line : Nat) :
    ∃ problem, problem.severity = .error ∧
      (Payload.read param block.text).findings rules doc kind line block =
        ⟨[.onLine line problem], []⟩ := by
  rcases h.read with hread | ⟨error, hread⟩
  · rw [hread]
    exact ⟨.payloadParameter kind, rfl, rfl⟩
  · rw [hread]
    refine ⟨.payloadText kind, rfl, ?_⟩
    simp [Payload.findings, Payload.marker?, hempty, Findings.onLine]

end Payload

namespace Document

variable {doc : Document} {k : Nat}

theorem exists_of_line? {line : Line} (h : doc.line? k = some line) :
    ∃ i raw, k = i + 1 ∧ doc.lines[i]? = some raw ∧ Line.classify raw = line := by
  cases k with
  | zero => simp [line?] at h
  | succ i =>
    obtain ⟨raw, hraw, hline⟩ := Option.map_eq_some_iff.1 h
    exact ⟨i, raw, rfl, hraw, hline⟩

/-- The kind and the parameter of the payload directive of a number. -/
def payload? (doc : Document) (k : Nat) : Option (PayloadKind × String) :=
  (doc.line? k).bind Line.payload?

theorem exists_of_payload? {kind : PayloadKind} {param : String}
    (h : doc.payload? k = some (kind, param)) :
    ∃ i raw body command, k = i + 1 ∧ doc.lines[i]? = some raw ∧
      Line.classify raw = .directive body ∧ Command.parse body = .ok command ∧
      Directive.ofName? command.name = some (.payload kind) ∧ command.param = param := by
  obtain ⟨line, hline, hpayload⟩ := Option.bind_eq_some_iff.1 h
  obtain ⟨i, raw, hk, hraw, rfl⟩ := exists_of_line? hline
  obtain ⟨body, command, hcommand⟩ := Line.exists_of_payload? hpayload
  exact ⟨i, raw, body, command, hk, hraw, hcommand⟩

end Document

/-! ## The block that a directive acts on -/

/-- Directives alone lead from the end of a block to a line, so no other block ends between. -/
theorem Document.IsBlockRange.le_of_directives {doc : Document} {first last first' last' k : Nat}
    (range : doc.IsBlockRange first last) (range' : doc.IsBlockRange first' last')
    (hfirst : first < first') (hlast : last < first') (hlt : last < k)
    (hrun : ∀ j, last < j → j ≤ k → doc.IsDirective j) : k ≤ last' := by
  have hk := (bounds_of_isDirective (hrun k hlt (Nat.le_refl k))).2
  have hpos := range.first_pos
  by_contra hend
  cases range' with
  | text run =>
    have hle := run.nonempty
    exact not_isText_of_isDirective (hrun first' hlast (by omega)) run.first_mem
  | directives run before =>
    -- what stands before the later block is the last line of the block, and that has no text
    have hnot : ¬ last < first' - 1 := fun hgap => run.before (hrun (first' - 1) hgap (by omega))
    cases range with
    | text runText =>
      have heq : first' - 1 = last := by omega
      exact before (heq ▸ runText.all last runText.nonempty (Nat.le_refl last))
    | directives => omega
    | ending => exact absurd hk (Nat.not_le.2 hlt)
  | ending => exact hend hk

/-- Whether the directive of a number acts on a block: it stands in the run of directives that
    begins where the block ends. -/
def Block.IsActedOn (doc : Document) (block : Block) (k : Nat) : Prop :=
  ∃ last, block.lastLine = some last ∧ last < k ∧ ∀ j, last < j → j ≤ k → doc.IsDirective j

/-- The run goes on with the next directive. -/
theorem Block.IsActedOn.succ {doc : Document} {block : Block} {k : Nat}
    (h : block.IsActedOn doc k) (next : doc.IsDirective (k + 1)) :
    block.IsActedOn doc (k + 1) := by
  obtain ⟨last, hlast, hlt, hrun⟩ := h
  refine ⟨last, hlast, Nat.lt_succ_of_lt hlt, fun j hj hk => ?_⟩
  rcases Nat.lt_or_eq_of_le hk with hk | rfl
  · exact hrun j hj (Nat.lt_succ_iff.1 hk)
  · exact next

/-- A directive acts on no more than one block. -/
theorem Groups.eq_of_isActedOn {doc : Document} {blocks : List Block} (h : Groups doc blocks)
    {block other : Block} (hblock : block ∈ blocks) (hother : other ∈ blocks) {k : Nat}
    (hacted : block.IsActedOn doc k) (hacted' : other.IsActedOn doc k) : block = other := by
  have hapart : blocks.Pairwise fun b c => ¬ (b.IsActedOn doc k ∧ c.IsActedOn doc k) := by
    refine h.ordered.imp_of_mem ?_
    rintro b c hb hc ⟨hfirst, hend⟩ ⟨⟨last, hlast, hlt, hrun⟩, last', hlast', hlt', -⟩
    obtain ⟨l, hl, range⟩ := h.range b hb
    obtain ⟨l', hl', range'⟩ := h.range c hc
    obtain rfl : l = last := Option.some.inj (hl.symm.trans hlast)
    obtain rfl : l' = last' := Option.some.inj (hl'.symm.trans hlast')
    exact absurd (range.le_of_directives range' hfirst (hend l hl) hlt hrun) (Nat.not_le.2 hlt')
  have : Std.Symm fun b c : Block => ¬ (b.IsActedOn doc k ∧ c.IsActedOn doc k) :=
    ⟨fun b c hnot hboth => hnot hboth.symm⟩
  by_contra hne
  exact hapart.forall hblock hother hne ⟨hacted, hacted'⟩

/-! ## Line by line -/

namespace Segmentation

/-- The machine before the line of a number. -/
def stateBefore (rules : Ruleset) (doc : Document) (k : Nat) : State :=
  (State.initial.feed rules doc 1 (doc.lines.take (k - 1))).1

/-- What leaves the machine on the line of a number. -/
def outputOn (rules : Ruleset) (doc : Document) (k : Nat) : Output :=
  match doc.lines[k - 1]? with
  | some line => ((stateBefore rules doc k).step rules doc k line).2
  | none => {}

variable {rules : Ruleset} {doc : Document} {k : Nat}

/-- The line of a number takes the machine one state further. -/
theorem feed_take_succ (rules : Ruleset) {line : String} (h : doc.lines[k]? = some line) :
    State.initial.feed rules doc 1 (doc.lines.take (k + 1)) =
      (((stateBefore rules doc (k + 1)).step rules doc (k + 1) line).1,
        (State.initial.feed rules doc 1 (doc.lines.take k)).2 ++ outputOn rules doc (k + 1)) := by
  obtain ⟨hlt, rfl⟩ := List.getElem?_eq_some_iff.1 h
  have hlength : (doc.lines.take k).length = k := List.length_take_of_le (Nat.le_of_lt hlt)
  simp only [List.take_add_one, h, Option.toList_some, State.feed_append, State.feed_cons,
    State.feed_nil, Output.append_empty, hlength, Nat.add_comm 1 k, outputOn, stateBefore,
    Nat.add_sub_cancel]

/-- The findings of a document are those of its lines, one after the other. -/
theorem findings_eq_flatMap (rules : Ruleset) (doc : Document) :
    (segment rules doc).findings.diagnostics =
        ((List.range' 1 doc.lineCount).flatMap fun k =>
          (outputOn rules doc k).findings.diagnostics) ∧
      (segment rules doc).findings.markers =
        (List.range' 1 doc.lineCount).flatMap fun k => (outputOn rules doc k).findings.markers := by
  have htake (n : Nat) (hn : n ≤ doc.lineCount) :
      (State.initial.feed rules doc 1 (doc.lines.take n)).2.findings =
        ⟨(List.range' 1 n).flatMap fun k => (outputOn rules doc k).findings.diagnostics,
          (List.range' 1 n).flatMap fun k => (outputOn rules doc k).findings.markers⟩ := by
    induction n with
    | zero => rfl
    | succ n ih =>
      have hline : doc.lines[n]? = some doc.lines[n] := List.getElem?_eq_getElem hn
      rw [feed_take_succ rules hline, Output.findings_append, ih (Nat.le_of_succ_le hn),
        List.range'_1_concat, Nat.add_comm 1 n]
      simp only [List.flatMap_append, List.flatMap_singleton]
      rfl
  have hall := htake doc.lineCount (Nat.le_refl _)
  rw [Document.lineCount, List.take_length] at hall
  simp only [segment, segmentLines, Document.lineCount, hall, and_self]

/-- Whether an analysis is what leaves the machine line by line, and after it what there is to
    report about each block. -/
structure Traces (rules : Ruleset) (doc : Document) (a : Analysis) : Prop where
  messages : a.messages = (segment rules doc).blocks.map Message.ofBlock
  diagnostics : a.diagnostics =
    ((List.range' 1 doc.lineCount).flatMap fun k => (outputOn rules doc k).findings.diagnostics) ++
      (segment rules doc).blocks.flatMap (·.diagnostics rules.limits (segment rules doc).tags)
  markers : a.markers =
    (List.range' 1 doc.lineCount).flatMap fun k => (outputOn rules doc k).findings.markers

theorem traces_analyze (rules : Ruleset) (text : String) :
    Traces rules (Document.ofText text) (analyze rules text) where
  messages := messages_analyze rules text
  diagnostics := by rw [diagnostics_analyze, (findings_eq_flatMap rules _).1]
  markers := by rw [markers_analyze, (findings_eq_flatMap rules _).2]

/-! ## Runs of directives -/

theorem stateBefore_succ (rules : Ruleset) {line : String} (h : doc.lines[k]? = some line) :
    stateBefore rules doc (k + 2) =
      ((stateBefore rules doc (k + 1)).step rules doc (k + 1) line).1 := by
  have hfeed := congrArg Prod.fst (feed_take_succ rules h)
  exact hfeed

theorem mode_stateBefore (rules : Ruleset) (hk : k ≤ doc.lineCount) :
    (stateBefore rules doc (k + 1)).mode = .directive ↔ doc.IsDirective k := by
  cases k with
  | zero =>
    constructor
    · intro h
      cases h
    · rintro ⟨body, hbody⟩
      cases hbody
  | succ k =>
    have hraw : doc.lines[k]? = some doc.lines[k] := List.getElem?_eq_getElem hk
    have hline : doc.line? (k + 1) = some (Line.classify doc.lines[k]) := by
      simp [Document.line?, hraw]
    rw [stateBefore_succ rules hraw, Document.IsDirective, hline]
    rcases (Line.classify doc.lines[k]).kind_cases with ⟨text, hkind⟩ | hkind | ⟨body, hkind⟩
    · have hnot (body : String) : Line.classify doc.lines[k] ≠ .directive body := by
        intro hbody
        simp [hbody, Line.content?] at hkind
      rw [State.step_of_text hkind, State.addContent]
      split <;> simp_all
    · rw [State.step_of_separator hkind, State.separate]
      split <;> simp [State.startBlock, hkind]
    · rw [State.step_of_directive hkind, State.direct_fst]
      simp [hkind]

/-- The machine has the block open that the directive before acted on. -/
theorem isActedOn_block (rules : Ruleset) (h : doc.IsDirective k) :
    (stateBefore rules doc (k + 1)).block.IsActedOn doc k := by
  induction k with
  | zero => exact absurd (Document.bounds_of_isDirective h).1 (by decide)
  | succ k ih =>
    obtain ⟨body, hbody⟩ := h
    obtain ⟨i, raw, hi, hraw, hkind⟩ := Document.exists_of_line? hbody
    obtain rfl : k = i := Nat.succ.inj hi
    have hmode := mode_stateBefore (k := k) rules
      (Nat.le_of_succ_le (Document.bounds_of_isDirective ⟨body, hbody⟩).2)
    rw [stateBefore_succ rules hraw, State.step_of_directive hkind, State.direct_fst]
    by_cases hbefore : doc.IsDirective k
    · obtain ⟨last, hlast, hlt, hrun⟩ := (ih hbefore).succ ⟨body, hbody⟩
      refine ⟨last, ?_, hlt, hrun⟩
      rw [Effect.lastLine_onBlock, State.closedBlock, hmode.2 hbefore, hlast]
    · -- the directive is the first of its run, and the block ends before it
      have hcontent : (stateBefore rules doc (k + 1)).mode = .content := by
        cases hm : (stateBefore rules doc (k + 1)).mode with
        | content => rfl
        | directive => exact absurd (hmode.1 hm) hbefore
      refine ⟨k, ?_, Nat.lt_succ_self k, fun j hj hk => ?_⟩
      · rw [Effect.lastLine_onBlock, State.closedBlock, hcontent]
        rfl
      · exact Nat.le_antisymm hk hj ▸ ⟨body, hbody⟩

/-- Whether directives act on an open block that has no text. -/
structure Silent (s : State) : Prop where
  mode : s.mode = .directive
  text : s.block.text = ""

namespace Silent

variable {s : State}

/-- No directive brings the text back. -/
theorem direct (h : Silent s) (rules : Ruleset) (doc : Document) (number : Nat) (body : String) :
    Silent (s.direct rules doc number body).1 := by
  have hblock : s.closedBlock number = s.block := by simp only [State.closedBlock, h.mode]
  rw [State.direct_fst, hblock]
  exact ⟨rfl, Effect.text_onBlock_eq_empty _ _ h.text⟩

/-- The open block is the next one to be closed, with the range that it has. -/
theorem exists_first (h : Silent s) {last : Nat} (hlast : s.block.lastLine = some last)
    (rules : Ruleset) (doc : Document) (number : Nat) (lines : List String) (count : Nat) :
    ∃ block later, (s.feed rules doc number lines).2.blocks ++
        [(s.feed rules doc number lines).1.finish count] = block :: later ∧
      block.lastLine = some last ∧ block.text = "" := by
  have hclose (line : Nat) : (s.block.closeAt line).lastLine = some last := by
    simp only [Block.closeAt, hlast, Option.getD_some]
  induction lines generalizing s number with
  | nil => exact ⟨s.block.closeAt count, [], rfl, hclose count, h.text⟩
  | cons line rest ih =>
    rw [State.feed_cons]
    rcases (Line.classify line).kind_cases with ⟨text, hkind⟩ | hkind | ⟨body, hkind⟩
    · simp only [State.step_of_text hkind, State.addContent, h.mode]
      exact ⟨s.block, _, rfl, hlast, h.text⟩
    · have hmode : ¬ (s.mode = .content ∧ s.block.isBlank) := by simp [h.mode]
      simp only [State.step_of_separator hkind, State.separate, if_neg hmode]
      exact ⟨s.block.closeAt (number - 1), _, rfl, hclose (number - 1), h.text⟩
    · have hnext := h.direct rules doc number body
      have hrange : (s.direct rules doc number body).1.block.lastLine = some last := by
        rw [State.direct_fst, Effect.lastLine_onBlock, State.closedBlock, h.mode]
        exact hlast
      simp only [State.step_of_directive hkind, Output.blocks_append, State.blocks_direct,
        List.nil_append]
      refine ih hnext hrange (number + 1) fun line => ?_
      simp only [Block.closeAt, hrange, Option.getD_some]

end Silent

/-- Whether the directive of a number is one of a payload, and fails for the text of the block that
    is open there. -/
def FailsOn (rules : Ruleset) (doc : Document) (k : Nat) : Prop :=
  ∃ kind param, doc.payload? k = some (kind, param) ∧
    Payload.Fails (stateBefore rules doc k).block.text param

/-- After a failure the open block has no text. -/
theorem silent_of_failsOn (h : FailsOn rules doc k) : Silent (stateBefore rules doc (k + 1)) := by
  obtain ⟨kind, param, hpayload, hfails⟩ := h
  obtain ⟨i, raw, body, command, rfl, hraw, hbody, hparse, hname, rfl⟩ :=
    Document.exists_of_payload? hpayload
  have heffect : Effect.ofBody body = .read command.param := by
    simp only [Effect.ofBody, hparse, hname]
  have htext : ((stateBefore rules doc (i + 1)).closedBlock (i + 1)).text =
      (stateBefore rules doc (i + 1)).block.text := by
    unfold State.closedBlock
    split <;> rfl
  rw [← htext] at hfails
  rw [stateBefore_succ rules hraw, State.step_of_directive hbody, State.direct_fst, heffect]
  exact ⟨rfl, hfails.text_settle⟩

/-- Up to the end of the run the open block has no text. -/
theorem silent_of_run (h : FailsOn rules doc k) {j : Nat} (hle : k ≤ j)
    (hrun : ∀ i, k < i → i ≤ j → doc.IsDirective i) : Silent (stateBefore rules doc (j + 1)) := by
  induction j, hle using Nat.le_induction with
  | base => exact silent_of_failsOn h
  | succ j hle ih =>
    have hsilent := ih fun i hi hj => hrun i hi (Nat.le_succ_of_le hj)
    obtain ⟨body, hbody⟩ := hrun (j + 1) (Nat.lt_succ_of_le hle) (Nat.le_refl _)
    obtain ⟨i, raw, hi, hraw, hkind⟩ := Document.exists_of_line? hbody
    obtain rfl : j = i := Nat.succ.inj hi
    rw [stateBefore_succ rules hraw, State.step_of_directive hkind]
    exact hsilent.direct rules doc _ body

/-- A payload directive with a parameter that finds no text reports one error. -/
theorem Silent.findings_outputOn (h : Silent (stateBefore rules doc k)) {kind : PayloadKind}
    {param : String} (hpayload : doc.payload? k = some (kind, param)) (hparam : param ≠ "") :
    ∃ problem, problem.severity = .error ∧
      (outputOn rules doc k).findings = ⟨[.onLine k problem], []⟩ := by
  obtain ⟨i, raw, body, command, rfl, hraw, hbody, hparse, hname, rfl⟩ :=
    Document.exists_of_payload? hpayload
  have hfails : Payload.Fails (stateBefore rules doc (i + 1)).block.text command.param := by
    rw [h.text]
    exact Payload.fails_empty hparam
  obtain ⟨problem, herror, hfindings⟩ := hfails.findings h.text rules doc kind (i + 1)
  refine ⟨problem, herror, ?_⟩
  simp only [outputOn, Nat.add_sub_cancel, hraw, State.step_of_directive hbody, State.direct,
    State.closedBlock, h.mode, Command.runText, hparse, Command.run, hname, hfindings]

/-- The block that a failing directive acts on is closed without text. -/
theorem exists_silenced (h : FailsOn rules doc k) :
    ∃ block ∈ (segment rules doc).blocks, block.IsActedOn doc k ∧ block.text = "" := by
  have hsilent := silent_of_failsOn h
  obtain ⟨kind, param, hpayload, -⟩ := h
  obtain ⟨i, raw, body, command, rfl, hraw, hbody, -⟩ := Document.exists_of_payload? hpayload
  have hdirective : doc.IsDirective (i + 1) := ⟨body, by simp [Document.line?, hraw, hbody]⟩
  obtain ⟨last, hlast, hlt, hrun⟩ := isActedOn_block rules hdirective
  obtain ⟨block, later, hblocks, hend, htext⟩ := hsilent.exists_first hlast rules doc (i + 2)
    (doc.lines.drop (i + 1)) doc.lines.length
  refine ⟨block, ?_, ⟨last, hend, hlt, hrun⟩, htext⟩
  -- the blocks of the lines up to the failure, and then those of the lines after it
  have hlength : 1 + (doc.lines.take (i + 1)).length = i + 2 := by
    rw [List.length_take_of_le (List.getElem?_eq_some_iff.1 hraw).1]
    omega
  have hsplit : State.initial.feed rules doc 1
      (doc.lines.take (i + 1) ++ doc.lines.drop (i + 1)) = _ := State.feed_append _ _
  rw [List.take_append_drop, hlength] at hsplit
  simp only [segment, segmentLines, hsplit, Output.blocks_append, List.append_assoc]
  refine List.mem_append_right _ ?_
  have hstate : (State.initial.feed rules doc 1 (doc.lines.take (i + 1))).1 =
      stateBefore rules doc (i + 2) := rfl
  rw [hstate, hblocks]
  exact List.mem_cons_self

end Segmentation

/-- **A payload that fails silences its block.** Let there be room for a character in a message, and
    let a payload directive fail. Then whatever other directives stand in its run, the message that
    it acts on is a single zero-width space about which nothing is reported, and every later payload
    directive of the run that has a parameter reports one error on its own line and no marker. The
    analysis is made of what its lines and its blocks report. -/
theorem analyze_silenced (rules : Ruleset) (text : String)
    (hroom : 1 ≤ rules.limits.messageLength) {k : Nat}
    (h : Segmentation.FailsOn rules (Document.ofText text) k) :
    Segmentation.Traces rules (Document.ofText text) (analyze rules text) ∧
      (∃! block, block ∈ (Segmentation.segment rules (Document.ofText text)).blocks ∧
        block.IsActedOn (Document.ofText text) k) ∧
      (∀ block ∈ (Segmentation.segment rules (Document.ofText text)).blocks,
        block.IsActedOn (Document.ofText text) k →
          (Message.ofBlock block).text = String.singleton zeroWidthSpace ∧
          block.diagnostics rules.limits
            (Segmentation.segment rules (Document.ofText text)).tags = []) ∧
      ∀ j, k < j → (∀ i, k < i → i ≤ j → (Document.ofText text).IsDirective i) →
        ∀ kind param, (Document.ofText text).payload? j = some (kind, param) → param ≠ "" →
          ∃ problem, problem.severity = .error ∧
            (Segmentation.outputOn rules (Document.ofText text) j).findings =
              ⟨[.onLine j problem], []⟩ := by
  have hgroups := Segmentation.segment_groups rules text
  obtain ⟨block, hblock, hacted, hempty⟩ := Segmentation.exists_silenced h
  have hunique : ∀ other ∈ (Segmentation.segment rules (Document.ofText text)).blocks,
      other.IsActedOn (Document.ofText text) k → other = block :=
    fun other hother hacted' => hgroups.eq_of_isActedOn hother hblock hacted' hacted
  refine ⟨Segmentation.traces_analyze rules text,
    ⟨block, ⟨hblock, hacted⟩, fun other hother => hunique other hother.1 hother.2⟩,
    fun other hother hacted' => ?_, fun j hj hrun kind param hpayload hparam => ?_⟩
  · rw [hunique other hother hacted']
    refine ⟨Message.text_ofBlock_of_empty hempty, List.eq_nil_iff_forall_not_mem.2 fun d hd => ?_⟩
    have hzero := (Block.diagnostics_of_empty _ _ hempty hd).1
    omega
  · have hsilent := Segmentation.silent_of_run h (Nat.le_sub_one_of_lt hj) fun i hi hij =>
      hrun i hi (by omega)
    rw [Nat.sub_add_cancel (by omega)] at hsilent
    exact hsilent.findings_outputOn hpayload hparam

/-- The second payload directive finds nothing left of the text, though a tag stands between. -/
theorem analyze_silenced_refused :
    let rules : Ruleset := ⟨fun _ => [], {}⟩
    let doc := Document.ofText "a_b\n.embed:text\n.tag:x\n.componentsV2:json"
    Segmentation.FailsOn rules doc 2 ∧
      (∃ block ∈ (Segmentation.segment rules doc).blocks,
        (Message.ofBlock block).text = String.singleton zeroWidthSpace) ∧
      ∃ problem, problem.severity = .error ∧
        (Segmentation.outputOn rules doc 4).findings = ⟨[.onLine 4 problem], []⟩ := by
  intro rules doc
  have hfails : Segmentation.FailsOn rules doc 2 :=
    ⟨.embed, "text", by decide +kernel, .parameter (by decide) (by decide)⟩
  obtain ⟨-, ⟨block, ⟨hblock, hacted⟩, -⟩, hsilent, hlater⟩ :=
    analyze_silenced rules "a_b\n.embed:text\n.tag:x\n.componentsV2:json" (by decide) hfails
  have hrun (i : Nat) (hi : 2 < i) (hle : i ≤ 4) : doc.IsDirective i := by
    obtain rfl | rfl : i = 3 ∨ i = 4 := by omega
    · exact ⟨"tag:x", by decide +kernel⟩
    · exact ⟨"componentsV2:json", by decide +kernel⟩
  exact ⟨hfails, ⟨block, hblock, (hsilent block hblock hacted).1⟩,
    hlater 4 (by decide) hrun .componentsV2 "json" (by decide +kernel) (by decide)⟩

end GuideCheck
