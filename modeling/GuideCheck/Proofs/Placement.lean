import GuideCheck.Analysis
import GuideCheck.Proofs.Grouping
import GuideCheck.Proofs.Links

set_option autoImplicit false

/-! # Diagnostics stay inside the document

A diagnostic names lines of the document, first to last. Those of directives stand on the line of
the directive or on a line that was found by searching the document. Those of messages stand on the
range of a block, and that holds a line unless the block is one of directives or of a separator at
the end; such a block has no text (`Groups`), so its message is a single zero-width space, and a
limit of no characters at all is the only thing that it can break (`analyze_diagnostics_inside`). -/

namespace GuideCheck

/-- Whether the lines of a diagnostic are lines of a document with this many. -/
def Diagnostic.Inside (d : Diagnostic) (lineCount : Nat) : Prop :=
  1 ≤ d.first ∧ d.first ≤ d.last ∧ d.last ≤ lineCount

/-- Whether a number lies in the range of a message. -/
def Message.Covers (m : Message) (k : Nat) : Prop := m.firstLine ≤ k ∧ k ≤ m.lastLine

/-! ## Lines found by searching -/

namespace Document

variable {doc : Document} {k : Nat}

theorem findLine?_bounds {p : String → Bool} (h : doc.findLine? p = some k) :
    1 ≤ k ∧ k ≤ doc.lineCount := by
  obtain ⟨i, hi, rfl⟩ := Option.map_eq_some_iff.1 h
  have hlt := (List.findIdx?_eq_some_iff_findIdx_eq.1 hi).1
  exact ⟨Nat.le_add_left 1 i, hlt⟩

theorem recoverLine?_bounds {v : Violation} (h : doc.recoverLine? v = some k) :
    1 ≤ k ∧ k ≤ doc.lineCount := by
  obtain ⟨name, -, hclue⟩ := Option.bind_eq_some_iff.1 h
  obtain ⟨clue, -, hline⟩ := List.exists_of_findSome?_eq_some hclue
  cases clue with
  | pathKey =>
    obtain ⟨key, -, hfind⟩ := Option.bind_eq_some_iff.1 hline
    exact findLine?_bounds hfind
  | additionalKey =>
    obtain ⟨key, -, hfind⟩ := Option.bind_eq_some_iff.1 hline
    exact findLine?_bounds hfind
  | quotedName =>
    obtain ⟨key, -, hfind⟩ := Option.bind_eq_some_iff.1 hline
    exact findLine?_bounds hfind

end Document

/-! ## Diagnostics of directives -/

theorem Diagnostic.inside_onLine {line lineCount : Nat} (h : 1 ≤ line ∧ line ≤ lineCount)
    (problem : Problem) : (Diagnostic.onLine line problem).Inside lineCount :=
  ⟨h.1, Nat.le_refl line, h.2⟩

theorem Findings.inside_onLine {line lineCount : Nat} (h : 1 ≤ line ∧ line ≤ lineCount)
    (problems : List Problem) :
    ∀ d ∈ (Findings.onLine line problems).diagnostics, d.Inside lineCount := by
  intro d hd
  obtain ⟨problem, -, rfl⟩ := List.mem_map.1 hd
  exact Diagnostic.inside_onLine h problem

section Directives

variable {doc : Document} {line : Nat}

/-- A line that was found, or else the line of the directive. -/
theorem getD_bounds {found : Option Nat} (h : 1 ≤ line ∧ line ≤ doc.lineCount)
    (hfound : ∀ k, found = some k → 1 ≤ k ∧ k ≤ doc.lineCount) :
    1 ≤ found.getD line ∧ found.getD line ≤ doc.lineCount := by
  cases found with
  | none => exact h
  | some k => exact hfound k rfl

theorem Embed.inside_check (h : 1 ≤ line ∧ line ≤ doc.lineCount) (validate : Validator)
    (payload : Json) :
    ∀ d ∈ (Embed.check doc validate line payload).diagnostics, d.Inside doc.lineCount := by
  intro d hd
  rcases List.mem_append.1 hd with hd | hd
  · obtain ⟨text, -, rfl⟩ := List.mem_map.1 hd
    exact Diagnostic.inside_onLine (getD_bounds h fun k => Document.findLine?_bounds) _
  · obtain ⟨v, -, rfl⟩ := List.mem_map.1 hd
    exact Diagnostic.inside_onLine (getD_bounds h fun k => Document.recoverLine?_bounds) _

theorem Payload.inside_findings (h : 1 ≤ line ∧ line ≤ doc.lineCount) (rules : Ruleset)
    (kind : PayloadKind) (block : Block) (payload : Payload) :
    ∀ d ∈ (payload.findings rules doc kind line block).diagnostics, d.Inside doc.lineCount := by
  cases payload with
  | plain => simp [findings]
  | refused => exact Findings.inside_onLine h _
  | malformed error => exact Findings.inside_onLine h _
  | parsed value =>
    cases kind with
    | embed => exact Embed.inside_check h rules.validate value
    | componentsV2 => exact Findings.inside_onLine h _

/-- The diagnostics of a directive lie inside the document if the directive does. -/
theorem Command.inside_runText (h : 1 ≤ line ∧ line ≤ doc.lineCount) (rules : Ruleset)
    (body : String) (block : Block) (tags : Tags) :
    ∀ d ∈ (runText rules doc line body block tags).findings.diagnostics,
      d.Inside doc.lineCount := by
  unfold runText
  cases parse body with
  | error fault => exact Findings.inside_onLine h _
  | ok command =>
    simp only [run]
    rcases Directive.ofName? command.name with _ | (_ | _ | _ | kind | _)
    · exact Findings.inside_onLine h _
    · exact Findings.inside_onLine h _
    · exact Findings.inside_onLine h _
    · exact Findings.inside_onLine h _
    · exact Payload.inside_findings h rules kind block _
    · simp

end Directives

namespace Segmentation

theorem State.inside_step {doc : Document} {number : Nat} {line : String}
    (h : 1 ≤ number ∧ number ≤ doc.lineCount) (rules : Ruleset) (s : State) :
    ∀ d ∈ (s.step rules doc number line).2.findings.diagnostics, d.Inside doc.lineCount := by
  rcases (Line.classify line).kind_cases with ⟨text, hkind⟩ | hkind | ⟨body, hkind⟩
  · rw [step_of_text hkind, addContent]
    split <;> simp
  · rw [step_of_separator hkind, separate]
    split <;> simp
  · rw [step_of_directive hkind]
    exact Command.inside_runText h rules body _ _

/-- The diagnostics of segmentation lie inside the document. -/
theorem inside_segment (rules : Ruleset) (doc : Document) :
    ∀ d ∈ (segment rules doc).findings.diagnostics, d.Inside doc.lineCount := by
  have hnext : ∀ (i : Nat) (line : String) (s : State) (out : Output), doc.lines[i]? = some line →
      (∀ d ∈ out.findings.diagnostics, d.Inside doc.lineCount) →
      ∀ d ∈ (out ++ (s.step rules doc (1 + i) line).2).findings.diagnostics,
        d.Inside doc.lineCount := by
    intro i line s out hline hout d hd
    have hi := (List.getElem?_eq_some_iff.1 hline).1
    rw [Output.findings_append, Findings.diagnostics_append] at hd
    rcases List.mem_append.1 hd with hd | hd
    · exact hout d hd
    · exact State.inside_step ⟨Nat.le_add_right 1 i, Nat.add_comm 1 i ▸ hi⟩ rules s d hd
  exact State.feed_induction
    (fun _ _ out => ∀ d ∈ out.findings.diagnostics, d.Inside doc.lineCount) doc.lines
    (by simp) hnext

end Segmentation

/-! ## Diagnostics of messages -/

/-- The message of a block without text is a zero-width space. -/
theorem Message.text_ofBlock_of_empty {block : Block} (h : block.text = "") :
    (Message.ofBlock block).text = String.singleton zeroWidthSpace := by
  have hbody : block.body = "" := by simp [Block.body, h]
  simp [Message.ofBlock, hbody, replaceLinks, replaceLinkChars_nil, pad]

/-- A block without text can only have too long a message, and that only if nothing is allowed. -/
theorem Block.diagnostics_of_empty {block : Block} (limits : Limits) (tags : Tags)
    (h : block.text = "") {d : Diagnostic} (hd : d ∈ block.diagnostics limits tags) :
    limits.messageLength = 0 ∧ d = (Message.ofBlock block).problem (.tooLong 0) := by
  have hrefs : references block.text = [] := by rw [h]; rfl
  have hlength : (Message.ofBlock block).length = 1 := by
    rw [Message.length, Message.text_ofBlock_of_empty h]
    rfl
  simp only [Block.diagnostics, hrefs, hlength, List.filter_nil, List.map_nil,
    List.nil_append] at hd
  split at hd
  · next hlt =>
    have hzero : limits.messageLength = 0 := by omega
    rw [hzero] at hd
    exact ⟨hzero, List.mem_singleton.1 hd⟩
  · simp at hd

/-- A diagnostic of a block is about its message. -/
theorem Block.exists_problem {block : Block} {limits : Limits} {tags : Tags} {d : Diagnostic}
    (hd : d ∈ block.diagnostics limits tags) :
    ∃ problem, (Message.ofBlock block).problem problem = d := by
  rcases List.mem_append.1 hd with hd | hd
  · obtain ⟨name, -, rfl⟩ := List.mem_map.1 hd
    exact ⟨_, rfl⟩
  · split at hd
    · exact ⟨_, (List.mem_singleton.1 hd).symm⟩
    · simp at hd

/-- The diagnostics of a block lie inside the document, except for the length of the message of a
    block without a line. -/
theorem Groups.inside_diagnostics {doc : Document} {blocks : List Block} (h : Groups doc blocks)
    (limits : Limits) (tags : Tags) {block : Block} (hblock : block ∈ blocks) {d : Diagnostic}
    (hd : d ∈ block.diagnostics limits tags) :
    d.Inside doc.lineCount ∨ (limits.messageLength = 0 ∧
      d = (Message.ofBlock block).problem (.tooLong 0) ∧
      ∀ k, doc.IsText k → ¬ (Message.ofBlock block).Covers k) := by
  obtain ⟨last, hlast, range⟩ := h.range block hblock
  by_cases hlt : last < block.firstLine
  · obtain ⟨hzero, rfl⟩ :=
      Block.diagnostics_of_empty limits tags ((h.text block hblock last hlast).text_empty hlt) hd
    refine Or.inr ⟨hzero, rfl, fun k _ hcovers => ?_⟩
    simp only [Message.Covers, Message.ofBlock, hlast, Option.getD_some] at hcovers
    omega
  · refine Or.inl ?_
    have hfirst := Document.bounds_of_isText (range.isText (Nat.le_refl _) (Nat.le_of_not_lt hlt))
    have hend := Document.bounds_of_isText (range.isText (Nat.le_of_not_lt hlt) (Nat.le_refl _))
    obtain ⟨problem, rfl⟩ := Block.exists_problem hd
    simp only [Diagnostic.Inside, Message.problem, Message.ofBlock, hlast, Option.getD_some]
    omega

/-- **Diagnostics never leave the document.** With room for at least one character in a message,
    every diagnostic is about lines of the document. With room for none, the only others are about
    the length of messages that hold no line of text. -/
theorem analyze_diagnostics_inside (rules : Ruleset) (text : String) :
    (1 ≤ rules.limits.messageLength →
      ∀ d ∈ (analyze rules text).diagnostics, d.Inside (analyze rules text).lineCount) ∧
    (rules.limits.messageLength = 0 →
      ∀ d ∈ (analyze rules text).diagnostics, ¬ d.Inside (analyze rules text).lineCount →
        ∃ m ∈ (analyze rules text).messages, d = m.problem (.tooLong 0) ∧
          ∀ k, (Document.ofText text).IsText k → ¬ m.Covers k) := by
  have hall : ∀ d ∈ (analyze rules text).diagnostics, d.Inside (analyze rules text).lineCount ∨
      (rules.limits.messageLength = 0 ∧ ∃ m ∈ (analyze rules text).messages,
        d = m.problem (.tooLong 0) ∧ ∀ k, (Document.ofText text).IsText k → ¬ m.Covers k) := by
    intro d hd
    rw [diagnostics_analyze] at hd
    rw [lineCount_analyze, messages_analyze]
    rcases List.mem_append.1 hd with hd | hd
    · exact Or.inl (Segmentation.inside_segment rules _ d hd)
    · obtain ⟨block, hblock, hd⟩ := List.mem_flatMap.1 hd
      have hgroups := Segmentation.groups_segment rules (Document.one_le_lineCount_ofText text)
      rcases hgroups.inside_diagnostics _ _ hblock hd with hinside | ⟨hzero, hproblem, hcovers⟩
      · exact Or.inl hinside
      · exact Or.inr ⟨hzero, _, List.mem_map.2 ⟨block, hblock, rfl⟩, hproblem, hcovers⟩
  refine ⟨fun hpos d hd => ?_, fun _ d hd houtside => ?_⟩
  · rcases hall d hd with hinside | ⟨hzero, -⟩
    · exact hinside
    · omega
  · rcases hall d hd with hinside | ⟨-, hmessage⟩
    · exact absurd hinside houtside
    · exact hmessage

/-- A directive on its own makes a message without a line, whose length is a problem outside the
    document where nothing is allowed. -/
theorem analyze_diagnostics_inside_pin :
    (∀ d ∈ (analyze ⟨fun _ => [], {}⟩ ".pin:never").diagnostics,
      d.Inside (analyze ⟨fun _ => [], {}⟩ ".pin:never").lineCount) ∧
    ∃ d ∈ (analyze ⟨fun _ => [], { messageLength := 0 }⟩ ".pin:").diagnostics,
      d.last < d.first ∧
        ∃ m ∈ (analyze ⟨fun _ => [], { messageLength := 0 }⟩ ".pin:").messages,
          d = m.problem (.tooLong 0) := by
  refine ⟨(analyze_diagnostics_inside _ _).1 (by decide), ?_⟩
  have hany : (analyze ⟨fun _ => [], { messageLength := 0 }⟩ ".pin:").diagnostics.any
      (fun d => d.last < d.first) = true := by decide +kernel
  obtain ⟨d, hd, hlast⟩ := List.any_eq_true.1 hany
  have hlt : d.last < d.first := of_decide_eq_true hlast
  obtain ⟨m, hm, hproblem, -⟩ := (analyze_diagnostics_inside _ _).2 rfl d hd fun hinside =>
    Nat.lt_irrefl _ (Nat.lt_of_lt_of_le hlt hinside.2.1)
  exact ⟨d, hd, hlt, m, hm, hproblem⟩

end GuideCheck
