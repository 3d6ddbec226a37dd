import GuideCheck.Proofs.Declaration
import GuideCheck.Proofs.LineEndings

set_option autoImplicit false

/-! # Problems of messages by their wording

A finished message can have two kinds of problems: it refers to tags that are not declared, and it
is too long. Directives report neither (`Segmentation.isOfDirective_of_mem_segment`), and nothing
that they report is worded like these (`Problem.not_isPrefix_message`). So the problems of messages
can be told by their wording among all that is reported about a document, and stand there message by
message (`filter_saysUndefined_analyze`, `filter_saysTooLong_analyze`). -/

namespace GuideCheck

/-- Whether a diagnostic is the warning that a message refers to a tag that is not declared. -/
def Diagnostic.saysUndefined (d : Diagnostic) : Bool :=
  !d.isError && "Message uses \"$linkmsg_".toList.isPrefixOf d.message.toList

/-! ## Wordings -/

/-- What the problems of finished messages begin with. -/
def messageOpenings : List (List Char) :=
  ["Message text exceeds".toList, "Message uses \"$linkmsg_".toList]

/-- A text that begins in another way. -/
theorem not_isPrefix_of_opening {text opening : List Char} (h : opening <+: text)
    (hother : ∀ wording ∈ messageOpenings, ¬ opening <+: wording ∧ ¬ wording <+: opening) :
    ∀ wording ∈ messageOpenings, ¬ wording <+: text := by
  intro wording hwording hprefix
  rcases List.prefix_or_prefix_of_prefix h hprefix with hle | hle
  · exact (hother wording hwording).1 hle
  · exact (hother wording hwording).2 hle

/-- No problem of a directive is worded like one of a finished message. -/
theorem Problem.not_isPrefix_message {p : Problem} (h : p.isOfDirective = true) :
    ∀ wording ∈ messageOpenings, ¬ wording <+: p.message.toList := by
  have hother : ∀ opening ∈ [['A'], ['C'], ['S'], ['T', 'o']] ++ [['U'], ['\'']],
      ∀ wording ∈ messageOpenings, ¬ opening <+: wording ∧ ¬ wording <+: opening := by
    decide +kernel
  unfold message
  cases p with
  | undefinedTag | tooLong | other => simp [isOfDirective] at h
  | violation v =>
    obtain ⟨opening, hmem, hopening⟩ := v.exists_opening
    exact not_isPrefix_of_opening hopening (hother opening (List.mem_append_right _ hmem))
  | component problem =>
    obtain ⟨opening, hmem, hopening⟩ := problem.exists_opening
    exact not_isPrefix_of_opening hopening (hother opening (List.mem_append_left _ hmem))
  | command fault => cases fault <;> decide +kernel
  | payloadParameter kind => cases kind <;> decide +kernel
  | payloadText kind => cases kind <;> decide +kernel
  | emptyField field => cases field <;> decide +kernel
  | unknownCommand | attachmentUrl | secondAttachment | secondTag | tagTaken | pinParameter =>
    decide +kernel

theorem Message.saysUndefined_problem (m : Message) (name : String) :
    (m.problem (.undefinedTag name)).saysUndefined = true := by
  have hmessage : (m.problem (.undefinedTag name)).message =
      "Message uses \"$linkmsg_" ++ name ++ "$\" without " ++ name ++
        " being defined in a .tag: command" := rfl
  rw [Diagnostic.saysUndefined, hmessage, String.append_assoc, String.append_assoc,
    String.append_assoc, String.toList_append, Bool.and_eq_true, List.isPrefixOf_iff_prefix]
  exact ⟨rfl, List.prefix_append _ _⟩

/-! ## What is reported about messages -/

/-- The warnings about undeclared tags of a block, by their wording. -/
theorem Block.filter_saysUndefined (limits : Limits) (tags : Tags) (block : Block) :
    (block.diagnostics limits tags).filter (·.saysUndefined) =
      ((references block.text).filter fun name => !tags.contains name).map fun name =>
        (Message.ofBlock block).problem (.undefinedTag name) := by
  have hall : ∀ d ∈ ((references block.text).filter fun name => !tags.contains name).map
      (fun name => (Message.ofBlock block).problem (.undefinedTag name)),
      d.saysUndefined = true := by
    intro d hd
    obtain ⟨name, -, rfl⟩ := List.mem_map.1 hd
    exact Message.saysUndefined_problem _ name
  have hlength : (if limits.messageLength < (Message.ofBlock block).length then
      [(Message.ofBlock block).problem (.tooLong limits.messageLength)] else []).filter
        (·.saysUndefined) = [] := by
    split
    · rfl
    · rfl
  rw [Block.diagnostics, List.filter_append, List.filter_eq_self.2 hall, hlength, List.append_nil]

/-- The error about the length of a block, by its wording. -/
theorem Block.filter_saysTooLong (limits : Limits) (tags : Tags) (block : Block) :
    (block.diagnostics limits tags).filter (·.saysTooLong) =
      if limits.messageLength < (Message.ofBlock block).length then
        [(Message.ofBlock block).problem (.tooLong limits.messageLength)] else [] := by
  have hnone : ∀ d ∈ ((references block.text).filter fun name => !tags.contains name).map
      (fun name => (Message.ofBlock block).problem (.undefinedTag name)),
      ¬ d.saysTooLong = true := by
    intro d hd
    obtain ⟨name, -, rfl⟩ := List.mem_map.1 hd
    exact Bool.false_ne_true
  rw [Block.diagnostics, List.filter_append, List.filter_eq_nil_iff.2 hnone, List.nil_append]
  split
  · rw [List.filter_singleton, Message.saysTooLong_problem]
    rfl
  · rfl

/-- What is worded like problems of messages is about messages. -/
theorem filter_diagnostics_analyze (rules : Ruleset) (text : String) {p : Diagnostic → Bool}
    (h : ∀ d, p d = true → ∃ wording ∈ messageOpenings, wording <+: d.message.toList) :
    (analyze rules text).diagnostics.filter p =
      (Segmentation.segment rules (Document.ofText text)).blocks.flatMap fun block =>
        (block.diagnostics rules.limits
          (Segmentation.segment rules (Document.ofText text)).tags).filter p := by
  have hnone : (Segmentation.segment rules (Document.ofText text)).findings.diagnostics.filter
      p = [] := by
    refine List.filter_eq_nil_iff.2 fun d hd hp => ?_
    obtain ⟨wording, hwording, hprefix⟩ := h d hp
    exact Problem.not_isPrefix_message (Segmentation.isOfDirective_of_mem_segment hd) wording
      hwording hprefix
  rw [diagnostics_analyze, List.filter_append, hnone, List.nil_append, List.filter_flatMap]

/-- All warnings about undeclared tags, message by message. -/
theorem filter_saysUndefined_analyze (rules : Ruleset) (text : String) :
    (analyze rules text).diagnostics.filter (·.saysUndefined) =
      (Segmentation.segment rules (Document.ofText text)).blocks.flatMap fun block =>
        ((references block.text).filter fun name =>
          !(Segmentation.segment rules (Document.ofText text)).tags.contains name).map fun name =>
            (Message.ofBlock block).problem (.undefinedTag name) := by
  rw [filter_diagnostics_analyze rules text fun d hd => ?_]
  · simp only [Block.filter_saysUndefined]
  · simp only [Diagnostic.saysUndefined, Bool.and_eq_true, List.isPrefixOf_iff_prefix] at hd
    exact ⟨_, by simp [messageOpenings], hd.2⟩

/-- All errors about the length of messages, message by message. -/
theorem filter_saysTooLong_analyze (rules : Ruleset) (text : String) :
    (analyze rules text).diagnostics.filter (·.saysTooLong) =
      ((analyze rules text).messages.filter (rules.limits.messageLength < ·.length)).map
        (·.problem (.tooLong rules.limits.messageLength)) := by
  rw [filter_diagnostics_analyze rules text fun d hd => ?_]
  · simp only [Block.filter_saysTooLong, messages_analyze]
    induction (Segmentation.segment rules (Document.ofText text)).blocks with
    | nil => rfl
    | cons block blocks ih =>
      rw [List.flatMap_cons, List.map_cons, List.filter_cons, ih]
      by_cases hlt : rules.limits.messageLength < (Message.ofBlock block).length
      · rw [if_pos hlt, if_pos (decide_eq_true hlt)]
        rfl
      · rw [if_neg hlt, if_neg (by simpa using hlt), List.nil_append]
  · simp only [Diagnostic.saysTooLong, Bool.and_eq_true, List.isPrefixOf_iff_prefix] at hd
    exact ⟨_, by simp [messageOpenings], hd.2⟩

end GuideCheck
