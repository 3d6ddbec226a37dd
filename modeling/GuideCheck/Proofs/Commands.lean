import GuideCheck.Command
import Mathlib.Data.List.Basic
import Mathlib.Data.List.TakeWhile

set_option autoImplicit false

/-! # The grammar of commands

A body is looked at twice: for a space after its first colon as it stands, and for the command
without the blanks around it. A colon is not blank, so it is the same colon both times
(`Text.IsTrimOf.cutAt?_eq`). A body is therefore refused for want of a colon only if it has none,
and a command is all of a body but the blanks around it (`Command.parse_grammar`). -/

namespace GuideCheck

namespace Text

/-! ## Trimmed texts -/

/-- Whether a text is another one without the blanks around it. -/
structure IsTrimOf (core text : List Char) : Prop where
  between : ∃ leading trailing, text = leading ++ core ++ trailing ∧
    (∀ c ∈ leading, isBlank c = true) ∧ ∀ c ∈ trailing, isBlank c = true
  head : ∀ c ∈ core.head?, isBlank c = false
  last : ∀ c ∈ core.getLast?, isBlank c = false

theorem exists_trimStart (cs : List Char) :
    ∃ leading, cs = leading ++ trimStart cs ∧ ∀ c ∈ leading, isBlank c = true :=
  ⟨cs.takeWhile isBlank, List.takeWhile_append_dropWhile.symm,
    fun _ hc => List.mem_takeWhile_imp hc⟩

theorem head_trimStart (cs : List Char) : ∀ c ∈ (trimStart cs).head?, isBlank c = false := by
  intro c hc
  have hnot := List.head?_dropWhile_not isBlank cs
  rw [← trimStart, Option.mem_def.1 hc] at hnot
  exact hnot

/-- Trimming at the end is trimming the reversed text at the start. -/
theorem trimEnd_eq (cs : List Char) : trimEnd cs = (trimStart cs.reverse).reverse := rfl

theorem exists_trimEnd (cs : List Char) :
    ∃ trailing, cs = trimEnd cs ++ trailing ∧ ∀ c ∈ trailing, isBlank c = true := by
  obtain ⟨leading, hleading, hblank⟩ := exists_trimStart cs.reverse
  refine ⟨leading.reverse, ?_, fun c hc => hblank c (List.mem_reverse.1 hc)⟩
  rw [trimEnd_eq, ← List.reverse_append, ← hleading, List.reverse_reverse]

theorem last_trimEnd (cs : List Char) : ∀ c ∈ (trimEnd cs).getLast?, isBlank c = false := by
  rw [trimEnd_eq, List.getLast?_reverse]
  exact head_trimStart cs.reverse

theorem isTrimOf_trim (cs : List Char) : IsTrimOf (trim cs) cs := by
  obtain ⟨leading, hleading, hblank⟩ := exists_trimStart cs
  obtain ⟨trailing, htrailing, hblank'⟩ := exists_trimEnd (trimStart cs)
  refine ⟨⟨leading, trailing, ?_, hblank, hblank'⟩, fun c hc => ?_, last_trimEnd (trimStart cs)⟩
  · rw [List.append_assoc, trim, ← htrailing, ← hleading]
  · -- a text that is not trimmed to nothing at its end begins as it did before
    refine head_trimStart cs c ?_
    rw [Option.mem_def, htrailing, List.head?_append_of_ne_nil]
    · exact hc
    · intro hnil
      rw [trim, hnil] at hc
      cases hc

section

variable {core text leading trailing blanks before rest : List Char} {mark : Char}

theorem trimStart_append (hblank : ∀ c ∈ leading, isBlank c = true)
    (hhead : ∀ c ∈ core.head?, isBlank c = false) : trimStart (leading ++ core) = core := by
  rw [trimStart, List.dropWhile_append_of_pos hblank]
  cases core with
  | nil => rfl
  | cons c cs => exact List.dropWhile_cons_of_neg (by simp [hhead c rfl])

theorem trimEnd_append (hblank : ∀ c ∈ trailing, isBlank c = true)
    (hlast : ∀ c ∈ core.getLast?, isBlank c = false) : trimEnd (core ++ trailing) = core := by
  rw [trimEnd_eq, List.reverse_append, trimStart_append, List.reverse_reverse]
  · exact fun c hc => hblank c (List.mem_reverse.1 hc)
  · rwa [List.head?_reverse]

/-- A text is trimmed in one way only. -/
theorem IsTrimOf.trim_eq (h : IsTrimOf core text) : trim text = core := by
  obtain ⟨leading, trailing, rfl, hblank, hblank'⟩ := h.between
  cases core with
  | nil =>
    -- the blanks on both sides are all there is, and all of them are trimmed at the start
    have hall : ∀ c ∈ leading ++ [] ++ trailing, isBlank c = true := by
      intro c hc
      rw [List.append_nil] at hc
      exact (List.mem_append.1 hc).elim (hblank c) (hblank' c)
    rw [trim, trimStart, List.dropWhile_eq_nil_iff.2 hall]
    rfl
  | cons c cs =>
    have hstart : trimStart (leading ++ (c :: cs) ++ trailing) = (c :: cs) ++ trailing := by
      rw [List.append_assoc]
      exact trimStart_append hblank h.head
    rw [trim, hstart, trimEnd_append hblank' h.last]

/-! ## Marks in trimmed texts -/

theorem notMem_of_blank (hmark : isBlank mark = false) (hblank : ∀ c ∈ blanks, isBlank c = true) :
    mark ∉ blanks := by
  intro hmem
  rw [hblank mark hmem] at hmark
  cases hmark

theorem IsTrimOf.mem_iff (h : IsTrimOf core text) (hmark : isBlank mark = false) :
    mark ∈ core ↔ mark ∈ text := by
  obtain ⟨leading, trailing, rfl, hblank, hblank'⟩ := h.between
  simp [notMem_of_blank hmark hblank, notMem_of_blank hmark hblank']

/-- The first mark of a trimmed text is that of the whole text, if the mark is not blank. -/
theorem IsTrimOf.cutAt?_eq (h : IsTrimOf core text) (hmark : isBlank mark = false)
    (hcut : cutAt? mark core = some (before, rest)) :
    ∃ leading trailing, cutAt? mark text = some (leading ++ before, rest ++ trailing) := by
  obtain ⟨leading, trailing, rfl, hblank, -⟩ := h.between
  obtain ⟨rfl, hbefore⟩ := cutAt?_eq_some_iff.1 hcut
  refine ⟨leading, trailing, cutAt?_eq_some_iff.2 ⟨by simp, ?_⟩⟩
  rw [List.mem_append, not_or]
  exact ⟨notMem_of_blank hmark hblank, hbefore⟩

end

end Text

namespace Command

/-! ## The grammar -/

/-- A command as it is written. -/
def text (command : Command) : List Char := command.name.toList ++ ':' :: command.param.toList

/-- Whether a body has a colon and a space follows the first one. -/
def SpaceFollowsColon (body : List Char) : Prop :=
  ∃ before after, body = before ++ ':' :: ' ' :: after ∧ ':' ∉ before

/-- Whether a command is what a body says. -/
structure IsWrittenIn (command : Command) (body : List Char) : Prop where
  trimmed : Text.IsTrimOf command.text body
  /-- the first colon ends the name -/
  name : ':' ∉ command.name.toList
  /-- no space follows the colon, not even one that is trimmed away -/
  space : ¬ SpaceFollowsColon body

theorem spaceFollowsColon_iff_cutAt? {body : List Char} :
    SpaceFollowsColon body ↔
      ∃ before after, Text.cutAt? ':' body = some (before, ' ' :: after) := by
  simp only [SpaceFollowsColon, Text.cutAt?_eq_some_iff]

theorem cutAt?_text {command : Command} (h : ':' ∉ command.name.toList) :
    Text.cutAt? ':' command.text = some (command.name.toList, command.param.toList) :=
  Text.cutAt?_eq_some_iff.2 ⟨rfl, h⟩

theorem SpaceFollowsColon.colon_mem {body : List Char} (h : SpaceFollowsColon body) :
    ':' ∈ body := by
  obtain ⟨before, after, rfl, -⟩ := h
  simp

namespace IsWrittenIn

variable {command : Command} {body : List Char}

theorem colon_mem (h : command.IsWrittenIn body) : ':' ∈ body := by
  rw [← h.trimmed.mem_iff (by decide)]
  simp [text]

/-- A name does not begin with a blank. -/
theorem head_name (h : command.IsWrittenIn body) :
    ∀ c ∈ command.name.toList.head?, Text.isBlank c = false := by
  intro c hc
  refine h.trimmed.head c ?_
  rw [text, List.head?_append, Option.mem_def.1 hc]
  rfl

/-- A parameter does not end with a blank. -/
theorem last_param (h : command.IsWrittenIn body) :
    ∀ c ∈ command.param.toList.getLast?, Text.isBlank c = false := by
  intro c hc
  refine h.trimmed.last c ?_
  rw [text, List.getLast?_append, List.getLast?_cons, Option.mem_def.1 hc]
  rfl

/-- A parameter does not begin with a space, which would follow the first colon of the body. -/
theorem head_param (h : command.IsWrittenIn body) : command.param.toList.head? ≠ some ' ' := by
  intro hspace
  obtain ⟨after, hafter⟩ := List.head?_eq_some_iff.1 hspace
  obtain ⟨leading, trailing, hcut⟩ := h.trimmed.cutAt?_eq (by decide) (cutAt?_text h.name)
  rw [hafter] at hcut
  exact h.space (spaceFollowsColon_iff_cutAt?.2 ⟨_, _, hcut⟩)

/-- A body says one command at most. -/
theorem unique {other : Command} (h : command.IsWrittenIn body) (h' : other.IsWrittenIn body) :
    command = other := by
  have htext : command.text = other.text := h.trimmed.trim_eq.symm.trans h'.trimmed.trim_eq
  have hparts := (cutAt?_text h.name).symm.trans ((congrArg _ htext).trans (cutAt?_text h'.name))
  simp only [Option.some.injEq, Prod.mk.injEq, String.toList_inj] at hparts
  cases command
  cases other
  exact congrArg₂ Command.mk hparts.1 hparts.2

end IsWrittenIn

/-! ## Reading -/

/-- A colon that is there is not trimmed away. -/
theorem cutAt?_trim_eq_none_iff (body : List Char) :
    Text.cutAt? ':' (Text.trim body) = none ↔ ':' ∉ body := by
  rw [Text.cutAt?_eq_none_iff, (Text.isTrimOf_trim body).mem_iff (by decide)]

theorem isWrittenIn_of_cutAt?_trim {body name param : List Char}
    (hspace : ¬ SpaceFollowsColon body)
    (hcut : Text.cutAt? ':' (Text.trim body) = some (name, param)) :
    IsWrittenIn ⟨String.ofList name, String.ofList param⟩ body := by
  obtain ⟨htrim, hname⟩ := Text.cutAt?_eq_some_iff.1 hcut
  have htext : text ⟨String.ofList name, String.ofList param⟩ = Text.trim body := by
    rw [text, String.toList_ofList, String.toList_ofList, htrim]
  refine ⟨?_, ?_, hspace⟩
  · rw [htext]
    exact Text.isTrimOf_trim body
  · rwa [String.toList_ofList]

/-- What a body is read as. -/
inductive Reads (body : List Char) : Except Fault Command → Prop
  | missingColon (h : ':' ∉ body) : Reads body (.error .missingColon)
  | spaceAfterColon (h : SpaceFollowsColon body) : Reads body (.error .spaceAfterColon)
  | command {command : Command} (h : command.IsWrittenIn body) : Reads body (.ok command)

/-- A body is read in one way only. -/
theorem Reads.unique {body : List Char} {result other : Except Fault Command}
    (h : Reads body result) (h' : Reads body other) : result = other := by
  cases h with
  | missingColon hcolon =>
    cases h' with
    | missingColon => rfl
    | spaceAfterColon hspace => exact absurd hspace.colon_mem hcolon
    | command hcommand => exact absurd hcommand.colon_mem hcolon
  | spaceAfterColon hspace =>
    cases h' with
    | missingColon hcolon => exact absurd hspace.colon_mem hcolon
    | spaceAfterColon => rfl
    | command hcommand => exact absurd hspace hcommand.space
  | command hcommand =>
    cases h' with
    | missingColon hcolon => exact absurd hcommand.colon_mem hcolon
    | spaceAfterColon hspace => exact absurd hspace hcommand.space
    | command hother => rw [hcommand.unique hother]

theorem reads_parse (body : String) : Reads body.toList (parse body) := by
  unfold parse
  split
  next hcut => exact .missingColon (Text.cutAt?_eq_none_iff.1 hcut)
  next before after hcut =>
    exact .spaceAfterColon (spaceFollowsColon_iff_cutAt?.2 ⟨before, after, hcut⟩)
  next parts hother hcut =>
    have hspace : ¬ SpaceFollowsColon body.toList := by
      rw [spaceFollowsColon_iff_cutAt?]
      rintro ⟨before, after, hcut'⟩
      exact hother before after (Option.some.inj (hcut.symm.trans hcut'))
    split
    next hnone =>
      -- the colon has been found before, so it cannot be missing now
      rw [Text.cutAt?_eq_none_iff.2 ((cutAt?_trim_eq_none_iff body.toList).1 hnone)] at hcut
      cases hcut
    next name param hparts => exact .command (isWrittenIn_of_cutAt?_trim hspace hparts)

theorem parse_eq_iff (body : String) (result : Except Fault Command) :
    parse body = result ↔ Reads body.toList result :=
  ⟨fun h => h ▸ reads_parse body, (reads_parse body).unique⟩

/-- **Commands are read by their grammar, and nothing is lost.** A body has no colon, or a space
    follows its first colon, or it is a command with blanks around it. The name of a command has no
    colon and begins with no blank, and its parameter ends with no blank and begins with no space.
    The colon is missing after trimming only where it was missing before. -/
theorem parse_grammar (body : String) :
    (parse body = .error .missingColon ↔ ':' ∉ body.toList) ∧
      (parse body = .error .spaceAfterColon ↔ SpaceFollowsColon body.toList) ∧
      ((∃ command, parse body = .ok command) ↔
        ':' ∈ body.toList ∧ ¬ SpaceFollowsColon body.toList) ∧
      (∀ command, parse body = .ok command ↔ command.IsWrittenIn body.toList) ∧
      (∀ command, parse body = .ok command →
        Text.trim body.toList = command.name.toList ++ ':' :: command.param.toList ∧
          ':' ∉ command.name.toList ∧
          (∀ c ∈ command.name.toList.head?, Text.isBlank c = false) ∧
          (∀ c ∈ command.param.toList.getLast?, Text.isBlank c = false) ∧
          command.param.toList.head? ≠ some ' ') ∧
      (Text.cutAt? ':' (Text.trim body.toList) = none ↔ ':' ∉ body.toList) := by
  have hread (command : Command) :
      parse body = .ok command ↔ command.IsWrittenIn body.toList := by
    rw [parse_eq_iff]
    exact ⟨fun | .command h => h, .command⟩
  refine ⟨?_, ?_, ⟨?_, ?_⟩, hread, ?_, cutAt?_trim_eq_none_iff body.toList⟩
  · rw [parse_eq_iff]
    exact ⟨fun | .missingColon h => h, .missingColon⟩
  · rw [parse_eq_iff]
    exact ⟨fun | .spaceAfterColon h => h, .spaceAfterColon⟩
  · rintro ⟨command, hcommand⟩
    have hwritten := (hread command).1 hcommand
    exact ⟨hwritten.colon_mem, hwritten.space⟩
  · rintro ⟨hcolon, hspace⟩
    cases hresult : parse body with
    | ok command => exact ⟨command, rfl⟩
    | error fault =>
      cases (parse_eq_iff body _).1 hresult with
      | missingColon h => exact absurd hcolon h
      | spaceAfterColon h => exact absurd h hspace
  · intro command hcommand
    have hwritten := (hread command).1 hcommand
    exact ⟨hwritten.trimmed.trim_eq, hwritten.name, hwritten.head_name, hwritten.last_param,
      hwritten.head_param⟩

/-- A name with a blank at its end, and a parameter of which nothing is left when it is trimmed. -/
theorem parse_grammar_blanks :
    parse "\u3000tag :\t\u00a0" = .ok ⟨"tag ", ""⟩ ∧
      IsWrittenIn ⟨"tag ", ""⟩ "\u3000tag :\t\u00a0".toList ∧
      Text.trim "\u3000tag :\t\u00a0".toList = "tag :".toList ∧ "".toList.head? ≠ some ' ' := by
  have hparse : parse "\u3000tag :\t\u00a0" = .ok ⟨"tag ", ""⟩ := by rfl
  obtain ⟨-, -, -, hread, hparts, -⟩ := parse_grammar "\u3000tag :\t\u00a0"
  obtain ⟨htrim, -, -, -, hspace⟩ := hparts ⟨"tag ", ""⟩ hparse
  exact ⟨hparse, (hread _).1 hparse, htrim, hspace⟩

end Command

end GuideCheck
