import GuideCheck.Proofs.CarriageReturns
import GuideCheck.Proofs.Lockstep

set_option autoImplicit false

/-! # Line endings

A text whose lines end in a carriage return and a line feed is analyzed like the text with the line
feeds alone, but for the lengths of messages (`analyze_crlf`).

A carriage return at the end of a line (`Line.Returned`) changes neither what kind of line it is nor
the command in it, and shows in no search for keys and quoted names. It stays in the lines of text,
so that the texts of blocks are related by `Text.Returned`; and texts so related are the same
payload and refer to the same tags. The machine thus stays in step (`lockstep_returned`), and all
that it reports is the same (`Segmentation.diagnostics_segment_returned`). -/

namespace GuideCheck

/-- Whether a line is another one, perhaps with a carriage return at its end. -/
def Line.Returned (line line' : String) : Prop := line' = line ∨ line' = line ++ "\r"

/-! ## Lines of the text -/

namespace Text

/-- The text with a carriage return before each line feed. -/
def crlf (cs : List Char) : List Char :=
  cs.flatMap fun c => if c = '\n' then ['\r', '\n'] else [c]

theorem split_cons_of_ne {separator c : Char} (h : c ≠ separator) (cs : List Char) :
    split separator (c :: cs) = (c :: (pieces separator cs).1) :: (pieces separator cs).2 := by
  simp [split, pieces, h]

/-- The lines of the text with carriage returns are the old ones with carriage returns, but for the
    last. -/
theorem lines_crlf (cs : List Char) :
    List.Forall₂ (fun line line' => line' = line ∨ line' = line ++ ['\r']) (lines cs)
      (lines (crlf cs)) := by
  induction cs with
  | nil => exact .cons (.inl rfl) .nil
  | cons c cs ih =>
    by_cases hc : c = '\n'
    · have hcrlf : crlf (c :: cs) = '\r' :: '\n' :: crlf cs := by simp [crlf, hc]
      have hlines : lines ('\r' :: '\n' :: crlf cs) = ['\r'] :: lines (crlf cs) := by
        rw [lines, split_cons_of_ne (by decide)]
        rfl
      rw [hcrlf, hc, hlines, lines, split_cons_separator]
      exact .cons (.inr rfl) ih
    · have hcrlf : crlf (c :: cs) = c :: crlf cs := by simp [crlf, hc]
      rw [hcrlf, lines, lines, split_cons_of_ne hc, split_cons_of_ne hc]
      cases ih with
      | cons hfirst hrest =>
        refine .cons ?_ hrest
        rcases hfirst with h | h
        · exact .inl (by rw [h])
        · exact .inr (by rw [h]; rfl)

end Text

/-- The text with Windows line endings. -/
def crlf (text : String) : String := String.ofList (Text.crlf text.toList)

theorem Document.lines_crlf (text : String) :
    List.Forall₂ Line.Returned (ofText text).lines (ofText (GuideCheck.crlf text)).lines := by
  unfold ofText
  rw [GuideCheck.crlf, String.toList_ofList, List.forall₂_map_left_iff, List.forall₂_map_right_iff]
  refine (Text.lines_crlf text.toList).imp fun line line' h => ?_
  rcases h with rfl | rfl
  · exact .inl rfl
  · exact .inr String.ofList_append

/-! ## Kinds of lines -/

namespace Line

/-- The same line with a carriage return at the end of what it carries. -/
def withReturn : Line → Line
  | content text => content (text ++ "\r")
  | escaped text => escaped (text ++ "\r")
  | separator => separator
  | directive body => directive (body ++ "\r")

theorem classify_of_dot {raw : String} {rest : List Char} (h : raw.toList = '.' :: rest) :
    classify raw =
      if rest.all Text.isBlank then separator
      else if rest.head? = some '.' then escaped (String.ofList rest)
      else directive (String.ofList rest) := by
  simp only [classify, h]

theorem classify_of_head? {raw : String} (h : raw.toList.head? ≠ some '.') :
    classify raw = content raw := by
  unfold classify
  split
  next heq => simp [heq] at h
  next => rfl

/-- A carriage return at the end of a line is blank and no dot. -/
theorem classify_append_return (raw : String) :
    classify (raw ++ "\r") = (classify raw).withReturn := by
  have hchars : (raw ++ "\r").toList = raw.toList ++ ['\r'] := String.toList_append
  by_cases hdot : raw.toList.head? = some '.'
  · obtain ⟨rest, hraw⟩ := List.head?_eq_some_iff.1 hdot
    have hstring : String.ofList (rest ++ ['\r']) = String.ofList rest ++ "\r" :=
      String.ofList_append
    have hall : (rest ++ ['\r']).all Text.isBlank = rest.all Text.isBlank := by
      rw [List.all_append]
      exact Bool.and_true _
    rw [hraw, List.cons_append] at hchars
    rw [classify_of_dot hchars, classify_of_dot hraw, hall, hstring]
    by_cases hblank : rest.all Text.isBlank = true
    · rw [if_pos hblank, if_pos hblank]
      rfl
    · -- something follows the dot, so it is not the carriage return that does
      cases rest with
      | nil => exact absurd rfl hblank
      | cons c rest =>
        rw [if_neg hblank, if_neg hblank, List.cons_append, List.head?_cons, List.head?_cons]
        by_cases hc : some c = some '.'
        · rw [if_pos hc, if_pos hc]
          rfl
        · rw [if_neg hc, if_neg hc]
          rfl
  · have hhead : (raw ++ "\r").toList.head? ≠ some '.' := by
      rw [hchars]
      cases hraw : raw.toList with
      | nil => decide
      | cons c rest =>
        rw [hraw] at hdot
        exact hdot
    rw [classify_of_head? hdot, classify_of_head? hhead]
    rfl

end Line

/-! ## Commands -/

theorem Text.cutAt?_append_return {mark : Char} (h : mark ≠ '\r') (cs : List Char) :
    cutAt? mark (cs ++ ['\r']) = (cutAt? mark cs).map fun (a, b) => (a, b ++ ['\r']) := by
  induction cs with
  | nil => simp [cutAt?, h.symm]
  | cons c cs ih =>
    simp only [List.cons_append, cutAt?]
    by_cases hc : c = mark
    · simp [hc]
    · simp [hc, ih, Function.comp_def]

theorem Text.trim_append_return (cs : List Char) : trim (cs ++ ['\r']) = trim cs := by
  have hend (cs : List Char) : trimEnd (cs ++ ['\r']) = trimEnd cs := by
    simp [trimEnd, show isBlank '\r' = true by decide]
  unfold trim trimStart
  rw [List.dropWhile_append]
  by_cases hempty : (cs.dropWhile isBlank).isEmpty = true
  · rw [if_pos hempty, List.isEmpty_iff.1 hempty]
    rfl
  · rw [if_neg hempty, hend]

/-- The carriage return is trimmed before the command is read, and is no space after the colon. -/
theorem Command.parse_append_return (body : String) : parse (body ++ "\r") = parse body := by
  have hchars : (body ++ "\r").toList = body.toList ++ ['\r'] := String.toList_append
  unfold parse
  rw [hchars, Text.trim_append_return, Text.cutAt?_append_return (by decide)]
  cases Text.cutAt? ':' body.toList with
  | none => rfl
  | some parts =>
    obtain ⟨name, param⟩ := parts
    cases param with
    | nil => rfl
    | cons c param =>
      by_cases hspace : c = ' '
      · rw [hspace]
        rfl
      · simp [hspace]

/-! ## Searches -/

namespace Text

theorem isPrefixOf_append_return {needle : List Char} (h : needle.getLast? ≠ some '\r')
    (cs : List Char) : needle.isPrefixOf (cs ++ ['\r']) = needle.isPrefixOf cs := by
  rw [Bool.eq_iff_iff, List.isPrefixOf_iff_prefix, List.isPrefixOf_iff_prefix,
    List.prefix_concat_iff]
  refine or_iff_right ?_
  rintro rfl
  exact h List.getLast?_concat

/-- Whatever does not end in a carriage return is found without it. -/
theorem occursIn_append_return {needle : List Char} (h : needle.getLast? ≠ some '\r')
    (cs : List Char) : occursIn needle (cs ++ ['\r']) = occursIn needle cs := by
  induction cs with
  | nil =>
    have hbegins := isPrefixOf_append_return h []
    show (needle.isPrefixOf ([] ++ ['\r']) || occursIn needle []) = occursIn needle []
    rw [hbegins]
    cases needle <;> rfl
  | cons c cs ih =>
    have hbegins := isPrefixOf_append_return h (c :: cs)
    rw [List.cons_append] at hbegins ⊢
    rw [occursIn, occursIn, hbegins, ih]

theorem stripPrefix?_append_return {needle : List Char} (h : needle.getLast? ≠ some '\r')
    (cs : List Char) :
    stripPrefix? needle (cs ++ ['\r']) = (stripPrefix? needle cs).map (· ++ ['\r']) := by
  cases hstrip : stripPrefix? needle cs with
  | some rest =>
    rw [stripPrefix?_eq_some_iff] at hstrip
    rw [Option.map_some, stripPrefix?_eq_some_iff, hstrip, List.append_assoc]
  | none =>
    rw [Option.map_none, Option.eq_none_iff_forall_ne_some]
    intro rest hrest
    have hbegins : needle.isPrefixOf cs = true := by
      rw [← isPrefixOf_append_return h, List.isPrefixOf_iff_prefix]
      exact ⟨rest, (stripPrefix?_eq_some_iff.1 hrest).symm⟩
    obtain ⟨rest', hcs⟩ := List.isPrefixOf_iff_prefix.1 hbegins
    rw [stripPrefix?_eq_some_iff.2 hcs.symm] at hstrip
    cases hstrip

end Text

theorem getLast?_quoted (name : List Char) : (quoted name).getLast? ≠ some '\r' := by
  rw [quoted, List.getLast?_concat]
  decide

/-- Behind the closing quote a carriage return is a blank like others. -/
theorem startsWithKey_append_return (key cs : List Char) :
    startsWithKey key (cs ++ ['\r']) = startsWithKey key cs := by
  unfold startsWithKey
  rw [Text.stripPrefix?_append_return (getLast?_quoted key)]
  cases Text.stripPrefix? (quoted key) cs with
  | none => rfl
  | some rest =>
    refine decide_eq_decide.2 ?_
    rw [Text.trimStart, Text.trimStart, List.dropWhile_append]
    by_cases hempty : (rest.dropWhile Text.isBlank).isEmpty = true
    · rw [if_pos hempty, List.isEmpty_iff.1 hempty]
      rfl
    · rw [if_neg hempty]
      cases hrest : rest.dropWhile Text.isBlank with
      | nil => simp [hrest] at hempty
      | cons c rest => exact Iff.rfl

theorem hasKey_append_return (key cs : List Char) : hasKey key (cs ++ ['\r']) = hasKey key cs := by
  induction cs with
  | nil => rfl
  | cons c cs ih =>
    have hstarts := startsWithKey_append_return key (c :: cs)
    rw [List.cons_append] at hstarts ⊢
    rw [hasKey, hasKey, hstarts, ih]

theorem hasQuoted_append_return (name line : String) :
    hasQuoted name (line ++ "\r") = hasQuoted name line := by
  unfold hasQuoted
  rw [String.toList_append]
  exact Text.occursIn_append_return (getLast?_quoted name.toList) line.toList

namespace Document

/-- Whether a document is another one with carriage returns at the ends of some lines. -/
def Returned (doc doc' : Document) : Prop := List.Forall₂ Line.Returned doc.lines doc'.lines

theorem map_returned {lines lines' : List String} (h : List.Forall₂ Line.Returned lines lines')
    {p : String → Bool} (hp : ∀ line, p (line ++ "\r") = p line) :
    lines'.map p = lines.map p := by
  induction h with
  | nil => rfl
  | cons hline _ ih =>
    rw [List.map_cons, List.map_cons, ih]
    rcases hline with rfl | rfl
    · rfl
    · rw [hp]

variable {doc doc' : Document}

/-- A property that does not see carriage returns is found on the same line. -/
theorem Returned.findLine? (h : doc.Returned doc') {p : String → Bool}
    (hp : ∀ line, p (line ++ "\r") = p line) : doc'.findLine? p = doc.findLine? p := by
  have hfind (lines : List String) : lines.findIdx? p = (lines.map p).findIdx? id := by
    rw [List.findIdx?_map]
    rfl
  rw [Document.findLine?, Document.findLine?, hfind, hfind, map_returned h hp]

theorem Returned.findKey? (h : doc.Returned doc') (key : String) :
    doc'.findKey? key = doc.findKey? key := by
  refine h.findLine? fun line => ?_
  rw [String.toList_append]
  exact hasKey_append_return key.toList line.toList

theorem Returned.emptyPropertyLine? (h : doc.Returned doc') (property : String) :
    doc'.emptyPropertyLine? property = doc.emptyPropertyLine? property := by
  refine h.findLine? fun line => ?_
  rw [hasQuoted_append_return, hasQuoted_append_return]

theorem Returned.recoverLine? (h : doc.Returned doc') (v : Violation) :
    doc'.recoverLine? v = doc.recoverLine? v := by
  have hclue : Clue.line? doc' v = Clue.line? doc v := by
    funext clue
    cases clue with
    | pathKey => simp only [Clue.line?, funext h.findKey?]
    | additionalKey => simp only [Clue.line?, funext h.findKey?]
    | quotedName =>
      simp only [Clue.line?]
      exact Option.bind_congr fun name _ => h.findLine? (hasQuoted_append_return name)
  rw [Document.recoverLine?, Document.recoverLine?, hclue]

end Document

theorem Embed.check_returned {doc doc' : Document} (h : doc.Returned doc') (validate : Validator)
    (line : Nat) (payload : Json) :
    check doc' validate line payload = check doc validate line payload := by
  simp only [check, h.emptyPropertyLine?, h.recoverLine?]

/-! ## Payloads -/

/-- Whether two payloads are the same but for the fault, if they are not JSON. -/
inductive Payload.Agrees : Payload → Payload → Prop
  | same (payload : Payload) : Agrees payload payload
  | malformed (error error' : Json.ReadError) : Agrees (malformed error) (malformed error')

theorem Payload.read_returned (param : String) {a b : String}
    (h : Text.Returned a.toList b.toList) : (read param a).Agrees (read param b) := by
  have hparse := Json.toOption_parse_mendSurrogates h
  unfold read
  split
  · cases ha : Json.parse (Json.mendSurrogates a.toList) with
    | ok value =>
      cases hb : Json.parse (Json.mendSurrogates b.toList) with
      | ok value' =>
        rw [ha, hb] at hparse
        cases hparse
        exact .same _
      | error error => simp [ha, hb, Except.toOption] at hparse
    | error error =>
      cases hb : Json.parse (Json.mendSurrogates b.toList) with
      | ok value' => simp [ha, hb, Except.toOption] at hparse
      | error error' => exact .malformed error error'
  · exact .same _
  · exact .same _

/-- The diagnostics of a payload do not say where its fault is. -/
theorem Payload.diagnostics_findings_returned (rules : Ruleset) {doc doc' : Document}
    (hdoc : doc.Returned doc') (kind : PayloadKind) (line : Nat) (block block' : Block)
    {payload payload' : Payload} (h : payload.Agrees payload') :
    (payload'.findings rules doc' kind line block').diagnostics =
      (payload.findings rules doc kind line block).diagnostics := by
  cases h with
  | malformed error error' => rfl
  | same =>
    cases payload with
    | plain | refused | malformed => rfl
    | parsed value =>
      cases kind with
      | componentsV2 => rfl
      | embed => exact congrArg Findings.diagnostics (Embed.check_returned hdoc _ line value)

theorem Effect.textAfter_returned {a b : String} (h : Text.Returned a.toList b.toList)
    (effect : Effect) :
    Text.Returned (effect.textAfter a).toList (effect.textAfter b).toList := by
  cases effect with
  | nothing | attach | declare => exact h
  | read param =>
    have hread := Payload.read_returned param h
    rw [textAfter, textAfter]
    generalize Payload.read param a = payload at hread
    generalize Payload.read param b = payload' at hread
    cases hread with
    | malformed error error' => exact .refl _
    | same =>
      cases payload with
      | plain => exact h
      | refused | malformed | parsed => exact .refl _

/-! ## The machines in step -/

theorem Line.Corresponds.refl (line : Line) : line.Corresponds line := by
  cases line with
  | content text | escaped text => exact .text rfl rfl
  | separator => exact .separator
  | directive body => exact .directive rfl

theorem Line.Returned.corresponds {line line' : String} (h : Returned line line') :
    (classify line).Corresponds (classify line') := by
  rcases h with rfl | rfl
  · exact .refl _
  · rw [classify_append_return]
    cases classify line with
    | content text | escaped text => exact .text rfl rfl
    | separator => exact .separator
    | directive body => exact .directive (Command.parse_append_return body)

/-- A line of text keeps the carriage return at its end. -/
theorem Line.Returned.content? {line line' text text' : String} (h : Returned line line')
    (htext : (classify line).content? = some text)
    (htext' : (classify line').content? = some text') :
    Text.Returned text.toList text'.toList := by
  rcases h with rfl | rfl
  · rw [htext, Option.some.injEq] at htext'
    rw [htext']
    exact .refl _
  · have hreturn : text' = text ++ "\r" := by
      rw [classify_append_return] at htext'
      cases hline : classify line <;> simp_all [withReturn, Line.content?]
    rw [hreturn, String.toList_append]
    have hend : Text.Returned (text.toList ++ []) (text.toList ++ ['\r']) :=
      Text.Returned.ending.append_left text.toList
    rw [List.append_nil] at hend
    exact hend

/-- The relation on texts of blocks, whatever lines they come from. -/
def TextReturned (_first _next : Nat) (a b : String) : Prop := Text.Returned a.toList b.toList

theorem lockstep_returned : Lockstep (fun _ => Line.Returned) TextReturned where
  corresponds := fun hline => hline.corresponds
  empty := fun _ => .nil
  append := by
    intro first number line line' text text' a b hline htext htext' h
    unfold TextReturned
    rw [String.append_assoc, String.append_assoc, String.toList_append, String.toList_append]
    rw [String.toList_append, String.toList_append]
    exact h.append_feed (hline.content? htext htext')
  settle := fun effect h => effect.textAfter_returned h

/-! ## Diagnostics of directives -/

theorem Command.diagnostics_runText_returned (rules : Ruleset) {doc doc' : Document}
    (hdoc : doc.Returned doc') (line : Nat) {body body' : String} (hbody : parse body' = parse body)
    {block block' : Block} (hframe : block.SameFrame block')
    (htext : Text.Returned block.text.toList block'.text.toList) (tags : Tags) :
    (runText rules doc' line body' block' tags).findings.diagnostics =
      (runText rules doc line body block tags).findings.diagnostics := by
  unfold runText
  rw [hbody]
  cases parse body with
  | error fault => rfl
  | ok command =>
    simp only [run]
    rcases Directive.ofName? command.name with _ | (_ | _ | _ | kind | _)
    · rfl
    · simp only [attachProblems, hframe.attachment]
    · simp only [tagProblems, hframe.tag]
    · rfl
    · exact Payload.diagnostics_findings_returned rules hdoc kind line block block'
        (Payload.read_returned command.param htext)
    · rfl

namespace Segmentation

variable {number : Nat} {s t : State} {rules : Ruleset} {doc doc' : Document}

theorem State.diagnostics_addContent (s : State) (number : Nat) (text : String) :
    (s.addContent number text).2.findings.diagnostics = [] := by
  unfold addContent
  split <;> rfl

theorem State.diagnostics_separate (s : State) (number : Nat) :
    (s.separate number).2.findings.diagnostics = [] := by
  unfold separate
  split <;> rfl

/-- The machines report the same at a line. -/
theorem diagnostics_step_returned (hdoc : doc.Returned doc') {line line' : String}
    (h : InStep TextReturned number s t) (hpos : 1 ≤ number)
    (hline : Line.Returned line line') :
    (t.step rules doc' number line').2.findings.diagnostics =
      (s.step rules doc number line).2.findings.diagnostics := by
  have hlines := hline.corresponds
  generalize hkind : Line.classify line = kind at hlines
  generalize hkind' : Line.classify line' = kind' at hlines
  cases hlines with
  | text htext htext' =>
    rw [← hkind] at htext
    rw [← hkind'] at htext'
    rw [State.step_of_text htext, State.step_of_text htext', State.diagnostics_addContent,
      State.diagnostics_addContent]
  | separator =>
    rw [State.step_of_separator hkind, State.step_of_separator hkind',
      State.diagnostics_separate, State.diagnostics_separate]
  | directive hbody =>
    obtain ⟨hframe, _, _, htext⟩ := h.closedBlock hpos
    rw [State.step_of_directive hkind, State.step_of_directive hkind']
    simp only [State.direct]
    -- the same tags are declared on both sides
    rw [h.tags]
    exact Command.diagnostics_runText_returned rules hdoc number hbody hframe htext s.tags

/-- The machines report the same over lines. -/
theorem diagnostics_feed_returned (hdoc : doc.Returned doc') {lines lines' : List String}
    (h : InStep TextReturned number s t) (hpos : 1 ≤ number)
    (hlines : List.Forall₂ Line.Returned lines lines') :
    (t.feed rules doc' number lines').2.findings.diagnostics =
      (s.feed rules doc number lines).2.findings.diagnostics := by
  induction hlines generalizing s t number with
  | nil => rfl
  | @cons line line' rest rest' hline _ ih =>
    obtain ⟨hnext, -⟩ : StaysInStep TextReturned (number + 1) (s.step rules doc number line)
        (t.step rules doc' number line') := h.step lockstep_returned hpos hline
    simp only [State.feed_cons, Output.findings_append, Findings.diagnostics_append]
    rw [diagnostics_step_returned hdoc h hpos hline, ih hnext (Nat.le_succ_of_le hpos)]

/-- All that segmentation reports is the same. -/
theorem diagnostics_segment_returned (rules : Ruleset) (hdoc : doc.Returned doc') :
    (segment rules doc').findings.diagnostics = (segment rules doc).findings.diagnostics := by
  have hinitial : InStep TextReturned 1 State.initial State.initial :=
    .startBlock lockstep_returned {}
  exact diagnostics_feed_returned hdoc hinitial (Nat.le_refl 1) hdoc

end Segmentation

/-! ## Diagnostics of messages -/

namespace Text

/-- A displayed line ends at a carriage return or a line feed, and what comes after it refers to
    what the rest of the text refers to: an empty line more or less refers to nothing. -/
theorem displayPieces_of_lineEnd {c : Char} (hc : c = '\r' ∨ c = '\n') (cs : List Char) :
    (displayPieces (c :: cs)).1 = [] ∧
      (displayPieces (c :: cs)).2.filterMap reference? =
        (displayLines cs).filterMap reference? := by
  rcases hc with rfl | rfl
  · rw [displayPieces.eq_def]
    split
    next heq => cases heq
    next cs heq =>
      cases heq
      exact ⟨rfl, rfl⟩
    next heq =>
      cases heq
      exact ⟨rfl, rfl⟩
  · exact ⟨rfl, rfl⟩

theorem displayPieces_of_ne {c : Char} (hc : ¬ (c = '\r' ∨ c = '\n')) (cs : List Char) :
    displayPieces (c :: cs) = (c :: (displayPieces cs).1, (displayPieces cs).2) := by
  rw [displayPieces.eq_def]
  split
  next heq => cases heq
  next heq =>
    cases heq
    exact absurd (.inl rfl) hc
  next heq =>
    cases heq
    exact if_neg hc

theorem filterMap_displayLines (cs : List Char) :
    (displayLines cs).filterMap reference? =
      (reference? (displayPieces cs).1).toList ++
        (displayPieces cs).2.filterMap reference? := by
  rw [displayLines, List.filterMap_cons]
  cases reference? (displayPieces cs).1 <;> rfl

/-- The first displayed line is the same, and the other ones refer to the same. -/
theorem displayPieces_returned {cs cs' : List Char} (h : Returned cs cs') :
    (displayPieces cs').1 = (displayPieces cs).1 ∧
      (displayPieces cs').2.filterMap reference? = (displayPieces cs).2.filterMap reference? := by
  induction h with
  | nil => exact ⟨rfl, rfl⟩
  | ending => exact ⟨rfl, rfl⟩
  | @cons c cs cs' _ ih =>
    by_cases hc : c = '\r' ∨ c = '\n'
    · obtain ⟨hfirst, hrest⟩ := displayPieces_of_lineEnd hc cs
      obtain ⟨hfirst', hrest'⟩ := displayPieces_of_lineEnd hc cs'
      rw [hfirst, hfirst', hrest, hrest', filterMap_displayLines, filterMap_displayLines, ih.1,
        ih.2]
      exact ⟨rfl, rfl⟩
    · rw [displayPieces_of_ne hc, displayPieces_of_ne hc, ih.1, ih.2]
      exact ⟨rfl, rfl⟩
  | @feed cs cs' _ ih =>
    -- a carriage return and a line feed end one line
    refine ⟨rfl, ?_⟩
    show (displayLines cs').filterMap reference? = (displayLines cs).filterMap reference?
    rw [filterMap_displayLines, filterMap_displayLines, ih.1, ih.2]

end Text

theorem references_returned {a b : String} (h : Text.Returned a.toList b.toList) :
    references b = references a := by
  obtain ⟨hfirst, hrest⟩ := Text.displayPieces_returned h
  unfold references
  rw [Text.filterMap_displayLines, Text.filterMap_displayLines, hfirst, hrest]

/-- Whether a diagnostic is the error that the text of a message is too long. -/
def Diagnostic.saysTooLong (d : Diagnostic) : Bool :=
  d.isError && "Message text exceeds".toList.isPrefixOf d.message.toList

theorem Message.saysTooLong_problem (m : Message) (limit : Nat) :
    (m.problem (.tooLong limit)).saysTooLong = true := by
  have hmessage : (m.problem (.tooLong limit)).message =
      "Message text exceeds" ++ " " ++ toString limit ++ " characters" := rfl
  rw [Diagnostic.saysTooLong, hmessage, String.append_assoc, String.append_assoc,
    String.toList_append, Bool.and_eq_true, List.isPrefixOf_iff_prefix]
  exact ⟨rfl, List.prefix_append _ _⟩

/-- Without the complaint about its length, the diagnostics of a block are about its references. -/
theorem Block.filter_diagnostics (limits : Limits) (tags : Tags) (block : Block) :
    (block.diagnostics limits tags).filter (!·.saysTooLong) =
      (((references block.text).filter fun name => !tags.contains name).map fun name =>
        (Message.ofBlock block).problem (.undefinedTag name)).filter (!·.saysTooLong) := by
  unfold diagnostics
  rw [List.filter_append]
  split
  · simp [Message.saysTooLong_problem]
  · exact List.append_nil _

theorem Block.filter_diagnostics_returned (limits : Limits) (tags : Tags) {block block' : Block}
    (h : block.Matches TextReturned block') :
    (block'.diagnostics limits tags).filter (!·.saysTooLong) =
      (block.diagnostics limits tags).filter (!·.saysTooLong) := by
  obtain ⟨hframe, _, _, htext⟩ := h
  have hmessage := hframe.ofBlock
  rw [filter_diagnostics, filter_diagnostics, references_returned htext]
  simp only [Message.problem, hmessage.firstLine, hmessage.lastLine]

theorem Block.filter_flatMap_returned (limits : Limits) (tags : Tags) {blocks blocks' : List Block}
    (h : List.Forall₂ (Block.Matches TextReturned) blocks blocks') :
    (blocks'.flatMap (·.diagnostics limits tags)).filter (!·.saysTooLong) =
      (blocks.flatMap (·.diagnostics limits tags)).filter (!·.saysTooLong) := by
  induction h with
  | nil => rfl
  | cons hmatch _ ih =>
    rw [List.flatMap_cons, List.flatMap_cons, List.filter_append, List.filter_append, ih,
      filter_diagnostics_returned limits tags hmatch]

/-- **Line endings do not matter.** With a carriage return before each line feed a text has as many
    messages, with the same ranges, attachments and tags, and but for the lengths of messages the
    same is reported in the same order. -/
theorem analyze_crlf (rules : Ruleset) (text : String) :
    List.Forall₂ Message.SameFrame (analyze rules text).messages
        (analyze rules (crlf text)).messages ∧
      (analyze rules (crlf text)).diagnostics.filter (!·.saysTooLong) =
        (analyze rules text).diagnostics.filter (!·.saysTooLong) := by
  have hdoc : (Document.ofText text).Returned (Document.ofText (crlf text)) :=
    Document.lines_crlf text
  obtain ⟨hlength, hlines⟩ := List.forall₂_iff_get.1 hdoc
  obtain ⟨hblocks, htags⟩ := lockstep_returned.segment rules rules hlength.symm
    fun i line line' hline hline' => by
      obtain ⟨hi, rfl⟩ := List.getElem?_eq_some_iff.1 hline
      obtain ⟨hi', rfl⟩ := List.getElem?_eq_some_iff.1 hline'
      exact hlines i hi hi'
  constructor
  · rw [messages_analyze, messages_analyze, List.forall₂_map_left_iff, List.forall₂_map_right_iff]
    exact hblocks.imp fun block block' hmatch => hmatch.frame.ofBlock
  · rw [diagnostics_analyze, diagnostics_analyze, List.filter_append, List.filter_append, htags,
      Segmentation.diagnostics_segment_returned rules hdoc,
      Block.filter_flatMap_returned rules.limits _ hblocks]

end GuideCheck
