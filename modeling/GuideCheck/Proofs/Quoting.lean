import GuideCheck.Toml.Text
import GuideCheck.Toml.Writer
import Mathlib.Data.List.Infix
import Mathlib.Tactic.IntervalCases

set_option autoImplicit false

/-! # Quoted TOML strings are read back

Whatever its characters are, the form in which a string is written is read back to the string, as
long as a line feed follows it (`quoted?_quote`). There are four ways in which a character is
written between double quotes (`Escaped`), and escapes are read alike in strings of one line and of
several (`ReadsEscapes`). Quotes that stand for themselves are told apart from those that end the
string because there are never three of them in a row. -/

namespace GuideCheck.Toml

/-! ## Escapes -/

/-- Between a backslash and the end of what it escapes. -/
inductive Escape.IsOpen : Escape → Prop
  | begun : IsOpen .begun
  | code (left value : Nat) : IsOpen (.code left value)

/-- A reader that goes through escapes step by step. -/
structure ReadsEscapes (multiline : Bool) (read : Escape → List Char → Scanned) : Prop where
  backslash (rest : List Char) : read .outside ('\\' :: rest) = read .begun rest
  char {state : Escape} {c char : Char} (h : state.IsOpen)
    (step : state.step multiline c = some (.inl char)) (rest : List Char) :
    read state (c :: rest) = (read .outside rest).cons char
  next {state next : Escape} {c : Char} (h : state.IsOpen)
    (step : state.step multiline c = some (.inr next)) (rest : List Char) :
    read state (c :: rest) = read next rest

theorem readsEscapes_basic? : ReadsEscapes false basic? where
  backslash rest := rfl
  char h step rest := by cases h <;> (rw [basic?, step]; simp)
  next h step rest := by cases h <;> (rw [basic?, step]; simp)

theorem hexDigit?_upperHexDigit {n : Nat} (h : n < 16) :
    Text.hexDigit? (upperHexDigit n) = some n := by
  interval_cases n <;> rfl

theorem step_code {left value digit : Nat} {c : Char} (h : Text.hexDigit? c = some digit)
    (multiline : Bool) :
    Escape.step multiline (.code (left + 2) value) c =
      some (.inr (.code (left + 1) (value * 16 + digit))) := by
  rw [Escape.step, h]
  rfl

theorem step_code_last {value digit : Nat} {c : Char} (h : Text.hexDigit? c = some digit)
    (multiline : Bool) :
    Escape.step multiline (.code 1 value) c =
      (Text.ofCode? (value * 16 + digit)).map .inl := by
  rw [Escape.step, h]
  rfl

theorem ofCode?_toNat (c : Char) : Text.ofCode? c.toNat = some c := by
  have hvalid : c.toNat.isValidChar := c.valid
  rw [Text.ofCode?, if_pos hvalid, Char.ofNat_toNat]

section

variable {multiline : Bool} {read : Escape → List Char → Scanned}

theorem ReadsEscapes.digits (h : ReadsEscapes multiline read) {c : Char} (hc : c.toNat < 256)
    (rest : List Char) :
    read (.code 4 0)
        ('0' :: '0' :: upperHexDigit (c.toNat / 16) :: upperHexDigit (c.toNat % 16) :: rest) =
      (read .outside rest).cons c := by
  have hzero : Text.hexDigit? '0' = some 0 := rfl
  have hhigh := hexDigit?_upperHexDigit (n := c.toNat / 16) (by omega)
  have hlow := hexDigit?_upperHexDigit (n := c.toNat % 16) (by omega)
  have hlast : Escape.step multiline (.code 1 (c.toNat / 16)) (upperHexDigit (c.toNat % 16)) =
      some (.inl c) := by
    rw [step_code_last hlow, Nat.div_add_mod', ofCode?_toNat]
    rfl
  rw [h.next (.code 4 0) (step_code hzero multiline),
    h.next (.code 3 _) (step_code hzero multiline), h.next (.code 2 _) (step_code hhigh multiline)]
  exact h.char (.code 1 _) (by simpa using hlast) rest

/-- The escape of a control character is read as the character. -/
theorem ReadsEscapes.control (h : ReadsEscapes multiline read) {c : Char} (hc : c.toNat < 256)
    (rest : List Char) :
    read .outside (escapeControl c ++ rest) = (read .outside rest).cons c := by
  unfold escapeControl
  split
  case h_6 =>
    have hcode : Escape.step multiline .begun 'u' = some (.inr (.code 4 0)) := rfl
    rw [List.cons_append, h.backslash, List.cons_append, h.next .begun hcode]
    exact h.digits hc rest
  all_goals
    rw [List.cons_append, h.backslash]
    exact h.char .begun rfl rest

theorem ReadsEscapes.escaped (h : ReadsEscapes multiline read) {c : Char}
    (hc : c = '"' ∨ c = '\\') (rest : List Char) :
    read .outside ('\\' :: c :: rest) = (read .outside rest).cons c := by
  rw [h.backslash]
  rcases hc with rfl | rfl
  · exact h.char .begun rfl rest
  · exact h.char .begun rfl rest

end

/-! ## Written characters -/

/-- How a character is written after a row of quotes: in which characters, and how many quotes stand
    in a row at their end. -/
inductive Escaped (multiline : Bool) (row : Nat) : Char → List Char → Nat → Prop
  | quote (several : multiline = true) (few : row < 2) :
      Escaped multiline row '"' ['"'] (row + 1)
  | mark {c : Char} (h : c = '"' ∨ c = '\\') : Escaped multiline row c ['\\', c] 0
  | control {c : Char} (h : c.toNat < 256) : Escaped multiline row c (escapeControl c) 0
  | plain {c : Char} (quote : c ≠ '"') (backslash : c ≠ '\\') (carriageReturn : c ≠ '\r')
      (control : isControl c = true → multiline = true ∧ c = '\n') :
      Escaped multiline row c [c] 0

theorem isControl_eq_false {c : Char} (h : ¬(c.toNat < 0x20 ∨ c.toNat = 0x7f)) :
    isControl c = false := by
  obtain ⟨hlow, hdelete⟩ := not_or.1 h
  simp [isControl, hlow, hdelete]

theorem exists_escaped (multiline : Bool) (row : Nat) (c : Char) (text : List Char) :
    ∃ written row', Escaped multiline row c written row' ∧
      escapeText multiline row (c :: text) = written ++ escapeText multiline row' text := by
  rw [escapeText]
  by_cases hquote : c = '"'
  · subst hquote
    by_cases hrow : multiline = true ∧ row < 2
    · exact ⟨_, _, .quote hrow.1 hrow.2, by rw [if_pos rfl, if_pos hrow]; rfl⟩
    · exact ⟨_, _, .mark (.inl rfl), by rw [if_pos rfl, if_neg hrow]; rfl⟩
  by_cases hbackslash : c = '\\'
  · subst hbackslash
    exact ⟨_, _, .mark (.inr rfl), by rw [if_neg hquote, if_pos rfl]; rfl⟩
  rw [if_neg hquote, if_neg hbackslash]
  by_cases hfeed : c = '\n' ∧ multiline = true
  · obtain ⟨rfl, hseveral⟩ := hfeed
    refine ⟨_, _, .plain hquote hbackslash (by decide) fun _ => ⟨hseveral, rfl⟩, ?_⟩
    rw [if_pos ⟨rfl, hseveral⟩]
    rfl
  rw [if_neg hfeed]
  by_cases hcontrol : c.toNat < 0x20 ∨ c.toNat = 0x7f
  · exact ⟨_, _, .control (by omega), by rw [if_pos hcontrol]⟩
  · have hreturn : c ≠ '\r' := by
      rintro rfl
      exact hcontrol (.inl (by decide))
    have hplain : isControl c = true → multiline = true ∧ c = '\n' := by
      simp [isControl_eq_false hcontrol]
    exact ⟨_, _, .plain hquote hbackslash hreturn hplain, by rw [if_neg hcontrol]; rfl⟩

/-- What is written begins with a backslash, or else with the character. -/
theorem Escaped.exists_cons {multiline : Bool} {row row' : Nat} {c : Char} {written : List Char}
    (h : Escaped multiline row c written row') :
    ∃ first others, written = first :: others ∧
      (first = '\\' ∨ first = c ∧ c ≠ '\r' ∧ (c = '"' → multiline = true ∧ row < 2)) := by
  cases h with
  | quote several few => exact ⟨_, _, rfl, .inr ⟨rfl, by decide, fun _ => ⟨several, few⟩⟩⟩
  | mark _ => exact ⟨_, _, rfl, .inl rfl⟩
  | control _ =>
    unfold escapeControl
    split <;> exact ⟨_, _, rfl, .inl rfl⟩
  | plain quote _ carriageReturn _ =>
    exact ⟨_, _, rfl, .inr ⟨rfl, carriageReturn, fun heq => absurd heq quote⟩⟩

theorem exists_escapeText_cons (multiline : Bool) (row : Nat) (c : Char) (text : List Char) :
    ∃ first others, escapeText multiline row (c :: text) = first :: others ∧
      (first = '\\' ∨ first = c ∧ c ≠ '\r' ∧ (c = '"' → multiline = true ∧ row < 2)) := by
  obtain ⟨written, row', hescaped, hwritten⟩ := exists_escaped multiline row c text
  obtain ⟨first, others, rfl, hfirst⟩ := hescaped.exists_cons
  exact ⟨first, _, hwritten, hfirst⟩

/-! ## One line in double quotes -/

theorem basic?_cons {c : Char} (hquote : c ≠ '"') (hbackslash : c ≠ '\\')
    (hcontrol : isControl c = false) (rest : List Char) :
    basic? .outside (c :: rest) = (basic? .outside rest).cons c := by
  rw [basic?]
  simp only [if_neg hquote, if_neg hbackslash, hcontrol]
  rfl

/-- Written in one line, a text is read back up to the quote that ends it. -/
theorem basic?_escapeText (row : Nat) (text rest : List Char) :
    basic? .outside (escapeText false row text ++ '"' :: rest) = some (text, rest) := by
  induction text generalizing row with
  | nil => rfl
  | cons c text ih =>
    obtain ⟨written, row', hescaped, hwritten⟩ := exists_escaped false row c text
    rw [hwritten, List.append_assoc]
    cases hescaped with
    | quote several _ => cases several
    | mark h =>
      rw [List.cons_append, List.cons_append, List.nil_append, readsEscapes_basic?.escaped h, ih]
      rfl
    | control h =>
      rw [readsEscapes_basic?.control h, ih]
      rfl
    | plain quote backslash _ control =>
      have hcontrol : isControl c = false := by simpa using control
      rw [List.singleton_append, basic?_cons quote backslash hcontrol, ih]
      rfl

/-! ## Several lines in double quotes -/

section

variable {c : Char} {rest : List Char}

theorem multilineBasic?_open {state : Escape} {r : Char ⊕ Escape} (h : state.IsOpen)
    (step : state.step true c = some r) (rest : List Char) :
    multilineBasic? state (c :: rest) =
      r.elim (fun char => (multilineBasic? .outside rest).cons char)
        fun next => multilineBasic? next rest := by
  have hreturn : c ≠ '\r' := by
    rintro rfl
    cases h <;> cases step
  rw [multilineBasic?, step]
  · cases r <;> rfl
  · exact fun _ heq _ => hreturn heq
  · rintro rfl
    cases h
  · rintro rfl
    cases h

theorem multilineBasic?_outside (hc : c ≠ '\r') (rest : List Char) :
    multilineBasic? .outside (c :: rest) = multilineBasic?.plain c rest := by
  rw [multilineBasic?]
  exact fun _ heq _ => hc heq

theorem plain_of_ne_quote (hc : c ≠ '"') (rest : List Char) :
    multilineBasic?.plain c rest =
      if c = '\\' then multilineBasic? .begun rest
      else if isControl c ∧ c ≠ '\n' then none
      else (multilineBasic? .outside rest).cons c := by
  rw [multilineBasic?.plain.eq_def, if_neg hc]

/-- Before anything but two more quotes, a quote stands for itself. -/
theorem plain_quote (h : ∀ others, rest ≠ '"' :: '"' :: others) :
    multilineBasic?.plain '"' rest = (multilineBasic? .outside rest).cons '"' := by
  rw [multilineBasic?.plain, if_pos rfl]
  · exact fun _ heq => h _ heq
  · exact fun _ heq => h _ heq
  · exact fun _ heq => h _ heq

/-- Other characters stand for themselves, a line feed being the only control character. -/
theorem multilineBasic?_cons (hquote : c ≠ '"') (hbackslash : c ≠ '\\') (hreturn : c ≠ '\r')
    (hcontrol : isControl c = true → c = '\n') (rest : List Char) :
    multilineBasic? .outside (c :: rest) = (multilineBasic? .outside rest).cons c := by
  rw [multilineBasic?_outside hreturn, plain_of_ne_quote hquote, if_neg hbackslash,
    if_neg fun h => h.2 (hcontrol h.1)]

theorem readsEscapes_multilineBasic? : ReadsEscapes true multilineBasic? where
  backslash rest := by
    rw [multilineBasic?_outside (by decide), plain_of_ne_quote (by decide), if_pos rfl]
  char h step rest := multilineBasic?_open h step rest
  next h step rest := multilineBasic?_open h step rest

end

/-- After one quote that stands for itself there are not two more, unless the text ends there. -/
theorem escapeText_ne_quotes {row : Nat} {c : Char} {text : List Char}
    (h : ¬(row = 0 ∧ c = '"' ∧ text = [])) (rest others : List Char) :
    escapeText true (row + 1) (c :: text) ++ rest ≠ '"' :: '"' :: others := by
  intro heq
  obtain ⟨first, tail, hwritten, hfirst⟩ := exists_escapeText_cons true (row + 1) c text
  rw [hwritten, List.cons_append] at heq
  obtain ⟨rfl, -⟩ := List.cons.inj heq
  obtain ⟨hquote, -, hrow⟩ := hfirst.resolve_left (by decide)
  have hzero : row = 0 := by
    have hlt := (hrow hquote.symm).2
    omega
  subst hquote hzero
  cases text with
  | nil => exact h ⟨rfl, rfl, rfl⟩
  | cons d text =>
    obtain ⟨second, tail', hwritten', hsecond⟩ := exists_escapeText_cons true 2 d text
    rw [escapeText, if_pos rfl, if_pos ⟨rfl, by decide⟩, hwritten'] at hwritten
    obtain ⟨-, rfl⟩ := List.cons.inj hwritten
    obtain ⟨-, htail⟩ := List.cons.inj heq
    obtain ⟨rfl, -⟩ := List.cons.inj htail
    obtain ⟨hquote, -, hrow'⟩ := hsecond.resolve_left (by decide)
    exact absurd (hrow' hquote.symm).2 (by decide)

/-- Up to two quotes stand for themselves before the three that end a text. -/
theorem multilineBasic?_closed (quotes : List Char)
    (h : quotes = [] ∨ quotes = ['"'] ∨ quotes = ['"', '"']) (rest : List Char) :
    multilineBasic? .outside (quotes ++ '"' :: '"' :: '"' :: '\n' :: rest) =
      some (quotes, '\n' :: rest) := by
  rcases h with rfl | rfl | rfl
  · rw [List.nil_append, multilineBasic?_outside (by decide)]
    simp [multilineBasic?.plain]
  · rw [List.cons_append, multilineBasic?_outside (by decide)]
    simp [multilineBasic?.plain]
  · rw [List.cons_append, multilineBasic?_outside (by decide)]
    simp [multilineBasic?.plain]

/-- Written in several lines, a text is read back up to the three quotes that end it. -/
theorem multilineBasic?_escapeText (row : Nat) (text rest : List Char) :
    multilineBasic? .outside (escapeText true row text ++ '"' :: '"' :: '"' :: '\n' :: rest) =
      some (text, '\n' :: rest) := by
  induction text generalizing row with
  | nil => exact multilineBasic?_closed [] (.inl rfl) rest
  | cons c text ih =>
    obtain ⟨written, row', hescaped, hwritten⟩ := exists_escaped true row c text
    rw [hwritten, List.append_assoc]
    cases hescaped with
    | quote _ _ =>
      rw [List.singleton_append]
      -- The end of the text may add up to two quotes to the three that close it.
      cases text with
      | nil => exact multilineBasic?_closed ['"'] (.inr (.inl rfl)) rest
      | cons d text =>
        by_cases hend : row = 0 ∧ d = '"' ∧ text = []
        · obtain ⟨rfl, rfl, rfl⟩ := hend
          exact multilineBasic?_closed ['"', '"'] (.inr (.inr rfl)) rest
        · rw [multilineBasic?_outside (by decide), plain_quote (escapeText_ne_quotes hend _), ih]
          rfl
    | mark h =>
      rw [List.cons_append, List.cons_append, List.nil_append,
        readsEscapes_multilineBasic?.escaped h, ih]
      rfl
    | control h =>
      rw [readsEscapes_multilineBasic?.control h, ih]
      rfl
    | plain quote backslash carriageReturn control =>
      rw [List.singleton_append,
        multilineBasic?_cons quote backslash carriageReturn (fun h => (control h).2), ih]
      rfl

/-! ## In single quotes -/

theorem literal?_append {text : List Char} (h : ∀ c ∈ text, c ≠ '\'' ∧ isControl c = false)
    (rest : List Char) : literal? (text ++ '\'' :: rest) = some (text, rest) := by
  induction text with
  | nil => rfl
  | cons c text ih =>
    obtain ⟨⟨hquote, hcontrol⟩, h⟩ := List.forall_mem_cons.1 h
    rw [List.cons_append, literal?, if_neg hquote, if_neg (by simp [hcontrol]), ih h]
    rfl

theorem multilineLiteral?_closed (quotes : List Char)
    (h : quotes = [] ∨ quotes = ['\''] ∨ quotes = ['\'', '\'']) (rest : List Char) :
    multilineLiteral? (quotes ++ '\'' :: '\'' :: '\'' :: '\n' :: rest) =
      some (quotes, '\n' :: rest) := by
  rcases h with rfl | rfl | rfl <;> simp [multilineLiteral?]

theorem multilineLiteral?_cons {c : Char} {rest : List Char} (hreturn : c ≠ '\r')
    (hcontrol : isControl c = true → c = '\n')
    (hquotes : c = '\'' → ∀ others, rest ≠ '\'' :: '\'' :: others) :
    multilineLiteral? (c :: rest) = (multilineLiteral? rest).cons c := by
  rw [multilineLiteral?, if_neg fun h => h.2 (hcontrol h.1)]
  · exact fun _ heq _ => hreturn heq
  · exact fun _ hc heq => hquotes hc _ heq
  · exact fun _ hc heq => hquotes hc _ heq
  · exact fun _ hc heq => hquotes hc _ heq

/-- A text without three quotes in a row is read up to the three quotes that end it. -/
theorem multilineLiteral?_append {text : List Char}
    (h : ∀ c ∈ text, c ≠ '\r' ∧ (isControl c = true → c = '\n'))
    (quotes : ¬ List.replicate 3 '\'' <:+: text) (rest : List Char) :
    multilineLiteral? (text ++ '\'' :: '\'' :: '\'' :: '\n' :: rest) =
      some (text, '\n' :: rest) := by
  induction text with
  | nil => exact multilineLiteral?_closed [] (.inl rfl) rest
  | cons c text ih =>
    obtain ⟨hc, h⟩ := List.forall_mem_cons.1 h
    by_cases hone : c = '\'' ∧ text = []
    · obtain ⟨rfl, rfl⟩ := hone
      exact multilineLiteral?_closed ['\''] (.inr (.inl rfl)) rest
    by_cases htwo : c = '\'' ∧ text = ['\'']
    · obtain ⟨rfl, rfl⟩ := htwo
      exact multilineLiteral?_closed ['\'', '\''] (.inr (.inr rfl)) rest
    have hquotes : c = '\'' → ∀ others,
        text ++ '\'' :: '\'' :: '\'' :: '\n' :: rest ≠ '\'' :: '\'' :: others := by
      rintro rfl others heq
      cases text with
      | nil => exact hone ⟨rfl, rfl⟩
      | cons d text =>
        obtain ⟨rfl, hrest⟩ := List.cons.inj heq
        cases text with
        | nil => exact htwo ⟨rfl, rfl⟩
        | cons e text =>
          obtain ⟨rfl, -⟩ := List.cons.inj hrest
          exact quotes (List.prefix_append _ text).isInfix
    rw [List.cons_append, multilineLiteral?_cons hc.1 hc.2 hquotes,
      ih h fun hrow => quotes (hrow.trans (List.suffix_cons c text).isInfix)]
    rfl

/-! ## Rows of quotes -/

section

variable (mark : Char)

/-- What a character does to the length of the row before it and to that of the longest row. -/
def countRow (lengths : Nat × Nat) (c : Char) : Nat × Nat :=
  if c = mark then (lengths.1 + 1, max lengths.2 (lengths.1 + 1)) else (0, lengths.2)

theorem longestRow_eq (text : List Char) :
    longestRow mark text = (text.foldl (countRow mark) (0, 0)).2 := rfl

theorem le_foldl_countRow (text : List Char) (lengths : Nat × Nat) :
    lengths.2 ≤ (text.foldl (countRow mark) lengths).2 := by
  induction text generalizing lengths with
  | nil => exact le_refl _
  | cons c text ih =>
    refine le_trans ?_ (ih _)
    unfold countRow
    split
    · exact le_max_left _ _
    · exact le_refl _

theorem foldl_countRow_replicate (k : Nat) (lengths : Nat × Nat) :
    ((List.replicate k mark).foldl (countRow mark) lengths).1 = lengths.1 + k := by
  induction k generalizing lengths with
  | zero => rfl
  | succ k ih =>
    rw [List.replicate_succ, List.foldl_cons, ih, countRow, if_pos rfl]
    omega

variable {mark}

/-- No row of a character is longer than the longest one. -/
theorem le_longestRow {k : Nat} {text : List Char} (h : List.replicate k mark <:+: text) :
    k ≤ longestRow mark text := by
  obtain ⟨before, after, rfl⟩ := h
  cases k with
  | zero => exact Nat.zero_le _
  | succ k =>
    rw [longestRow_eq, List.foldl_append, List.foldl_append]
    refine le_trans ?_ (le_foldl_countRow mark after _)
    rw [List.replicate_succ', List.foldl_concat, countRow, if_pos rfl, foldl_countRow_replicate]
    omega

end

/-! ## Any form -/

theorem ne_return_of_needsEscape {text : List Char} (h : text.any needsEscape = false) :
    ∀ c ∈ text, c ≠ '\r' ∧ (isControl c = true → c = '\n') := by
  intro c hc
  have hneeds : needsEscape c = false := by simpa using List.any_eq_false.1 h c hc
  constructor
  · rintro rfl
    exact absurd hneeds (by decide)
  · intro hcontrol
    by_contra hfeed
    have hescape : needsEscape c = isControl c := by
      rw [needsEscape, bne_iff_ne.2 hfeed, Bool.and_true]
      rfl
    rw [hescape, hcontrol] at hneeds
    cases hneeds

theorem formOf_literal {text : List Char} (h : formOf text = .literal) :
    text.any needsEscape = false ∧ longestRow '\'' text = 0 ∧ '\n' ∉ text := by
  unfold formOf at h
  grind

theorem formOf_multilineLiteral {text : List Char} (h : formOf text = .multilineLiteral) :
    text.any needsEscape = false ∧ longestRow '\'' text ≤ 2 := by
  unfold formOf at h
  grind

theorem dropLineEnd_of_ne {c : Char} (hfeed : c ≠ '\n') (hreturn : c ≠ '\r') (rest : List Char) :
    dropLineEnd (c :: rest) = c :: rest := by
  rw [dropLineEnd]
  · exact fun _ heq => hfeed (List.cons.inj heq).1
  · exact fun _ heq => hreturn (List.cons.inj heq).1

/-- Where a text begins on a line of its own, it is told from the line end before it. -/
theorem dropLineEnd_lineStart {text written : List Char}
    (h : '\n' ∉ text → ∃ c others, written = c :: others ∧ c ≠ '\n' ∧ c ≠ '\r') :
    dropLineEnd (lineStart text ++ written) = written := by
  rw [lineStart]
  by_cases hfeed : '\n' ∈ text
  · rw [if_pos (List.contains_iff_mem.2 hfeed)]
    rfl
  · obtain ⟨c, others, rfl, hc, hreturn⟩ := h hfeed
    rw [if_neg (by simpa using hfeed)]
    exact dropLineEnd_of_ne hc hreturn others

theorem quoted?_basic (text rest : List Char) :
    quoted? ('"' :: (escapeText false 0 text ++ '"' :: '\n' :: rest)) =
      some (text, '\n' :: rest) := by
  have hread := basic?_escapeText 0 text ('\n' :: rest)
  cases text with
  | nil => exact hread
  | cons c text =>
    obtain ⟨first, others, hwritten, hfirst⟩ := exists_escapeText_cons false 0 c text
    have hquote : first ≠ '"' := by
      rintro rfl
      obtain ⟨hquote, -, h⟩ := hfirst.resolve_left (by decide)
      exact absurd (h hquote.symm).1 (by decide)
    rw [hwritten, List.cons_append] at hread ⊢
    rw [quoted?]
    · exact hread
    · exact fun _ heq => hquote (List.cons.inj heq).1

theorem quoted?_literal {text : List Char} (h : formOf text = .literal) (rest : List Char) :
    quoted? ('\'' :: (text ++ '\'' :: '\n' :: rest)) = some (text, '\n' :: rest) := by
  obtain ⟨hescape, hrow, hfeed⟩ := formOf_literal h
  have hquote : '\'' ∉ text := by
    intro hmem
    have hone : List.replicate 1 '\'' <:+: text := (List.singleton_infix_iff _ _).2 hmem
    have hle := le_longestRow hone
    omega
  have hplain : ∀ c ∈ text, c ≠ '\'' ∧ isControl c = false := by
    intro c hc
    refine ⟨fun heq => hquote (heq ▸ hc), Bool.eq_false_iff.2 fun hcontrol => hfeed ?_⟩
    rwa [← (ne_return_of_needsEscape hescape c hc).2 hcontrol]
  have hread := literal?_append hplain ('\n' :: rest)
  cases text with
  | nil => exact hread
  | cons c text =>
    rw [List.cons_append] at hread ⊢
    rw [quoted?]
    · exact hread
    · exact fun _ heq => hquote (by rw [(List.cons.inj heq).1]; exact List.mem_cons_self)

theorem quoted?_multilineBasic (text rest : List Char) :
    quoted? ('"' :: '"' :: '"' ::
        (lineStart text ++ (escapeText true 0 text ++ '"' :: '"' :: '"' :: '\n' :: rest))) =
      some (text, '\n' :: rest) := by
  rw [quoted?, dropLineEnd_lineStart]
  · exact multilineBasic?_escapeText 0 text rest
  · intro hfeed
    cases text with
    | nil => exact ⟨_, _, rfl, by decide, by decide⟩
    | cons c text =>
      obtain ⟨first, others, hwritten, hfirst⟩ := exists_escapeText_cons true 0 c text
      refine ⟨first, _, by rw [hwritten, List.cons_append], ?_⟩
      rcases hfirst with rfl | ⟨rfl, hreturn, -⟩
      · decide
      · exact ⟨fun heq => hfeed (heq ▸ List.mem_cons_self), hreturn⟩

theorem quoted?_multilineLiteral {text : List Char} (h : formOf text = .multilineLiteral)
    (rest : List Char) :
    quoted? ('\'' :: '\'' :: '\'' ::
        (lineStart text ++ (text ++ '\'' :: '\'' :: '\'' :: '\n' :: rest))) =
      some (text, '\n' :: rest) := by
  obtain ⟨hescape, hrow⟩ := formOf_multilineLiteral h
  have hchars := ne_return_of_needsEscape hescape
  rw [quoted?, dropLineEnd_lineStart]
  · refine multilineLiteral?_append hchars (fun hquotes => ?_) rest
    have hle := le_longestRow hquotes
    omega
  · intro hfeed
    cases text with
    | nil => exact ⟨_, _, rfl, by decide, by decide⟩
    | cons c text =>
      exact ⟨c, _, rfl, fun heq => hfeed (heq ▸ List.mem_cons_self),
        (hchars c List.mem_cons_self).1⟩

/-- A string is read back in the form that it is written in. -/
theorem quoted?_quote (text : String) (rest : List Char) :
    quoted? ((quote text).toList ++ '\n' :: rest) = some (text.toList, '\n' :: rest) := by
  rw [quote, String.toList_ofList]
  cases hform : formOf text.toList with
  | basic => simpa using quoted?_basic text.toList rest
  | literal => simpa using quoted?_literal hform rest
  | multilineBasic => simpa using quoted?_multilineBasic text.toList rest
  | multilineLiteral => simpa using quoted?_multilineLiteral hform rest

end GuideCheck.Toml
