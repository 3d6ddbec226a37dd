import GuideCheck.Proofs.Quoting
import GuideCheck.Toml.Reader

set_option autoImplicit false

/-! # TOML lines are read back

A document is read line by line: `Reads` says to which draft the lines of a text lead from another
draft. A bare key with a value that was written, and a header, lead there in one step. The values
are strings in the form that they are quoted in, and natural numbers. -/

namespace GuideCheck.Toml

/-! ## Numbers -/

theorem digitIn?_digitChar {d : Nat} (h : d < 10) : digitIn? 10 d.digitChar = some d := by
  interval_cases d <;> rfl

/-- The digits of a number make up the number, and no zero is in front of others. -/
theorem exists_digits (n : Nat) :
    ∃ digits, (Nat.toDigits 10 n).mapM (digitIn? 10) = some digits ∧
      fromDigits 10 digits = n ∧
      (n < 10 ∧ digits = [n] ∨ 10 ≤ n ∧ ∃ first second rest,
        digits = first :: second :: rest ∧ first ≠ 0) := by
  induction n using Nat.strongRecOn with
  | ind n ih =>
    by_cases hsmall : n < 10
    · refine ⟨[n], ?_, by simp [fromDigits], .inl ⟨hsmall, rfl⟩⟩
      rw [Nat.toDigits_of_lt_base hsmall, List.mapM_cons, digitIn?_digitChar hsmall]
      rfl
    · obtain ⟨digits, hdigits, hvalue, hshape⟩ := ih (n / 10) (by omega)
      refine ⟨digits ++ [n % 10], ?_, ?_, .inr ⟨by omega, ?_⟩⟩
      · rw [Nat.toDigits_of_base_le (by decide) (by omega), List.mapM_append, hdigits,
          List.mapM_cons, digitIn?_digitChar (Nat.mod_lt n (by decide))]
        rfl
      · rw [fromDigits, List.foldl_concat, ← fromDigits, hvalue]
        omega
      · rcases hshape with ⟨-, rfl⟩ | ⟨-, first, second, rest, rfl, hfirst⟩
        · exact ⟨n / 10, n % 10, [], rfl, by omega⟩
        · exact ⟨first, second, rest ++ [n % 10], rfl, hfirst⟩

theorem ne_of_test {test : Char → Bool} {c mark : Char} (hc : test c = true)
    (hmark : test mark = false) : c ≠ mark := by
  rintro rfl
  rw [hc] at hmark
  cases hmark

theorem isDigit_of_mem_toDigits {n : Nat} {c : Char} (h : c ∈ Nat.toDigits 10 n) :
    c.isDigit = true :=
  Nat.isDigit_of_mem_toDigits (by decide) (by decide) h

theorem decimal?_toDigits (n : Nat) : decimal? (Nat.toDigits 10 n) = some n := by
  have hsplit : Text.split '_' (Nat.toDigits 10 n) = [Nat.toDigits 10 n] := by
    refine Text.split_of_notMem fun hmem => ?_
    exact absurd (isDigit_of_mem_toDigits hmem) (by decide)
  obtain ⟨digits, hdigits, hvalue, hshape⟩ := exists_digits n
  have hgrouped : grouped? 10 (Nat.toDigits 10 n) = some digits := by
    simp [grouped?, hsplit, Nat.toDigits_ne_nil, hdigits]
  rw [decimal?, hgrouped]
  rcases hshape with ⟨-, rfl⟩ | ⟨-, first, second, rest, rfl, hfirst⟩
  · rfl
  · obtain ⟨first, rfl⟩ := Nat.exists_eq_succ_of_ne_zero hfirst
    exact congrArg some hvalue

/-- A natural number is an integer of its digits. -/
theorem integer?_toDigits {n : Nat} (h : n < 2 ^ 128) :
    integer? (Nat.toDigits 10 n) = some (.integer n) := by
  have hdecimal := decimal?_toDigits n
  have hheld : isHeld n = true := by
    simp only [isHeld, Bool.and_eq_true, decide_eq_true_eq]
    omega
  have hne : ∀ mark : Char, mark.isDigit = false → mark ∉ Nat.toDigits 10 n :=
    fun mark hmark hmem => ne_of_test (isDigit_of_mem_toDigits hmem) hmark rfl
  have hsigned : signed (Nat.toDigits 10 n) = (false, Nat.toDigits 10 n) := by
    rw [signed]
    · exact fun _ heq => hne '-' (by decide) (heq ▸ List.mem_cons_self)
    · exact fun _ heq => hne '+' (by decide) (heq ▸ List.mem_cons_self)
  have hbase : ∀ mark : Char, mark.isDigit = false →
      ∀ digits, Nat.toDigits 10 n ≠ '0' :: mark :: digits :=
    fun mark hmark digits heq => hne mark hmark (by simp [heq])
  rw [integer?]
  · simp [hsigned, hdecimal, hheld]
  · exact hbase 'x' (by decide)
  · exact hbase 'o' (by decide)
  · exact hbase 'b' (by decide)

/-- The digits of a number end where its line ends. -/
theorem scalar_toDigits {n : Nat} (h : n < 2 ^ 128) (rest : List Char) :
    scalar (Nat.toDigits 10 n ++ '\n' :: rest) = some (.integer n, '\n' :: rest) := by
  have hchars : ∀ c ∈ Nat.toDigits 10 n, isScalarChar c = true := by
    intro c hc
    have hdigit := isDigit_of_mem_toDigits hc
    simp [isScalarChar, Char.isAlphanum, hdigit]
  have hend : isScalarChar '\n' = false := by decide
  have htext : scalarText (Nat.toDigits 10 n ++ '\n' :: rest) =
      (Nat.toDigits 10 n, '\n' :: rest) := by
    rw [scalarText, List.takeWhile_append_of_pos hchars, List.dropWhile_append_of_pos hchars,
      List.takeWhile_cons_of_neg (by simp [hend]), List.dropWhile_cons_of_neg (by simp [hend]),
      List.append_nil]
    split
    · next heq => exact absurd (List.cons.inj heq).1 (by decide)
    · rfl
  have hword : ∀ word : String, (word.toList.all Char.isDigit) = false →
      Nat.toDigits 10 n ≠ word.toList := by
    intro word hword heq
    rw [← heq, List.all_eq_true.2 fun c => isDigit_of_mem_toDigits] at hword
    cases hword
  rw [scalar, htext]
  simp only [if_neg (hword "true" (by decide)), if_neg (hword "false" (by decide)),
    integer?_toDigits h]
  rfl

/-! ## Values -/

theorem exists_maxDepth : ∃ room, maxDepth = room + 1 := ⟨79, rfl⟩

/-- Whether a text that begins with no blank is read as a value where a line feed follows it. -/
structure Writes (written : List Char) (value : Toml) : Prop where
  starts (rest : List Char) : dropSpaces (written ++ '\n' :: rest) = written ++ '\n' :: rest
  value (rest : List Char) :
    value? maxDepth (written ++ '\n' :: rest) = some (value, '\n' :: rest)

theorem writes_toDigits {n : Nat} (h : n < 2 ^ 128) : Writes (Nat.toDigits 10 n) (.integer n) := by
  obtain ⟨c, cs, hcons⟩ := List.exists_cons_of_ne_nil (Nat.toDigits_ne_nil (n := n) (b := 10))
  have hdigit : c.isDigit = true := isDigit_of_mem_toDigits (hcons ▸ List.mem_cons_self)
  have hne : ∀ mark : Char, mark.isDigit = false → c ≠ mark := fun _ => ne_of_test hdigit
  constructor
  · intro rest
    rw [hcons, List.cons_append, dropSpaces, List.dropWhile_cons_of_neg]
    simp [hne ' ' (by decide), hne '\t' (by decide)]
  · intro rest
    have hscalar := scalar_toDigits h rest
    obtain ⟨room, hroom⟩ := exists_maxDepth
    rw [hcons, List.cons_append] at hscalar ⊢
    rw [hroom, value?]
    · exact hscalar
    · exact fun _ heq => hne '"' (by decide) (List.cons.inj heq).1
    · exact fun _ heq => hne '\'' (by decide) (List.cons.inj heq).1
    · exact fun _ heq => hne '[' (by decide) (List.cons.inj heq).1
    · exact fun _ heq => hne '\x7b' (by decide) (List.cons.inj heq).1

theorem exists_quote_cons (text : String) :
    ∃ rest, (quote text).toList = '"' :: rest ∨ (quote text).toList = '\'' :: rest := by
  rw [quote, String.toList_ofList]
  cases formOf text.toList with
  | basic => exact ⟨_, .inl rfl⟩
  | literal => exact ⟨_, .inr rfl⟩
  | multilineBasic => exact ⟨_, .inl rfl⟩
  | multilineLiteral => exact ⟨_, .inr rfl⟩

theorem writes_quote (text : String) : Writes (quote text).toList (.string text) := by
  obtain ⟨others, hquote⟩ := exists_quote_cons text
  constructor
  · intro rest
    rcases hquote with hquote | hquote <;> rw [hquote] <;> rfl
  · intro rest
    have hread := quoted?_quote text rest
    rcases hquote with hquote | hquote
    · rw [hquote, List.cons_append] at hread ⊢
      rw [value?, hread]
      exact congrArg (fun text => some (string text, '\n' :: rest)) String.ofList_toList
    · rw [hquote, List.cons_append] at hread ⊢
      rw [value?, hread]
      exact congrArg (fun text => some (string text, '\n' :: rest)) String.ofList_toList

/-! ## Lines -/

/-- Whether a text leads from one draft to another, to its end. -/
def Reads (draft : Draft) (text : List Char) (final : Draft) : Prop :=
  ∀ fuel, text.length < fuel → statements? fuel draft text = some final

/-- A character that a line with a statement can begin with. -/
def IsStart (c : Char) : Prop := c ≠ ' ' ∧ c ≠ '\t' ∧ c ≠ '#' ∧ c ≠ '\n' ∧ c ≠ '\r'

instance (c : Char) : Decidable (IsStart c) :=
  inferInstanceAs (Decidable (c ≠ ' ' ∧ c ≠ '\t' ∧ c ≠ '#' ∧ c ≠ '\n' ∧ c ≠ '\r'))

theorem dropSpaces_of_ne {c : Char} (hspace : c ≠ ' ') (htab : c ≠ '\t') (rest : List Char) :
    dropSpaces (c :: rest) = c :: rest := by
  rw [dropSpaces, List.dropWhile_cons_of_neg]
  simp [hspace, htab]

theorem dropBlank?_of_isStart {c : Char} (h : IsStart c) (fuel : Nat) (rest : List Char) :
    dropBlank? fuel (c :: rest) = some (c :: rest) := by
  obtain ⟨hspace, htab, hcomment, hfeed, hreturn⟩ := h
  cases fuel with
  | zero => rfl
  | succ fuel =>
    rw [dropBlank?, dropSpaces_of_ne hspace htab]
    split
    · next heq => exact absurd (List.cons.inj heq).1 hcomment
    · next heq => exact absurd (List.cons.inj heq).1 hfeed
    · next heq => exact absurd (List.cons.inj heq).1 hreturn
    · rfl

theorem reads_nil (draft : Draft) : Reads draft [] draft := by
  intro fuel hfuel
  cases fuel with
  | zero => cases hfuel
  | succ fuel => rfl

/-- An empty line says nothing. -/
theorem Reads.blank {draft final : Draft} {rest : List Char} (h : Reads draft rest final) :
    Reads draft ('\n' :: rest) final := by
  intro fuel hfuel
  have hrest := h fuel (Nat.lt_of_succ_lt hfuel)
  cases fuel with
  | zero => cases hfuel
  | succ fuel =>
    rw [statements?] at hrest ⊢
    exact hrest

/-- A statement leads on to what is behind its line. -/
theorem Reads.line {draft next final : Draft} {text rest : List Char}
    (hstart : ∀ c ∈ text.head?, IsStart c) (hrest : rest.length < text.length)
    (hline : statement? draft text = some (next, '\n' :: rest))
    (h : Reads next rest final) : Reads draft text final := by
  intro fuel hfuel
  obtain ⟨c, line, rfl⟩ := List.exists_cons_of_length_pos (Nat.zero_lt_of_lt hrest)
  cases fuel with
  | zero => cases hfuel
  | succ fuel =>
    have hfinal := h fuel (by omega)
    rw [statements?, dropBlank?_of_isStart (hstart c rfl)]
    simp only [hline, Option.bind_eq_bind, Option.bind_some]
    exact hfinal

/-! ## Statements -/

/-- A name that is a key without quotes. -/
def IsBare (name : String) : Prop :=
  name.toList ≠ [] ∧ name.toList.all isBareChar = true

instance (name : String) : Decidable (IsBare name) :=
  inferInstanceAs (Decidable (name.toList ≠ [] ∧ name.toList.all isBareChar = true))

theorem IsBare.exists_cons {name : String} (h : IsBare name) :
    ∃ c cs, name.toList = c :: cs ∧ isBareChar c = true := by
  obtain ⟨c, cs, hcons⟩ := List.exists_cons_of_ne_nil h.1
  exact ⟨c, cs, hcons, List.all_eq_true.1 h.2 c (hcons ▸ List.mem_cons_self)⟩

theorem isStart_of_isBareChar {c : Char} (h : isBareChar c = true) : IsStart c ∧ c ≠ '[' := by
  have hne : ∀ mark : Char, isBareChar mark = false → c ≠ mark := fun _ => ne_of_test h
  exact ⟨⟨hne ' ' (by decide), hne '\t' (by decide), hne '#' (by decide), hne '\n' (by decide),
    hne '\r' (by decide)⟩, hne '[' (by decide)⟩

/-- A bare key is read up to the first character that it cannot have. -/
theorem IsBare.keyPart?_eq {name : String} (h : IsBare name) {c : Char}
    (hc : isBareChar c = false) (rest : List Char) :
    keyPart? (name.toList ++ c :: rest) = some (name, c :: rest) := by
  have hall := List.all_eq_true.1 h.2
  have hbare : ¬ isBareChar c = true := Bool.eq_false_iff.1 hc
  have hkey : (name.toList ++ c :: rest).takeWhile isBareChar = name.toList := by
    rw [List.takeWhile_append_of_pos hall, List.takeWhile_cons_of_neg hbare, List.append_nil]
  have hrest : (name.toList ++ c :: rest).dropWhile isBareChar = c :: rest := by
    rw [List.dropWhile_append_of_pos hall, List.dropWhile_cons_of_neg hbare]
  obtain ⟨first, others, hcons, hfirst⟩ := h.exists_cons
  rw [keyPart?, hkey, hrest]
  · simp [h.1]
  · rw [hcons]
    exact fun _ heq => ne_of_test hfirst (by decide) (List.cons.inj heq).1
  · rw [hcons]
    exact fun _ heq => ne_of_test hfirst (by decide) (List.cons.inj heq).1

theorem IsBare.key?_eq {name : String} (h : IsBare name) {c : Char} {rest : List Char}
    (hc : isBareChar c = false) (hdot : (dropSpaces (c :: rest)).head? ≠ some '.') :
    key? (name.toList ++ c :: rest) = some ([name], dropSpaces (c :: rest)) := by
  obtain ⟨room, hroom⟩ := exists_maxDepth
  obtain ⟨first, others, hcons, hfirst⟩ := h.exists_cons
  have hspaces : dropSpaces (name.toList ++ c :: rest) = name.toList ++ c :: rest := by
    rw [hcons, List.cons_append,
      dropSpaces_of_ne (ne_of_test hfirst (by decide)) (ne_of_test hfirst (by decide))]
  rw [key?, hroom, keyParts?, hspaces, h.keyPart?_eq hc]
  simp only [Option.bind_eq_bind, Option.bind_some]
  split
  · next heq => exact absurd (congrArg List.head? heq) hdot
  · rfl

/-- A line with a bare key and a written value puts the value under the key. -/
theorem Reads.entry {draft final : Draft} {body : Body} {name : String} {written rest : List Char}
    {value : Toml} (bare : IsBare name) (hvalue : Writes written value)
    (hbody : draft.body.within false (Body.assign [name] value) draft.path = some body)
    (h : Reads ⟨body, draft.path⟩ rest final) :
    Reads draft (name.toList ++ ' ' :: '=' :: ' ' :: (written ++ '\n' :: rest)) final := by
  let behind := '=' :: ' ' :: (written ++ '\n' :: rest)
  have hequals : dropSpaces (' ' :: behind) = behind := rfl
  have hspaces : dropSpaces (' ' :: (written ++ '\n' :: rest)) = written ++ '\n' :: rest :=
    hvalue.starts rest
  have hkey : key? (name.toList ++ ' ' :: behind) = some ([name], behind) :=
    bare.key?_eq (by decide) (by rw [hequals]; simp [behind])
  have hentry : entry? draft (name.toList ++ ' ' :: behind) =
      some (⟨body, draft.path⟩, '\n' :: rest) := by
    have hkept : dropSpaces behind = behind := rfl
    have hafter : after? '=' behind = some (' ' :: (written ++ '\n' :: rest)) := rfl
    rw [ entry?, hkey]
    simp only [Option.bind_eq_bind, Option.bind_some, hkept, hafter, hspaces, hvalue.value rest,
      hbody]
    rfl
  obtain ⟨c, cs, hcons, hc⟩ := bare.exists_cons
  obtain ⟨hstart, hbracket⟩ := isStart_of_isBareChar hc
  have hline : statement? draft (name.toList ++ ' ' :: behind) =
      some (⟨body, draft.path⟩, '\n' :: rest) := by
    rw [hcons, List.cons_append] at hentry ⊢
    rw [statement?]
    · exact hentry
    · exact fun _ heq => hbracket (List.cons.inj heq).1
    · exact fun _ heq => hbracket (List.cons.inj heq).1
  refine h.line ?_ ?_ hline
  · rw [hcons]
    intro first hfirst
    obtain rfl := Option.some.inj hfirst
    exact hstart
  · simp only [List.length_append, List.length_cons]
    omega

/-- A header puts an empty table under a new key. -/
theorem Reads.header {draft final : Draft} {body : Body} {name : String} {rest : List Char}
    (bare : IsBare name) (hbody : draft.body.header Body.addHeader [name] = some body)
    (h : Reads ⟨body, [name]⟩ rest final) :
    Reads draft ('[' :: (name.toList ++ ']' :: '\n' :: rest)) final := by
  have hkey : key? (name.toList ++ ']' :: '\n' :: rest) = some ([name], ']' :: '\n' :: rest) :=
    bare.key?_eq (by decide) (by simp [dropSpaces])
  obtain ⟨c, cs, hcons, hc⟩ := bare.exists_cons
  have hbracket := (isStart_of_isBareChar hc).2
  have hclosing : Text.stripPrefix? [']'] (dropSpaces (']' :: '\n' :: rest)) =
      some ('\n' :: rest) := rfl
  have hline : statement? draft ('[' :: (name.toList ++ ']' :: '\n' :: rest)) =
      some (⟨body, [name]⟩, '\n' :: rest) := by
    rw [statement?]
    · rw [header?, hkey]
      simp only [Option.bind_eq_bind, Option.bind_some, hclosing, hbody]
      rfl
    · rw [hcons]
      exact fun _ heq => hbracket (List.cons.inj heq).1
  refine h.line ?_ ?_ hline
  · intro first hfirst
    obtain rfl := Option.some.inj hfirst
    decide
  · simp only [List.length_append, List.length_cons]
    omega

end GuideCheck.Toml
