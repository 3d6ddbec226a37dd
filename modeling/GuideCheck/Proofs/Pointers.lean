import GuideCheck.Json.Value
import GuideCheck.Text.Lines
import GuideCheck.Violation
import Mathlib.Data.List.Basic
import Mathlib.Data.List.Induction

set_option autoImplicit false

/-! # Reading JSON pointers

A JSON pointer is a list of reference tokens, each after a slash. In a token `~1` stands for a slash
and `~0` for a tilde, and no other tilde may stand in it. A token leads from an object to the member
of that key, and from an array to the item of that index, which is written in decimal digits without
leading zeros.

Reading undoes writing (`readPointer?_pointer`). A written token has no slashes of its own, so a
pointer goes on after another one with a slash only if its tokens go on after those of the other
(`exists_of_pointer_isPrefix`). -/

namespace GuideCheck

/-! ## Reading -/

/-- What a written token stands for. -/
def unescapeToken? : List Char → Option (List Char)
  | [] => some []
  | '~' :: '0' :: rest => (unescapeToken? rest).map ('~' :: ·)
  | '~' :: '1' :: rest => (unescapeToken? rest).map ('/' :: ·)
  | '~' :: _ => none
  | c :: rest => (unescapeToken? rest).map (c :: ·)

/-- The tokens of a pointer. -/
def readPointer? (text : String) : Option (List String) :=
  match Text.split '/' text.toList with
  | [] :: tokens => tokens.mapM fun token => (unescapeToken? token).map String.ofList
  | _ => none

/-- The index that a token gives. -/
def tokenIndex? (token : String) : Option Nat :=
  match token.toList with
  | [] => none
  | '0' :: _ :: _ => none
  | digits => if digits.all Char.isDigit then some (Nat.ofDigitChars 10 digits 0) else none

namespace Json

/-- The part of a value that one token leads to. -/
def part? (token : String) : Json → Option Json
  | obj members => members.lookup token
  | arr items => (tokenIndex? token).bind (items[·]?)
  | _ => none

/-- The part of a value that some tokens lead to. -/
def follow? : List String → Json → Option Json
  | [], value => some value
  | token :: path, value => (value.part? token).bind (follow? path)

/-- The part of a value that a JSON pointer leads to. -/
def at? (text : String) (value : Json) : Option Json := (readPointer? text).bind (value.follow? ·)

end Json

/-! ## Tokens -/

theorem unescapeToken?_cons {c : Char} (h : c ≠ '~') (rest : List Char) :
    unescapeToken? (c :: rest) = (unescapeToken? rest).map (c :: ·) := by
  conv_lhs => unfold unescapeToken?
  split <;> simp_all

theorem escapeToken_cons (c : Char) (cs : List Char) :
    escapeToken (String.ofList (c :: cs)) =
      (if c = '~' then ['~', '0'] else if c = '/' then ['~', '1'] else [c]) ++
        escapeToken (String.ofList cs) := by
  simp [escapeToken]

/-- Reading a token undoes writing it. -/
theorem unescapeToken?_escapeToken (token : String) :
    unescapeToken? (escapeToken token) = some token.toList := by
  obtain ⟨cs, rfl⟩ : ∃ cs, token = String.ofList cs := ⟨token.toList, by simp⟩
  rw [String.toList_ofList]
  induction cs with
  | nil => rfl
  | cons c cs ih =>
    rw [escapeToken_cons]
    by_cases htilde : c = '~'
    · subst htilde
      simp [unescapeToken?, ih]
    by_cases hslash : c = '/'
    · subst hslash
      simp [unescapeToken?, ih]
    · rw [if_neg htilde, if_neg hslash, List.singleton_append, unescapeToken?_cons htilde, ih]
      rfl

/-- A written token has no slashes. -/
theorem slash_notMem_escapeToken (token : String) : '/' ∉ escapeToken token := by
  intro h
  obtain ⟨c, -, hc⟩ := List.mem_flatMap.1 h
  split_ifs at hc with htilde hslash
  · simp at hc
  · simp at hc
  · exact hslash (List.mem_singleton.1 hc).symm

theorem escapeToken_injective : Function.Injective escapeToken := by
  intro a b h
  have hread := unescapeToken?_escapeToken a
  rw [h, unescapeToken?_escapeToken, Option.some.injEq] at hread
  exact String.toList_injective hread.symm

/-- Each tilde and each slash is written with two characters. -/
theorem length_escapeToken (token : String) :
    (escapeToken token).length =
      token.toList.length + token.toList.count '~' + token.toList.count '/' := by
  obtain ⟨cs, rfl⟩ : ∃ cs, token = String.ofList cs := ⟨token.toList, by simp⟩
  rw [String.toList_ofList]
  induction cs with
  | nil => rfl
  | cons c cs ih =>
    rw [escapeToken_cons, List.length_append, ih, List.count_cons, List.count_cons,
      List.length_cons]
    by_cases htilde : c = '~'
    · subst htilde
      simp
      omega
    · by_cases hslash : c = '/'
      · subst hslash
        simp
        omega
      · simp [htilde, hslash]
        omega

theorem length_lt_escapeToken {token : String} (h : '~' ∈ token.toList ∨ '/' ∈ token.toList) :
    token.toList.length < (escapeToken token).length := by
  rw [length_escapeToken]
  rcases h with htilde | hslash
  · have hcount := List.count_pos_iff.2 htilde
    omega
  · have hcount := List.count_pos_iff.2 hslash
    omega

/-- A key without these is written as it is. -/
theorem escapeToken_of_notMem {token : String} (htilde : '~' ∉ token.toList)
    (hslash : '/' ∉ token.toList) : escapeToken token = token.toList := by
  have hone : ∀ c ∈ token.toList,
      (if c = '~' then ['~', '0'] else if c = '/' then ['~', '1'] else [c]) = [c] := by
    intro c hc
    rw [if_neg (ne_of_mem_of_not_mem hc htilde), if_neg (ne_of_mem_of_not_mem hc hslash)]
  rw [escapeToken, List.flatMap_congr hone, List.flatMap_singleton']

theorem escapeToken_ne_nil {token : String} (h : token ≠ "") : escapeToken token ≠ [] := by
  intro hnil
  have hlength := length_escapeToken token
  rw [hnil, List.length_nil] at hlength
  exact h (String.toList_eq_nil_iff.1 (List.length_eq_zero_iff.1 (by omega)))

/-! ## Pointers -/

@[simp]
theorem toList_pointer_nil : (pointer []).toList = [] := rfl

@[simp]
theorem toList_pointer_cons (token : String) (path : List String) :
    (pointer (token :: path)).toList = '/' :: (escapeToken token ++ (pointer path).toList) := by
  simp [pointer]

theorem toList_pointer_append (before after : List String) :
    (pointer (before ++ after)).toList = (pointer before).toList ++ (pointer after).toList := by
  simp [pointer]

/-- A pointer begins with a slash and ends in its last token. -/
theorem exists_toList_pointer_concat (path : List String) (token : String) :
    ∃ before, (pointer (path ++ [token])).toList = '/' :: (before ++ escapeToken token) := by
  cases path with
  | nil => exact ⟨[], by simp⟩
  | cons first path =>
    refine ⟨escapeToken first ++ (pointer path).toList ++ ['/'], ?_⟩
    rw [List.cons_append, toList_pointer_cons, toList_pointer_append, toList_pointer_cons,
      toList_pointer_nil]
    simp

/-- Between the slashes of a pointer stand its tokens. -/
theorem split_pointer (path : List String) :
    Text.split '/' (pointer path).toList = [] :: path.map escapeToken := by
  induction path using List.reverseRecOn with
  | nil => rfl
  | append_singleton path token ih =>
    have htoken := Text.split_of_notMem (slash_notMem_escapeToken token)
    rw [toList_pointer_append, toList_pointer_cons, toList_pointer_nil, List.append_nil,
      Text.split_append_separator, ih, htoken, List.map_append]
    rfl

/-- **A written pointer is read back.** -/
theorem readPointer?_pointer (path : List String) : readPointer? (pointer path) = some path := by
  have hread (token : String) :
      (unescapeToken? (escapeToken token)).map String.ofList = some token := by
    rw [unescapeToken?_escapeToken, Option.map_some, String.ofList_toList]
  rw [readPointer?, split_pointer]
  simp only
  induction path with
  | nil => rfl
  | cons token path ih =>
    rw [List.map_cons, List.mapM_cons, hread, ih]
    rfl

theorem pointer_injective : Function.Injective pointer := by
  intro a b h
  have hread := readPointer?_pointer a
  rw [h, readPointer?_pointer, Option.some.injEq] at hread
  exact hread.symm

/-- A pointer that goes on after another one with a slash has more tokens. -/
theorem exists_of_pointer_isPrefix {path longer : List String}
    (h : (pointer path ++ "/").toList <+: (pointer longer).toList) :
    ∃ token after, longer = path ++ token :: after := by
  obtain ⟨rest, hrest⟩ := h
  rw [String.toList_append, List.append_assoc] at hrest
  -- cut at the slashes, both sides have the same tokens
  have hsplit := congrArg (Text.split '/') hrest
  have hslash : "/".toList ++ rest = '/' :: rest := rfl
  rw [hslash, Text.split_append_separator, split_pointer, split_pointer, List.cons_append,
    List.cons.injEq] at hsplit
  obtain ⟨before, after, rfl, hbefore, hafter⟩ := List.map_eq_append_iff.1 hsplit.2.symm
  have hpath : before = path := (List.map_inj_right fun _ _ h => escapeToken_injective h).1 hbefore
  cases after with
  | nil => exact absurd hafter.symm (Text.split_ne_nil '/' rest)
  | cons token after => exact ⟨token, after, by rw [hpath]⟩

/-! ## Indices -/

/-- A number other than zero is written without leading zeros. -/
theorem head?_toDigits {n : Nat} (h : n ≠ 0) : (Nat.toDigits 10 n).head? ≠ some '0' := by
  induction n using Nat.strongRecOn with
  | ind n ih =>
    by_cases hsmall : n < 10
    · have hdigit : ∀ d < 10, d ≠ 0 → some d.digitChar ≠ some '0' := by decide
      rw [Nat.toDigits_of_lt_base hsmall]
      exact hdigit n hsmall h
    · have hrest := ih (n / 10) (by omega) (by omega)
      obtain ⟨first, digits, hdigits⟩ :=
        List.exists_cons_of_ne_nil (Nat.toDigits_ne_nil (n := n / 10) (b := 10))
      rw [Nat.toDigits_of_base_le (by decide) (by omega), hdigits]
      rwa [hdigits] at hrest

/-- A number is read back as an index. -/
theorem tokenIndex?_toString (n : Nat) : tokenIndex? (toString n) = some n := by
  have hdigits : (toString n).toList = Nat.toDigits 10 n := by
    rw [Nat.toString_eq_ofList_toDigits, String.toList_ofList]
  have hall : (Nat.toDigits 10 n).all Char.isDigit = true :=
    List.all_eq_true.2 fun c hc => Nat.isDigit_of_mem_toDigits (by decide) (by decide) hc
  rw [tokenIndex?, hdigits]
  split
  · next h => exact absurd h Nat.toDigits_ne_nil
  · next first rest h =>
    by_cases hn : n = 0
    · subst hn
      simp at h
    · exact absurd (by rw [h]; rfl) (head?_toDigits hn)
  · rw [if_pos hall, Nat.ofDigitChars_ten_toDigits]

theorem toString_nat_injective : Function.Injective (toString : Nat → String) := by
  intro m n h
  have hread := tokenIndex?_toString m
  rw [h, tokenIndex?_toString, Option.some.injEq] at hread
  exact hread.symm

end GuideCheck
