import GuideCheck.Analysis
import GuideCheck.Proofs.Locality
import GuideCheck.Proofs.Pointers
import GuideCheck.Schema.Check
import Mathlib.Data.List.TakeWhile

set_option autoImplicit false

/-! # Lines of keys

A violation is looked for at the first line that shows the last token of its path as a key: in
double quotes, with blanks and a colon after it. It is the token as it is written in the path. That
is the key itself unless a slash or a tilde stands in it, which a document shows as they are and a
path escapes. The line of such a key is passed over (`Schema.recoverLine?_of_mem_validate`). -/

namespace GuideCheck

/-! ## Keys -/

/-- Whether a text begins with a key: in double quotes, and with blanks and a colon after it. -/
theorem startsWithKey_eq_true_iff {key text : List Char} :
    startsWithKey key text = true ↔ ∃ blanks after,
      text = quoted key ++ (blanks ++ ':' :: after) ∧ ∀ c ∈ blanks, Text.isBlank c = true := by
  unfold startsWithKey
  constructor
  · intro h
    split at h
    · next rest hrest =>
      obtain ⟨after, hafter⟩ := List.head?_eq_some_iff.1 (of_decide_eq_true h)
      refine ⟨rest.takeWhile Text.isBlank, after, ?_, fun c hc => List.mem_takeWhile_imp hc⟩
      rw [← hafter, Text.trimStart, List.takeWhile_append_dropWhile]
      exact Text.stripPrefix?_eq_some_iff.1 hrest
    · cases h
  · rintro ⟨blanks, after, htext, hblanks⟩
    have hcolon : Text.trimStart (blanks ++ ':' :: after) = ':' :: after := by
      rw [Text.trimStart, List.dropWhile_append_of_pos hblanks]
      exact List.dropWhile_cons_of_neg (by decide)
    rw [Text.stripPrefix?_eq_some_iff.2 htext]
    simp only [hcolon, List.head?_cons, decide_true]

/-- Whether a line shows a key. -/
def ShowsKey (key : List Char) (line : String) : Prop :=
  ∃ before blanks after, line.toList = before ++ (quoted key ++ (blanks ++ ':' :: after)) ∧
    ∀ c ∈ blanks, Text.isBlank c = true

theorem hasKey_eq_true_iff {key line : List Char} :
    hasKey key line = true ↔ ShowsKey key (String.ofList line) := by
  unfold ShowsKey
  rw [String.toList_ofList]
  induction line with
  | nil => simp [hasKey, quoted]
  | cons c cs ih =>
    rw [hasKey, Bool.or_eq_true, startsWithKey_eq_true_iff, ih]
    constructor
    · rintro (⟨blanks, after, hline, hblanks⟩ | ⟨before, blanks, after, rfl, hblanks⟩)
      · exact ⟨[], blanks, after, hline, hblanks⟩
      · exact ⟨c :: before, blanks, after, rfl, hblanks⟩
    · rintro ⟨before, blanks, after, hline, hblanks⟩
      cases before with
      | nil => exact .inl ⟨blanks, after, hline, hblanks⟩
      | cons b before =>
        exact .inr ⟨before, blanks, after, (List.cons.inj hline).2, hblanks⟩

/-! ## First lines -/

namespace Document

variable {doc : Document} {n : Nat}

/-- Whether a number is that of the first line with a property. -/
structure IsFirstLine (doc : Document) (p : String → Prop) (n : Nat) : Prop where
  holds : ∃ line, doc.written? n = some line ∧ p line
  before : ∀ m < n, ∀ line, doc.written? m = some line → ¬ p line

theorem findLine?_eq_some_iff {p : String → Bool} :
    doc.findLine? p = some n ↔ doc.IsFirstLine (fun line => p line = true) n := by
  rw [findLine?, Option.map_eq_some_iff]
  constructor
  · rintro ⟨i, hi, rfl⟩
    obtain ⟨hlt, hline, hbefore⟩ := List.findIdx?_eq_some_iff_getElem.1 hi
    refine ⟨⟨doc.lines[i], List.getElem?_eq_getElem hlt, hline⟩, fun m hm line hwritten => ?_⟩
    cases m with
    | zero => cases hwritten
    | succ m =>
      obtain ⟨hmlt, rfl⟩ := List.getElem?_eq_some_iff.1 hwritten
      exact hbefore m (Nat.lt_of_succ_lt_succ hm)
  · rintro ⟨⟨line, hwritten, hline⟩, hbefore⟩
    cases n with
    | zero => cases hwritten
    | succ i =>
      obtain ⟨hlt, rfl⟩ := List.getElem?_eq_some_iff.1 hwritten
      refine ⟨i, List.findIdx?_eq_some_iff_getElem.2 ⟨hlt, hline, fun j hj => ?_⟩, rfl⟩
      exact hbefore (j + 1) (Nat.succ_lt_succ hj) _
        (List.getElem?_eq_getElem (Nat.lt_trans hj hlt))

theorem findKey?_eq_some_iff {key : String} :
    doc.findKey? key = some n ↔ doc.IsFirstLine (ShowsKey key.toList) n := by
  rw [findKey?, findLine?_eq_some_iff]
  simp only [hasKey_eq_true_iff, String.ofList_toList]

/-- A text without a line feed is one line. -/
theorem lines_ofText_of_notMem {text : String} (h : '\n' ∉ text.toList) :
    (ofText text).lines = [text] := by
  simp only [ofText, Text.lines, Text.split_of_notMem h, List.map_cons, List.map_nil,
    String.ofList_toList]

theorem mem_of_written? {line : String} (h : doc.written? n = some line) : line ∈ doc.lines := by
  cases n with
  | zero => cases h
  | succ i => exact List.mem_of_getElem? h

end Document

/-! ## Paths -/

section

variable {v : Violation} {path : List String} {key : String}

/-- The last part of a path is the last token as it is written. -/
theorem lastSegment?_pointer (hkey : key ≠ "") :
    lastSegment? (pointer (path ++ [key])) = some (String.ofList (escapeToken key)) := by
  have hne := escapeToken_ne_nil hkey
  rw [lastSegment?, split_pointer, List.map_append, List.map_singleton, List.reverse_cons,
    List.reverse_append, List.reverse_singleton, List.singleton_append, List.cons_append,
    List.find?_cons_of_pos (by simpa using hne)]
  rfl

/-- The name of a violation is its path without the first slash, and ends in the last token. -/
theorem exists_propertyName?_eq (hadditional : v.additionalProperty? = none)
    (hpath : v.path = pointer (path ++ [key])) (hkey : key ≠ "") :
    ∃ before, v.propertyName? = some (String.ofList (before ++ escapeToken key)) := by
  obtain ⟨before, hbefore⟩ := exists_toList_pointer_concat path key
  refine ⟨before, ?_⟩
  have hne : String.ofList (before ++ escapeToken key) ≠ "" := by
    rw [Ne, ← String.toList_eq_nil_iff, String.toList_ofList, List.append_eq_nil_iff]
    exact fun h => escapeToken_ne_nil hkey h.2
  rw [Violation.propertyName?, hadditional, hpath, hbefore]
  exact if_neg hne

/-- Without a line for the last token the whole path is looked for in quotes. -/
theorem exists_recoverLine?_eq (hadditional : v.additionalProperty? = none)
    (hpath : v.path = pointer (path ++ [key])) (hkey : key ≠ "") :
    ∃ before, ∀ doc : Document, doc.recoverLine? v =
      (doc.findKey? (String.ofList (escapeToken key))).or
        (doc.findLine? (hasQuoted (String.ofList (before ++ escapeToken key)))) := by
  obtain ⟨before, hname⟩ := exists_propertyName?_eq hadditional hpath hkey
  refine ⟨before, fun doc => ?_⟩
  have hlast : lastSegment? v.path = some (String.ofList (escapeToken key)) :=
    hpath ▸ lastSegment?_pointer hkey
  rw [Document.recoverLine?, hname, Option.bind_some]
  simp only [Clue.order, List.findSome?_cons, List.findSome?_nil, Clue.line?, hlast, hadditional,
    hname, Option.bind_some, Option.bind_none]
  cases doc.findKey? (String.ofList (escapeToken key)) with
  | some n => rfl
  | none => cases doc.findLine? (hasQuoted (String.ofList (before ++ escapeToken key))) <;> rfl

/-- The line that is nothing but a key in quotes and a colon. -/
def keyLine (key : List Char) : String := String.ofList (quoted key ++ [':'])

theorem showsKey_keyLine (key : List Char) : ShowsKey key (keyLine key) :=
  ⟨[], [], [], by rw [keyLine, String.toList_ofList]; rfl, nofun⟩

theorem length_quoted (name : List Char) : (quoted name).length = name.length + 2 := by
  simp [quoted]

theorem not_showsKey_keyLine {key longer : List Char} (h : key.length < longer.length) :
    ¬ ShowsKey longer (keyLine key) := by
  rintro ⟨before, blanks, after, hline, -⟩
  have hlength := congrArg List.length hline
  simp only [keyLine, String.toList_ofList, List.length_append, length_quoted, List.length_cons,
    List.length_nil] at hlength
  omega

/-- The only text of this length in the line is the line, which ends in no quote. -/
theorem not_hasQuoted_keyLine {key : List Char} {longer : String}
    (h : key.length < longer.toList.length) : ¬ hasQuoted longer (keyLine key) = true := by
  rw [hasQuoted, Text.occursIn_eq_true_iff, keyLine, String.toList_ofList]
  intro hoccurs
  have hle : (quoted key ++ [':']).length ≤ (quoted longer.toList).length := by
    rw [List.length_append, length_quoted, length_quoted, List.length_singleton]
    omega
  have hlast := congrArg List.getLast? (hoccurs.eq_of_length_le hle)
  rw [quoted, List.getLast?_concat, List.getLast?_concat] at hlast
  exact absurd hlast (by decide)

theorem lines_keyLine {key : List Char} (h : '\n' ∉ key) :
    (Document.ofText (keyLine key)).lines = [keyLine key] := by
  refine Document.lines_ofText_of_notMem ?_
  rw [keyLine, String.toList_ofList]
  simpa [quoted] using h

theorem isFirstLine_keyLine {key : List Char} (h : '\n' ∉ key) :
    (Document.ofText (keyLine key)).IsFirstLine (ShowsKey key) 1 := by
  refine ⟨⟨keyLine key, ?_, showsKey_keyLine key⟩, fun m hm line hline => ?_⟩
  · rw [Document.written?, lines_keyLine h]
    rfl
  · obtain rfl : m = 0 := Nat.lt_one_iff.1 hm
    cases hline

/-- No line of a text shows a key with a line feed. -/
theorem not_isFirstLine_of_newline {key : List Char} (h : '\n' ∈ key) (text : String) (n : Nat) :
    ¬ (Document.ofText text).IsFirstLine (ShowsKey key) n := by
  rintro ⟨⟨line, hwritten, before, blanks, after, hline, -⟩, -⟩
  refine absurd ?_ (Document.notMem_of_mem_lines (Document.mem_of_written? hwritten))
  rw [hline]
  simp [quoted, h]

/-- A document with nothing but a key in it shows no longer one. -/
theorem recoverLine?_keyLine (hadditional : v.additionalProperty? = none)
    (hpath : v.path = pointer (path ++ [key])) (hkey : key ≠ "") (hnewline : '\n' ∉ key.toList)
    (hlength : key.toList.length < (escapeToken key).length) :
    (Document.ofText (keyLine key.toList)).recoverLine? v = none := by
  obtain ⟨before, hrecover⟩ := exists_recoverLine?_eq hadditional hpath hkey
  have hlines := lines_keyLine hnewline
  have hnone : ∀ p : String → Bool, ¬ p (keyLine key.toList) = true →
      (Document.ofText (keyLine key.toList)).findLine? p = none := by
    intro p hp
    rw [Document.findLine?, hlines, List.findIdx?_singleton, if_neg hp]
    rfl
  have hkeyLine : (Document.ofText (keyLine key.toList)).findKey?
      (String.ofList (escapeToken key)) = none := by
    refine hnone (fun line => hasKey _ line.toList) ?_
    rw [hasKey_eq_true_iff, String.ofList_toList, String.toList_ofList]
    exact not_showsKey_keyLine hlength
  have hquoted : (Document.ofText (keyLine key.toList)).findLine?
      (hasQuoted (String.ofList (before ++ escapeToken key))) = none := by
    refine hnone (hasQuoted _) (not_hasQuoted_keyLine ?_)
    rw [String.toList_ofList, List.length_append]
    omega
  rw [hrecover, hkeyLine, hquoted]
  rfl

end

/-! ## Violations -/

namespace Schema

theorem exists_path_of_mem_validate {schema : Schema} {value : Json} {v : Violation} {key : String}
    (hv : v ∈ schema.validate value)
    (hlast : (readPointer? v.path).bind List.getLast? = some key) :
    ∃ path, v.path = pointer (path ++ [key]) := by
  obtain ⟨f, -, rfl⟩ := List.mem_map.1 hv
  have hread : readPointer? f.violation.path = some f.path := readPointer?_pointer f.path
  rw [hread, Option.bind_some, List.getLast?_eq_some_iff] at hlast
  obtain ⟨path, hpath⟩ := hlast
  exact ⟨path, congrArg pointer hpath⟩

/-- **Violations are found at the first line of the written token.** Whatever the schema and the
    value, let a violation have a path that ends in a key, and not be about an additional property.
    The line recovered for it is the first one that shows the token of the key as the path writes
    it. That is the first line of the key itself in all documents exactly if no slash and no tilde
    stand in the key, or else a line feed, so that there are no lines of the key. -/
theorem recoverLine?_of_mem_validate {schema : Schema} {value : Json} {v : Violation} {key : String}
    (hv : v ∈ schema.validate value) (hkeyword : v.keyword ≠ "additionalProperties")
    (hlast : (readPointer? v.path).bind List.getLast? = some key) (hkey : key ≠ "") :
    (∀ (doc : Document) (n : Nat), doc.IsFirstLine (ShowsKey (escapeToken key)) n →
      doc.recoverLine? v = some n) ∧
      ((∀ (text : String) (n : Nat),
        (Document.ofText text).IsFirstLine (ShowsKey key.toList) n →
          (Document.ofText text).recoverLine? v = some n) ↔
        '\n' ∈ key.toList ∨ '~' ∉ key.toList ∧ '/' ∉ key.toList) := by
  have hadditional : v.additionalProperty? = none := if_neg hkeyword
  obtain ⟨path, hpath⟩ := exists_path_of_mem_validate hv hlast
  obtain ⟨before, hrecover⟩ := exists_recoverLine?_eq hadditional hpath hkey
  have hwritten : ∀ (doc : Document) (n : Nat), doc.IsFirstLine (ShowsKey (escapeToken key)) n →
      doc.recoverLine? v = some n := by
    intro doc n hfirst
    rw [← String.toList_ofList (l := escapeToken key), ← Document.findKey?_eq_some_iff] at hfirst
    rw [hrecover, hfirst, Option.some_or]
  refine ⟨hwritten, fun hall => ?_, ?_⟩
  · by_contra hescaped
    obtain ⟨hnewline, hchars⟩ := not_or.1 hescaped
    have hlength : key.toList.length < (escapeToken key).length := by
      refine length_lt_escapeToken ?_
      by_contra hnone
      exact hchars (not_or.1 hnone)
    have hsome := hall _ _ (isFirstLine_keyLine hnewline)
    rw [recoverLine?_keyLine hadditional hpath hkey hnewline hlength] at hsome
    cases hsome
  · rintro (hnewline | ⟨htilde, hslash⟩) text n hfirst
    · exact absurd hfirst (not_isFirstLine_of_newline hnewline text n)
    · rw [← escapeToken_of_notMem htilde hslash] at hfirst
      exact hwritten _ _ hfirst

/-- A dot is written as it is, and stands for nothing else. -/
theorem recoverLine?_of_mem_validate_dot :
    let schema := Schema.rules { properties := [("a.b", .rules { types := [.string] })] }
    let v : Violation := ⟨"/a.b", "type", "must be string", [("type", .str "string")]⟩
    v ∈ schema.validate (.obj [("a.b", .ofNat 1)]) ∧ v.keyword ≠ "additionalProperties" ∧
      (readPointer? v.path).bind List.getLast? = some "a.b" ∧
      (Document.ofText "\x7b\"axb\": 1,\n\"a.b\" : 1\x7d").recoverLine? v = some 2 ∧
      ∀ (text : String) (n : Nat),
        (Document.ofText text).IsFirstLine (ShowsKey "a.b".toList) n →
          (Document.ofText text).recoverLine? v = some n := by
  intro schema v
  have hv : v ∈ schema.validate (.obj [("a.b", .ofNat 1)]) := List.mem_singleton.2 rfl
  have hlast : (readPointer? v.path).bind List.getLast? = some "a.b" := by decide +kernel
  have hfind : (Document.ofText "\x7b\"axb\": 1,\n\"a.b\" : 1\x7d").findKey?
      (String.ofList (escapeToken "a.b")) = some 2 := by
    decide +kernel
  rw [Document.findKey?_eq_some_iff, String.toList_ofList] at hfind
  obtain ⟨hwritten, hall⟩ := recoverLine?_of_mem_validate hv (by decide) hlast (by decide)
  exact ⟨hv, by decide, hlast, hwritten _ _ hfind, hall.2 (by decide)⟩

/-- The line of a key with a slash is passed over, and the directive is blamed. -/
theorem recoverLine?_slash :
    let schema := Schema.rules { properties := [("a/b", .rules { types := [.string] })] }
    let v : Violation := ⟨"/a~1b", "type", "must be string", [("type", .str "string")]⟩
    let text := "\x7b\n\"a/b\": 1\n\x7d\n.embed:json"
    v ∈ schema.validate (.obj [("a/b", .ofNat 1)]) ∧ v.keyword ≠ "additionalProperties" ∧
      (readPointer? v.path).bind List.getLast? = some "a/b" ∧
      (Document.ofText text).IsFirstLine (ShowsKey "a/b".toList) 2 ∧
      (Document.ofText text).recoverLine? v = none ∧
      (analyze ⟨schema.validate, {}⟩ text).diagnostics.map
        (fun d => (d.first, d.last, d.message)) = [(4, 4, "'a~1b' must be string")] := by
  intro schema v text
  have hv : v ∈ schema.validate (.obj [("a/b", .ofNat 1)]) := List.mem_singleton.2 rfl
  have hfind : (Document.ofText text).findKey? "a/b" = some 2 := by decide +kernel
  exact ⟨hv, by decide, by decide +kernel, Document.findKey?_eq_some_iff.1 hfind,
    by decide +kernel, by decide +kernel⟩

end Schema

end GuideCheck
