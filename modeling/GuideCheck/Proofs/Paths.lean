import Mathlib.Data.List.Basic
import GuideCheck.Files.GuideFile
import GuideCheck.Files.Tree

set_option autoImplicit false

/-! # Paths part by part

Names that entries of a folder can have (`IsProperName`) are the parts of the path that is made of
them (`parts_ofParts`), and the path of something below a folder has the parts of the folder in
front (`components_below`). Whether a name is that of a guide is said by its end alone
(`isGuideName_iff`). -/

namespace GuideCheck.Files

/-! ## Texts -/

/-- A path is a text if it is the bytes of that text. -/
theorem text?_eq_some_iff {path : Path} {text : String} :
    text? path = some text ↔ path = bytes text := by
  have hbytes : text.toByteArray = (bytes text).toByteArray := String.utf8Encode_toList.symm
  rw [text?, String.fromUTF8?, ← List.toByteArray_inj, ← hbytes]
  constructor
  · intro h
    split at h
    · cases h
      rfl
    · cases h
  · intro h
    rw [h]
    exact dif_pos text.isValidUTF8

theorem text?_bytes (text : String) : text? (bytes text) = some text := text?_eq_some_iff.2 rfl

/-- Whether a path, or a name, is the bytes of a text. -/
def IsText (path : Path) : Prop := ∃ text, path = bytes text

theorem text?_eq_none_iff {path : Path} : text? path = none ↔ ¬ IsText path := by
  rw [Option.eq_none_iff_forall_ne_some, IsText, not_exists]
  exact forall_congr' fun text => not_congr text?_eq_some_iff

theorem newline_notMem_display {path : Path} (h : '\n'.toUInt8 ∉ path) :
    '\n' ∉ (display path).toList := by
  rw [display, String.toList_ofList]
  exact fun hmem => h (Text.newline_mem_of_mem_decodeAfter hmem)

/-! ## Names -/

/-- Whether an entry of a folder can have a name. -/
structure IsProperName (name : Name) : Prop where
  nonempty : name ≠ []
  ne_dot : name ≠ bytes "."
  ne_dots : name ≠ bytes ".."
  no_slash : slash ∉ name

instance (name : Name) : Decidable (IsProperName name) :=
  decidable_of_iff (name ≠ [] ∧ name ≠ bytes "." ∧ name ≠ bytes ".." ∧ slash ∉ name)
    ⟨fun ⟨nonempty, dot, dots, slash⟩ => ⟨nonempty, dot, dots, slash⟩,
      fun ⟨nonempty, dot, dots, slash⟩ => ⟨nonempty, dot, dots, slash⟩⟩

/-- Whether something holds of the names in a folder, and in each folder below it. -/
inductive HasNames (P : Name → Prop) : List (Name × Entry) → Prop
  | nil : HasNames P []
  | file {name : Name} {content : ByteArray} {rest : List (Name × Entry)} (here : P name)
      (others : HasNames P rest) : HasNames P ((name, .file content) :: rest)
  | folder {name : Name} {inner rest : List (Name × Entry)} (here : P name)
      (within : HasNames P inner) (others : HasNames P rest) :
      HasNames P ((name, .folder inner) :: rest)

section

variable {P : Name → Prop} {entries : List (Name × Entry)} {name : Name}

theorem HasNames.of_mem (h : HasNames P entries) {entry : Entry} (mem : (name, entry) ∈ entries) :
    P name := by
  induction h with
  | nil => cases mem
  | file here _ ih =>
    rcases List.mem_cons.1 mem with heq | hrest
    · exact (Prod.mk.inj heq).1 ▸ here
    · exact ih hrest
  | folder here _ _ _ ih =>
    rcases List.mem_cons.1 mem with heq | hrest
    · exact (Prod.mk.inj heq).1 ▸ here
    · exact ih hrest

theorem HasNames.inner (h : HasNames P entries) {inner : List (Name × Entry)}
    (mem : (name, Entry.folder inner) ∈ entries) : HasNames P inner := by
  induction h with
  | nil => cases mem
  | file _ _ ih =>
    rcases List.mem_cons.1 mem with heq | hrest
    · cases heq
    · exact ih hrest
  | folder _ within _ _ ih =>
    rcases List.mem_cons.1 mem with heq | hrest
    · cases heq
      exact within
    · exact ih hrest

end

theorem cutAtLast?_eq_some_iff {mark : UInt8} {name before rest : List UInt8} :
    Text.cutAtLast? mark name = some (before, rest) ↔
      name = before ++ mark :: rest ∧ mark ∉ rest := by
  rw [Text.cutAtLast?, Option.map_eq_some_iff]
  constructor
  · rintro ⟨⟨after, front⟩, hcut, heq⟩
    obtain ⟨rfl, rfl⟩ := Prod.mk.inj heq
    obtain ⟨hname, hmark⟩ := Text.cutAt?_eq_some_iff.1 hcut
    exact ⟨by rw [← List.reverse_reverse name, hname]; simp, by simpa using hmark⟩
  · rintro ⟨rfl, hmark⟩
    refine ⟨(rest.reverse, before.reverse), ?_, by simp⟩
    exact Text.cutAt?_eq_some_iff.2 ⟨by simp, by simpa using hmark⟩

/-- A name that is cut is its stem, a dot and its extension. -/
theorem splitName_eq_some_iff {name stem extension : Name} :
    splitName name = (stem, some extension) ↔
      stem ≠ [] ∧ name = stem ++ dot :: extension ∧ dot ∉ extension := by
  unfold splitName
  split
  · next first others rest hcut =>
    obtain ⟨hname, hdot⟩ := cutAtLast?_eq_some_iff.1 hcut
    constructor
    · intro h
      obtain ⟨rfl, hext⟩ := Prod.mk.inj h
      obtain rfl := Option.some.inj hext
      exact ⟨List.cons_ne_nil first others, hname, hdot⟩
    · rintro ⟨hne, hname', hext⟩
      have hcut' := cutAtLast?_eq_some_iff.2 ⟨hname', hext⟩
      rw [hcut, Option.some.injEq, Prod.mk.injEq] at hcut'
      rw [hcut'.1, hcut'.2]
  · next hcut =>
    constructor
    · intro h
      cases (Prod.mk.inj h).2
    · rintro ⟨hne, hname, hext⟩
      obtain ⟨first, others, rfl⟩ := List.exists_cons_of_ne_nil hne
      exact absurd (cutAtLast?_eq_some_iff.2 ⟨hname, hext⟩) (hcut _ _ _)

/-- A guide is a file whose name ends in `.txt`, after something. -/
theorem isGuideName_iff {name : Name} :
    isGuideName name = true ↔ ∃ stem, stem ≠ [] ∧ name = stem ++ bytes ".txt" := by
  rw [isGuideName, decide_eq_true_eq]
  constructor
  · intro h
    have hsplit : splitName name = ((splitName name).1, some guideExtension) := by rw [← h]
    obtain ⟨hne, hname, -⟩ := splitName_eq_some_iff.1 hsplit
    exact ⟨_, hne, hname⟩
  · rintro ⟨stem, hne, rfl⟩
    have hsplit : splitName (stem ++ bytes ".txt") = (stem, some guideExtension) :=
      splitName_eq_some_iff.2 ⟨hne, rfl, by decide⟩
    rw [hsplit]

/-! ## Parts -/

theorem parts_append_slash (before after : Path) :
    parts (before ++ slash :: after) = parts before ++ parts after := by
  rw [parts, Text.split_append_separator, List.filter_append]
  rfl

theorem parts_nil : parts [] = [] := rfl

theorem parts_of_isProperName {name : Name} (h : IsProperName name) : parts name = [name] := by
  rw [parts, Text.split_of_notMem h.no_slash, List.filter_cons_of_pos (by simpa using h.nonempty)]
  rfl

/-- Proper names are the parts of the path that is made of them. -/
theorem parts_ofParts {names : List Name} (h : ∀ name ∈ names, IsProperName name) :
    parts (ofParts names) = names := by
  by_cases hnil : names = []
  · rw [hnil]
    rfl
  · rw [parts, ofParts, Text.split_join hnil fun name hname => (h name hname).no_slash,
      List.filter_eq_self]
    intro name hname
    simpa using (h name hname).nonempty

theorem parts_below (folder path : Path) :
    parts (below folder path) = parts folder ++ parts path := by
  unfold below
  split
  · next hlast =>
    obtain ⟨front, rfl⟩ := List.getLast?_eq_some_iff.1 hlast
    rw [List.append_assoc, List.singleton_append, parts_append_slash, parts_append_slash, parts_nil,
      List.append_nil]
  · exact parts_append_slash folder path

/-! ## Components -/

/-- The parts of a path that count: the slash that it may begin with, and its parts but for dots,
    which count only in front of all others. -/
def components (path : Path) : List Name :=
  let named := (parts path).filter (· ≠ bytes ".")
  if isAbsolute path then bytes "/" :: named
  else if (parts path).head? = some (bytes ".") then bytes "." :: named
  else named

theorem isAbsolute_below {folder : Path} (h : folder ≠ []) (path : Path) :
    isAbsolute (below folder path) = isAbsolute folder := by
  obtain ⟨first, others, rfl⟩ := List.exists_cons_of_ne_nil h
  unfold isAbsolute below
  split <;> rfl

theorem filter_ne_dot_of_isProperName {names : List Name}
    (h : ∀ name ∈ names, IsProperName name) : names.filter (· ≠ bytes ".") = names := by
  rw [List.filter_eq_self]
  intro name hname
  simpa using (h name hname).ne_dot

/-- A path below a folder has the components of the folder in front. -/
theorem components_below {folder : Path} (hfolder : folder ≠ []) {names : List Name}
    (h : ∀ name ∈ names, IsProperName name) :
    components (below folder (ofParts names)) = components folder ++ names := by
  have hdot : (names.head? = some (bytes ".")) = False := by
    refine eq_false fun hhead => ?_
    exact (h (bytes ".") (List.mem_of_mem_head? hhead)).ne_dot rfl
  unfold components
  rw [isAbsolute_below hfolder, parts_below, parts_ofParts h, List.filter_append,
    filter_ne_dot_of_isProperName h]
  cases parts folder with
  | nil => split <;> simp [hdot]
  | cons first others =>
    dsimp only
    rw [List.cons_append, List.head?_cons, List.head?_cons]
    split
    · rfl
    · split <;> rfl

end GuideCheck.Files
