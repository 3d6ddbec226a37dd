import GuideCheck.Proofs.Framing
import GuideCheck.Proofs.KeyValues
import GuideCheck.Proofs.WrittenFiles
import GuideCheck.Settings

set_option autoImplicit false

/-! # Saved settings are loaded again

The text that settings are written in is read back to them (`Settings.ofText?_toText`): the lines of
a document with a path, a format and a table of limits are followed one by one. A file to which they
were saved is found again, and a path without variables and without a tilde in front is not changed
by its expansion, so that they are loaded as they were (`Settings.load?_save?`). -/

namespace GuideCheck

namespace Toml

/-! ## Entries and tables -/

section

variable {entries front inner : List (String × Node)} {key name : String}

theorem Body.put_of_notMem {headed dotted : Bool} (h : key ∉ entries.map Prod.fst) (node : Node) :
    (Body.mk headed dotted entries).put key node = ⟨headed, dotted, entries ++ [(key, node)]⟩ := by
  rw [put, lookup_eq_none_iff.2 h, if_neg (by simp)]

theorem Body.assign_of_notMem {headed : Bool} (h : key ∉ entries.map Prod.fst) (value : Toml) :
    Body.assign [key] value ⟨headed, false, entries⟩ =
      some ⟨headed, false, entries ++ [(key, .value value)]⟩ := by
  show addValue false key value _ = _
  rw [addValue, lookup_eq_none_iff.2 h, if_neg (by simp), put_of_notMem h]

/-- A line in front of all headers puts its value under a new key of the document. -/
theorem Reads.rootEntry {final : Draft} {written rest : List Char} {value : Toml}
    (bare : IsBare name) (hvalue : Writes written value) (new : name ∉ entries.map Prod.fst)
    (h : Reads ⟨⟨true, false, entries ++ [(name, .value value)]⟩, []⟩ rest final) :
    Reads ⟨⟨true, false, entries⟩, []⟩
      (name.toList ++ ' ' :: '=' :: ' ' :: (written ++ '\n' :: rest)) final :=
  Reads.entry bare hvalue (Body.assign_of_notMem new value) h

theorem Body.header_of_notMem (h : name ∉ entries.map Prod.fst) :
    (Body.mk true false entries).header Body.addHeader [name] =
      some ⟨true, false, entries ++ [(name, .table true false [])]⟩ := by
  show addHeader name _ = _
  rw [addHeader, lookup_eq_none_iff.2 h]
  exact congrArg some (put_of_notMem h _)

/-- A new key of the last table is put at the end of it. -/
theorem Body.within_last (hname : name ∉ front.map Prod.fst) (hkey : key ∉ inner.map Prod.fst)
    (value : Toml) :
    (Body.mk true false (front ++ [(name, .table true false inner)])).within false
        (Body.assign [key] value) [name] =
      some ⟨true, false,
        front ++ [(name, .table true false (inner ++ [(key, .value value)]))]⟩ := by
  have hlookup : (front ++ [(name, Node.table true false inner)]).lookup name =
      some (.table true false inner) := by
    rw [List.lookup_append, lookup_eq_none_iff.2 hname, Option.none_or, List.lookup_cons_self]
  have hfront : (front.map fun e => if e.1 = name then
      (name, Node.table true false (inner ++ [(key, .value value)])) else e) = front := by
    have hne : ∀ e ∈ front, e.1 ≠ name := fun e he heq => hname (heq ▸ List.mem_map_of_mem he)
    exact (List.map_congr_left fun e he => if_neg (hne e he)).trans (List.map_id front)
  have hinner : within false (Body.assign [key] value) [] ⟨true, false, inner⟩ =
      some ⟨true, false, inner ++ [(key, .value value)]⟩ := assign_of_notMem hkey value
  rw [within]
  simp only [hlookup, hinner, Option.bind_eq_bind, Option.bind_some, put, Option.isSome_some,
    if_true, List.map_append, hfront, List.map_cons, List.map_nil]
  simp

/-- The lines of a table with natural numbers under bare keys. -/
theorem reads_numbers (hname : name ∉ front.map Prod.fst) (numbers : List (String × Nat))
    (bare : ∀ entry ∈ numbers, IsBare entry.1) (held : ∀ entry ∈ numbers, entry.2 < 2 ^ 128)
    (hkeys : (inner.map Prod.fst ++ numbers.map Prod.fst).Nodup) :
    Reads ⟨⟨true, false, front ++ [(name, .table true false inner)]⟩, [name]⟩
      (numbers.flatMap fun entry =>
        entry.1.toList ++ ' ' :: '=' :: ' ' :: (Nat.toDigits 10 entry.2 ++ ['\n']))
      ⟨⟨true, false, front ++ [(name, .table true false
        (inner ++ numbers.map fun entry => (entry.1, .value (.integer entry.2))))]⟩, [name]⟩ := by
  induction numbers generalizing inner with
  | nil =>
    rw [List.map_nil, List.append_nil]
    exact reads_nil _
  | cons entry numbers ih =>
    obtain ⟨key, n⟩ := entry
    obtain ⟨hbare, bare⟩ := List.forall_mem_cons.1 bare
    obtain ⟨hn, held⟩ := List.forall_mem_cons.1 held
    have hkey : key ∉ inner.map Prod.fst := by
      intro hmem
      exact (List.nodup_append.1 hkeys).2.2 key hmem key List.mem_cons_self rfl
    have hkeys' : ((inner ++ [(key, Node.value (.integer n))]).map Prod.fst ++
        numbers.map Prod.fst).Nodup := by simpa using hkeys
    have hrest := ih bare held hkeys'
    rw [List.append_assoc, List.singleton_append] at hrest
    rw [List.flatMap_cons, List.append_assoc, List.cons_append, List.cons_append, List.cons_append,
      List.append_assoc, List.singleton_append]
    exact Reads.entry hbare (writes_toDigits hn) (Body.within_last hname hkey _) hrest

theorem entriesToToml_eq_map (entries : List (String × Node)) :
    entriesToToml entries = entries.map fun entry => (entry.1, entry.2.toToml) := by
  induction entries with
  | nil => rw [entriesToToml, List.map_nil]
  | cons entry entries ih =>
    obtain ⟨key, node⟩ := entry
    rw [entriesToToml, ih, List.map_cons]

theorem read?_of_reads {text : String} {final : Draft} (hmark : text.toList.head? ≠ some '\ufeff')
    (h : Reads {} text.toList final) : read? text = some final.body.toToml := by
  have hfinal := h (text.toList.length + 1) (Nat.lt_succ_self _)
  rw [read?]
  split
  · next heq => exact absurd (congrArg List.head? heq) hmark
  · rw [hfinal]
    rfl

end

end Toml

namespace Settings

open Toml

/-! ## The text of settings -/

/-- The limits by name, as they are written. -/
def numbers (limits : Limits) : List (String × Nat) :=
  Limit.all.map fun limit => (limit.name, limits.get limit)

/-- What the text of settings has before the table of limits. -/
def front (settings : Settings) : List (String × Node) :=
  (settings.guidesPath.toList.map fun path => ("guides_path", .value (.string path))) ++
    [("format", .value (.string settings.format.name))]

/-- What is read of the text of settings. -/
def draft (settings : Settings) : Draft :=
  ⟨⟨true, false, settings.front ++ [("limits", .table true false
    ((numbers settings.limits).map fun entry => (entry.1, .value (.integer entry.2))))]⟩,
    ["limits"]⟩

theorem isBare_name (limit : Limit) : IsBare limit.name := by
  cases limit <;> decide

theorem toList_numbers (limits : Limits) :
    ((Limit.all.map fun limit => s!"{limit.name} = {limits.get limit}").map String.toList).flatMap
        (· ++ ['\n']) =
      (numbers limits).flatMap fun entry =>
        entry.1.toList ++ ' ' :: '=' :: ' ' :: (Nat.toDigits 10 entry.2 ++ ['\n']) := by
  rw [numbers, List.flatMap_map, List.flatMap_map, List.flatMap_map]
  refine List.flatMap_congr fun limit _ => ?_
  simp [toString, Nat.repr]

/-- The lines from the empty one on lead to the table of limits. -/
theorem reads_limits {settings : Settings} (held : ∀ limit, settings.limits.get limit < 2 ^ 64) :
    Reads ⟨⟨true, false, settings.front⟩, []⟩
      ('\n' :: '[' :: ("limits".toList ++ ']' :: '\n' :: ((numbers settings.limits).flatMap
        fun entry => entry.1.toList ++ ' ' :: '=' :: ' ' ::
          (Nat.toDigits 10 entry.2 ++ ['\n'])))) settings.draft := by
  have hheld : ∀ entry ∈ numbers settings.limits, entry.2 < 2 ^ 128 := by
    intro entry hentry
    obtain ⟨limit, -, rfl⟩ := List.mem_map.1 hentry
    exact lt_trans (held limit) (by decide)
  have hbare : ∀ entry ∈ numbers settings.limits, IsBare entry.1 := by
    intro entry hentry
    obtain ⟨limit, -, rfl⟩ := List.mem_map.1 hentry
    exact isBare_name limit
  have hkeys : (([] : List (String × Node)).map Prod.fst ++
      (numbers settings.limits).map Prod.fst).Nodup := by
    rw [numbers, List.map_map]
    show (Limit.all.map Limit.name).Nodup
    decide
  have hfront : "limits" ∉ settings.front.map Prod.fst := by
    rw [front]
    cases settings.guidesPath <;> simp
  exact (Reads.header (by decide) (Body.header_of_notMem hfront)
    (reads_numbers hfront _ hbare hheld hkeys)).blank

/-- The text of settings is read line by line: the path if there is one, the format, the limits. -/
theorem reads_toText {settings : Settings} (held : ∀ limit, settings.limits.get limit < 2 ^ 64) :
    Reads {} settings.toText.toList settings.draft := by
  have htable := reads_limits held
  rw [front] at htable
  rw [toText, toList_terminated, List.map_append, List.flatMap_append, toList_numbers]
  cases hpath : settings.guidesPath with
  | none =>
    rw [hpath] at htable
    have hformat : Reads {} ("format".toList ++
        ' ' :: '=' :: ' ' :: ((quote settings.format.name).toList ++ '\n' :: _)) settings.draft :=
      Reads.rootEntry (by decide) (writes_quote settings.format.name) List.not_mem_nil htable
    simpa using hformat
  | some path =>
    rw [hpath] at htable
    have hformat := Reads.rootEntry (by decide) (writes_quote settings.format.name) (by simp) htable
    have hguides : Reads {} ("guides_path".toList ++
        ' ' :: '=' :: ' ' :: ((quote path).toList ++ '\n' :: _)) settings.draft :=
      Reads.rootEntry (by decide) (writes_quote path) List.not_mem_nil hformat
    simpa using hguides

theorem head?_toText (settings : Settings) :
    settings.toText.toList.head? ≠ some '\ufeff' := by
  rw [toText, toList_terminated]
  cases settings.guidesPath <;> simp

/-! ## Reading the text -/

theorem formatOf?_name (format : ReportFormat) : formatOf? (.string format.name) = some format := by
  cases format <;> rfl

theorem limitOf?_natCast {n : Nat} (h : n < 2 ^ 64) : limitOf? (.integer n) = some n := by
  rw [limitOf?, if_pos ⟨Int.natCast_nonneg n, by exact_mod_cast h⟩, Int.toNat_natCast]

theorem ofName?_name (limit : Limit) : Limit.ofName? limit.name = some limit := by
  cases limit <;> decide

/-- Fields under the names of different limits set these limits one after another. -/
theorem readFields?_map (target limits : Limits) {seen rest : List Limit} (nodup : rest.Nodup)
    (new : ∀ limit ∈ rest, limit ∉ seen) :
    Limits.readFields? limits seen (rest.map fun limit => (limit.name, some (target.get limit))) =
      some (rest.foldl (fun limits limit => limits.set limit (target.get limit)) limits) := by
  induction rest generalizing limits seen with
  | nil => rfl
  | cons limit rest ih =>
    obtain ⟨hlimit, nodup⟩ := List.nodup_cons.1 nodup
    obtain ⟨hnew, new⟩ := List.forall_mem_cons.1 new
    have new' : ∀ other ∈ rest, other ∉ limit :: seen := by
      intro other hother hseen
      rcases List.mem_cons.1 hseen with rfl | hbefore
      · exact hlimit hother
      · exact new other hother hbefore
    rw [List.map_cons, Limits.readFields?, ofName?_name]
    simp only [if_neg hnew]
    rw [ih _ nodup new', List.foldl_cons]

/-- Fields with all limits make up the limits. -/
theorem ofFields?_numbers (limits : Limits) :
    Limits.ofFields? ((numbers limits).map fun entry => (entry.1, some entry.2)) = some limits := by
  have hset : Limit.all.foldl (fun read limit => read.set limit (limits.get limit)) {} =
      limits := by
    simp only [Limit.all, List.foldl_cons, List.foldl_nil, Limits.set, Limits.get]
  have hnew : ∀ limit ∈ Limit.all, limit ∉ ([] : List Limit) := fun _ _ => List.not_mem_nil
  have hread := readFields?_map limits {} (by decide) hnew
  rw [hset] at hread
  rw [Limits.ofFields?, numbers, List.map_map]
  exact hread

theorem limitsOf?_numbers {limits : Limits} (held : ∀ limit, limits.get limit < 2 ^ 64) :
    limitsOf? (.table ((numbers limits).map fun entry => (entry.1, .integer entry.2))) =
      some limits := by
  have hfields : ((numbers limits).map fun entry => (entry.1, Toml.integer entry.2)).map
      (fun field => (field.1, limitOf? field.2)) =
      (numbers limits).map fun entry => (entry.1, some entry.2) := by
    rw [List.map_map]
    refine List.map_congr_left fun entry hentry => ?_
    obtain ⟨limit, -, rfl⟩ := List.mem_map.1 hentry
    exact congrArg (limit.name, ·) (limitOf?_natCast (held limit))
  rw [limitsOf?]
  exact (congrArg Limits.ofFields? hfields).trans (ofFields?_numbers limits)

/-- The table that the text of settings defines. -/
theorem toToml_draft (settings : Settings) :
    settings.draft.body.toToml = .table
      ((settings.guidesPath.toList.map fun path => ("guides_path", .string path)) ++
        [("format", .string settings.format.name),
          ("limits", .table ((numbers settings.limits).map fun entry =>
            (entry.1, .integer entry.2)))]) := by
  simp [draft, front, Body.toToml, entriesToToml_eq_map, Node.toToml, Function.comp_def]

/-- A table with a format, and with a path where there is one, is read key by key. -/
theorem ofToml?_table {guidesPath : Option String} {format : ReportFormat} {table : Toml}
    {limits : Limits} (hlimits : limitsOf? table = some limits) :
    ofToml? (.table ((guidesPath.toList.map fun path => ("guides_path", .string path)) ++
      [("format", .string format.name), ("limits", table)])) =
      some ⟨guidesPath, format, limits⟩ := by
  cases guidesPath with
  | none => simp [ofToml?, readKey?, Toml.get?, formatOf?_name, hlimits, List.lookup_cons]
  | some path =>
    simp [ofToml?, readKey?, Toml.get?, pathOf?, formatOf?_name, hlimits, List.lookup_cons]

/-- Settings whose limits can be held are read back from their text. -/
theorem ofText?_toText {settings : Settings} (held : ∀ limit, settings.limits.get limit < 2 ^ 64) :
    ofText? settings.toText = some settings := by
  rw [ofText?, read?_of_reads settings.head?_toText (reads_toText held), Option.bind_some,
    toToml_draft]
  exact ofToml?_table (limitsOf?_numbers held)

/-! ## Files -/

/-- **Saved settings are loaded again as they were.** -/
theorem load?_save? {settings : Settings} {tree : Files.Tree} {path : Files.Path}
    (held : ∀ limit, settings.limits.get limit ≤ 2 ^ 63 - 1)
    (plain : ∀ guidesPath ∈ settings.guidesPath,
      '$' ∉ guidesPath.toList ∧ guidesPath.toList.head? ≠ some '~')
    (writable : tree.IsWritable path) :
    ∃ saved, settings.save? tree path = some saved ∧
      ∀ env : Environment, load? saved env path = .ok (some settings) := by
  obtain ⟨saved, hsaved, hfound⟩ := writable.exists_write? settings.toText.toUTF8
  have hcontains : saved.contains path = true := by
    rw [Files.Tree.contains, hfound]
    rfl
  have hread : saved.readText path = .ok settings.toText := by
    rw [Files.Tree.readText, hfound]
    simp only [Files.fromUTF8?_toUTF8]
  have htext : ofText? settings.toText = some settings :=
    ofText?_toText fun limit => lt_of_le_of_lt (held limit) (by decide)
  refine ⟨saved, hsaved, fun env => ?_⟩
  have hexpand : settings.expand env = settings := by
    rw [expand]
    cases hpath : settings.guidesPath with
    | none => rw [Option.map_none, ← hpath]
    | some guidesPath =>
      obtain ⟨dollar, tilde⟩ := plain guidesPath (by rw [hpath]; exact Option.mem_some_self _)
      rw [Option.map_some, env.expand_eq_self dollar tilde, ← hpath]
  rw [load?, if_pos hcontains, hread]
  simp only [htext, hexpand]

/-- A path that needs escapes, a limit of the greatest size, and a folder that is not there yet. -/
theorem load?_save?_escapes :
    let settings : Settings :=
      { guidesPath := some "it's \"\\ ~\n\t'''\x7f"
        format := .json
        limits := { messageLength := 2 ^ 63 - 1 } }
    let tree : Files.Tree := ⟨.folder [(Files.bytes "home", .folder [])], [Files.bytes "home"]⟩
    let path := Files.bytes "../new/./config.toml"
    (∀ limit, settings.limits.get limit ≤ 2 ^ 63 - 1) ∧
      (∀ guidesPath ∈ settings.guidesPath,
        '$' ∉ guidesPath.toList ∧ guidesPath.toList.head? ≠ some '~') ∧
      tree.IsWritable path ∧
      ∃ saved, settings.save? tree path = some saved ∧
        load? saved ⟨[("HOME", "/home")]⟩ path = .ok (some settings) := by
  intro settings tree path
  have held : ∀ limit, settings.limits.get limit ≤ 2 ^ 63 - 1 := by
    intro limit
    cases limit <;> decide
  have plain : ∀ guidesPath ∈ settings.guidesPath,
      '$' ∉ guidesPath.toList ∧ guidesPath.toList.head? ≠ some '~' := by
    intro guidesPath hpath
    obtain rfl := Option.some.inj hpath
    decide
  have writable : tree.IsWritable path := by
    let way := ["home", "..", "new", "."].map Files.bytes
    refine ⟨by decide, way, Files.bytes "config.toml", rfl, by decide, by decide, ?_, by decide⟩
    intro front hfront
    have hall : ∀ front ∈ way.inits,
        tree.root.isFolderAt? (Files.placeFrom [] front) ≠ some false ∧
          ["new", "config.toml"].map Files.bytes ≠ Files.placeFrom [] front := by decide
    exact hall front ((List.mem_inits front _).2 hfront)
  obtain ⟨saved, hsaved, hloaded⟩ := load?_save? held plain writable
  exact ⟨held, plain, writable, saved, hsaved, hloaded _⟩

end Settings

end GuideCheck
