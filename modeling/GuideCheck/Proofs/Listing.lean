import GuideCheck.Proofs.Encoding
import GuideCheck.Proofs.Enumeration
import GuideCheck.Proofs.Keys
import GuideCheck.Proofs.Places

set_option autoImplicit false

/-! # Reading listed guides

The guides of a folder are listed by their paths relative to it. Where names are texts, the list has
an entry for each path that a scan finds, in the same order; the relative path leads from the folder
to the very file that was found, and its name without the extension is the name that is shown
(`Tree.listGuides_readable`). -/

namespace GuideCheck.Files

/-! ## Names -/

theorem HasDistinctNames.nodup {entries : List (Name × Entry)} (h : HasDistinctNames entries) :
    (entries.map Prod.fst).Nodup := by
  induction h with
  | nil => exact List.nodup_nil
  | file new _ ih => exact List.nodup_cons.2 ⟨new, ih⟩
  | folder new _ _ _ ih => exact List.nodup_cons.2 ⟨new, ih⟩

theorem HasDistinctNames.inner {entries : List (Name × Entry)} (h : HasDistinctNames entries)
    {name : Name} {inner : List (Name × Entry)} (mem : (name, Entry.folder inner) ∈ entries) :
    HasDistinctNames inner := by
  induction h with
  | nil => cases mem
  | file _ _ ih =>
    rcases List.mem_cons.1 mem with heq | hrest
    · cases heq
    · exact ih hrest
  | folder _ within _ _ ih =>
    rcases List.mem_cons.1 mem with heq | hrest
    · cases heq
      exact within
    · exact ih hrest

/-- A guide below a folder is a file at its place. -/
theorem IsGuideBelow.exists_at? {entries : List (Name × Entry)} {names : List Name}
    (h : IsGuideBelow entries names) (distinct : HasDistinctNames entries) :
    ∃ content, (Entry.folder entries).at? names = some (.file content) := by
  induction h with
  | @file entries name content here _ =>
    refine ⟨content, ?_⟩
    rw [Entry.at?_folder_cons, (lookup_eq_some_iff_mem distinct.nodup).2 here]
    rfl
  | @folder entries inner name names here _ ih =>
    obtain ⟨content, hcontent⟩ := ih (distinct.inner here)
    refine ⟨content, ?_⟩
    rw [Entry.at?_folder_cons, (lookup_eq_some_iff_mem distinct.nodup).2 here]
    exact hcontent

/-- The name of a guide below a folder ends the way to it. -/
theorem IsGuideBelow.exists_getLast? {entries : List (Name × Entry)} {names : List Name}
    (h : IsGuideBelow entries names) :
    ∃ name, names.getLast? = some name ∧ isGuideName name = true :=
  (Option.any_eq_true _ _).1 (isGuideBelow_iff.1 h).2

/-! ## Relative paths -/

theorem getLast?_append_ne_slash {name : Name} (h : IsProperName name) (front : Path) :
    (front ++ name).getLast? ≠ some slash := by
  rw [List.getLast?_append_of_ne_nil _ h.nonempty]
  exact fun hlast => h.no_slash (List.mem_of_getLast? hlast)

section

variable {names : List Name}

theorem ofParts_ne_nil (proper : ∀ name ∈ names, IsProperName name) (hne : names ≠ []) :
    ofParts names ≠ [] := by
  intro hempty
  have hparts := parts_ofParts proper
  rw [hempty, parts_nil] at hparts
  exact hne hparts.symm

/-- A path that is made of proper names begins with no slash, and ends with none. -/
theorem isAbsolute_ofParts (proper : ∀ name ∈ names, IsProperName name) :
    isAbsolute (ofParts names) = false := by
  rw [isAbsolute, decide_eq_false_iff_not]
  cases names with
  | nil => simp [ofParts, Text.join]
  | cons name rest =>
    have hname := proper name List.mem_cons_self
    obtain ⟨first, others, rfl⟩ := List.exists_cons_of_ne_nil hname.nonempty
    have hslash : first ≠ slash := fun heq => hname.no_slash (heq ▸ List.mem_cons_self)
    cases rest with
    | nil => simpa [ofParts, Text.join] using hslash
    | cons next rest => simpa [ofParts, Text.join] using hslash

theorem getLast?_ofParts_ne_slash (proper : ∀ name ∈ names, IsProperName name) :
    (ofParts names).getLast? ≠ some slash := by
  obtain rfl | ⟨init, name, rfl⟩ := names.eq_nil_or_concat'
  · simp [ofParts, Text.join]
  · have hname := proper name (List.mem_append_right init List.mem_cons_self)
    by_cases hinit : init = []
    · rw [hinit]
      exact getLast?_append_ne_slash hname []
    · rw [ofParts, Text.join_append_singleton slash hinit, ← List.singleton_append,
        ← List.append_assoc]
      exact getLast?_append_ne_slash hname _

theorem join_ofParts (proper : ∀ name ∈ names, IsProperName name) (hne : names ≠ [])
    (folder : Path) : join folder (ofParts names) = below folder (ofParts names) := by
  rw [join, isAbsolute_ofParts proper, if_neg Bool.false_ne_true,
    if_neg (ofParts_ne_nil proper hne)]

theorem fileName?_ofParts (proper : ∀ name ∈ names, IsProperName name) :
    fileName? (ofParts names) = names.getLast? := by
  rw [fileName?, parts_ofParts proper, filter_ne_dot_of_isProperName proper]
  cases hlast : names.getLast? with
  | none => rfl
  | some name =>
    have hname := proper name (List.mem_of_getLast? hlast)
    simp [Option.filter_some, hname.ne_dots]

/-- A name put behind a path, as relative paths are put behind their folder. -/
def behind (path : Path) (name : Name) : Path := if path = [] then name else path ++ slash :: name

theorem guidePath_eq (proper : ∀ name ∈ names, IsProperName name) {relative : String}
    (h : bytes relative = ofParts names) (folder : Path) :
    Tree.guidePath folder relative = names.foldl behind folder := by
  rw [Tree.guidePath, h, parts_ofParts proper]
  rfl

theorem parts_behind {path : Path} {name : Name} (h : path ≠ []) (proper : IsProperName name) :
    parts (behind path name) = parts path ++ [name] := by
  rw [behind, if_neg h, parts_append_slash, parts_of_isProperName proper]

theorem isAbsolute_behind {path : Path} (h : path ≠ []) (name : Name) :
    isAbsolute (behind path name) = isAbsolute path := by
  obtain ⟨first, others, rfl⟩ := List.exists_cons_of_ne_nil h
  rfl

theorem behind_ne_nil {path : Path} (h : path ≠ []) (name : Name) : behind path name ≠ [] := by
  rw [behind, if_neg h]
  exact List.append_ne_nil_of_left_ne_nil h _

theorem foldl_behind (proper : ∀ name ∈ names, IsProperName name) {folder : Path}
    (hfolder : folder ≠ []) :
    names.foldl behind folder ≠ [] ∧
      isAbsolute (names.foldl behind folder) = isAbsolute folder ∧
      parts (names.foldl behind folder) = parts folder ++ names := by
  induction names using List.reverseRecOn with
  | nil => exact ⟨hfolder, rfl, (List.append_nil _).symm⟩
  | append_singleton names name ih =>
    have hname := proper name (List.mem_append_right names List.mem_cons_self)
    obtain ⟨hne, habsolute, hparts⟩ :=
      ih fun other hother => proper other (List.mem_append_left [name] hother)
    rw [List.foldl_concat]
    refine ⟨behind_ne_nil hne name, (isAbsolute_behind hne name).trans habsolute, ?_⟩
    rw [parts_behind hne hname, hparts, List.append_assoc]

theorem getLast?_foldl_behind (proper : ∀ name ∈ names, IsProperName name) (hne : names ≠ [])
    {folder : Path} (hfolder : folder ≠ []) :
    (names.foldl behind folder).getLast? ≠ some slash := by
  obtain ⟨init, name, rfl⟩ := names.eq_nil_or_concat'.resolve_left hne
  have hinit := foldl_behind (fun other hother => proper other (List.mem_append_left [name] hother))
    hfolder
  rw [List.foldl_concat, behind, if_neg hinit.1, ← List.singleton_append, ← List.append_assoc]
  exact getLast?_append_ne_slash (proper name (List.mem_append_right init List.mem_cons_self)) _

theorem below_ne_nil {folder : Path} (h : folder ≠ []) (path : Path) : below folder path ≠ [] := by
  unfold below
  split <;> exact List.append_ne_nil_of_left_ne_nil h _

theorem getLast?_below_ne_slash (proper : ∀ name ∈ names, IsProperName name) (hne : names ≠ [])
    (folder : Path) : (below folder (ofParts names)).getLast? ≠ some slash := by
  have hlast (front : Path) : (front ++ ofParts names).getLast? ≠ some slash := by
    rw [List.getLast?_append_of_ne_nil _ (ofParts_ne_nil proper hne)]
    exact getLast?_ofParts_ne_slash proper
  unfold below
  split
  · exact hlast _
  · rw [← List.singleton_append, ← List.append_assoc]
    exact hlast _

/-! ## Names that are texts -/

theorem bytes_append (text after : String) : bytes (text ++ after) = bytes text ++ bytes after := by
  rw [bytes, String.toList_append, Text.utf8_append]
  rfl

/-- A path that is made of texts is a text. -/
theorem exists_bytes_eq_ofParts (texts : ∀ name ∈ names, IsText name) :
    ∃ relative, ofParts names = bytes relative := by
  induction names with
  | nil => exact ⟨"", rfl⟩
  | cons name rest ih =>
    obtain ⟨text, rfl⟩ := texts name List.mem_cons_self
    obtain ⟨relative, hrelative⟩ :=
      ih fun other hother => texts other (List.mem_cons_of_mem _ hother)
    cases rest with
    | nil => exact ⟨text, rfl⟩
    | cons next rest =>
      refine ⟨text ++ "/" ++ relative, ?_⟩
      rw [bytes_append, bytes_append, ← hrelative, List.append_assoc]
      rfl

/-- The name that is shown is the name of the file without its extension. -/
theorem displayName_ofParts (proper : ∀ name ∈ names, IsProperName name) {relative : String}
    (h : bytes relative = ofParts names) {text : String}
    (hlast : names.getLast? = some (bytes text)) (named : isGuideName (bytes text) = true) :
    (GuideFile.mk relative).displayName ++ ".txt" = text := by
  obtain ⟨stem, hne, hname⟩ := isGuideName_iff.1 named
  have hsplit : splitName (bytes text) = (stem, some guideExtension) :=
    splitName_eq_some_iff.2 ⟨hne, hname, by decide⟩
  obtain ⟨front, hfront, rfl⟩ := Text.exists_of_utf8_eq_append (by simp) hname
  rw [GuideFile.displayName, h, fileName?_ofParts proper, hlast]
  simp only [if_pos named, hsplit, display, Text.decode_utf8]
  rw [← String.toList_inj, hfront, String.toList_append, String.toList_ofList]

/-- The guide at a path: its components after those of the folder, as a relative path, if that is a
    text. -/
def guideAt? (folder path : Path) : Option GuideFile := do
  let rest ← (components folder).isPrefixOf? (components path)
  if rest.head? = some (bytes "/") then none
  else (text? (ofParts (rest.filter (· ≠ bytes ".")))).map GuideFile.mk

theorem guideAt?_below (proper : ∀ name ∈ names, IsProperName name) {folder : Path}
    (hfolder : folder ≠ []) :
    guideAt? folder (below folder (ofParts names)) = (text? (ofParts names)).map GuideFile.mk := by
  have hrest : (components folder).isPrefixOf? (components (below folder (ofParts names))) =
      some names :=
    List.isPrefixOf?_eq_some_iff_append_eq.2 (components_below hfolder proper).symm
  have hhead : names.head? ≠ some (bytes "/") := by
    intro hhead
    exact (proper (bytes "/") (List.mem_of_mem_head? hhead)).no_slash (by decide)
  rw [guideAt?, hrest]
  simp only [Option.bind_eq_bind, Option.bind_some]
  rw [if_neg hhead, filter_ne_dot_of_isProperName proper]

end

/-- Where every item gives a result, the results stand in order. -/
theorem forall₂_filterMap {α β γ : Type} {R : β → γ → Prop} {f : α → Option β} {g : α → γ}
    {xs : List α} (h : ∀ x ∈ xs, ∃ y, f x = some y ∧ R y (g x)) :
    List.Forall₂ R (xs.filterMap f) (xs.map g) := by
  induction xs with
  | nil => exact .nil
  | cons x xs ih =>
    obtain ⟨hx, hxs⟩ := List.forall_mem_cons.1 h
    obtain ⟨y, hy, hR⟩ := hx
    rw [List.filterMap_cons_some hy, List.map_cons]
    exact .cons hR (ih hxs)

namespace Tree

section

variable {tree : Tree} {folder : Path} {entries : List (Name × Entry)} {names : List Name}

theorem ne_nil_of_find? {path : Path} {entry : Entry} (found : tree.find? path = some entry) :
    path ≠ [] := by
  rintro rfl
  cases found

/-- What a read gives where there is a file. -/
theorem readGuide_of_find? {relative : String} {content : ByteArray}
    (h : tree.find? (guidePath folder relative) = some (.file content)) :
    tree.readGuide folder relative =
      match String.fromUTF8? content with
      | some text => .ok text
      | none => .error (.read .notText) := by
  have hcontains : tree.contains (guidePath folder relative) = true := by
    rw [contains, h]
    rfl
  rw [readGuide]
  simp only [if_pos hcontains, readText, h]
  cases String.fromUTF8? content <;> rfl

/-- A guide below a folder is found and read at its place. -/
theorem exists_readGuide (found : tree.find? folder = some (.folder entries))
    (distinct : HasDistinctNames entries) (proper : HasNames IsProperName entries)
    (h : IsGuideBelow entries names) {relative : String}
    (hrelative : bytes relative = ofParts names) :
    ∃ content, tree.find? (below folder (ofParts names)) = some (.file content) ∧
      tree.readGuide folder relative =
        match String.fromUTF8? content with
        | some text => .ok text
        | none => .error (.read .notText) := by
  have hfolder := ne_nil_of_find? found
  have hnames := h.forall_names proper
  obtain ⟨first, -, others, hcons⟩ := h.exists_eq_cons
  have hne : names ≠ [] := hcons ▸ List.cons_ne_nil first others
  obtain ⟨content, hat⟩ := h.exists_at? distinct
  obtain ⟨hpath, habsolute, hparts⟩ := foldl_behind hnames hfolder
  refine ⟨content, ?_, readGuide_of_find? ?_⟩
  · refine find?_of_at? found hnames hat (isAbsolute_below hfolder _) ?_ (below_ne_nil hfolder _)
      (getLast?_below_ne_slash hnames hne folder)
    rw [parts_below, parts_ofParts hnames]
  · rw [guidePath_eq hnames hrelative]
    exact find?_of_at? found hnames hat habsolute hparts hpath
      (getLast?_foldl_behind hnames hne hfolder)

end

/-- **Listed guides can be read under their names.** -/
theorem listGuides_readable {tree : Tree} {folder : Path} {entries : List (Name × Entry)}
    (found : tree.find? folder = some (.folder entries)) (distinct : HasDistinctNames entries)
    (proper : HasNames IsProperName entries) (texts : HasNames IsText entries) :
    ∃ paths guides, tree.scanGuides folder = .ok paths ∧ tree.listGuides folder = .ok guides ∧
      paths.filterMap (guideAt? folder) = guides ∧
      List.Forall₂ (fun guide path =>
        join folder (bytes guide.relativePath) = path ∧
        (components path).getLast? = some (bytes (guide.displayName ++ ".txt")) ∧
        ∃ content, tree.find? path = some (.file content) ∧
          tree.readGuide folder guide.relativePath =
            match String.fromUTF8? content with
            | some text => .ok text
            | none => .error (.read .notText)) guides paths := by
  have hfolder := ne_nil_of_find? found
  have hguide : ∀ names ∈ sortPaths (guidesBelow entries), IsGuideBelow entries names :=
    fun names => ((areGuidesInOrder_sortPaths entries).mem_iff names).1
  refine ⟨(sortPaths (guidesBelow entries)).map fun names => below folder (ofParts names),
    (sortPaths (guidesBelow entries)).filterMap fun names =>
      (text? (ofParts names)).map GuideFile.mk, ?_, ?_, ?_, ?_⟩
  · rw [scanGuides, guideParts, found]
    rfl
  · rw [listGuides, guideParts, found]
    rfl
  · rw [List.filterMap_map]
    refine List.filterMap_congr fun names hnames => ?_
    exact guideAt?_below ((hguide names hnames).forall_names proper) hfolder
  · refine forall₂_filterMap fun names hnames => ?_
    have h := hguide names hnames
    have hproper := h.forall_names proper
    obtain ⟨first, -, others, hcons⟩ := h.exists_eq_cons
    have hne : names ≠ [] := hcons ▸ List.cons_ne_nil first others
    obtain ⟨relative, hrelative⟩ := exists_bytes_eq_ofParts (h.forall_names texts)
    obtain ⟨name, hlast, named⟩ := h.exists_getLast?
    obtain ⟨text, rfl⟩ := h.forall_names texts name (List.mem_of_getLast? hlast)
    refine ⟨⟨relative⟩, by rw [hrelative, text?_bytes]; rfl, ?_, ?_,
      exists_readGuide found distinct proper h hrelative.symm⟩
    · rw [← hrelative]
      exact join_ofParts hproper hne folder
    · rw [components_below hfolder hproper, List.getLast?_append, hlast,
        displayName_ofParts hproper hrelative.symm hlast named]
      rfl

/-- A folder reached by a detour, with a name of several dots and a file that is no text. -/
theorem listGuides_readable_dots :
    let entries : List (Name × Entry) :=
      [(bytes "raids", .folder [(bytes "..txt", .file "Chambers".toUTF8)]),
        (bytes ".a.b.txt", .file ⟨#[255]⟩)]
    let tree : Tree := ⟨.folder [(bytes "g", .folder entries)], [bytes "g", bytes "raids"]⟩
    tree.find? (bytes "../.") = some (.folder entries) ∧ HasDistinctNames entries ∧
      HasNames IsProperName entries ∧ HasNames IsText entries ∧
      ∃ guides, tree.listGuides (bytes "../.") = .ok guides ∧ ⟨"raids/..txt"⟩ ∈ guides ∧
        tree.readGuide (bytes "../.") "raids/..txt" = .ok "Chambers" := by
  intro entries tree
  have distinct : HasDistinctNames entries :=
    .folder (by decide) (.file (by decide) .nil) (.file (by decide) .nil)
  have proper : HasNames IsProperName entries :=
    .folder (by decide) (.file (by decide) .nil) (.file (by decide) .nil)
  have texts : HasNames IsText entries :=
    .folder ⟨_, rfl⟩ (.file ⟨_, rfl⟩ .nil) (.file ⟨_, rfl⟩ .nil)
  have found : tree.find? (bytes "../.") = some (.folder entries) := rfl
  obtain ⟨paths, guides, -, hlist, -, hall⟩ := listGuides_readable found distinct proper texts
  have hmem : ⟨"raids/..txt"⟩ ∈ guides := by
    have hbelow : IsGuideBelow entries [bytes "raids", bytes "..txt"] :=
      .folder List.mem_cons_self (.file List.mem_cons_self (by decide))
    rw [listGuides, guideParts, found] at hlist
    obtain rfl := Except.ok.inj hlist
    refine List.mem_filterMap.2
      ⟨_, ((areGuidesInOrder_sortPaths entries).mem_iff _).2 hbelow, ?_⟩
    exact congrArg (Option.map GuideFile.mk) (text?_bytes "raids/..txt")
  obtain ⟨path, -, rfl, -, content, hfile, hread⟩ := exists_of_mem_left hall hmem
  have hcontent : tree.find? (join (bytes "../.") (bytes "raids/..txt")) =
      some (.file "Chambers".toUTF8) := rfl
  obtain rfl : content = "Chambers".toUTF8 :=
    Entry.file.inj (Option.some.inj (hfile.symm.trans hcontent))
  rw [fromUTF8?_toUTF8] at hread
  exact ⟨found, distinct, proper, texts, guides, hlist, hmem, hread⟩

end Tree

end GuideCheck.Files
