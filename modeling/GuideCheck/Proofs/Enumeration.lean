import Mathlib.Data.List.Nodup
import GuideCheck.Proofs.Collecting
import GuideCheck.Proofs.Paths

set_option autoImplicit false

/-! # Enumerating folders

The machine enumerates the entries of a folder in any order. Here a scan follows such enumerations
(`scan`): guides are collected one after another while folders are descended, and sorted at the end.
Whatever the order of the enumerations, it finds the same guides, all of them, each once and in
order; and it finds what the scan of a tree finds (`scan_enumerations`). -/

namespace GuideCheck.Files

/-! ## Scanning -/

/-- The paths collected so far, followed by those of the guides below a folder. -/
def collect (folder : List Name) : List (Name × Entry) → List (List Name) → List (List Name)
  | [], files => files
  | (name, .file _) :: rest, files =>
    collect folder rest (if isGuideName name then files ++ [folder ++ [name]] else files)
  | (name, .folder inner) :: rest, files =>
    collect folder rest (collect (folder ++ [name]) inner files)

/-- The paths to the guides below a folder that is enumerated, in order. -/
def scan (folder : List Name) (entries : List (Name × Entry)) : List (List Name) :=
  sortPaths (collect folder entries [])

theorem collect_eq (folder : List Name) (entries : List (Name × Entry)) (files : List (List Name)) :
    collect folder entries files = files ++ (guidesBelow entries).map (folder ++ ·) := by
  induction folder, entries, files using collect.induct with
  | case1 folder files => simp [collect, guidesBelow]
  | case2 folder name content rest files ih =>
    rw [dite_eq_ite] at ih
    rw [collect, ih, guidesBelow]
    split <;> simp
  | case3 folder name inner rest files ihinner ihrest =>
    rw [collect, ihrest, ihinner, guidesBelow, List.map_append, List.map_map, List.append_assoc]
    simp [Function.comp_def]

theorem perm_scan (folder : List Name) (entries : List (Name × Entry)) :
    (scan folder entries).Perm ((guidesBelow entries).map (folder ++ ·)) := by
  rw [scan, collect_eq, List.nil_append]
  exact List.mergeSort_perm _ _

/-! ## Which guides are found -/

/-- Whether parts lead from the entries of a folder to a file below it. -/
inductive IsFileBelow : List (Name × Entry) → List Name → Prop
  | here {entries : List (Name × Entry)} {name : Name} {content : ByteArray}
      (mem : (name, Entry.file content) ∈ entries) : IsFileBelow entries [name]
  | under {entries inner : List (Name × Entry)} {name : Name} {names : List Name}
      (mem : (name, Entry.folder inner) ∈ entries) (rest : IsFileBelow inner names) :
      IsFileBelow entries (name :: names)

/-- The guides below a folder are the files below it that are named as guides. -/
theorem isGuideBelow_iff {entries : List (Name × Entry)} {names : List Name} :
    IsGuideBelow entries names ↔
      IsFileBelow entries names ∧ names.getLast?.any isGuideName = true := by
  constructor
  · intro h
    induction h with
    | file here named => exact ⟨.here here, named⟩
    | @folder entries inner name names here _ ih =>
      obtain ⟨hfile, hnamed⟩ := ih
      refine ⟨.under here hfile, ?_⟩
      cases names with
      | nil => cases hfile
      | cons next names => exact hnamed
  · rintro ⟨hfile, hnamed⟩
    induction hfile with
    | here mem => exact .file mem hnamed
    | @under entries inner name names mem rest ih =>
      refine .folder mem (ih ?_)
      cases names with
      | nil => cases rest
      | cons next names => exact hnamed

theorem mem_scan_iff {folder path : List Name} {entries : List (Name × Entry)} :
    path ∈ scan folder entries ↔
      ∃ names, IsGuideBelow entries names ∧ path = folder ++ names := by
  rw [(perm_scan folder entries).mem_iff, List.mem_map]
  simp only [mem_guidesBelow_iff, eq_comm]

theorem IsGuideBelow.forall_names {P : Name → Prop} {entries : List (Name × Entry)}
    {names : List Name} (h : IsGuideBelow entries names) (hnames : HasNames P entries) :
    ∀ name ∈ names, P name := by
  induction h with
  | file here _ =>
    intro other hother
    rw [List.mem_singleton.1 hother]
    exact hnames.of_mem here
  | folder here _ ih =>
    intro other hother
    rcases List.mem_cons.1 hother with rfl | hrest
    · exact hnames.of_mem here
    · exact ih (hnames.inner here) other hrest

/-! ## Order -/

theorem pairwise_scan (folder : List Name) (entries : List (Name × Entry)) :
    (scan folder entries).Pairwise (· ≤ ·) := pairwise_sortPaths _

theorem pairwise_lt_scan (folder : List Name) {entries : List (Name × Entry)}
    (h : HasDistinctNames entries) : (scan folder entries).Pairwise (· < ·) := by
  have hnodup : (scan folder entries).Nodup :=
    (perm_scan folder entries).nodup_iff.2
      ((nodup_guidesBelow h).map (List.append_right_injective folder))
  refine ((pairwise_scan folder entries).and hnodup).imp fun {a b} h => ?_
  by_contra hlt
  exact h.2 (List.le_antisymm h.1 (List.not_lt.1 hlt))

theorem eq_of_sorted {paths paths' : List (List Name)} (sorted : paths.Pairwise (· ≤ ·))
    (sorted' : paths'.Pairwise (· ≤ ·)) (perm : paths.Perm paths') : paths = paths' :=
  perm.eq_of_pairwise (fun _ _ _ _ hle hge => List.le_antisymm hle hge) sorted sorted'

/-! ## Other orders -/

/-- Whether two enumerations show one folder: its entries in two orders, and those of each folder
    below it. -/
inductive Reordered : List (Name × Entry) → List (Name × Entry) → Prop
  | nil : Reordered [] []
  | file {entries entries' : List (Name × Entry)} (name : Name) (content : ByteArray)
      (rest : Reordered entries entries') :
      Reordered ((name, .file content) :: entries) ((name, .file content) :: entries')
  | folder {inner inner' entries entries' : List (Name × Entry)} (name : Name)
      (within : Reordered inner inner') (rest : Reordered entries entries') :
      Reordered ((name, .folder inner) :: entries) ((name, .folder inner') :: entries')
  | swap (first second : Name × Entry) (entries : List (Name × Entry)) :
      Reordered (first :: second :: entries) (second :: first :: entries)
  | trans {entries entries' entries'' : List (Name × Entry)} (front : Reordered entries entries')
      (back : Reordered entries' entries'') : Reordered entries entries''

theorem guidesBelow_cons (entry : Name × Entry) (rest : List (Name × Entry)) :
    guidesBelow (entry :: rest) = guidesBelow [entry] ++ guidesBelow rest := by
  obtain ⟨name, content | inner⟩ := entry
  · rw [guidesBelow, guidesBelow, guidesBelow]
    split <;> rfl
  · rw [guidesBelow, guidesBelow, guidesBelow, List.append_nil]

theorem perm_guidesBelow_of_reordered {entries entries' : List (Name × Entry)}
    (h : Reordered entries entries') : (guidesBelow entries).Perm (guidesBelow entries') := by
  induction h with
  | nil => exact List.Perm.refl _
  | @file entries entries' name content _ ih =>
    rw [guidesBelow_cons _ entries, guidesBelow_cons _ entries']
    exact ih.append_left _
  | folder name _ _ ihwithin ihrest =>
    rw [guidesBelow, guidesBelow]
    exact (ihwithin.map _).append ihrest
  | swap first second entries =>
    rw [guidesBelow_cons first (second :: entries), guidesBelow_cons second entries,
      guidesBelow_cons second (first :: entries), guidesBelow_cons first entries,
      ← List.append_assoc, ← List.append_assoc]
    exact List.perm_append_comm.append_right _
  | trans _ _ ihfront ihback => exact ihfront.trans ihback

/-- A scan does not depend on the order of the enumerations. -/
theorem scan_of_reordered (folder : List Name) {entries entries' : List (Name × Entry)}
    (h : Reordered entries entries') : scan folder entries' = scan folder entries := by
  have hperm := (perm_guidesBelow_of_reordered h).symm.map (folder ++ ·)
  exact eq_of_sorted (pairwise_scan folder entries') (pairwise_scan folder entries)
    ((perm_scan folder entries').trans (hperm.trans (perm_scan folder entries).symm))

/-! ## Trees -/

/-- The scan of a tree finds what the scan of its folder finds. -/
theorem exists_scanGuides_eq {tree : Tree} {path : Path} {entries : List (Name × Entry)}
    (found : tree.find? path = some (.folder entries)) (proper : HasNames IsProperName entries) :
    ∃ files, tree.scanGuides path = .ok files ∧
      files.map components = scan (components path) entries := by
  have hpath : path ≠ [] := by
    rintro rfl
    cases found
  let guides := sortPaths (guidesBelow entries)
  have inOrder := areGuidesInOrder_sortPaths entries
  have hfiles : (guides.map fun names => below path (ofParts names)).map components =
      guides.map (components path ++ ·) := by
    rw [List.map_map]
    refine List.map_congr_left fun names hnames => ?_
    exact components_below hpath (((inOrder.mem_iff names).1 hnames).forall_names proper)
  have hsorted : (guides.map (components path ++ ·)).Pairwise (· ≤ ·) :=
    List.pairwise_map.2 (inOrder.ordered.imp fun h => List.append_left_le h)
  have hperm : (guides.map (components path ++ ·)).Perm (scan (components path) entries) :=
    ((List.mergeSort_perm _ _).map _).trans (perm_scan _ entries).symm
  refine ⟨_, by rw [Tree.scanGuides, Tree.guideParts, found]; rfl, ?_⟩
  exact hfiles.trans (eq_of_sorted hsorted (pairwise_scan _ entries) hperm)

/-- **Scanning finds every guide once, in order.** What a scan of a folder finds are the files
    below it, at any depth, whose names end in `.txt` after something; their paths are strictly
    increasing, and they are the same for every order of the enumerations. These are the paths that
    the scan of a tree gives. -/
theorem scan_enumerations (folder : List Name) {entries : List (Name × Entry)}
    (distinct : HasDistinctNames entries) :
    (∀ path, path ∈ scan folder entries ↔
      ∃ names stem, IsFileBelow entries names ∧ names.getLast? = some (stem ++ bytes ".txt") ∧
        stem ≠ [] ∧ path = folder ++ names) ∧
    (scan folder entries).Pairwise (· < ·) ∧
    (∀ entries', Reordered entries entries' → scan folder entries' = scan folder entries) ∧
    ∀ (tree : Tree) (path : Path) (entries' : List (Name × Entry)),
      tree.find? path = some (.folder entries') → HasNames IsProperName entries' →
      components path = folder → Reordered entries entries' →
      ∃ files, tree.scanGuides path = .ok files ∧ files.map components = scan folder entries := by
  refine ⟨fun path => ?_, pairwise_lt_scan folder distinct,
    fun entries' reordered => scan_of_reordered folder reordered, ?_⟩
  · rw [mem_scan_iff]
    constructor
    · rintro ⟨names, hbelow, rfl⟩
      obtain ⟨hfile, hguide⟩ := isGuideBelow_iff.1 hbelow
      obtain ⟨name, hlast, hname⟩ := (Option.any_eq_true _ _).1 hguide
      obtain ⟨stem, hne, rfl⟩ := isGuideName_iff.1 hname
      exact ⟨names, stem, hfile, hlast, hne, rfl⟩
    · rintro ⟨names, stem, hfile, hlast, hne, rfl⟩
      refine ⟨names, isGuideBelow_iff.2 ⟨hfile, ?_⟩, rfl⟩
      rw [hlast]
      exact isGuideName_iff.2 ⟨stem, hne, rfl⟩
  · intro tree path entries' found proper hfolder reordered
    obtain ⟨files, hfiles, hpaths⟩ := exists_scanGuides_eq found proper
    exact ⟨files, hfiles, by rw [hpaths, hfolder, scan_of_reordered folder reordered]⟩

/-- A folder and a file whose names differ in a byte that comes before the slash, and a file whose
    name is no text. -/
theorem scan_enumerations_dash :
    let inner : List (Name × Entry) := [(bytes "z.txt", .file "Z".toUTF8)]
    let entries : List (Name × Entry) :=
      [(bytes "b", .folder inner), (bytes "b-.txt", .file "B".toUTF8),
        (0xff :: bytes ".txt", .file "C".toUTF8)]
    let entries' : List (Name × Entry) :=
      [(bytes "b-.txt", .file "B".toUTF8), (bytes "b", .folder inner),
        (0xff :: bytes ".txt", .file "C".toUTF8)]
    let tree : Tree := ⟨.folder [(bytes "g", .folder entries')], []⟩
    HasDistinctNames entries ∧ HasNames IsProperName entries' ∧ Reordered entries entries' ∧
      ∃ files, tree.scanGuides (bytes "g") = .ok files ∧
        files.map components = scan [bytes "g"] entries ∧
        [bytes "g", bytes "b", bytes "z.txt"] ∈ scan [bytes "g"] entries := by
  intro inner entries entries' tree
  have distinct : HasDistinctNames entries :=
    .folder (by decide) (.file (by decide) .nil) (.file (by decide) (.file (by decide) .nil))
  have proper : HasNames IsProperName entries' :=
    .file (by decide) (.folder (by decide) (.file (by decide) .nil) (.file (by decide) .nil))
  have reordered : Reordered entries entries' := .swap _ _ _
  obtain ⟨hmem, -, -, htree⟩ := scan_enumerations [bytes "g"] distinct
  obtain ⟨files, hfiles, hpaths⟩ := htree tree (bytes "g") entries' rfl proper rfl reordered
  refine ⟨distinct, proper, reordered, files, hfiles, hpaths, (hmem _).2 ?_⟩
  exact ⟨[bytes "b", bytes "z.txt"], bytes "z",
    .under List.mem_cons_self (.here List.mem_cons_self), rfl, by decide, rfl⟩

end GuideCheck.Files
