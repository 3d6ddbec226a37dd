import GuideCheck.Proofs.Keys
import GuideCheck.Proofs.Places

set_option autoImplicit false

/-! # Files that were written

A file can be written to a path unless a file stands on the way or a folder at its end
(`Tree.IsWritable`), and it is then found there (`Tree.IsWritable.exists_write?`); it can be written
to no other paths (`Tree.isWritable_of_write?`). What counts on the way is only whether there is a
file, a folder or nothing at a place (`Entry.isFolderAt?`). -/

namespace GuideCheck.Files

/-- Where the parts of a path lead to from a place. -/
def placeFrom (place parts : List Name) : List Name := parts.foldl placeAfter place

/-- Something holds of every place on a way if it holds of the first one and of those after it. -/
theorem forall_prefix_cons (P : List Name → Prop) {place : List Name} {part : Name}
    {parts : List Name} :
    (∀ front, front <+: part :: parts → P (placeFrom place front)) ↔
      P place ∧ ∀ front, front <+: parts → P (placeFrom (placeAfter place part) front) := by
  constructor
  · intro h
    refine ⟨h [] List.nil_prefix, fun front hfront => ?_⟩
    exact h (part :: front) (List.cons_prefix_cons.2 ⟨rfl, hfront⟩)
  · rintro ⟨hplace, h⟩ front hfront
    cases front with
    | nil => exact hplace
    | cons first front =>
      obtain ⟨rfl, hrest⟩ := List.cons_prefix_cons.1 hfront
      exact h front hrest

namespace Entry

/-! ## What is at a place -/

/-- Whether a folder is at a place, or a file, if there is anything. -/
def isFolderAt? (root : Entry) (place : List Name) : Option Bool := (root.at? place).map isFolder

section

variable {root entry : Entry} {place other : List Name} {name part : Name}

theorem isFolderAt?_folder_cons (entries : List (Name × Entry)) (name : Name)
    (names : List Name) :
    (folder entries).isFolderAt? (name :: names) =
      (entries.lookup name).bind (·.isFolderAt? names) := by
  rw [isFolderAt?, at?_folder_cons]
  exact Option.map_bind

theorem isFolderAt?_eq_some_true :
    root.isFolderAt? place = some true ↔ ∃ entries, root.at? place = some (folder entries) := by
  rw [isFolderAt?, Option.map_eq_some_iff]
  constructor
  · rintro ⟨here, hhere, hfolder⟩
    cases here with
    | file content => cases hfolder
    | folder entries => exact ⟨entries, hhere⟩
  · rintro ⟨entries, hentries⟩
    exact ⟨folder entries, hentries, rfl⟩

/-- A folder is in folders only. -/
theorem isFolderAt?_of_append (h : root.isFolderAt? (place ++ [name]) = some true) :
    root.isFolderAt? place = some true := by
  obtain ⟨entries, hentries⟩ := isFolderAt?_eq_some_true.1 h
  rw [at?_append, Option.bind_eq_some_iff] at hentries
  obtain ⟨here, hhere, hname⟩ := hentries
  cases here with
  | file content => rw [at?_file_cons] at hname; cases hname
  | folder entries' => exact isFolderAt?_eq_some_true.2 ⟨entries', hhere⟩

theorem isFolderAt?_dropLast (h : root.isFolderAt? place = some true) :
    root.isFolderAt? place.dropLast = some true := by
  obtain rfl | ⟨front, name, rfl⟩ := place.eq_nil_or_concat'
  · exact h
  · rw [List.dropLast_concat]
    exact isFolderAt?_of_append h

/-- Where a part leads to from a folder is a folder, unless the part is a new name. -/
theorem isFolderAt?_placeAfter (h : root.isFolderAt? place = some true) (part : Name) :
    root.isFolderAt? (placeAfter place part) = some true ∨
      placeAfter place part = place ++ [part] := by
  by_cases hdot : part = bytes "."
  · left
    rwa [placeAfter, if_pos hdot]
  · by_cases hdots : part = bytes ".."
    · left
      rw [placeAfter, if_neg hdot, if_pos hdots]
      exact isFolderAt?_dropLast h
    · right
      rw [placeAfter, if_neg hdot, if_neg hdots]

/-! ## Putting an entry at a place -/

theorem lookup_put (name key : Name) (entry : Entry) (entries : List (Name × Entry)) :
    (put name entry entries).lookup key =
      if key = name then some entry else entries.lookup key := by
  induction entries with
  | nil => exact Json.lookup_cons_eq_ite key name entry []
  | cons first rest ih =>
    obtain ⟨n, e⟩ := first
    rw [put]
    by_cases hn : n = name
    · rw [if_pos hn, Json.lookup_cons_eq_ite, Json.lookup_cons_eq_ite, hn]
      by_cases h : key = name
      · rw [if_pos h, if_pos h]
      · rw [if_neg h, if_neg h, if_neg h]
    · rw [if_neg hn, Json.lookup_cons_eq_ite, ih, Json.lookup_cons_eq_ite]
      by_cases h : key = n
      · rw [if_pos h, if_pos h, if_neg (h ▸ hn)]
      · rw [if_neg h, if_neg h]

/-- A file, or a folder without entries. -/
def IsBare (entry : Entry) : Prop := ∀ name, entry.child? name = none

theorem isBare_file (content : ByteArray) : IsBare (file content) := fun _ => rfl

theorem isBare_folder_nil : IsBare (folder []) := fun _ => rfl

theorem IsBare.insert_nil (bare : entry.IsBare) {old : Entry} (h : old.IsBare) :
    insert entry [] old = entry := by
  cases entry with
  | file content => rfl
  | folder entries =>
    cases old with
    | file content => cases entries <;> rfl
    | folder entries' =>
      have hnil : entries' = [] := by
        cases entries' with
        | nil => rfl
        | cons first rest =>
          have hnone := h first.1
          rw [child?, List.lookup_cons_self] at hnone
          cases hnone
      cases entries with
      | nil => rw [hnil]; rfl
      | cons first rest => rfl

theorem IsBare.isFolderAt?_cons (bare : entry.IsBare) (name : Name) (names : List Name) :
    entry.isFolderAt? (name :: names) = none := by
  rw [isFolderAt?, at?_cons, bare name]
  rfl

/-- Putting an entry without entries into a folder changes nothing but its own place. -/
theorem isFolderAt?_insert (bare : entry.IsBare) (h : root.isFolderAt? place = some true)
    (free : root.isFolderAt? (place ++ [name]) ≠ some true) :
    (insert entry (place ++ [name]) root).isFolderAt? other =
      if other = place ++ [name] then some entry.isFolder else root.isFolderAt? other := by
  induction place generalizing root other with
  | nil =>
    cases root with
    | file content => cases h
    | folder entries =>
      rw [List.nil_append, insert]
      have hold : IsBare ((entries.lookup name).getD (folder [])) := by
        cases hlookup : entries.lookup name with
        | none => exact isBare_folder_nil
        | some old =>
          cases old with
          | file content => exact isBare_file content
          | folder inner =>
            rw [List.nil_append, isFolderAt?_folder_cons, hlookup] at free
            exact absurd rfl free
      rw [bare.insert_nil hold]
      cases other with
      | nil => rfl
      | cons first rest =>
        rw [isFolderAt?_folder_cons, isFolderAt?_folder_cons, lookup_put]
        by_cases hfirst : first = name
        · subst hfirst
          rw [if_pos rfl]
          cases rest with
          | nil => rw [if_pos rfl]; rfl
          | cons second rest =>
            rw [if_neg (by simp), Option.bind_some, bare.isFolderAt?_cons]
            cases hlookup : entries.lookup first with
            | none => rfl
            | some old =>
              rw [hlookup] at hold
              exact (hold.isFolderAt?_cons second rest).symm
        · rw [if_neg hfirst, if_neg (by simp [hfirst])]
  | cons outer place ih =>
    cases root with
    | file content => rw [isFolderAt?, at?_file_cons] at h; cases h
    | folder entries =>
      rw [isFolderAt?_folder_cons, Option.bind_eq_some_iff] at h
      obtain ⟨inner, hlookup, hinner⟩ := h
      rw [List.cons_append, isFolderAt?_folder_cons, hlookup] at free
      rw [List.cons_append, insert, hlookup, Option.getD_some]
      cases other with
      | nil => rfl
      | cons first rest =>
        rw [isFolderAt?_folder_cons, isFolderAt?_folder_cons, lookup_put]
        by_cases hfirst : first = outer
        · subst hfirst
          rw [if_pos rfl, hlookup, Option.bind_some, Option.bind_some, ih hinner free]
          simp
        · rw [if_neg hfirst, if_neg (by simp [hfirst])]

/-- An entry that was put at a place is there. -/
theorem at?_insert_file (content : ByteArray) (place : List Name) (root : Entry) :
    (insert (file content) place root).at? place = some (file content) := by
  induction place generalizing root with
  | nil => rfl
  | cons name rest ih =>
    cases root with
    | file content' =>
      rw [insert, at?_folder_cons, List.lookup_cons_self]
      exact ih _
    | folder entries =>
      rw [insert, at?_folder_cons, lookup_put, if_pos rfl]
      exact ih _

/-! ## Making way -/

/-- One step makes the folder it leads to, unless there is one, and changes nothing else. -/
theorem exists_makeWay?_cons (h : root.isFolderAt? place = some true)
    (noFile : root.isFolderAt? (placeAfter place part) ≠ some false) (parts : List Name) :
    ∃ root' : Entry,
      root.makeWay? place (part :: parts) = root'.makeWay? (placeAfter place part) parts ∧
      root'.isFolderAt? (placeAfter place part) = some true ∧
      ∀ other, other ≠ placeAfter place part →
        root'.isFolderAt? other = root.isFolderAt? other := by
  rw [makeWay?]
  match hat : root.at? (placeAfter place part) with
  | some (file content) => exact absurd (by rw [isFolderAt?, hat]; rfl) noFile
  | some (folder entries) =>
    exact ⟨root, rfl, isFolderAt?_eq_some_true.2 ⟨entries, hat⟩, fun other _ => rfl⟩
  | none =>
    have hnone : root.isFolderAt? (placeAfter place part) ≠ some true := by
      rw [isFolderAt?, hat]
      simp
    have hnext := (isFolderAt?_placeAfter h part).resolve_left hnone
    rw [hnext] at hnone ⊢
    refine ⟨insert (folder []) (place ++ [part]) root, rfl, ?_, fun other hne => ?_⟩
    · rw [isFolderAt?_insert isBare_folder_nil h hnone, if_pos rfl]
      rfl
    · rw [isFolderAt?_insert isBare_folder_nil h hnone, if_neg hne]

/-- Where no file stands in the way, all folders on it are made and nothing else changes. -/
theorem exists_makeWay? {parts : List Name} (h : root.isFolderAt? place = some true)
    (noFile : ∀ front, front <+: parts → root.isFolderAt? (placeFrom place front) ≠ some false) :
    ∃ root', root.makeWay? place parts = some (root', placeFrom place parts) ∧
      (∀ front, front <+: parts → root'.isFolderAt? (placeFrom place front) = some true) ∧
      ∀ other, (∀ front, front <+: parts → other ≠ placeFrom place front) →
        root'.isFolderAt? other = root.isFolderAt? other := by
  induction parts generalizing root place with
  | nil =>
    refine ⟨root, rfl, fun front hfront => ?_, fun other _ => rfl⟩
    rw [List.prefix_nil.1 hfront]
    exact h
  | cons part parts ih =>
    obtain ⟨-, noFile⟩ :=
      (forall_prefix_cons fun place => root.isFolderAt? place ≠ some false).1 noFile
    obtain ⟨root₁, hstep, hnext, hsame⟩ := exists_makeWay?_cons h (noFile [] List.nil_prefix) parts
    have noFile₁ : ∀ front, front <+: parts →
        root₁.isFolderAt? (placeFrom (placeAfter place part) front) ≠ some false := by
      intro front hfront
      by_cases heq : placeFrom (placeAfter place part) front = placeAfter place part
      · rw [heq, hnext]
        simp
      · rw [hsame _ heq]
        exact noFile front hfront
    obtain ⟨root₂, hmake, hfolders, hrest⟩ := ih hnext noFile₁
    have hother : ∀ other, (∀ front, front <+: part :: parts → other ≠ placeFrom place front) →
        root₂.isFolderAt? other = root.isFolderAt? other := by
      intro other hne
      obtain ⟨-, hne⟩ := (forall_prefix_cons fun place => other ≠ place).1 hne
      rw [hrest other hne, hsame other (hne [] List.nil_prefix)]
    refine ⟨root₂, hstep.trans hmake, (forall_prefix_cons fun place =>
      root₂.isFolderAt? place = some true).2 ⟨?_, hfolders⟩, hother⟩
    by_cases hpass : ∃ front, front <+: parts ∧ place = placeFrom (placeAfter place part) front
    · obtain ⟨front, hfront, heq⟩ := hpass
      rw [heq]
      exact hfolders front hfront
    · have hne : ∀ front, front <+: parts → place ≠ placeFrom (placeAfter place part) front :=
        fun front hfront heq => hpass ⟨front, hfront, heq⟩
      rw [hrest place hne, hsame place (hne [] List.nil_prefix), h]

/-- Way was made where no file stood in it. -/
theorem ne_file_of_makeWay? {parts arrived : List Name} {root' : Entry}
    (h : root.isFolderAt? place = some true)
    (made : root.makeWay? place parts = some (root', arrived)) :
    ∀ front, front <+: parts → root.isFolderAt? (placeFrom place front) ≠ some false := by
  induction parts generalizing root place with
  | nil =>
    intro front hfront
    rw [List.prefix_nil.1 hfront]
    show root.isFolderAt? place ≠ some false
    rw [h]
    simp
  | cons part parts ih =>
    have noFile : root.isFolderAt? (placeAfter place part) ≠ some false := by
      intro hfile
      obtain ⟨entry, hentry, hnot⟩ := Option.map_eq_some_iff.1 hfile
      match entry with
      | file content =>
        rw [makeWay?, hentry] at made
        cases made
      | folder entries => cases hnot
    obtain ⟨root₁, hstep, hnext, hsame⟩ := exists_makeWay?_cons h noFile parts
    have hrest := ih hnext (hstep.symm.trans made)
    refine (forall_prefix_cons fun place => root.isFolderAt? place ≠ some false).2
      ⟨by rw [h]; simp, fun front hfront => ?_⟩
    by_cases heq : placeFrom (placeAfter place part) front = placeAfter place part
    · rw [heq]
      exact noFile
    · rw [← hsame _ heq]
      exact hrest front hfront

/-! ## Following parts to a place -/

/-- The entries on the way to a place, the last one first. -/
inductive Above (root : Entry) : List Name → List Entry → Prop
  | root : Above root [] [root]
  | child {place : List Name} {here entry : Entry} {outer : List Entry} {name : Name}
      (above : Above root place (here :: outer)) (found : here.child? name = some entry) :
      Above root (place ++ [name]) (entry :: here :: outer)

theorem Above.at?_eq {above : List Entry} (h : Above root place above) :
    ∃ here outer, above = here :: outer ∧ root.at? place = some here := by
  induction h with
  | root => exact ⟨root, [], rfl, rfl⟩
  | @child place here entry outer name _ found ih =>
    obtain ⟨here', outer', heq, hat⟩ := ih
    obtain ⟨rfl, -⟩ := List.cons.inj heq
    refine ⟨entry, here :: outer, rfl, ?_⟩
    rw [at?_append, hat, Option.bind_some, at?_cons, found]
    rfl

/-- A part leads from a folder to what is at the next place. -/
theorem Above.exists_follow {above : List Entry} (h : Above root place above)
    (here : root.isFolderAt? place = some true)
    (next : root.isFolderAt? (placeAfter place part) ≠ none) :
    ∃ above', follow above part = some above' ∧ Above root (placeAfter place part) above' := by
  obtain ⟨_, outer, rfl, hat⟩ := h.at?_eq
  obtain ⟨entries, hentries⟩ := isFolderAt?_eq_some_true.1 here
  obtain rfl := Option.some.inj (hat.symm.trans hentries)
  rw [follow]
  unfold placeAfter at next ⊢
  split
  · exact ⟨_, rfl, h⟩
  · split
    · cases h with
      | root => exact ⟨_, rfl, .root⟩
      | child above found =>
        rw [List.dropLast_concat]
        exact ⟨_, rfl, above⟩
    · next hdot hdots =>
      rw [if_neg hdot, if_neg hdots, isFolderAt?, at?_append, hat, Option.bind_some,
        at?_cons] at next
      cases hchild : (folder entries).child? part with
      | none => rw [hchild] at next; exact absurd rfl next
      | some entry => exact ⟨_, rfl, .child h hchild⟩

theorem Above.exists_foldlM_follow {above : List Entry} (h : Above root place above)
    {parts : List Name}
    (folders : ∀ front, front <+: parts → root.isFolderAt? (placeFrom place front) = some true) :
    ∃ above', parts.foldlM follow above = some above' ∧
      Above root (placeFrom place parts) above' := by
  induction parts generalizing place above with
  | nil => exact ⟨above, rfl, h⟩
  | cons part parts ih =>
    obtain ⟨hplace, folders⟩ :=
      (forall_prefix_cons fun place => root.isFolderAt? place = some true).1 folders
    have hnext : root.isFolderAt? (placeAfter place part) = some true := folders [] List.nil_prefix
    obtain ⟨above₁, hfollow, habove⟩ := h.exists_follow hplace (by rw [hnext]; simp)
    rw [List.foldlM_cons, hfollow]
    exact ih habove folders

end

end Entry

/-! ## Writing -/

namespace Tree

/-- A path that a file can be written to: it ends in a name, no file stands on the way to it and no
    folder at its end, and the way does not lead through the place of the file itself. -/
def IsWritable (tree : Tree) (path : Path) : Prop :=
  path ≠ [] ∧ ∃ way name, tree.route path = way ++ [name] ∧ name ≠ bytes "." ∧ name ≠ bytes ".." ∧
    (∀ front, front <+: way →
      tree.root.isFolderAt? (placeFrom [] front) ≠ some false ∧
      placeFrom [] way ++ [name] ≠ placeFrom [] front) ∧
    tree.root.isFolderAt? (placeFrom [] way ++ [name]) ≠ some true

/-- A file is written at the end of its path once the way there is made. -/
theorem write?_eq {tree : Tree} {path name : Path} {way : List Name} (hne : path ≠ [])
    (hroute : tree.route path = way ++ [name]) (hdot : name ≠ bytes ".") (hdots : name ≠ bytes "..")
    (content : ByteArray) :
    tree.write? path content = (tree.root.makeWay? [] way).bind fun made =>
      if (made.1.at? (made.2 ++ [name])).any Entry.isFolder then none
      else some { tree with root := Entry.insert (.file content) (made.2 ++ [name]) made.1 } := by
  rw [write?, if_neg hne, hroute, List.getLast?_concat, List.dropLast_concat]
  simp only [Option.bind_eq_bind, Option.bind_some, if_neg (not_or.2 ⟨hdot, hdots⟩)]

/-- **A file that was written is found.** -/
theorem IsWritable.exists_write? {tree : Tree} {path : Path} (h : tree.IsWritable path)
    (content : ByteArray) :
    ∃ saved, tree.write? path content = some saved ∧
      saved.find? path = some (.file content) := by
  obtain ⟨hne, way, name, hroute, hdot, hdots, hway, hend⟩ := h
  have hroot : tree.root.isFolderAt? [] = some true := by
    have hfile := (hway [] List.nil_prefix).1
    change tree.root.isFolderAt? [] ≠ some false at hfile
    cases htree : tree.root with
    | file content => rw [htree] at hfile; exact absurd rfl hfile
    | folder entries => rfl
  obtain ⟨root, hmake, hfolders, hother⟩ :=
    Entry.exists_makeWay? hroot fun front hfront => (hway front hfront).1
  have hfree : root.isFolderAt? (placeFrom [] way ++ [name]) ≠ some true := by
    rw [hother _ fun front hfront => (hway front hfront).2]
    exact hend
  have hany : ¬ (root.at? (placeFrom [] way ++ [name])).any Entry.isFolder = true := by
    intro hany
    obtain ⟨entry, hentry, hfolder⟩ := Option.any_eq_true _ _ |>.1 hany
    exact hfree (by rw [Entry.isFolderAt?, hentry, Option.map_some, hfolder])
  let place := placeFrom [] way ++ [name]
  let written := Entry.insert (.file content) place root
  have hat : written.at? place = some (.file content) := Entry.at?_insert_file content place root
  have hfolders' : ∀ front, front <+: way →
      written.isFolderAt? (placeFrom [] front) = some true := by
    intro front hfront
    have hplace : placeFrom [] front ≠ place := (hway front hfront).2.symm
    rw [Entry.isFolderAt?_insert (Entry.isBare_file content)
      (hfolders way (List.prefix_refl way)) hfree, if_neg hplace]
    exact hfolders front hfront
  have hafter : placeAfter (placeFrom [] way) name = place := by
    rw [placeAfter, if_neg hdot, if_neg hdots]
  obtain ⟨above, hfollow, habove⟩ := Entry.Above.root.exists_foldlM_follow hfolders'
  have hthere : written.isFolderAt? (placeAfter (placeFrom [] way) name) ≠ none := by
    rw [hafter, Entry.isFolderAt?, hat]
    simp
  obtain ⟨above', hlast, habove'⟩ :=
    habove.exists_follow (hfolders' way (List.prefix_refl way)) hthere
  rw [hafter] at habove'
  obtain ⟨here, outer, rfl, hhere⟩ := habove'.at?_eq
  obtain rfl := Option.some.inj (hhere.symm.trans hat)
  refine ⟨{ tree with root := written }, ?_, ?_⟩
  · rw [write?_eq hne hroute hdot hdots, hmake, Option.bind_some, if_neg hany]
  · rw [find?, if_neg hne, Entry.walk_eq]
    show (List.foldlM Entry.follow [written] (tree.route path)).bind List.head? = _
    rw [hroute, List.foldlM_append, hfollow]
    simp [hlast]

/-- A file can be written to no other paths. -/
theorem isWritable_of_write? {tree saved : Tree} {path : Path} {content : ByteArray}
    (root : tree.root.isFolder = true) (h : tree.write? path content = some saved) :
    tree.IsWritable path := by
  have hne : path ≠ [] := by
    intro hempty
    rw [write?, if_pos hempty] at h
    cases h
  obtain ⟨way, name, hroute, hdot, hdots⟩ : ∃ way name, tree.route path = way ++ [name] ∧
      name ≠ bytes "." ∧ name ≠ bytes ".." := by
    rw [write?, if_neg hne] at h
    obtain ⟨name, hname, h⟩ := Option.bind_eq_some_iff.1 h
    obtain ⟨way, hroute⟩ := List.getLast?_eq_some_iff.1 hname
    refine ⟨way, name, hroute, fun hdot => ?_, fun hdots => ?_⟩
    · simp [hdot] at h
    · simp [hdots] at h
  rw [write?_eq hne hroute hdot hdots, Option.bind_eq_some_iff] at h
  obtain ⟨⟨root₁, arrived⟩, hmake, h⟩ := h
  have hroot : tree.root.isFolderAt? [] = some true := congrArg some root
  have hfile := Entry.ne_file_of_makeWay? hroot hmake
  obtain ⟨root₂, hmake₂, hfolders, hother⟩ := Entry.exists_makeWay? hroot hfile
  obtain ⟨rfl, rfl⟩ := Prod.mk.inj (Option.some.inj (hmake₂.symm.trans hmake))
  have hfree : root₂.isFolderAt? (placeFrom [] way ++ [name]) ≠ some true := by
    intro hfolder
    obtain ⟨entries, hentries⟩ := Entry.isFolderAt?_eq_some_true.1 hfolder
    simp [hentries, Entry.isFolder] at h
  have hpass : ∀ front, front <+: way → placeFrom [] way ++ [name] ≠ placeFrom [] front := by
    intro front hfront heq
    exact hfree (heq ▸ hfolders front hfront)
  refine ⟨hne, way, name, hroute, hdot, hdots,
    fun front hfront => ⟨hfile front hfront, hpass front hfront⟩, ?_⟩
  rw [← hother _ hpass]
  exact hfree

end Tree

end GuideCheck.Files
