import Mathlib.Data.List.Infix
import GuideCheck.Files.Writing
import GuideCheck.Proofs.Paths

set_option autoImplicit false

/-! # Places in a tree

A path is followed part by part (`Entry.follow`), and a place is given by the names on the way to it
(`Entry.at?`). Proper names lead to the same entry either way (`Tree.find?_of_at?`). -/

namespace GuideCheck.Files

namespace Entry

/-! ## Names -/

theorem at?_cons (root : Entry) (name : Name) (names : List Name) :
    root.at? (name :: names) = (root.child? name).bind (·.at? names) := by
  rw [at?, List.foldlM_cons]
  rfl

theorem at?_append (root : Entry) (names names' : List Name) :
    root.at? (names ++ names') = (root.at? names).bind (·.at? names') := by
  rw [at?, List.foldlM_append]
  rfl

theorem at?_file_cons (content : ByteArray) (name : Name) (names : List Name) :
    (file content).at? (name :: names) = none := by
  rw [at?_cons]
  rfl

theorem at?_folder_cons (entries : List (Name × Entry)) (name : Name) (names : List Name) :
    (folder entries).at? (name :: names) = (entries.lookup name).bind (·.at? names) := by
  rw [at?_cons]
  rfl

/-! ## Parts -/

/-- What a part of a path leads to: the entry, and the folders above it. -/
def follow (above : List Entry) (part : Name) : Option (List Entry) :=
  match above with
  | here@(folder _) :: outer =>
    if part = bytes "." then some above
    else if part = bytes ".." then some (if outer.isEmpty then above else outer)
    else (here.child? part).map (· :: above)
  | _ => none

theorem walk_eq (above : List Entry) (parts : List Name) :
    walk above parts = (parts.foldlM follow above).bind List.head? := by
  induction parts generalizing above with
  | nil => rfl
  | cons part parts ih =>
    rw [List.foldlM_cons]
    match above with
    | [] => rfl
    | file content :: outer => rfl
    | folder entries :: outer =>
      rw [walk, follow]
      split
      · exact ih _
      · split
        · exact ih _
        · cases (folder entries).child? part with
          | none => rfl
          | some entry => exact ih _

theorem follow_dot {above above' : List Entry} (h : follow above (bytes ".") = some above') :
    above' = above := by
  unfold follow at h
  split at h
  · exact (Option.some.inj h).symm
  · cases h

theorem follow_name {name : Name} (h : IsProperName name) (entries : List (Name × Entry))
    (outer : List Entry) :
    follow (folder entries :: outer) name =
      (entries.lookup name).map (· :: folder entries :: outer) := by
  rw [follow]
  simp only [if_neg h.ne_dot, if_neg h.ne_dots]
  rfl

/-- Proper names lead to what is at their place. -/
theorem exists_follow_names {names : List Name} (proper : ∀ name ∈ names, IsProperName name)
    {here entry : Entry} (h : here.at? names = some entry) (outer : List Entry) :
    ∃ outer', names.foldlM follow (here :: outer) = some (entry :: outer') := by
  induction names generalizing here outer with
  | nil =>
    obtain rfl := Option.some.inj h
    exact ⟨outer, rfl⟩
  | cons name names ih =>
    match here with
    | file content => rw [at?_file_cons] at h; cases h
    | folder entries =>
      rw [at?_folder_cons] at h
      obtain ⟨inner, hinner, hentry⟩ := Option.bind_eq_some_iff.1 h
      rw [List.foldlM_cons, follow_name (proper name List.mem_cons_self), hinner]
      exact ih (fun other hother => proper other (List.mem_cons_of_mem name hother)) hentry _

end Entry

namespace Tree

/-- Where a path to a folder leads, whether or not it ends in a slash. -/
theorem exists_follow_of_find? {tree : Tree} {path : Path} {entry : Entry}
    (h : tree.find? path = some entry) :
    ∃ outer, ((if isAbsolute path then [] else tree.current) ++ parts path).foldlM Entry.follow
      [tree.root] = some (entry :: outer) := by
  rw [find?] at h
  split at h
  · cases h
  · rw [Entry.walk_eq, Option.bind_eq_some_iff] at h
    obtain ⟨above, habove, hhead⟩ := h
    obtain ⟨outer, rfl⟩ := List.head?_eq_some_iff.1 hhead
    unfold route at habove
    split at habove
    · rw [List.foldlM_append] at habove
      obtain ⟨above', habove', hdot⟩ := Option.bind_eq_some_iff.1 habove
      have hsame : Entry.follow above' (bytes ".") = some (entry :: outer) := by simpa using hdot
      exact ⟨outer, by rw [habove', Entry.follow_dot hsame]⟩
    · exact ⟨outer, by simpa using habove⟩

/-- What is at a place below a folder is found at any path that goes on from the folder to it. -/
theorem find?_of_at? {tree : Tree} {folder path : Path} {entries : List (Name × Entry)}
    {names : List Name} {entry : Entry} (found : tree.find? folder = some (.folder entries))
    (proper : ∀ name ∈ names, IsProperName name)
    (h : (Entry.folder entries).at? names = some entry)
    (habsolute : isAbsolute path = isAbsolute folder)
    (hparts : parts path = parts folder ++ names) (hne : path ≠ [])
    (hlast : path.getLast? ≠ some slash) : tree.find? path = some entry := by
  obtain ⟨outer, hfolder⟩ := exists_follow_of_find? found
  obtain ⟨outer', hnames⟩ := Entry.exists_follow_names proper h outer
  have hroute : tree.route path =
      ((if isAbsolute folder then [] else tree.current) ++ parts folder) ++ names := by
    rw [route, habsolute, hparts, if_neg hlast, List.append_nil, List.append_assoc]
  rw [find?, if_neg hne, Entry.walk_eq, hroute, List.foldlM_append, hfolder]
  exact (congrArg (·.bind List.head?) hnames).trans rfl

end Tree

/-- The bytes of a text are that text. -/
theorem fromUTF8?_toUTF8 (text : String) : String.fromUTF8? text.toUTF8 = some text :=
  dif_pos text.isValidUTF8

end GuideCheck.Files
