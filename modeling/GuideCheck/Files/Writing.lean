import GuideCheck.Files.Tree

set_option autoImplicit false

/-! # Writing files

A file is written at the end of its path; the folders that are missing on the way are made. Nothing
is written where a file stands in the way, where there is a folder, or where a path ends in no
name. -/

namespace GuideCheck.Files

/-- Where a part of a path leads to from a folder; places are the names on the way from the root. -/
def placeAfter (place : List Name) (part : Name) : List Name :=
  if part = bytes "." then place
  else if part = bytes ".." then place.dropLast
  else place ++ [part]

namespace Entry

/-- What is at a place. -/
def at? (root : Entry) (place : List Name) : Option Entry :=
  place.foldlM (fun entry name => entry.child? name) root

/-- Goes on from a folder at a place along the parts of a path and makes the folders that are
    missing: the tree with them, and the place arrived at. -/
def makeWay? (root : Entry) (place : List Name) : List Name → Option (Entry × List Name)
  | [] => some (root, place)
  | part :: rest =>
    let next := placeAfter place part
    match root.at? next with
    | some (folder _) => makeWay? root next rest
    | some (file _) => none
    | none => makeWay? (insert (folder []) next root) next rest

end Entry

/-- The tree with a file at a path, with these bytes. -/
def Tree.write? (tree : Tree) (path : Path) (content : ByteArray) : Option Tree := do
  let name ← if path = [] then none else (tree.route path).getLast?
  if name = bytes "." ∨ name = bytes ".." then none
  else
    let (root, folder) ← tree.root.makeWay? [] (tree.route path).dropLast
    let place := folder ++ [name]
    if (root.at? place).any Entry.isFolder then none
    else some { tree with root := Entry.insert (.file content) place root }

end GuideCheck.Files
