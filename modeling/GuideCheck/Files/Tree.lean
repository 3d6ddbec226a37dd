import GuideCheck.Files.Path

set_option autoImplicit false

/-! # File trees

A file tree is a folder whose entries are files and folders by name. Paths are followed part by
part; every part but the last must name a folder, and so must the last if a slash follows it. -/

namespace GuideCheck.Files

/-- A file with its bytes, or a folder with its entries by name, in any order. -/
inductive Entry
  | file (content : ByteArray)
  | folder (entries : List (Name × Entry))
deriving Inhabited

namespace Entry

def isFolder : Entry → Bool
  | folder _ => true
  | file _ => false

def child? (name : Name) : Entry → Option Entry
  | folder entries => entries.lookup name
  | file _ => none

/-- The entries of a folder with one put in place of any of the same name. -/
def put (name : Name) (entry : Entry) : List (Name × Entry) → List (Name × Entry)
  | [] => [(name, entry)]
  | (n, e) :: rest => if n = name then (name, entry) :: rest else (n, e) :: put name entry rest

/-- The tree with an entry at a path; folders on the way are made, and a folder that is there stays
    when a folder without entries is put in its place. -/
def insert (entry : Entry) : (path : List Name) → Entry → Entry
  | [], old =>
    match entry, old with
    | folder [], folder entries => folder entries
    | entry, _ => entry
  | name :: rest, folder entries =>
    folder (put name (insert entry rest ((entries.lookup name).getD (folder []))) entries)
  | name :: rest, file _ => folder [(name, insert entry rest (folder []))]

/-- Follows parts of a path from a folder; `above` holds the folder and those above it. -/
def walk (above : List Entry) : List Name → Option Entry
  | [] => above.head?
  | part :: rest =>
    match above with
    | here@(folder _) :: outer =>
      if part = bytes "." then walk above rest
      else if part = bytes ".." then walk (if outer.isEmpty then above else outer) rest
      else (here.child? part).bind fun entry => walk (entry :: above) rest
    | _ => none

end Entry

/-- A file tree and the folder in it that relative paths start from. -/
structure Tree where
  root : Entry
  /-- the parts of the path to the current folder -/
  current : List Name := []

namespace Tree

/-- The parts to follow for a path from the root; a slash at its end asks for a folder. -/
def route (tree : Tree) (path : Path) : List Name :=
  let ending := if path.getLast? = some slash then [bytes "."] else []
  (if isAbsolute path then [] else tree.current) ++ parts path ++ ending

def find? (tree : Tree) (path : Path) : Option Entry :=
  if path = [] then none else Entry.walk [tree.root] (tree.route path)

def contains (tree : Tree) (path : Path) : Bool := (tree.find? path).isSome

def hasFolder (tree : Tree) (path : Path) : Bool := (tree.find? path).any Entry.isFolder

end Tree

/-! ## Reading -/

/-- Why a file or folder could not be read. -/
inductive ReadFault
  | missing
  | notAFolder
  | isAFolder
  | notText
deriving DecidableEq, Repr

def ReadFault.message : ReadFault → String
  | missing => "No such file or directory (os error 2)"
  | notAFolder => "Not a directory (os error 20)"
  | isAFolder => "Is a directory (os error 21)"
  | notText => "stream did not contain valid UTF-8"

/-- The text of the file at a path. -/
def Tree.readText (tree : Tree) (path : Path) : Except ReadFault String :=
  match tree.find? path with
  | none => .error .missing
  | some (.folder _) => .error .isAFolder
  | some (.file content) =>
    match String.fromUTF8? content with
    | some text => .ok text
    | none => .error .notText

end GuideCheck.Files
