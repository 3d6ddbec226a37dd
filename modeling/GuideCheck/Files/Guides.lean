import GuideCheck.Files.GuideFile
import GuideCheck.Files.Tree

set_option autoImplicit false

/-! # Guides in a file tree

The guides of a folder are the files below it, at any depth, that are named as guides. They are
listed in the order of their paths, part by part, whatever the order of the entries of folders. -/

namespace GuideCheck.Files

/-! ## Scanning -/

theorem sizeOf_tail_lt (entry : Name × Entry) (rest : List (Name × Entry)) :
    sizeOf rest < sizeOf (entry :: rest) := by
  rw [List.cons.sizeOf_spec]
  omega

theorem sizeOf_entries_lt (name : Name) (entries rest : List (Name × Entry)) :
    sizeOf entries < sizeOf ((name, Entry.folder entries) :: rest) := by
  rw [List.cons.sizeOf_spec, Prod.mk.sizeOf_spec, Entry.folder.sizeOf_spec]
  omega

/-- The parts of the paths to the guides below a folder, in the order of its entries. -/
def guidesBelow : List (Name × Entry) → List (List Name)
  | [] => []
  | (name, .file _) :: rest =>
    if isGuideName name then [name] :: guidesBelow rest else guidesBelow rest
  | (name, .folder entries) :: rest =>
    (guidesBelow entries).map (name :: ·) ++ guidesBelow rest
termination_by entries => sizeOf entries
decreasing_by
  · exact sizeOf_tail_lt _ rest
  · exact sizeOf_tail_lt _ rest
  · exact sizeOf_entries_lt name entries rest
  · exact sizeOf_tail_lt _ rest

/-- Paths in order: compared part by part, each by its bytes. -/
def sortPaths (paths : List (List Name)) : List (List Name) :=
  paths.mergeSort fun a b => decide (a ≤ b)

/-- Why guides could not be found or read. -/
inductive GuideFault
  | notFound (path : Path)
  | read (fault : ReadFault)
  | invalidFolder (reason : String)
deriving DecidableEq, Repr

def GuideFault.message : GuideFault → String
  | notFound path => s!"File not found: {display path}"
  | read fault => s!"IO error: {fault.message}"
  | invalidFolder reason => s!"Invalid guides directory: {reason}"

namespace Tree

/-- The parts of the paths from a folder to the guides below it, in order. -/
def guideParts (tree : Tree) (folder : Path) : Except GuideFault (List (List Name)) :=
  match tree.find? folder with
  | none => .error (.invalidFolder "guides directory not found")
  | some (.file _) => .error (.read .notAFolder)
  | some (.folder entries) => .ok (sortPaths (guidesBelow entries))

/-- The paths to the guides below a folder, in order; each begins with the path of the folder. -/
def scanGuides (tree : Tree) (folder : Path) : Except GuideFault (List Path) :=
  (tree.guideParts folder).map fun paths => paths.map fun parts => below folder (ofParts parts)

/-- The guides below a folder whose relative paths are texts, in order. -/
def listGuides (tree : Tree) (folder : Path) : Except GuideFault (List GuideFile) :=
  (tree.guideParts folder).map fun paths => paths.filterMap fun parts =>
    (text? (ofParts parts)).map GuideFile.mk

/-! ## Reading -/

/-- The path of a relative path in a folder. -/
def guidePath (folder : Path) (relative : String) : Path :=
  (parts (bytes relative)).foldl
    (fun path part => if path = [] then part else path ++ slash :: part) folder

/-- The text of the guide at a relative path in a folder. -/
def readGuide (tree : Tree) (folder : Path) (relative : String) : Except GuideFault String :=
  let path := guidePath folder relative
  if tree.contains path then (tree.readText path).mapError .read else .error (.notFound path)

/-- Refuses a path that is no folder. -/
def validateFolder (tree : Tree) (folder : Path) : Except GuideFault Unit :=
  if tree.hasFolder folder then .ok () else .error (.invalidFolder "Directory does not exist")

/-! ## Collecting -/

/-- The files that some paths stand for: folders for the guides below them, files for themselves. -/
def collectGuides (tree : Tree) : List Path → Except GuideFault (List Path)
  | [] => .ok []
  | path :: rest => do
    let found ←
      if tree.hasFolder path then tree.scanGuides path
      else if tree.contains path then .ok [path]
      else .error (.notFound path)
    return found ++ (← tree.collectGuides rest)

end Tree

end GuideCheck.Files
