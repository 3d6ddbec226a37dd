import GuideCheck.CommandLine

set_option autoImplicit false

/-! # The program

The outer layer: it takes the files and variables that a command line needs into a tree and an
environment, runs the command line on them, and prints what comes of it. -/

namespace GuideCheck.Program

open Files

/-- What is at a path: a file with its bytes, or a folder in which only the guides have theirs. -/
partial def entryAt? (path : Path) (isWanted : Bool) : IO (Option Entry) := do
  let place := (← IO.currentDir) / display path
  if ← place.isDir then
    let mut entries := []
    for inner in ← place.readDir do
      let name := bytes inner.fileName
      if let some entry ← entryAt? (below path name) (isGuideName name) then
        entries := (name, entry) :: entries
    return some (.folder entries)
  if ← place.pathExists then
    return some (.file (← if isWanted then IO.FS.readBinFile place else pure .empty))
  return none

/-- A path as parts from the root, without the parts that lead up again. -/
def placeOf (current : List Name) (path : Path) : List Name :=
  let all := if isAbsolute path then parts path else current ++ parts path
  (all.foldl (fun above part =>
    if part = bytes "." then above
    else if part = bytes ".." then above.tail
    else part :: above) []).reverse

/-- The tree with what is at a path, and with the folders on the way to it. -/
def addPath (tree : Tree) (path : Path) : IO Tree := do
  let mut root := tree.root
  let mut way := bytes (if isAbsolute path then "/" else ".")
  for part in parts path do
    way := below way part
    if ← ((← IO.currentDir) / display way).isDir then
      root := Entry.insert (.folder []) (placeOf tree.current way) root
  if path ≠ [] then
    if let some entry ← entryAt? path true then
      root := Entry.insert entry (placeOf tree.current path) root
  return { tree with root }

/-- The values of those of some variables that are set. -/
def valuesOf (names : List String) : IO (List (String × String)) :=
  names.filterMapM fun name => do return (← IO.getEnv name).map (name, ·)

/-- The paths that a request names. -/
def pathsOf : CommandLine.Request → List Path
  | .check paths _ => paths
  | .browse folder => folder.toList
  | _ => []

/-- The lines that show a browser: its guides with the selected one marked, and the content. -/
def screen (b : Browser) : List String :=
  let guide (item : GuideFile × Nat) : String :=
    (if b.selected = some item.2 then "> " else "  ") ++ item.1.relativePath
  let content := if b.content.isEmpty then ["No guide files found"] else b.content
  b.guides.zipIdx.map guide ++ "" :: content ++ ["", "q: Quit | k: Previous | j: Next"]

/-- Shows a browser and follows the keys typed, one a line. -/
partial def browse (b : Browser) : IO Unit := do
  for line in screen b do
    IO.println line
  let line ← (← IO.getStdin).getLine
  match line.trimAscii.toString with
  | "q" => return
  | "j" => browse b.next
  | "k" => browse b.previous
  | _ => if line.isEmpty then return else browse b

/-- Prints how a run ends. -/
def finish (exit : CommandLine.Exit) : IO UInt32 := do
  IO.print exit.output
  for complaint in exit.complaints do
    IO.eprintln complaint
  return UInt32.ofNat exit.code

/-- Runs a command line on the files of the machine. -/
def run (arguments : List String) : IO UInt32 := do
  let arguments := arguments.map bytes
  let current := parts (bytes (← IO.currentDir).toString)
  let home : Environment := ⟨← valuesOf ["HOME"]⟩
  let settingsPath := bytes (Settings.filePath home)
  let mut tree : Tree := ⟨Entry.insert (.folder []) current (.folder []), current⟩
  tree ← addPath tree settingsPath
  let path? := ((tree.readText settingsPath).toOption.bind Settings.ofText?).bind (·.guidesPath)
  let names := (path?.map Environment.variablesIn).getD []
  let env : Environment := ⟨home.values ++ (← valuesOf names)⟩
  let named := ((CommandLine.Request.ofArguments? arguments).map pathsOf).getD []
  let folder? := path?.map fun path => bytes (env.expand path)
  for path in if named.isEmpty then folder?.toList else named do
    tree ← addPath tree path
  match CommandLine.run tree env arguments with
  | .exit exit => finish exit
  | .browse browser =>
    if ← (← IO.getStdin).isTty then
      browse browser
      return 0
    else finish .noTerminal

end GuideCheck.Program

/-- Runs the command line; what cannot be read ends the run like any other fault. -/
def main (arguments : List String) : IO UInt32 := do
  try GuideCheck.Program.run arguments
  catch fault =>
    IO.eprintln s!"Error: {fault}"
    return 2
