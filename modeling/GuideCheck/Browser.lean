import GuideCheck.Files.Guides
import GuideCheck.Preview
import GuideCheck.Ruleset

set_option autoImplicit false

/-! # Browsing guides

A browser shows the guides of a folder and the preview of the one that is selected. Moving past
either end goes on at the other. -/

namespace GuideCheck

open Files

/-- The guides of a folder, which of them is selected, and the lines shown for it. -/
structure Browser where
  tree : Tree
  folder : Path
  rules : Ruleset
  guides : List GuideFile
  selected : Option Nat := none
  content : List String := []

namespace Browser

/-- The lines shown for a guide: its preview, or why it could not be read. -/
def linesFor (b : Browser) (guide : GuideFile) : List String :=
  match b.tree.readGuide b.folder guide.relativePath with
  | .ok text => (analyze b.rules text).preview
  | .error fault => [oneLine s!"Error reading file: {fault.message}"]

def select (b : Browser) (index : Nat) : Browser :=
  { b with
    selected := some index
    content := match b.guides[index]? with | some guide => b.linesFor guide | none => b.content }

/-- A browser on a folder, its first guide being selected. -/
def onFolder (tree : Tree) (folder : Path) (rules : Ruleset) : Except GuideFault Browser :=
  match tree.listGuides folder with
  | .error fault => .error fault
  | .ok guides =>
    let b : Browser := { tree, folder, rules, guides }
    .ok (if guides.isEmpty then b else b.select 0)

/-- Selects the next guide, after the last one the first. -/
def next (b : Browser) : Browser :=
  if b.guides.isEmpty then b
  else
    match b.selected with
    | some index => b.select ((index + 1) % b.guides.length)
    | none => b.select 0

/-- Selects the previous guide, before the first one the last. -/
def previous (b : Browser) : Browser :=
  if b.guides.isEmpty then b
  else
    match b.selected with
    | some (index + 1) => b.select index
    | _ => b.select (b.guides.length - 1)

/-- Selects nothing; the content stays. -/
def clear (b : Browser) : Browser := { b with selected := none }

end Browser

end GuideCheck
