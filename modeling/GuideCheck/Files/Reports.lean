import GuideCheck.Files.Guides
import GuideCheck.Report
import GuideCheck.Ruleset

set_option autoImplicit false

/-! # Reports on files

Checking some paths reports on every file they stand for, or on none: a path that is missing or a
file that cannot be read stops the check. -/

namespace GuideCheck.Files

/-- Why a check stopped. -/
inductive CheckFault
  | collecting (fault : GuideFault)
  | reading (path : Path) (fault : ReadFault)
deriving DecidableEq, Repr

def CheckFault.message : CheckFault → String
  | collecting fault => fault.message
  | reading path fault => s!"Failed to read {display path}: {fault.message}"

namespace Tree

/-- The report on the file at a path. -/
def reportOn (tree : Tree) (rules : Ruleset) (path : Path) : Except CheckFault FileReport :=
  match tree.readText path with
  | .ok text => .ok ⟨path, analyze rules text⟩
  | .error fault => .error (.reading path fault)

/-- The reports on the files that some paths stand for, in order. -/
def check (tree : Tree) (rules : Ruleset) (paths : List Path) :
    Except CheckFault (List FileReport) := do
  let files ← (tree.collectGuides paths).mapError .collecting
  files.mapM (tree.reportOn rules)

end Tree

end GuideCheck.Files
