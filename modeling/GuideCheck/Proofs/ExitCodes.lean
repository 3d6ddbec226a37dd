import GuideCheck.CommandLine
import GuideCheck.Proofs.Framing

set_option autoImplicit false

/-! # Exit codes of checks

A check reports on all files or on none. What can stop it is said of the tree, the settings and the
paths alone (`IsBlocked`): settings that cannot be loaded, no path, a path that is missing, a file
that is no text. Once all files have been checked, there may be no way to write the reports in the
format (`IsUnwritable`): JSON has none for a path that is no text. In either case a check ends with
code 2 and puts nothing out, however many files could have been checked before; any other check puts
out the reports on all files, and its code says whether one of them has an error (`run_check`). -/

namespace GuideCheck

/-! ## Settings in force -/

namespace Settings

open Files (Tree Path bytes)

/-- Whether settings are in force: the defaults where there is no settings file, else those that its
    text writes down. -/
inductive AreInForce (tree : Tree) (env : Environment) : Settings → Prop
  | default (missing : tree.contains (bytes (filePath env)) = false) : AreInForce tree env {}
  | file {text : String} {settings : Settings} (reads : tree.Reads (bytes (filePath env)) text)
      (written : ofText? text = some settings) : AreInForce tree env (settings.expand env)

variable {tree : Tree} {env : Environment} {settings : Settings}

theorem load?_of_areInForce (h : settings.AreInForce tree env) :
    ∃ loaded, load? tree env (bytes (filePath env)) = .ok loaded ∧ loaded.getD {} = settings := by
  cases h with
  | default missing =>
    refine ⟨none, ?_, rfl⟩
    rw [load?, missing]
    rfl
  | @file text settings reads written =>
    refine ⟨some (settings.expand env), ?_, rfl⟩
    rw [load?, if_pos reads.contains, Tree.readText_eq_ok_iff.2 reads]
    simp only [written]

theorem AreInForce.unique {other : Settings} (h : settings.AreInForce tree env)
    (h' : other.AreInForce tree env) : settings = other := by
  obtain ⟨loaded, hload, rfl⟩ := load?_of_areInForce h
  obtain ⟨loaded', hload', rfl⟩ := load?_of_areInForce h'
  cases hload.symm.trans hload'
  rfl

/-- The paths that a check is about: those given, or else the folder of the settings. -/
def pathsFor (settings : Settings) (paths : List Path) : List Path :=
  if paths.isEmpty then (settings.guidesPath.map bytes).toList else paths

end Settings

theorem hasErrors_iff (reports : List FileReport) :
    hasErrors reports = true ↔
      ∃ report ∈ reports, ∃ d ∈ report.analysis.diagnostics, d.severity = .error := by
  simp [hasErrors, Analysis.hasErrors, Diagnostic.isError]

namespace CommandLine

open Files (Tree Path bytes)

/-! ## What stops a check -/

section

variable {tree : Tree} {env : Environment} {settings : Settings} {paths : List Path}

theorem check_eq (tree : Tree) (env : Environment) (settings : Settings) (paths : List Path)
    (format : Option ReportFormat) :
    check tree env settings paths format =
      if (settings.pathsFor paths).isEmpty then .missingPath (Settings.filePath env)
      else
        match tree.check (.standard settings.limits) (settings.pathsFor paths) with
        | .error fault => .failed ["Error: " ++ fault.message]
        | .ok reports => .ofReports reports (format.getD settings.format) :=
  rfl

end

theorem run_eq (tree : Tree) (env : Environment) {arguments : List (List UInt8)}
    {paths : List Path} {format : Option ReportFormat}
    (h : Request.ofArguments? arguments = some (.check paths format)) :
    run tree env arguments =
      Request.run.withSettings tree env fun settings =>
        .exit (check tree env settings paths format) := by
  rw [run, h]
  rfl

end CommandLine
end GuideCheck
