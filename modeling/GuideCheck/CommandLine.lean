import GuideCheck.Browser
import GuideCheck.CommandLine.Help
import GuideCheck.Files.Reports
import GuideCheck.Settings

set_option autoImplicit false

/-! # Running a command line

A run ends with an exit code, an output and complaints, or it opens a browser. The exit code is 0
when no file has errors, 1 when one has, and 2 when the command line is invalid, files or settings
cannot be read or reports cannot be written; in that case nothing is put out. -/

namespace GuideCheck.CommandLine

open Files (Path bytes display)

/-- How a run ends. -/
structure Exit where
  code : Nat := 0
  output : String := ""
  /-- what is said beside the output, one text a line -/
  complaints : List String := []
deriving DecidableEq, Repr

namespace Exit

def failed (complaints : List String) : Exit := { code := 2, complaints }

def invalid : Exit := failed [Topic.usage .program, "", "For more information, try '--help'."]

/-- The end of a run without paths, given or set in the settings at a path. -/
def missingPath (settingsPath : String) : Exit :=
  failed ["Error: No guides path provided and none configured",
    s!"Pass a path or set guides_path in {settingsPath}"]

/-- The end of a run that would open a browser where there is no terminal. -/
def noTerminal : Exit := failed ["Error: No such device or address (os error 6)"]

def ofReports (reports : List FileReport) (format : ReportFormat) : Exit :=
  match render reports format with
  | .error fault => failed ["Error: " ++ fault.message]
  | .ok output => { code := if hasErrors reports then 1 else 0, output }

end Exit

/-- What a run comes to. -/
inductive Run
  | exit (exit : Exit)
  | browse (browser : Browser)

/-- Checks paths, or the folder of the settings if there are none. -/
def check (tree : Files.Tree) (env : Environment) (settings : Settings) (paths : List Path)
    (format : Option ReportFormat) : Exit :=
  let paths := if paths.isEmpty then (settings.guidesPath.map bytes).toList else paths
  if paths.isEmpty then .missingPath (Settings.filePath env)
  else
    match tree.check (.standard settings.limits) paths with
    | .error fault => .failed ["Error: " ++ fault.message]
    | .ok reports => .ofReports reports (format.getD settings.format)

/-- Opens a browser on a folder, or on the folder of the settings if none is given. -/
def browse (tree : Files.Tree) (env : Environment) (settings : Settings) (folder : Option Path) :
    Run :=
  match folder.or (settings.guidesPath.map bytes) with
  | none => .exit (.missingPath (Settings.filePath env))
  | some path =>
    let source := if folder.isNone then s!" from config file '{Settings.filePath env}'" else ""
    let opened := do
      tree.validateFolder path
      Browser.onFolder tree path (.standard settings.limits)
    match opened with
    | .ok browser => .browse browser
    | .error fault =>
      .exit (.failed [s!"Error: Guides path '{display path}'{source} is invalid: {fault.message}"])

def Request.run (tree : Files.Tree) (env : Environment) (request : Request) : Run :=
  match request with
  | help topic => .exit { output := topic.text }
  | version => .exit { output := s!"{programName} {CommandLine.version}\n" }
  | check paths format => withSettings fun settings =>
    .exit (CommandLine.check tree env settings paths format)
  | browse folder => withSettings fun settings => CommandLine.browse tree env settings folder
where
  /-- Goes on with the settings, or with the defaults if there are none. -/
  withSettings (next : Settings → Run) : Run :=
    match Settings.load? tree env (bytes (Settings.filePath env)) with
    | .error fault => .exit (.failed ["Error: Failed to load config file: " ++ fault.message])
    | .ok settings => next (settings.getD {})

/-- Runs a command line. -/
def run (tree : Files.Tree) (env : Environment) (arguments : List (List UInt8)) : Run :=
  match Request.ofArguments? arguments with
  | none => .exit .invalid
  | some request => request.run tree env

end GuideCheck.CommandLine
