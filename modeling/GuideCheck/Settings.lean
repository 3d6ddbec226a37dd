import GuideCheck.Environment
import GuideCheck.Files.Writing
import GuideCheck.Limits
import GuideCheck.Report
import GuideCheck.Toml.Reader
import GuideCheck.Toml.Writer

set_option autoImplicit false

/-! # Settings

The settings are kept in a TOML file: the folder of guides, the format of reports, and the limits of
the platform. Each has a default, and keys that mean nothing are ignored. Settings that are written
to a file are read back from it. -/

namespace GuideCheck

/-- What a user may set. -/
structure Settings where
  /-- the folder that is used when a command names no path -/
  guidesPath : Option String := none
  format : ReportFormat := .text
  limits : Limits := {}
deriving DecidableEq, Repr

namespace Settings

/-! ## Reading -/

/-- A value without entries or items. -/
def isEmptyValue : Toml → Bool
  | .array items => items.isEmpty
  | .table entries => entries.isEmpty
  | _ => false

/-- A format: its name, or a table whose only entry has that name and an empty value. -/
def formatOf? : Toml → Option ReportFormat
  | .string name => ReportFormat.ofName? name
  | .table [(name, value)] => if isEmptyValue value then ReportFormat.ofName? name else none
  | _ => none

def pathOf? : Toml → Option String
  | .string path => some path
  | _ => none

/-- The value of a limit: a natural number of at most 64 bits. -/
def limitOf? : Toml → Option Nat
  | .integer value => if 0 ≤ value ∧ value < UInt64.size then some value.toNat else none
  | _ => none

/-- The limits of a table by name, or of an array in the order of declaration; what an array has
    beyond them is ignored. A date is a table that names no limit. -/
def limitsOf? : Toml → Option Limits
  | .table entries => Limits.ofFields? (entries.map fun (name, value) => (name, limitOf? value))
  | .date _ => some {}
  | .array items => Limits.ofValues? ((items.take Limit.all.length).map limitOf?)
  | _ => none

/-- Reads the value under a key, if there is one. -/
def readKey? {α : Type} (table : Toml) (key : String) (default : α) (read? : Toml → Option α) :
    Option α :=
  match table.get? key with
  | none => some default
  | some value => read? value

def ofToml? (table : Toml) : Option Settings := do
  let guidesPath ← readKey? table "guides_path" none fun value => (pathOf? value).map some
  let format ← readKey? table "format" .text formatOf?
  let limits ← readKey? table "limits" {} limitsOf?
  return { guidesPath, format, limits }

/-- The settings that a text writes down. -/
def ofText? (text : String) : Option Settings := (Toml.read? text).bind ofToml?

def expand (settings : Settings) (env : Environment) : Settings :=
  { settings with guidesPath := settings.guidesPath.map env.expand }

/-! ## Writing -/

def toText (settings : Settings) : String :=
  let path :=
    match settings.guidesPath with
    | some path => ["guides_path = " ++ Toml.quote path]
    | none => []
  let limits := Limit.all.map fun limit => s!"{limit.name} = {settings.limits.get limit}"
  terminated (path ++ ["format = " ++ Toml.quote settings.format.name, "", "[limits]"] ++ limits)

/-! ## Files -/

/-- Where the settings are kept. -/
def filePath (env : Environment) : String :=
  String.ofList (env.expandTilde "~/.config/dotguide/config.toml".toList)

/-- Why settings could not be loaded. -/
inductive Fault
  | read (path : Files.Path) (fault : Files.ReadFault)
  | invalid (path : Files.Path)
deriving DecidableEq, Repr

def Fault.message : Fault → String
  | read path fault => s!"Failed to read config file at {Files.display path}: {fault.message}"
  | invalid path => s!"Failed to parse config file at {Files.display path}"

/-- The settings in the file at a path; none if there is no file. -/
def load? (tree : Files.Tree) (env : Environment) (path : Files.Path) :
    Except Fault (Option Settings) :=
  if tree.contains path then
    match tree.readText path with
    | .error fault => .error (.read path fault)
    | .ok text =>
      match ofText? text with
      | none => .error (.invalid path)
      | some settings => .ok (some (settings.expand env))
  else .ok none

/-- The tree with the settings written to a file at a path. -/
def save? (settings : Settings) (tree : Files.Tree) (path : Files.Path) : Option Files.Tree :=
  tree.write? path settings.toText.toUTF8

end Settings

end GuideCheck
