import GuideCheck.Report

set_option autoImplicit false

/-! # What a command line asks for

Arguments are bytes and taken one after another. Options stand in front of a command or after it,
short ones may be put together behind one dash, and two dashes end them. Only paths need not be
texts: options are read as they are shown, and none has a character that stands for broken bytes.
The first argument that cannot be taken makes the command line invalid, unless help or the version
has been asked for before it. -/

namespace GuideCheck.CommandLine

open Files (Path bytes display)

inductive Topic
  | program
  | check
  | browse
  | help
deriving DecidableEq, Repr

/-- What a command line asks for. -/
inductive Request
  | help (topic : Topic)
  | version
  /-- a check of some paths, in a format if one is given -/
  | check (paths : List Path) (format : Option ReportFormat)
  /-- browsing a folder, if one is given -/
  | browse (folder : Option Path)
deriving DecidableEq, Repr

def Topic.ofName? : String → Option Topic
  | "check" => some .check
  | "browse" => some .browse
  | "help" => some .help
  | _ => none

/-! ## Arguments -/

/-- An argument as it looks while options may follow. -/
inductive Argument
  /-- two dashes -/
  | dashes
  /-- two dashes and a name, and what follows an equals sign -/
  | long (name : List Char) (value : Option (List Char))
  /-- a dash and letters -/
  | short (letters : List Char)
  | word
deriving DecidableEq, Repr

/-- What an argument looks like; a dash on its own is a word. -/
def Argument.ofText (text : String) : Argument :=
  match text.toList with
  | ['-', '-'] => .dashes
  | '-' :: '-' :: rest =>
    match Text.cutAt? '=' rest with
    | some (name, value) => .long name (some value)
    | none => .long rest none
  | '-' :: letter :: rest => .short (letter :: rest)
  | _ => .word

/-! ## Reading -/

/-- What has been read of a command line. -/
structure Draft where
  /-- the command, or the program while there is none -/
  topic : Topic := .program
  /-- whether the option for more output was given since the command -/
  verbose : Bool := false
  /-- whether the next argument is the format -/
  awaitsFormat : Bool := false
  /-- whether two dashes have ended the options -/
  optionsEnded : Bool := false
  format : Option ReportFormat := none
  words : List Path := []

/-- Why no more arguments are read: they cannot be taken, or the request is clear. -/
inductive Stop
  | invalid
  | request (request : Request)
deriving DecidableEq, Repr

namespace Draft

/-- The draft with a format, of which there may only be one. -/
def takeFormat (draft : Draft) (name : String) : Except Stop Draft :=
  match draft.format, ReportFormat.ofName? name with
  | none, some format => .ok { draft with format := some format, awaitsFormat := false }
  | _, _ => .error .invalid

/-- The draft with the option for more output, which may only be given once. -/
def takeVerbose (draft : Draft) : Except Stop Draft :=
  if draft.verbose then .error .invalid else .ok { draft with verbose := true }

/-- The draft with an option that has a long name, and the value given with it. -/
def takeLong (draft : Draft) (name : String) (value : Option String) : Except Stop Draft :=
  match name, value with
  | "verbose", none => draft.takeVerbose
  | "help", none => .error (.request (.help draft.topic))
  | "version", none =>
    .error (if draft.topic = .program then .request .version else .invalid)
  | "format", value =>
    if draft.topic ≠ .check then .error .invalid
    else
      match value with
      | some value => draft.takeFormat value
      | none => .ok { draft with awaitsFormat := true }
  | _, _ => .error .invalid

/-- The draft with options of one letter each; after the letter of the format stands its name. -/
def takeShort (draft : Draft) : List Char → Except Stop Draft
  | [] => .ok draft
  | 'v' :: rest => do (← draft.takeVerbose).takeShort rest
  | 'h' :: _ => .error (.request (.help draft.topic))
  | 'V' :: _ => .error (if draft.topic = .program then .request .version else .invalid)
  | 'f' :: rest =>
    if draft.topic ≠ .check then .error .invalid
    else
      match rest with
      | [] => .ok { draft with awaitsFormat := true }
      | '=' :: name => draft.takeFormat (String.ofList name)
      | name => draft.takeFormat (String.ofList name)
  | _ :: _ => .error .invalid

/-- The draft with a word: a command, or a path, which may not be empty. -/
def takeWord (draft : Draft) (word : Path) : Except Stop Draft :=
  match draft.topic with
  | .program =>
    match Topic.ofName? (display word) with
    | some topic => if draft.optionsEnded then .error .invalid else .ok { topic }
    | none => .error .invalid
  | .browse =>
    if word = [] ∨ draft.words ≠ [] then .error .invalid else .ok { draft with words := [word] }
  | .check =>
    if word = [] then .error .invalid else .ok { draft with words := draft.words ++ [word] }
  | .help => .ok { draft with words := draft.words ++ [word] }

def take (draft : Draft) (argument : List UInt8) : Except Stop Draft :=
  if draft.awaitsFormat then draft.takeFormat (display argument)
  else if draft.optionsEnded ∨ draft.topic = .help then draft.takeWord argument
  else
    match Argument.ofText (display argument) with
    | .dashes => .ok { draft with optionsEnded := true }
    | .long name value => draft.takeLong (String.ofList name) (value.map String.ofList)
    | .short letters => draft.takeShort letters
    | .word => draft.takeWord argument

/-- What a draft asks for when there are no more arguments. -/
def finish (draft : Draft) : Option Request :=
  match draft.topic with
  | .program => none
  | .check => if draft.awaitsFormat then none else some (.check draft.words draft.format)
  | .browse => some (.browse draft.words.head?)
  | .help =>
    match draft.words with
    | [] => some (.help .program)
    | [name] => (Topic.ofName? (display name)).map .help
    | _ => none

end Draft

/-- What the arguments of a command line ask for, if they are valid. -/
def Request.ofArguments? (arguments : List (List UInt8)) : Option Request :=
  match arguments.foldlM Draft.take {} with
  | .ok draft => draft.finish
  | .error (.request request) => some request
  | .error .invalid => none

end GuideCheck.CommandLine
