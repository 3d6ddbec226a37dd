import GuideCheck.Text.Alphanumeric
import GuideCheck.Text.Search

set_option autoImplicit false

/-! # Variables in paths

A path may name variables, as `$NAME`, as `${NAME}`, or as `${NAME:-text}` with a text that takes
the place of a variable which is not set; two dollar signs stand for one. A variable that is set to
nothing is still set. A path that needs a variable which is not set is taken as written. After that,
a tilde in front stands for the home folder, unless a variable brought it there. -/

namespace GuideCheck

/-- The variables that are set, with their values. -/
structure Environment where
  values : List (String × String) := []

namespace Environment

def value? (env : Environment) (name : String) : Option String := env.values.lookup name

def home? (env : Environment) : Option String := (env.value? "HOME").filter (· ≠ "")

/-! ## Parts of a path -/

/-- A part of a path in which variables may be named. -/
inductive Piece
  | char (c : Char)
  /-- a dollar sign and a name -/
  | named (name : List Char)
  /-- a dollar sign and a text in braces -/
  | braced (inside : List Char)
deriving DecidableEq, Repr

/-- Whether a character may stand in a name that has no braces. -/
def isNameChar (c : Char) : Bool := Text.isAlphanumeric c || c == '_'

/-- The parts of a path. A brace that is never closed stands for itself, like its dollar sign. -/
def pieces : List Char → List Piece
  | [] => []
  | '$' :: '$' :: rest => .char '$' :: pieces rest
  | '$' :: '{' :: rest =>
    match h : Text.cutAt? '}' rest with
    | some (inside, after) =>
      have := Text.length_lt_of_cutAt? h
      .braced inside :: pieces after
    | none => .char '$' :: .char '{' :: pieces rest
  | '$' :: c :: rest =>
    if isNameChar c then
      have := (List.dropWhile_suffix isNameChar (l := rest)).length_le
      .named (c :: rest.takeWhile isNameChar) :: pieces (rest.dropWhile isNameChar)
    else .char '$' :: pieces (c :: rest)
  | c :: rest => .char c :: pieces rest
termination_by text => text.length

/-- The parts of a text before and after its first `:-`. -/
def cutAtSubstitute? : List Char → Option (List Char × List Char)
  | ':' :: '-' :: rest => some ([], rest)
  | [] => none
  | c :: rest => (cutAtSubstitute? rest).map fun (name, substitute) => (c :: name, substitute)

/-- The name in braces, and the text that may take the place of its value. Without a name in front
    of it, a `:-` separates nothing. -/
def nameAndSubstitute (inside : List Char) : List Char × Option (List Char) :=
  match cutAtSubstitute? inside with
  | some (name@(_ :: _), substitute) => (name, some substitute)
  | _ => (inside, none)

def Piece.variable? : Piece → Option String
  | char _ => none
  | named name => some (String.ofList name)
  | braced inside => some (String.ofList (nameAndSubstitute inside).1)

def variablesIn (path : String) : List String := (pieces path.toList).filterMap Piece.variable?

/-! ## Expansion -/

/-- What a part stands for: the value of its variable, or else the text that takes its place. -/
def fill? (env : Environment) : Piece → Option (List Char)
  | .char c => some [c]
  | .named name => (env.value? (String.ofList name)).map String.toList
  | .braced inside =>
    let (name, substitute) := nameAndSubstitute inside
    ((env.value? (String.ofList name)).map String.toList).or substitute

/-- A path with the values of its variables, if those it needs are set. -/
def fillAll? (env : Environment) (path : List Char) : Option (List Char) :=
  ((pieces path).mapM env.fill?).map List.flatten

/-- A path with the home folder in place of a tilde that is its first part. -/
def expandTilde (env : Environment) (path : List Char) : List Char :=
  match path, env.home? with
  | ['~'], some home => home.toList
  | '~' :: '/' :: rest, some home => home.toList ++ '/' :: rest
  | path, _ => path

/-- A path with its variables and its tilde expanded. -/
def expand (env : Environment) (path : String) : String :=
  match env.fillAll? path.toList with
  | none => path
  | some filled =>
    if path.toList.head? = some '~' then String.ofList (env.expandTilde filled)
    else String.ofList filled

/-! ## Laws -/

/-- Without a dollar sign every character of a path stands for itself. -/
theorem pieces_of_notMem {text : List Char} (h : '$' ∉ text) : pieces text = text.map .char := by
  induction text with
  | nil => simp [pieces]
  | cons c rest ih =>
    have head : c ≠ '$' := fun e => h (by simp [e])
    have tail : '$' ∉ rest := fun e => h (by simp [e])
    rw [pieces]
    · simp [ih tail]
    all_goals intros; exact absurd (by assumption) head

theorem mapM_fill?_map_char (env : Environment) (text : List Char) :
    (text.map Piece.char).mapM env.fill? = some (text.map ([·])) := by
  induction text with
  | nil => rfl
  | cons c rest ih => simp [List.mapM_cons, fill?, ih]

/-- A path without a dollar sign and without a tilde in front is taken as written. -/
theorem expand_eq_self (env : Environment) {path : String} (dollar : '$' ∉ path.toList)
    (tilde : path.toList.head? ≠ some '~') : env.expand path = path := by
  have filled : env.fillAll? path.toList = some path.toList := by
    rw [fillAll?, pieces_of_notMem dollar, mapM_fill?_map_char]
    simp [← List.flatMap_def]
  simp [expand, filled, tilde]

end Environment

end GuideCheck
