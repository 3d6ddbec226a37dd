import GuideCheck.Double
import GuideCheck.Text.Code
import GuideCheck.Text.Lines
import GuideCheck.Text.Search
import GuideCheck.Toml.Value

set_option autoImplicit false

/-! # TOML numbers, booleans and dates

Digits may be grouped by underscores between them. An integer is decimal without leading zeros, or
has a base in front; a number with a fraction or an exponent must be a finite double. -/

namespace GuideCheck.Toml

/-! ## Digits -/

/-- The value of a digit in a base up to sixteen. -/
def digitIn? (base : Nat) (c : Char) : Option Nat := (Text.hexDigit? c).filter (· < base)

/-- Digits without their underscores, each of which must stand between two digits. -/
def grouped? (base : Nat) (text : List Char) : Option (List Nat) :=
  let groups := Text.split '_' text
  if groups.any List.isEmpty then none else groups.flatten.mapM (digitIn? base)

/-- The number that some digits make. -/
def fromDigits (base : Nat) (digits : List Nat) : Nat := digits.foldl (fun n d => n * base + d) 0

/-- A decimal number without leading zeros. -/
def decimal? (text : List Char) : Option Nat :=
  match grouped? 10 text with
  | some [d] => some d
  | some (0 :: _ :: _) => none
  | digits => digits.map (fromDigits 10)

/-- A sign, and what follows it. -/
def signed : List Char → Bool × List Char
  | '-' :: rest => (true, rest)
  | '+' :: rest => (false, rest)
  | text => (false, text)

/-! ## Numbers -/

/-- Whether an integer can be held at all. -/
def isHeld (value : Int) : Bool := -(1 <<< 127 : Nat) ≤ value && value < (1 <<< 128 : Nat)

def integer? (text : List Char) : Option Toml :=
  let value? : Option Int :=
    match text with
    | '0' :: 'x' :: digits => (grouped? 16 digits).map fun ds => fromDigits 16 ds
    | '0' :: 'o' :: digits => (grouped? 8 digits).map fun ds => fromDigits 8 ds
    | '0' :: 'b' :: digits => (grouped? 2 digits).map fun ds => fromDigits 2 ds
    | text =>
      let (negative, digits) := signed text
      (decimal? digits).map fun n => if negative then -(n : Int) else n
  (value?.filter isHeld).map integer

/-- A number with a fraction, an exponent, or both, as long as it is finite. -/
def float? (text : List Char) : Option Toml :=
  let (_, number) := signed text
  let finish (whole : List Char) (fraction exponent : List Char) : Option Toml := do
    let _ ← decimal? whole
    let digits ← grouped? 10 (whole ++ fraction)
    let (negative, power) := signed exponent
    let power ← (grouped? 10 power).map (fromDigits 10)
    let places := (fraction.filter (· ≠ '_')).length
    let scale : Int := (if negative then -(power : Int) else power) - places
    if Double.isInRange (fromDigits 10 digits) scale then return .float (String.ofList text)
    else none
  let isMark (c : Char) : Bool := c == 'e' || c == 'E'
  let mantissa := number.takeWhile fun c => !isMark c
  let exponent? := (number.dropWhile fun c => !isMark c).tail?
  match Text.cutAt? '.' mantissa with
  | some (whole, fraction) => do
    let _ ← grouped? 10 fraction
    finish whole fraction (exponent?.getD ['0'])
  | none => exponent?.bind fun exponent => finish mantissa [] exponent

/-- Infinity and the value that is no number, with or without a sign. -/
def special? (text : List Char) : Option Toml :=
  let (_, word) := signed text
  if word = "inf".toList ∨ word = "nan".toList then some (.float (String.ofList text)) else none

/-! ## Dates -/

/-- A number of a fixed count of digits within bounds, and what follows it. -/
def field? (count low high : Nat) (text : List Char) : Option (Nat × List Char) := do
  let digits ← (text.take count).mapM (digitIn? 10)
  let value := fromDigits 10 digits
  if digits.length = count ∧ low ≤ value ∧ value ≤ high then some (value, text.drop count) else none

/-- The rest of a text after a character it must begin with. -/
def after? (c : Char) : List Char → Option (List Char)
  | first :: rest => if first = c then some rest else none
  | [] => none

/-- The number of days of a month. -/
def daysIn (year month : Nat) : Nat :=
  if month = 2 then
    if year % 4 = 0 ∧ (year % 100 ≠ 0 ∨ year % 400 = 0) then 29 else 28
  else if month = 4 ∨ month = 6 ∨ month = 9 ∨ month = 11 then 30
  else 31

/-- What follows a date. -/
def afterDate? (text : List Char) : Option (List Char) := do
  let (year, rest) ← field? 4 0 9999 text
  let (month, rest) ← field? 2 1 12 (← after? '-' rest)
  let (_, rest) ← field? 2 1 (daysIn year month) (← after? '-' rest)
  return rest

/-- What follows a time of day; seconds and their fraction may be missing. -/
def afterTime? (text : List Char) : Option (List Char) := do
  let (_, rest) ← field? 2 0 23 text
  let (_, rest) ← field? 2 0 59 (← after? ':' rest)
  match rest with
  | ':' :: rest =>
    let (_, rest) ← field? 2 0 60 rest
    match rest with
    | '.' :: c :: rest => if c.isDigit then some (rest.dropWhile Char.isDigit) else none
    | '.' :: [] => none
    | rest => some rest
  | rest => some rest

/-- Whether a text is an offset from universal time, or nothing. -/
def isOffset (text : List Char) : Bool :=
  match text with
  | [] | ['Z'] | ['z'] => true
  | sign :: rest =>
    (sign == '+' || sign == '-') &&
      ((field? 2 0 23 rest).bind fun (_, rest) =>
        (after? ':' rest).bind fun rest => field? 2 0 59 rest).any fun (_, rest) => rest.isEmpty

def date? (text : List Char) : Option Toml :=
  let ok :=
    match afterDate? text with
    | some [] => true
    | some (c :: rest) => (c == 'T' || c == 't' || c == ' ') && (afterTime? rest).any isOffset
    | none => (afterTime? text).any List.isEmpty
  if ok then some (.date (String.ofList text)) else none

/-! ## Any scalar -/

/-- Whether a character may belong to a number, a boolean or a date. -/
def isScalarChar (c : Char) : Bool :=
  c.isAlphanum || c == '_' || c == '-' || c == '+' || c == '.' || c == ':'

/-- The characters of a scalar and what follows them; a time of day may follow a date after a
    space. -/
def scalarText (text : List Char) : List Char × List Char :=
  let word := text.takeWhile isScalarChar
  match afterDate? word, text.dropWhile isScalarChar with
  | some [], ' ' :: rest =>
    let time := rest.takeWhile isScalarChar
    if time.head?.any Char.isDigit then (word ++ ' ' :: time, rest.dropWhile isScalarChar)
    else (word, ' ' :: rest)
  | _, rest => (word, rest)

/-- A boolean, a number or a date, and what follows it. -/
def scalar (text : List Char) : Option (Toml × List Char) :=
  let (word, rest) := scalarText text
  let value? :=
    if word = "true".toList then some (.boolean true)
    else if word = "false".toList then some (.boolean false)
    else (integer? word).orElse fun _ => (float? word).orElse fun _ =>
      (special? word).orElse fun _ => date? word
  value?.map (·, rest)

end GuideCheck.Toml
