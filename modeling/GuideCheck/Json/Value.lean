import GuideCheck.Double

set_option autoImplicit false

/-! # JSON values

Numbers are integers as long as they are written without fraction and exponent and fit 64 bits, and
doubles otherwise; both are compared as doubles. The members of an object are kept as a list. A
reader yields them as they stand in the text; `Json.normal` sorts them by key, the last of several
members with one key staying, and every check of a payload works on the normal form. -/

namespace GuideCheck

inductive Number
  /-- an integer from -2⁶³ to 2⁶⁴ - 1 -/
  | int (value : Int)
  /-- any other number -/
  | double (value : Double)
deriving DecidableEq, Repr

namespace Number

/-- The double nearest to the number. -/
def toDouble : Number → Double
  | int value => .ofInt value
  | double value => value

/-- The natural number that the number is written as, if it is an integer and not negative. -/
def natural? : Number → Option Nat
  | int value => if 0 ≤ value then some value.toNat else none
  | double _ => none

def isZero : Number → Bool
  | int value => value == 0
  | double value => value.isZero

/-- Whether the fraction of the number is zero. -/
def isWhole : Number → Bool
  | int _ => true
  | double value => value.isWhole

end Number

inductive Json
  | null
  | bool (value : Bool)
  | num (value : Number)
  | str (text : String)
  | arr (items : List Json)
  | obj (members : List (String × Json))
deriving Inhabited, BEq, Repr

namespace Json

/-! ## Parts of a value -/

/-- The value of an object's first member with this key. -/
def get? (key : String) : Json → Option Json
  | obj members => members.lookup key
  | _ => none

def items? : Json → Option (List Json)
  | arr items => some items
  | _ => none

def text? : Json → Option String
  | str text => some text
  | _ => none

def number? : Json → Option Number
  | num value => some value
  | _ => none

def isObject : Json → Bool
  | obj _ => true
  | _ => false

/-- A natural number as a value. -/
def ofNat (n : Nat) : Json := num (.int n)

/-! ## The normal form -/

/-- Members sorted by key with one more member; it replaces one with the same key. -/
def insertMember (key : String) (value : Json) : List (String × Json) → List (String × Json)
  | [] => [(key, value)]
  | (k, v) :: rest =>
    if key < k then (key, value) :: (k, v) :: rest
    else if key = k then (key, value) :: rest
    else (k, v) :: insertMember key value rest

/-- Members in any order, sorted by key; of several members with one key the last one stays. -/
def sortMembers (members : List (String × Json)) : List (String × Json) :=
  members.foldl (fun sorted member => insertMember member.1 member.2 sorted) []

mutual

/-- The value with the members of every object sorted by key, the last member of a key staying. -/
def normal : Json → Json
  | arr items => arr (normalItems items)
  | obj members => obj (sortMembers (normalMembers members))
  | value => value

def normalItems : List Json → List Json
  | [] => []
  | item :: rest => item.normal :: normalItems rest

/-- The members with normal forms for values, in the same order. -/
def normalMembers : List (String × Json) → List (String × Json)
  | [] => []
  | (key, value) :: rest => (key, value.normal) :: normalMembers rest

end

end Json

end GuideCheck
