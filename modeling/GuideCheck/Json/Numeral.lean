import GuideCheck.Json.Value
import GuideCheck.Json.Fault

set_option autoImplicit false

/-! # Number literals

A literal is read character by character. Its digits make up a significand of at most 64 bits: a
digit before the point that does not fit raises the exponent instead, one after the point is
ignored. `finish` turns what was read into a number. -/

namespace GuideCheck.Json

/-- How far a number literal has been read. -/
inductive Numeral.Stage
  /-- a digit must follow the sign -/
  | sign
  /-- a single zero was read -/
  | zero
  /-- digits before the point -/
  | whole
  /-- digits before the point that no longer fit the significand -/
  | dropped
  /-- a digit must follow the point -/
  | point
  /-- digits after the point -/
  | fraction
  /-- digits after the point that no longer fit the significand -/
  | spent
  /-- a sign or a digit must follow the exponent mark -/
  | mark
  /-- a digit must follow the sign of the exponent -/
  | markSign (negative : Bool)
  /-- digits of the exponent -/
  | power (negative : Bool) (value : Nat)
  /-- digits of an exponent that leaves nothing but zero -/
  | vanished
deriving DecidableEq, Repr

/-- The part of a number literal that has been read. -/
structure Numeral where
  negative : Bool
  significand : Nat
  exponent : Int
  stage : Numeral.Stage
deriving DecidableEq, Repr

namespace Numeral

def maxSignificand : Nat := UInt64.size - 1

def maxPower : Nat := 1 <<< 31 - 1

def digit? (c : Char) : Option Nat :=
  if '0' ≤ c ∧ c ≤ '9' then some (c.toNat - '0'.toNat) else none

/-- What one more character does to a literal. -/
inductive Step
  /-- the character belongs to the literal -/
  | more (numeral : Numeral)
  /-- the literal ended before the character -/
  | done
  | fault (cause : Cause)

/-- A literal that begins with a minus sign. -/
def negated : Numeral := ⟨true, 0, 0, .sign⟩

/-- The literal after its first digit. -/
def firstDigit (negative : Bool) (d : Nat) : Numeral :=
  ⟨negative, d, 0, if d = 0 then .zero else .whole⟩

/-- Whether one more digit fits the significand. -/
def fits (n : Numeral) (d : Nat) : Bool := n.significand * 10 + d ≤ maxSignificand

def addWhole (n : Numeral) (d : Nat) : Numeral :=
  if n.fits d then { n with significand := n.significand * 10 + d }
  else { n with exponent := n.exponent + 1, stage := .dropped }

def addFraction (n : Numeral) (d : Nat) : Numeral :=
  if n.fits d then
    { n with significand := n.significand * 10 + d, exponent := n.exponent - 1, stage := .fraction }
  else { n with stage := .spent }

/-- A digit of the exponent. -/
def addPower (n : Numeral) (negative : Bool) (value d : Nat) : Step :=
  if value * 10 + d ≤ maxPower then .more { n with stage := .power negative (value * 10 + d) }
  else if n.significand ≠ 0 ∧ ¬ negative then .fault .numberOutOfRange
  else .more { n with stage := .vanished }

/-- A character after digits, where a point or an exponent mark may follow. -/
def afterDigits (n : Numeral) (pointAllowed : Bool) (c : Char) : Step :=
  if c = '.' ∧ pointAllowed then .more { n with stage := .point }
  else if c = 'e' ∨ c = 'E' then .more { n with stage := .mark }
  else .done

/-- Reads one more character. -/
def step (n : Numeral) (c : Char) : Step :=
  match n.stage, digit? c with
  | .sign, some d => .more (firstDigit n.negative d)
  | .sign, none => .fault .invalidNumber
  | .zero, some _ => .fault .invalidNumber
  | .zero, none => n.afterDigits true c
  | .whole, some d => .more (n.addWhole d)
  | .whole, none => n.afterDigits true c
  | .dropped, some _ => .more { n with exponent := n.exponent + 1 }
  | .dropped, none => n.afterDigits true c
  | .point, some d => .more (n.addFraction d)
  | .point, none => .fault .invalidNumber
  | .fraction, some d => .more (n.addFraction d)
  | .fraction, none => n.afterDigits false c
  | .spent, some _ => .more n
  | .spent, none => n.afterDigits false c
  | .mark, some d => n.addPower false 0 d
  | .mark, none =>
    if c = '+' then .more { n with stage := .markSign false }
    else if c = '-' then .more { n with stage := .markSign true }
    else .fault .invalidNumber
  | .markSign negative, some d => n.addPower negative 0 d
  | .markSign _, none => .fault .invalidNumber
  | .power negative value, some d => n.addPower negative value d
  | .power _ _, none => .done
  | .vanished, some _ => .more n
  | .vanished, none => .done

/-- Whether the literal could end here. -/
def canEnd (n : Numeral) : Bool :=
  match n.stage with
  | .sign | .point | .mark | .markSign _ => false
  | _ => true

/-- The integer of a literal without fraction and exponent: minus zero, and what lies below the
    64-bit integers, are doubles. -/
def integer (n : Numeral) : Number :=
  if ¬ n.negative then .int n.significand
  else if n.significand = 0 ∨ 1 <<< 63 < n.significand then
    .double ⟨true, (Double.ofInt n.significand).units⟩
  else .int (-n.significand)

/-- The number that was read; none when it is too large for a double. -/
def finish (n : Numeral) : Option Number :=
  match n.stage with
  | .zero | .whole => some n.integer
  | .vanished => some (.double ⟨n.negative, 0⟩)
  | .power negative value =>
    let power : Int := if negative then n.exponent - value else n.exponent + value
    (Double.ofScientific? n.negative n.significand power).map .double
  | _ => (Double.ofScientific? n.negative n.significand n.exponent).map .double

end Numeral

end GuideCheck.Json
