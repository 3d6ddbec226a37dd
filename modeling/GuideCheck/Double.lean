set_option autoImplicit false

/-! # Finite binary64 numbers, exactly

Every finite double is a whole number of the least positive double, 2⁻¹⁰⁷⁴. Counting in these units
makes the arithmetic of doubles arithmetic of natural numbers: a number of units is a double exactly
when it needs at most 53 binary digits besides trailing zeros, and to round is to take the nearest
such number, a tie going to the even neighbour. Order is the order of the signed counts. -/

namespace GuideCheck

/-- A finite double: `units` times 2⁻¹⁰⁷⁴, with a sign of its own so that there is a negative
    zero. -/
structure Double where
  negative : Bool
  units : Nat
deriving DecidableEq, Repr

namespace Double

/-- The number of units in one. -/
def one : Nat := 1 <<< 1074

/-- The least number of units that no finite double reaches. -/
def ceiling : Nat := 1 <<< 2098

/-! ## Rounding -/

/-- How many binary digits of `n` lie beyond the 53 that a double keeps. -/
def spill (n : Nat) : Nat := n.log2 + 1 - 53

/-- The natural number nearest to a quotient; a half goes to the even neighbour. -/
def roundDiv (numerator denominator : Nat) : Nat :=
  let quotient := numerator / denominator
  let remainder := numerator % denominator
  if 2 * remainder < denominator then quotient
  else if denominator < 2 * remainder then quotient + 1
  else quotient + quotient % 2

/-- The number of units nearest to a quotient among those with at most 53 binary digits. -/
def nearest (numerator denominator : Nat) : Nat :=
  let extra := spill (numerator / denominator)
  roundDiv numerator (denominator <<< extra) <<< extra

/-- The double nearest to an integer. -/
def ofInt (n : Int) : Double := ⟨n < 0, nearest (n.natAbs * one) 1⟩

/-! ## Decimal scaling -/

/-- The double nearest to a power of ten, in units. -/
def powerOfTen (exponent : Nat) : Nat := nearest (Nat.pow 10 exponent * one) 1

/-- The largest exponent whose power of ten is a finite double. -/
def maxExponent : Nat := 308

/-- The units of `significand · 10 ^ exponent`: the significand becomes a double and is multiplied
    or divided by one power of ten. Exponents below -308 divide by 10³⁰⁸ first, and below -616
    nothing of a 64-bit significand is left. No number results when the product is too large. -/
def scaledUnits? (significand : Nat) (exponent : Int) : Option Nat :=
  let whole := nearest (significand * one) 1
  if 0 ≤ exponent then
    if whole = 0 then some 0
    else if maxExponent < exponent.toNat then none
    else
      let product := nearest (whole * powerOfTen exponent.toNat) one
      if product < ceiling then some product else none
  else
    let divide (units k : Nat) : Nat := nearest (units * one) (powerOfTen k)
    let k := exponent.natAbs
    if k ≤ maxExponent then some (divide whole k)
    else if k ≤ 2 * maxExponent then some (divide (divide whole maxExponent) (k - maxExponent))
    else some 0

/-- The double that a decimal literal stands for; none when it is too large. -/
def ofScientific? (negative : Bool) (significand : Nat) (exponent : Int) : Option Double :=
  (scaledUnits? significand exponent).map fun units => ⟨negative, units⟩

/-! ## Range -/

/-- The least number that has no nearest finite double: half a step above the largest of them, where
    a tie goes up. -/
def bound : Nat := (1 <<< 54 - 1) <<< 970

/-- The number of decimal digits of the bound. -/
def boundDigits : Nat := 309

/-- Whether `significand · 10 ^ exponent` has a nearest finite double. Only as many digits as the
    bound has need a comparison. -/
def isInRange (significand : Nat) (exponent : Int) : Bool :=
  let digits : Int := (Nat.toDigits 10 significand).length + exponent
  significand == 0 || digits < boundDigits ||
    digits == boundDigits &&
      significand * Nat.pow 10 exponent.toNat < bound * Nat.pow 10 (-exponent).toNat

/-! ## Order and whole numbers -/

/-- The signed number of units; both zeros have the value zero. -/
def value (x : Double) : Int := if x.negative then -(x.units : Int) else x.units

instance : LT Double := ⟨fun x y => x.value < y.value⟩
instance : LE Double := ⟨fun x y => x.value ≤ y.value⟩
instance (x y : Double) : Decidable (x < y) := inferInstanceAs (Decidable (x.value < y.value))
instance (x y : Double) : Decidable (x ≤ y) := inferInstanceAs (Decidable (x.value ≤ y.value))

def isZero (x : Double) : Bool := x.units == 0

def isWhole (x : Double) : Bool := x.units % one == 0

/-- The natural number below the absolute value of the double. -/
def floorAbs (x : Double) : Nat := x.units / one

end Double

end GuideCheck
