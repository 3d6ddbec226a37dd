import GuideCheck.Double

set_option autoImplicit false

/-! # The fewest decimal digits that read back

The reals that round to a double form an interval around it, which holds its ends exactly when the
double's significand is even. `shortest` looks for the decimal with the fewest digits in that
interval: for one digit, two digits and so on it tries the two decimals next to the value, takes the
nearer of two hits, and on a tie the even one. -/

namespace GuideCheck

/-- The decimal `digits · 10 ^ exponent`. -/
structure Decimal where
  digits : Nat
  exponent : Int
deriving DecidableEq, Repr

namespace Double

/-- Compares `digits · 10 ^ exponent` with `quarters` quarter units, exactly. -/
def compareQuarters (d : Decimal) (quarters : Nat) : Ordering :=
  compare (d.digits * Nat.pow 10 d.exponent.toNat * (4 * one))
    (quarters * Nat.pow 10 (-d.exponent).toNat)

/-- Whether `d` rounds to the double with `units` units. -/
def readsBack (units : Nat) (d : Decimal) : Bool :=
  let extra := spill units
  let gap := 1 <<< extra
  let narrow := 0 < extra && units == 1 <<< (52 + extra)
  let low := 4 * units - (if narrow then gap else 2 * gap)
  let high := 4 * units + 2 * gap
  let closed := (units >>> extra) % 2 == 0
  let above := compareQuarters d low
  let below := compareQuarters d high
  (above == .gt || (closed && above == .eq)) && (below == .lt || (closed && below == .eq))

/-- The value divided by `10 ^ exponent`, rounded down. -/
def floorAt (units : Nat) (exponent : Int) : Nat :=
  units * Nat.pow 10 (-exponent).toNat / (one * Nat.pow 10 exponent.toNat)

/-- The least `k` with the value below `10 ^ k`, for a positive value. -/
def magnitude (units : Nat) : Int :=
  let estimate : Int := ((units.log2 : Int) - 1074) * 30103 / 100000
  let candidates := (List.range 6).map fun (i : Nat) => estimate - 2 + (i : Int)
  (candidates.find? fun k => compareQuarters ⟨1, k⟩ (4 * units) == .gt).getD (estimate + 4)

/-- The decimal with `count` digits that reads back, if there is one: the nearer of the two
    neighbours of the value, on a tie the even one. -/
def withDigits? (units : Nat) (count : Nat) : Option Decimal :=
  let exponent := magnitude units - count
  let down : Decimal := ⟨floorAt units exponent, exponent⟩
  let up : Decimal := ⟨down.digits + 1, exponent⟩
  match readsBack units down, readsBack units up with
  | true, true =>
    match compareQuarters ⟨2 * down.digits + 1, exponent⟩ (8 * units) with
    | .gt => some down
    | .lt => some up
    | .eq => some (if down.digits % 2 == 0 then down else up)
  | true, false => some down
  | false, true => some up
  | false, false => none

/-- `d` with trailing zeros of its digits moved into the exponent, at most `limit` of them. -/
def stripZeros (d : Decimal) : (limit : Nat) → Decimal
  | 0 => d
  | limit + 1 =>
    if d.digits % 10 == 0 && d.digits != 0 then
      stripZeros ⟨d.digits / 10, d.exponent + 1⟩ limit
    else d

/-- The decimal with the fewest digits that reads back as the positive value `units`. Seventeen
    digits suffice for every double; the exact value stands in should none be found. -/
def shortest (units : Nat) : Decimal :=
  let found := (List.range 17).findSome? fun n => withDigits? units (n + 1)
  stripZeros (found.getD ⟨units * Nat.pow 5 1074, -1074⟩) 20

end Double

end GuideCheck
