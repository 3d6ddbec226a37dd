import GuideCheck.Double.Shortest

set_option autoImplicit false

/-! # Writing a double

The shortest digits are laid out positionally, with a decimal point and at least one digit after it,
when the exponent of the leading digit lies in a range; otherwise with one digit before the point
and a signed exponent. The decisions stand in one record. -/

namespace GuideCheck.Double

/-- How the digits of a double are laid out. -/
structure Layout where
  /-- the least exponent of the leading digit that is written positionally -/
  plainFrom : Int
  /-- the least exponent above that range -/
  plainBelow : Int
  /-- what stands between digits and exponent -/
  mark : String
  /-- the sign of an exponent that is not negative -/
  plus : String

/-- JSON numbers are positional from 10⁻⁵ up to 10¹⁶, and carry a sign in the exponent. -/
def jsonLayout : Layout := ⟨-5, 16, "e", "+"⟩

/-- A row of zeros. -/
def zeros (count : Nat) : String := String.ofList (List.replicate count '0')

/-- The text of a positive decimal. -/
def Layout.write (layout : Layout) (d : Decimal) : String :=
  let digits := (Nat.repr d.digits).toList
  let point : Int := digits.length + d.exponent
  let leading := point - 1
  if layout.plainFrom ≤ leading ∧ leading < layout.plainBelow then
    if point ≤ 0 then "0." ++ zeros (-point).toNat ++ String.ofList digits
    else if digits.length ≤ point.toNat then
      String.ofList digits ++ zeros (point.toNat - digits.length) ++ ".0"
    else String.ofList (digits.take point.toNat) ++ "." ++ String.ofList (digits.drop point.toNat)
  else
    let fraction := if digits.length = 1 then "" else "." ++ String.ofList digits.tail
    let exponent := (if leading < 0 then "-" else layout.plus) ++ Nat.repr leading.natAbs
    String.ofList (digits.take 1) ++ fraction ++ layout.mark ++ exponent

/-- The text of a double: its sign, then its shortest digits laid out. -/
def toText (layout : Layout) (x : Double) : String :=
  (if x.negative then "-" else "") ++
    if x.units = 0 then "0.0" else layout.write (shortest x.units)

end GuideCheck.Double
