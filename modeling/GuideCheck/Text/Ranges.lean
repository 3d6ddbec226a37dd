set_option autoImplicit false

/-! # Sets of characters given by ranges of code points

Properties of characters that a standard defines by a table are written as a list of closed ranges
of code points. -/

namespace GuideCheck.Text

/-- A set of code points, as closed ranges. -/
abbrev Ranges := List (Nat × Nat)

/-- Whether the code point of `c` lies in one of the ranges. -/
def Ranges.contains (ranges : Ranges) (c : Char) : Bool :=
  ranges.any fun range => range.1 ≤ c.toNat && c.toNat ≤ range.2

end GuideCheck.Text
