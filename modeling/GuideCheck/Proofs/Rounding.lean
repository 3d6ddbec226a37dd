import GuideCheck.Double
import Mathlib.Algebra.Group.Nat.Defs
import Mathlib.Data.Nat.Log
import Mathlib.Tactic.SplitIfs

set_option autoImplicit false

/-! # Rounding keeps order

A double keeps 53 binary digits of a number, so larger numbers lie on coarser grids. On one grid
rounding keeps order (`Double.roundDiv_mono`) and leaves what lies on the grid where it is
(`Double.roundDiv_mul`). Between two grids there is a power of two that lies on both, and numbers
stay on their side of it, so that rounding keeps order throughout (`Double.nearest_mono`). The
doubles next to integers are therefore in the order of the integers, though neighbours may share one
(`Double.ofInt_mono`). -/

namespace GuideCheck.Double

/-! ## One grid -/

theorem roundDiv_mono {a b : Nat} (denominator : Nat) (h : a ≤ b) :
    roundDiv a denominator ≤ roundDiv b denominator := by
  have hdiv : a / denominator ≤ b / denominator := Nat.div_le_div_right h
  simp only [roundDiv]
  rcases Nat.lt_or_eq_of_le hdiv with hlt | heq
  · -- rounding adds at most one to the quotient
    split_ifs <;> omega
  · -- the quotients are the same, so that the remainders are in order
    have hmod : a % denominator ≤ b % denominator := by
      have ha := Nat.div_add_mod a denominator
      have hb := Nat.div_add_mod b denominator
      rw [heq] at ha
      omega
    rw [heq]
    split_ifs <;> omega

/-- What lies on the grid stays where it is. -/
theorem roundDiv_mul {denominator : Nat} (h : 0 < denominator) (k : Nat) :
    roundDiv (k * denominator) denominator = k := by
  simp [roundDiv, Nat.mul_div_cancel k h, h]

/-! ## Grids of several widths -/

theorem spill_mono {m n : Nat} (h : m ≤ n) : spill m ≤ spill n := by
  have hlog : m.log2 ≤ n.log2 := by
    rw [Nat.log2_eq_log_two, Nat.log2_eq_log_two]
    exact Nat.log_mono_right h
  unfold spill
  omega

theorem lt_two_pow_spill (n : Nat) : n < 2 ^ (53 + spill n) := by
  refine Nat.lt_of_lt_of_le Nat.lt_log2_self (Nat.pow_le_pow_right (by decide) ?_)
  unfold spill
  omega

/-- A number with digits to spare has all the 53 that are kept. -/
theorem two_pow_spill_le {n : Nat} (h : 0 < spill n) : 2 ^ (52 + spill n) ≤ n := by
  have hlog : 52 + spill n = n.log2 := by
    unfold spill at h ⊢
    omega
  have hne : n ≠ 0 := by
    rintro rfl
    exact absurd h (by decide)
  rw [hlog]
  exact Nat.log2_self_le hne

theorem nearest_eq (a denominator : Nat) :
    nearest a denominator =
      roundDiv a (denominator * 2 ^ spill (a / denominator)) * 2 ^ spill (a / denominator) := by
  simp only [nearest, Nat.shiftLeft_eq]

section Powers

variable {a denominator : Nat} (hpos : 0 < denominator)

include hpos

/-- No number is rounded past the power of two above it. -/
theorem nearest_le_two_pow :
    nearest a denominator ≤ 2 ^ (53 + spill (a / denominator)) := by
  have hlt : a < 2 ^ (53 + spill (a / denominator)) * denominator :=
    (Nat.div_lt_iff_lt_mul hpos).1 (lt_two_pow_spill _)
  rw [nearest_eq, Nat.pow_add]
  generalize spill (a / denominator) = extra at hlt ⊢
  have hgrid : 0 < denominator * 2 ^ extra := Nat.mul_pos hpos (Nat.two_pow_pos extra)
  have hle : a ≤ 2 ^ 53 * (denominator * 2 ^ extra) := by
    rw [Nat.pow_add, Nat.mul_assoc, Nat.mul_comm (2 ^ extra)] at hlt
    exact Nat.le_of_lt hlt
  refine Nat.mul_le_mul_right _ ?_
  calc roundDiv a (denominator * 2 ^ extra)
      ≤ roundDiv (2 ^ 53 * (denominator * 2 ^ extra)) (denominator * 2 ^ extra) :=
        roundDiv_mono _ hle
    _ = 2 ^ 53 := roundDiv_mul hgrid _

/-- No number that is rounded at all is rounded past the power of two below it. -/
theorem two_pow_le_nearest (h : 0 < spill (a / denominator)) :
    2 ^ (52 + spill (a / denominator)) ≤ nearest a denominator := by
  have hge : 2 ^ (52 + spill (a / denominator)) * denominator ≤ a :=
    (Nat.le_div_iff_mul_le hpos).1 (two_pow_spill_le h)
  rw [nearest_eq, Nat.pow_add]
  generalize spill (a / denominator) = extra at hge ⊢
  have hgrid : 0 < denominator * 2 ^ extra := Nat.mul_pos hpos (Nat.two_pow_pos extra)
  have hle : 2 ^ 52 * (denominator * 2 ^ extra) ≤ a := by
    rwa [Nat.pow_add, Nat.mul_assoc, Nat.mul_comm (2 ^ extra)] at hge
  refine Nat.mul_le_mul_right _ ?_
  calc 2 ^ 52 = roundDiv (2 ^ 52 * (denominator * 2 ^ extra)) (denominator * 2 ^ extra) :=
        (roundDiv_mul hgrid _).symm
    _ ≤ roundDiv a (denominator * 2 ^ extra) := roundDiv_mono _ hle

theorem nearest_mono {b : Nat} (h : a ≤ b) : nearest a denominator ≤ nearest b denominator := by
  have hspill : spill (a / denominator) ≤ spill (b / denominator) :=
    spill_mono (Nat.div_le_div_right h)
  rcases Nat.lt_or_eq_of_le hspill with hlt | heq
  · -- the grid of `b` is coarser, and a power of two lies between the two numbers
    calc nearest a denominator
        ≤ 2 ^ (53 + spill (a / denominator)) := nearest_le_two_pow hpos
      _ ≤ 2 ^ (52 + spill (b / denominator)) := Nat.pow_le_pow_right (by decide) (by omega)
      _ ≤ nearest b denominator := two_pow_le_nearest hpos (by omega)
  · rw [nearest_eq, nearest_eq, heq]
    exact Nat.mul_le_mul_right _ (roundDiv_mono _ h)

end Powers

/-! ## Integers -/

theorem value_ofInt (n : Int) :
    (ofInt n).value =
      if n < 0 then -(nearest (n.natAbs * one) 1 : Int) else nearest (n.natAbs * one) 1 := by
  simp [value, ofInt]

/-- The doubles next to integers are in the order of the integers. -/
theorem ofInt_mono {m n : Int} (h : m ≤ n) : ofInt m ≤ ofInt n := by
  have hnearest {a b : Nat} (hle : a ≤ b) : nearest (a * one) 1 ≤ nearest (b * one) 1 :=
    nearest_mono Nat.one_pos (Nat.mul_le_mul_right one hle)
  show (ofInt m).value ≤ (ofInt n).value
  rw [value_ofInt, value_ofInt]
  split_ifs
  · have := hnearest (show n.natAbs ≤ m.natAbs by omega)
    omega
  · omega
  · omega
  · have := hnearest (show m.natAbs ≤ n.natAbs by omega)
    omega

end GuideCheck.Double
