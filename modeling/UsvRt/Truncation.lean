import Mathlib.Algebra.Order.Floor.Ring
import Mathlib.Algebra.Order.Floor.Semiring
import Mathlib.Data.Rat.Floor
import Mathlib.Tactic.Linarith

-- The cast of a number to an integer, which drops its fraction toward zero.
namespace Truncation
variable {K : Type} [Field K] [LinearOrder K] [FloorRing K]

def truncate (x : K) : Int := if 0 ≤ x then ⌊x⌋ else ⌈x⌉

theorem truncate_nonneg {x : K} (nonneg : 0 ≤ x) : 0 ≤ truncate x := by
  unfold truncate
  rw [if_pos nonneg]
  exact Int.floor_nonneg.mpr nonneg

variable [IsStrictOrderedRing K]

theorem truncate_neg (x : K) : truncate (-x) = -truncate x := by
  unfold truncate
  rcases lt_trichotomy x 0 with negative | rfl | positive
  · rw [if_pos (neg_nonneg.mpr negative.le),if_neg (not_le.mpr negative),Int.floor_neg]
  · simp
  · rw [if_neg (not_le.mpr (neg_neg_of_pos positive)),if_pos positive.le,Int.ceil_neg]

theorem truncate_nonpos {x : K} (nonpos : x ≤ 0) : truncate x ≤ 0 := by
  have opposite := truncate_nonneg (neg_nonneg.mpr nonpos)
  rw [truncate_neg] at opposite
  omega

theorem truncate_intCast (n : Int) : truncate (n : K) = n := by
  unfold truncate
  split
  · exact Int.floor_intCast n
  · exact Int.ceil_intCast n

theorem truncate_zero : truncate (0 : K) = 0 := by
  unfold truncate
  simp

-- The modulus of the result is the integer part of the modulus.
theorem abs_truncate (x : K) : |truncate x| = ⌊|x|⌋ := by
  rcases le_total 0 x with nonneg | nonpos
  · rw [abs_of_nonneg (truncate_nonneg nonneg),abs_of_nonneg nonneg]
    exact if_pos nonneg
  · rw [abs_of_nonpos (truncate_nonpos nonpos),abs_of_nonpos nonpos,← truncate_neg]
    exact if_pos (neg_nonneg.mpr nonpos)

-- The cast is off by less than one.
theorem abs_truncate_sub (x : K) : |truncate x - x| < 1 := by
  unfold truncate
  rw [abs_lt]
  split
  · have low := Int.floor_le x
    have high := Int.lt_floor_add_one x
    constructor <;> linarith
  · have low := Int.le_ceil x
    have high := Int.ceil_lt_add_one x
    constructor <;> linarith

theorem le_natAbs_truncate (n : Nat) (x : K) : n ≤ (truncate x).natAbs ↔ (n : K) ≤ |x| := by
  have modulus := abs_truncate x
  rw [Int.abs_eq_natAbs] at modulus
  rw [← Int.cast_natCast,← Int.le_floor,← modulus,Int.ofNat_le]

theorem truncate_eq_zero (x : K) : truncate x = 0 ↔ |x| < 1 := by
  have bound := le_natAbs_truncate 1 x
  rw [Nat.cast_one] at bound
  rw [← not_le,← bound]
  omega

theorem truncate_pos {x : K} (large : 1 ≤ x) : 0 < truncate x := by
  have positive := zero_lt_one.trans_le large
  refine lt_of_le_of_ne (truncate_nonneg positive.le) (fun zero => ?_)
  have small := (truncate_eq_zero x).mp zero.symm
  rw [abs_of_pos positive] at small
  exact not_le.mpr small large

end Truncation
