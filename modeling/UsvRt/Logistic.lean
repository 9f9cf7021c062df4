import Mathlib.Analysis.SpecialFunctions.Sigmoid

-- The logistic curve about its centre, met only through bounds with rational ends.
namespace Logistic
open Real

noncomputable def rise (z : ℝ) : ℝ := sigmoid z - sigmoid 0

theorem rise_zero : rise 0 = 0 := sub_self _

theorem rise_centred (z : ℝ) : rise z = sigmoid z - 1/2 := by
  unfold rise
  rw [sigmoid_zero,one_div]

theorem rise_neg (z : ℝ) : rise (-z) = -rise z := by
  rw [rise_centred,rise_centred,sigmoid_neg]
  ring

theorem rise_mono {y z : ℝ} (h : y ≤ z) : rise y ≤ rise z := sub_le_sub_right (sigmoid_le h) _

theorem rise_lt (z : ℝ) : rise z < 1/2 := by
  have top := sigmoid_lt_one z
  rw [rise_centred]
  linarith

theorem rise_fraction (z : ℝ) : rise z = (1 - exp (-z))/(2*(1 + exp (-z))) := by
  have decay := exp_pos (-z)
  rw [rise_centred,sigmoid_def]
  field_simp
  ring

-- e^z is at least 1+z, so e^-z is at most its inverse.
theorem le_rise {z : ℝ} (nonneg : 0 ≤ z) : z/(2*(2 + z)) ≤ rise z := by
  have decay := exp_pos (-z)
  have bound : exp (-z)*(1 + z) ≤ 1 := by
    have growth := mul_le_mul_of_nonneg_left (add_one_le_exp z) decay.le
    rw [← exp_add,neg_add_cancel,exp_zero] at growth
    linarith
  rw [rise_fraction,div_le_div_iff₀ (by positivity) (by positivity)]
  nlinarith

theorem rise_nonneg {z : ℝ} (nonneg : 0 ≤ z) : 0 ≤ rise z := (by positivity : 0 ≤ z/(2*(2 + z))).trans (le_rise nonneg)

theorem rise_le {z : ℝ} (nonneg : 0 ≤ z) : rise z ≤ z/2 := by
  have decay := exp_pos (-z)
  have slope := one_sub_le_exp_neg z
  rw [rise_fraction,div_le_div_iff₀ (by positivity) (by positivity)]
  nlinarith

theorem abs_rise (z : ℝ) : |rise z| = rise |z| := by
  rcases le_total 0 z with nonneg | nonpos
  · rw [abs_of_nonneg nonneg,abs_of_nonneg (rise_nonneg nonneg)]
  · have opposite := rise_nonneg (neg_nonneg.mpr nonpos)
    rw [abs_of_nonpos nonpos,← abs_neg,← rise_neg,abs_of_nonneg opposite]

end Logistic
