import Mathlib.Analysis.Calculus.Deriv.MeanValue
import Mathlib.Analysis.SpecialFunctions.Trigonometric.Arctan
import Mathlib.Analysis.SpecialFunctions.Trigonometric.ArctanDeriv
import Mathlib.Analysis.Real.Pi.Irrational

-- The tangent at rational angles, through the angle in its middle branch.
namespace Tangent
open Real

noncomputable def phase (x : ℝ) : ℝ := x - round (x/π)*π

theorem tan_phase (x : ℝ) : tan (phase x) = tan x := tan_sub_int_mul_pi x _

-- A rational angle is never a pole.
theorem rational_regular (x : ℚ) (n : Int) : (x : ℝ) ≠ (n + 1/2)*π := by
  intro pole
  have half : (n : ℝ) + 1/2 ≠ 0 := by
    intro zero
    have twice : ((2*n + 1 : Int) : ℝ) = 0 := by
      push_cast
      linarith
    have odd : 2*n + 1 = 0 := by exact_mod_cast twice
    omega
  refine irrational_pi ⟨x/(n + 1/2),?_⟩
  push_cast
  rw [pole,mul_div_cancel_left₀ _ half]

theorem phase_inside (x : ℚ) : phase x ∈ Set.Ioo (-(π/2)) (π/2) := by
  have circle := pi_pos
  have near := abs_sub_round ((x : ℝ)/π)
  have off : phase x = ((x : ℝ)/π - round ((x : ℝ)/π))*π := by
    unfold phase
    field_simp
  have bound : |phase x| ≤ π/2 := by
    rw [off,abs_mul,abs_of_pos circle]
    linarith [mul_le_mul_of_nonneg_right near circle.le]
  obtain ⟨low,high⟩ := abs_le.mp bound
  constructor
  · refine low.lt_of_ne (fun edge => rational_regular x (round ((x : ℝ)/π) - 1) ?_)
    unfold phase at edge
    push_cast
    linarith
  · refine high.lt_of_ne (fun edge => rational_regular x (round ((x : ℝ)/π)) ?_)
    unfold phase at edge
    linarith

theorem tan_le_tan (x y : ℚ) : tan x ≤ tan y ↔ phase x ≤ phase y := by
  rw [← tan_phase x,← tan_phase y]
  exact strictMonoOn_tan.le_iff_le (phase_inside x) (phase_inside y)

theorem arctan_tan_phase (x : ℚ) : arctan (tan x) = phase x := by
  rw [← tan_phase]
  exact arctan_tan (phase_inside x).1 (phase_inside x).2

-- The slope of the arcus tangent is at most one.
theorem arctan_gap {s t : ℝ} (below : s ≤ t) : arctan t - arctan s ≤ t - s := by
  have flat : ∀ x, deriv arctan x ≤ 1 := by
    intro x
    rw [Real.deriv_arctan]
    exact (div_le_one₀ (by positivity)).mpr (by linarith [sq_nonneg x])
  have gap := image_sub_le_mul_sub_of_deriv_le Real.differentiable_arctan flat below
  rwa [one_mul] at gap

theorem phase_branch (x : ℝ) (n : Int) (low : (n - 1/2)*π < x) (high : x < (n + 1/2)*π) : phase x = x - n*π := by
  have circle := pi_pos
  have nearest : round (x/π) = n := by
    rw [round_eq,Int.floor_eq_iff]
    constructor
    · rw [← sub_le_iff_le_add,le_div_iff₀ circle]
      exact low.le
    · have above : x/π < n + 1/2 := (div_lt_iff₀ circle).mpr high
      linarith
  unfold phase
  rw [nearest]

end Tangent
