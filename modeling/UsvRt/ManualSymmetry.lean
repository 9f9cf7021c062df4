import Mathlib.Analysis.SpecialFunctions.Trigonometric.Basic
import UsvRt.Manager
import UsvRt.Truncation

-- The manual mix for a direction and its mirror image, with exact sines and cosines.
namespace UsvRt.ManualSymmetry
open MachineWord Truncation Real

noncomputable def angle (degrees : Int) : ℝ := (degrees/180 : ℚ)*π

noncomputable def exactDegrees : Libm :=
  ⟨fun speed degrees => truncate ((speed : ℝ)*cos (angle degrees)),
    fun speed degrees => truncate ((speed : ℝ)*sin (angle degrees))⟩

theorem angle_quarter (degrees : Int) : angle (degrees-90) = angle degrees - π/2 := by
  unfold angle
  push_cast
  ring

theorem angle_half (degrees : Int) : angle (degrees-180) = angle degrees - π := by
  unfold angle
  push_cast
  ring

theorem angle_mirror (degrees : Int) : angle (360-degrees) = 2*π - angle degrees := by
  unfold angle
  push_cast
  ring

theorem cos_quarter (speed degrees : Int) : exactDegrees.cosPwm speed (degrees-90) = exactDegrees.sinPwm speed degrees := by
  unfold exactDegrees
  dsimp only
  rw [angle_quarter,cos_sub_pi_div_two]

theorem sin_quarter (speed degrees : Int) : exactDegrees.sinPwm speed (degrees-90) = -exactDegrees.cosPwm speed degrees := by
  unfold exactDegrees
  dsimp only
  rw [angle_quarter,sin_sub_pi_div_two,mul_neg,truncate_neg]

theorem cos_half (speed degrees : Int) : exactDegrees.cosPwm speed (degrees-180) = -exactDegrees.cosPwm speed degrees := by
  unfold exactDegrees
  dsimp only
  rw [angle_half,cos_sub_pi,mul_neg,truncate_neg]

theorem sin_half (speed degrees : Int) : exactDegrees.sinPwm speed (degrees-180) = -exactDegrees.sinPwm speed degrees := by
  unfold exactDegrees
  dsimp only
  rw [angle_half,sin_sub_pi,mul_neg,truncate_neg]

theorem cos_mirror (speed degrees : Int) : exactDegrees.cosPwm speed (360-degrees) = exactDegrees.cosPwm speed degrees := by
  unfold exactDegrees
  dsimp only
  rw [angle_mirror,cos_two_pi_sub]

theorem sin_mirror (speed degrees : Int) : exactDegrees.sinPwm speed (360-degrees) = -exactDegrees.sinPwm speed degrees := by
  unfold exactDegrees
  dsimp only
  rw [angle_mirror,sin_two_pi_sub,mul_neg,truncate_neg]

-- Astern is the half circle that begins at 90 degrees and ends before 270.
def Astern (controlVal : Int) : Prop := 90 ≤ controlVal ∧ controlVal < 270

instance (controlVal : Int) : Decidable (Astern controlVal) := inferInstanceAs (Decidable (_ ∧ _))

noncomputable def sideways (speed controlVal : Int) : Int :=
  if Astern controlVal then exactDegrees.sinPwm speed controlVal else -exactDegrees.sinPwm speed controlVal

-- The four formulas are one: ahead by the cosine, sideways by the sine, whose sign
-- changes between the half circles.
theorem manualMix_exact (speed controlVal : Int) (low : 0 ≤ controlVal) :
    manualMix exactDegrees controlVal speed = (exactDegrees.cosPwm speed controlVal,sideways speed controlVal) := by
  unfold manualMix sideways
  rw [if_neg (by omega)]
  split
  · have ahead : ¬ Astern controlVal := fun astern => by have border := astern.1; omega
    rw [if_neg ahead,neg_one_mul]
  · split
    · have astern : Astern controlVal := ⟨by omega,by omega⟩
      rw [if_pos astern,sin_quarter,cos_quarter,neg_one_mul,neg_neg]
    · split
      · have astern : Astern controlVal := ⟨by omega,by omega⟩
        rw [if_pos astern,cos_half,sin_half,neg_one_mul,neg_neg,neg_one_mul,neg_neg]
      · have ahead : ¬ Astern controlVal := fun astern => by have border := astern.2; omega
        have three : controlVal-270 = controlVal-180-90 := by omega
        rw [if_neg ahead,three,sin_quarter,cos_quarter,cos_half,sin_half,neg_neg]

-- Off the two borders the mirror image lies in the same half circle.
theorem sideways_mirror (speed controlVal : Int) (before : controlVal ≠ 90) (behind : controlVal ≠ 270) :
    sideways speed (360-controlVal) = -sideways speed controlVal := by
  unfold sideways
  rw [sin_mirror]
  by_cases astern : Astern controlVal
  · have same : Astern (360-controlVal) := by
      unfold Astern at *
      omega
    rw [if_pos same,if_pos astern]
  · have same : ¬ Astern (360-controlVal) := by
      unfold Astern at *
      omega
    rw [if_neg same,if_neg astern]

-- On the borders it does not, and both turn to the same side at full speed.
theorem sideways_border (speed : Int) : sideways speed 90 = speed ∧ sideways speed 270 = speed := by
  have full : exactDegrees.cosPwm speed 0 = speed := by
    unfold exactDegrees angle
    simp [truncate_intCast]
  have right := cos_quarter speed 90
  have left := sin_mirror speed 90
  rw [sub_self,full] at right
  rw [← right] at left
  unfold sideways
  rw [if_pos (by decide),if_neg (by decide)]
  refine ⟨right.symm,?_⟩
  change -exactDegrees.sinPwm speed (360-90) = speed
  rw [left,neg_neg]

theorem ahead_border (speed : Int) : exactDegrees.cosPwm speed 90 = 0 ∧ exactDegrees.cosPwm speed 270 = 0 := by
  have none : exactDegrees.sinPwm speed 0 = 0 := by
    unfold exactDegrees angle
    simp [truncate_zero]
  have quarter := sin_quarter speed 90
  rw [sub_self,none] at quarter
  have mirror := cos_mirror speed 90
  refine ⟨by omega,?_⟩
  change exactDegrees.cosPwm speed (360-90) = 0
  omega

def handPwm (g : Control) : Int := wrap (100*g.handSpeed)

theorem manual_pwm (d : Drive) (g : Control) (controlVal : Int) (low : 0 ≤ controlVal) :
    (d.manual exactDegrees {g with controlVal:=controlVal}).leftPwm =
        UInt32.ofInt (1500+exactDegrees.cosPwm (handPwm g) controlVal+sideways (handPwm g) controlVal) ∧
      (d.manual exactDegrees {g with controlVal:=controlVal}).rightPwm =
        UInt32.ofInt (1500+exactDegrees.cosPwm (handPwm g) controlVal-sideways (handPwm g) controlVal) := by
  unfold Drive.manual
  dsimp only
  rw [manualMix_exact _ controlVal low]
  exact ⟨rfl,rfl⟩

def Mirrored (d : Drive) (g : Control) (controlVal : Int) : Prop :=
  (d.manual exactDegrees {g with controlVal:=360-controlVal}).leftPwm =
      (d.manual exactDegrees {g with controlVal:=controlVal}).rightPwm ∧
    (d.manual exactDegrees {g with controlVal:=360-controlVal}).rightPwm =
      (d.manual exactDegrees {g with controlVal:=controlVal}).leftPwm

theorem ofInt_congruent (left right : Int) : UInt32.ofInt left = UInt32.ofInt right ↔ left % 2^32 = right % 2^32 := by
  have first := ofInt_toNat left
  have second := ofInt_toNat right
  rw [← UInt32.toNat_inj]
  omega

-- Turning to one side and to the other is the same turn unless it is none at all.
theorem turn_mirrored (g : Control) :
    UInt32.ofInt (1500+0+handPwm g) = UInt32.ofInt (1500+0-handPwm g) ↔ g.handSpeed % 2^29 = 0 := by
  have coprime : IsCoprime (2^29 : Int) 25 := Int.isCoprime_iff_gcd_eq_one.mpr rfl
  have wrapped : handPwm g % 2^32 = 100*g.handSpeed % 2^32 := wrap_congruent (100*g.handSpeed)
  have twice : 8*(25*g.handSpeed) = 100*g.handSpeed+100*g.handSpeed := by omega
  have apart : 1500+0+handPwm g-(1500+0-handPwm g) = handPwm g+handPwm g := by omega
  rw [ofInt_congruent,← word_turns coprime,Int.emod_eq_emod_iff_emod_sub_eq_zero,apart,twice,Int.add_emod,wrapped,← Int.add_emod]

theorem border_mirrored (d : Drive) (g : Control) (border : controlVal = 90 ∨ controlVal = 270) :
    Mirrored d g controlVal ↔ g.handSpeed % 2^29 = 0 := by
  obtain ⟨right,left⟩ := sideways_border (handPwm g)
  obtain ⟨before,behind⟩ := ahead_border (handPwm g)
  obtain ⟨rightLeft,rightRight⟩ := manual_pwm d g 90 (by decide)
  obtain ⟨leftLeft,leftRight⟩ := manual_pwm d g 270 (by decide)
  rw [before,right] at rightLeft rightRight
  rw [behind,left] at leftLeft leftRight
  rw [← turn_mirrored]
  rcases border with rfl | rfl
  · unfold Mirrored
    change (d.manual exactDegrees {g with controlVal:=270}).leftPwm = _ ∧ (d.manual exactDegrees {g with controlVal:=270}).rightPwm = _ ↔ _
    rw [rightLeft,rightRight,leftLeft,leftRight]
    exact ⟨fun both => both.1,fun same => ⟨same,same.symm⟩⟩
  · unfold Mirrored
    change (d.manual exactDegrees {g with controlVal:=90}).leftPwm = _ ∧ (d.manual exactDegrees {g with controlVal:=90}).rightPwm = _ ↔ _
    rw [rightLeft,rightRight,leftLeft,leftRight]
    exact ⟨fun both => both.1,fun same => ⟨same,same.symm⟩⟩

theorem inner_mirrored (d : Drive) (g : Control) (low : 1 ≤ controlVal) (high : controlVal ≤ 359)
    (before : controlVal ≠ 90) (behind : controlVal ≠ 270) : Mirrored d g controlVal := by
  obtain ⟨left,right⟩ := manual_pwm d g controlVal (by omega)
  obtain ⟨mirrorLeft,mirrorRight⟩ := manual_pwm d g (360-controlVal) (by omega)
  rw [cos_mirror,sideways_mirror _ _ before behind] at mirrorLeft mirrorRight
  unfold Mirrored
  rw [left,right,mirrorLeft,mirrorRight]
  exact ⟨rfl,by rw [sub_neg_eq_add]⟩

theorem mirror_exact (d : Drive) (g : Control) (controlVal : Int) (low : 1 ≤ controlVal) (high : controlVal ≤ 359) :
    Mirrored d g controlVal ↔ (controlVal ≠ 90 ∧ controlVal ≠ 270) ∨ g.handSpeed % 2^29 = 0 := by
  by_cases border : controlVal = 90 ∨ controlVal = 270
  · rw [border_mirrored d g border]
    exact ⟨.inr,fun either => either.resolve_left (by omega)⟩
  · have apart : controlVal ≠ 90 ∧ controlVal ≠ 270 := by omega
    exact iff_of_true (inner_mirrored d g low high apart.1 apart.2) (.inl apart)

theorem oblique_mirrored : Mirrored .boot .boot 45 := (mirror_exact .boot .boot 45 (by decide) (by decide)).mpr (.inl (by decide))

-- At speed 3 both pure turns ask for 1800 on the left and 1200 on the right.
theorem turns_alike :
    (Drive.boot.manual exactDegrees {Control.boot with controlVal:=90}).leftPwm = 1800 ∧
      (Drive.boot.manual exactDegrees {Control.boot with controlVal:=90}).rightPwm = 1200 ∧
      (Drive.boot.manual exactDegrees {Control.boot with controlVal:=270}).leftPwm = 1800 ∧
      (Drive.boot.manual exactDegrees {Control.boot with controlVal:=270}).rightPwm = 1200 ∧
      ¬ Mirrored .boot .boot 90 := by
  have speed : handPwm .boot = 300 := by decide
  obtain ⟨right,left⟩ := sideways_border 300
  obtain ⟨before,behind⟩ := ahead_border 300
  obtain ⟨rightLeft,rightRight⟩ := manual_pwm .boot .boot 90 (by decide)
  obtain ⟨leftLeft,leftRight⟩ := manual_pwm .boot .boot 270 (by decide)
  rw [speed,before,right] at rightLeft rightRight
  rw [speed,behind,left] at leftLeft leftRight
  refine ⟨rightLeft,rightRight,leftLeft,leftRight,?_⟩
  rw [border_mirrored .boot .boot (.inl rfl)]
  decide

end UsvRt.ManualSymmetry
