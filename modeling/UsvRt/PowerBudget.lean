import UsvRt.Autopilot

-- How much push and turn the scaling step of auto_cruise_pid lets through together,
-- and to which side the boat then turns.
namespace UsvRt.PowerBudget
open MachineWord Truncation Logistic Autopilot

def leftPwm (c : Cruise ℝ) : Int := 1500 + c.forwardPwm - c.steerPwm
def rightPwm (c : Cruise ℝ) : Int := 1500 + c.forwardPwm + c.steerPwm

def total (c : Cruise ℝ) : Int := c.forwardPwm + |c.steerPwm|

-- c holds what was asked, c.scale what is stored.
structure Budgeted (c : Cruise ℝ) (ek : ℝ) : Prop where
  ahead : 0 ≤ c.scale.forwardPwm
  budget : c.scale.forwardPwm + |c.scale.steerPwm| ≤ c.maxControl
  kept : total c ≤ c.maxControl → c.scale.forwardPwm = c.forwardPwm ∧ c.scale.steerPwm = c.steerPwm
  divisor : c.maxControl < total c → total c ≠ 0
  forwardShare : c.maxControl < total c → |(c.scale.forwardPwm : ℚ) - c.maxControl*c.forwardPwm/total c| < 1
  steerShare : c.maxControl < total c → |(c.scale.steerPwm : ℚ) - c.maxControl*c.steerPwm/total c| < 1
  left : 1500 - c.maxControl ≤ leftPwm c.scale ∧ leftPwm c.scale ≤ 1500 + c.maxControl
  right : 1500 - c.maxControl ≤ rightPwm c.scale ∧ rightPwm c.scale ≤ 1500 + c.maxControl
  side : rightPwm c.scale - leftPwm c.scale = 0 ∨
    SignType.sign (rightPwm c.scale - leftPwm c.scale) = SignType.sign ek

theorem scale_steer (c : Cruise ℝ) :
    c.scale.steerPwm = if c.forwardPwm + |c.steerPwm| > c.maxControl
      then scaledSteer c.maxControl c.forwardPwm c.steerPwm else c.steerPwm := by
  unfold Cruise.scale
  split <;> rfl

theorem steer_share (maxControl forwardPwm steerPwm : Int) :
    scaledSteer maxControl forwardPwm steerPwm =
      truncate ((maxControl : ℚ)*steerPwm/((forwardPwm + |steerPwm| : Int) : ℚ)) := by
  unfold scaledSteer
  rw [mul_div_assoc,Int.cast_add]

theorem forward_share (maxControl forwardPwm steerPwm : Int) :
    scaledForward maxControl forwardPwm steerPwm =
      truncate ((maxControl : ℚ)*forwardPwm/((forwardPwm + |steerPwm| : Int) : ℚ)) := by
  unfold scaledForward
  rw [Int.cast_add]

theorem scaledSteer_nonneg (maxControl forwardPwm steerPwm : Int) (control : 0 ≤ maxControl) (ahead : 0 ≤ forwardPwm)
    (leftward : 0 ≤ steerPwm) : 0 ≤ scaledSteer maxControl forwardPwm steerPwm := by
  have top : (0 : ℚ) ≤ maxControl := by exact_mod_cast control
  have turn : (0 : ℚ) ≤ steerPwm := by exact_mod_cast leftward
  have asked : (0 : ℚ) ≤ ((forwardPwm + |steerPwm| : Int) : ℚ) := by exact_mod_cast add_nonneg ahead (abs_nonneg _)
  rw [steer_share]
  exact truncate_nonneg (by positivity)

theorem scaledSteer_neg (maxControl forwardPwm steerPwm : Int) :
    scaledSteer maxControl forwardPwm (-steerPwm) = -scaledSteer maxControl forwardPwm steerPwm := by
  rw [steer_share,steer_share,abs_neg,Int.cast_neg,mul_neg,neg_div,truncate_neg]

theorem scaledSteer_nonpos (maxControl forwardPwm steerPwm : Int) (control : 0 ≤ maxControl) (ahead : 0 ≤ forwardPwm)
    (rightward : steerPwm ≤ 0) : scaledSteer maxControl forwardPwm steerPwm ≤ 0 := by
  have opposite := scaledSteer_nonneg maxControl forwardPwm (-steerPwm) control ahead (by omega)
  rw [scaledSteer_neg] at opposite
  omega

-- Both shares are cut toward zero, so together they stay below the whole.
theorem shares_within (maxControl forwardPwm steerPwm : Int) (control : 0 ≤ maxControl) (ahead : 0 ≤ forwardPwm)
    (asked : 0 < forwardPwm + |steerPwm|) :
    scaledForward maxControl forwardPwm steerPwm + |scaledSteer maxControl forwardPwm steerPwm| ≤ maxControl := by
  have whole : (0 : ℚ) < ((forwardPwm + |steerPwm| : Int) : ℚ) := by exact_mod_cast asked
  have top : (0 : ℚ) ≤ maxControl := by exact_mod_cast control
  have push : (0 : ℚ) ≤ forwardPwm := by exact_mod_cast ahead
  have forward : scaledForward maxControl forwardPwm steerPwm =
      ⌊(maxControl : ℚ)*forwardPwm/((forwardPwm + |steerPwm| : Int) : ℚ)⌋ := by
    rw [forward_share]
    exact if_pos (by positivity)
  have steer : |scaledSteer maxControl forwardPwm steerPwm| =
      ⌊(maxControl : ℚ) * |(steerPwm : ℚ)|/((forwardPwm + |steerPwm| : Int) : ℚ)⌋ := by
    rw [steer_share,abs_truncate,abs_div,abs_mul,abs_of_nonneg top,abs_of_pos whole]
  have sum : (maxControl : ℚ)*forwardPwm/((forwardPwm + |steerPwm| : Int) : ℚ) +
      maxControl * |(steerPwm : ℚ)|/((forwardPwm + |steerPwm| : Int) : ℚ) = maxControl := by
    rw [← add_div,← mul_add,← Int.cast_abs,← Int.cast_add]
    exact mul_div_cancel_right₀ _ whole.ne'
  calc scaledForward maxControl forwardPwm steerPwm + |scaledSteer maxControl forwardPwm steerPwm|
      ≤ ⌊(maxControl : ℚ)*forwardPwm/((forwardPwm + |steerPwm| : Int) : ℚ) +
          maxControl * |(steerPwm : ℚ)|/((forwardPwm + |steerPwm| : Int) : ℚ)⌋ := by
        rw [forward,steer]
        exact Int.le_floor_add _ _
    _ = maxControl := by rw [sum,Int.floor_intCast]

-- The sigmoid is odd and rises, so the turn asked has the sign of the error.
theorem steer_nonneg (gain ek : ℝ) (positive : 0 ≤ gain) (leftward : 0 ≤ ek) :
    0 ≤ sigmoidPwm realAnalysis (1/20) (gain*ek) := by
  rw [sigmoid_rise]
  exact truncate_nonneg (mul_nonneg (by norm_num) (rise_nonneg (by positivity)))

theorem steer_nonpos (gain ek : ℝ) (positive : 0 ≤ gain) (rightward : ek ≤ 0) :
    sigmoidPwm realAnalysis (1/20) (gain*ek) ≤ 0 := by
  have opposite := steer_nonneg gain (-ek) positive (by linarith)
  rw [sigmoid_rise,mul_neg,mul_neg,rise_neg,mul_neg,truncate_neg,← sigmoid_rise] at opposite
  omega

theorem scale_nonnegative (c : Cruise ℝ) (control : 0 ≤ c.maxControl) (ahead : 0 ≤ c.forwardPwm) (leftward : 0 ≤ c.steerPwm) :
    0 ≤ c.scale.steerPwm := by
  rw [scale_steer]
  split
  · exact scaledSteer_nonneg _ _ _ control ahead leftward
  · exact leftward

theorem scale_nonpositive (c : Cruise ℝ) (control : 0 ≤ c.maxControl) (ahead : 0 ≤ c.forwardPwm) (rightward : c.steerPwm ≤ 0) :
    c.scale.steerPwm ≤ 0 := by
  rw [scale_steer]
  split
  · exact scaledSteer_nonpos _ _ _ control ahead rightward
  · exact rightward

theorem scale_within (c : Cruise ℝ) (control : 0 ≤ c.maxControl) (ahead : 0 ≤ c.forwardPwm) :
    c.scale.forwardPwm + |c.scale.steerPwm| ≤ c.maxControl := by
  rw [scale_forward,scale_steer]
  split
  · rename_i beyond
    exact shares_within _ _ _ control ahead (control.trans_lt beyond)
  · rename_i within
    exact not_lt.mp within

theorem scale_ahead (c : Cruise ℝ) (control : 0 ≤ c.maxControl) (ahead : 0 ≤ c.forwardPwm) : 0 ≤ c.scale.forwardPwm := by
  rw [scale_forward]
  split
  · exact scaled_nonneg _ _ _ control ahead
  · exact ahead

-- The turn that is left has the sign of the error, or is cut to nothing.
theorem scale_turns (c : Cruise ℝ) (gain ek : ℝ) (positive : 0 ≤ gain) (control : 0 ≤ c.maxControl)
    (ahead : 0 ≤ c.forwardPwm) (steers : c.steerPwm = sigmoidPwm realAnalysis (1/20) (gain*ek)) :
    c.scale.steerPwm = 0 ∨ SignType.sign c.scale.steerPwm = SignType.sign ek := by
  have leftward : 0 ≤ ek → 0 ≤ c.scale.steerPwm :=
    fun left => scale_nonnegative c control ahead (by rw [steers]; exact steer_nonneg gain ek positive left)
  have rightward : ek ≤ 0 → c.scale.steerPwm ≤ 0 :=
    fun right => scale_nonpositive c control ahead (by rw [steers]; exact steer_nonpos gain ek positive right)
  rcases lt_trichotomy ek 0 with right | straight | left
  · rcases (rightward right.le).eq_or_lt with none | some
    · exact .inl none
    · exact .inr ((sign_neg some).trans (sign_neg right).symm)
  · exact .inl ((rightward straight.le).antisymm (leftward straight.ge))
  · rcases (leftward left.le).eq_or_lt with none | some
    · exact .inl none.symm
    · exact .inr ((sign_pos some).trans (sign_pos left).symm)

theorem scale_shares (c : Cruise ℝ) (beyond : c.maxControl < total c) :
    |(c.scale.forwardPwm : ℚ) - c.maxControl*c.forwardPwm/total c| < 1 ∧
      |(c.scale.steerPwm : ℚ) - c.maxControl*c.steerPwm/total c| < 1 := by
  have cut : c.forwardPwm + |c.steerPwm| > c.maxControl := beyond
  rw [scale_forward,if_pos cut,forward_share,scale_steer,if_pos cut,steer_share]
  exact ⟨abs_truncate_sub _,abs_truncate_sub _⟩

theorem scale_budgeted (c : Cruise ℝ) (gain ek : ℝ) (positive : 0 ≤ gain) (control : 0 ≤ c.maxControl)
    (ahead : 0 ≤ c.forwardPwm) (steers : c.steerPwm = sigmoidPwm realAnalysis (1/20) (gain*ek)) : Budgeted c ek := by
  have forward := scale_ahead c control ahead
  have within := scale_within c control ahead
  have bound := le_abs_self c.scale.steerPwm
  have opposite := neg_abs_le c.scale.steerPwm
  have twice : rightPwm c.scale - leftPwm c.scale = 2*c.scale.steerPwm := by
    unfold rightPwm leftPwm
    ring
  refine ⟨forward,within,fun fits => ?_,fun beyond => (control.trans_lt beyond).ne',fun beyond => (scale_shares c beyond).1,
    fun beyond => (scale_shares c beyond).2,?_,?_,?_⟩
  · have whole : ¬c.forwardPwm + |c.steerPwm| > c.maxControl := not_lt.mpr fits
    rw [scale_forward,scale_steer,if_neg whole,if_neg whole]
    exact ⟨rfl,rfl⟩
  · unfold leftPwm
    omega
  · unfold rightPwm
    omega
  · rw [twice]
    rcases scale_turns c gain ek positive control ahead steers with none | turned
    · exact .inl (by rw [none,mul_zero])
    · exact .inr (by rw [sign_mul,sign_pos two_pos,one_mul,turned])

theorem regulate_steers (c : Cruise ℝ) (n : Navigation ℝ) (tuned : c.Tuned) :
    (c.regulate realAnalysis n).steerPwm = sigmoidPwm realAnalysis (1/20) (1/2*bearingError n) := by
  unfold Cruise.regulate bearingError
  simp only [tuned.kp,tuned.ki,tuned.kd,zero_mul,add_zero]

-- What a call asks for before the scaling step.
noncomputable def asked (calls : List (Navigation ℝ)) (n : Navigation ℝ) : Cruise ℝ :=
  (Cruise.after realAnalysis calls).regulate realAnalysis n

theorem power_budget (c : Cruise ℝ) (ek : ℝ) (autoSpeed : Int) (ahead : 0 ≤ c.forwardPwm) (speed : 0 ≤ autoSpeed)
    (control : c.maxControl = 100*autoSpeed) (steers : c.steerPwm = sigmoidPwm realAnalysis (1/20) (1/2*ek)) :
    Budgeted c ek ∧
      ∀ (calls : List (Navigation ℝ)) (n : Navigation ℝ), 1 ≤ n.allDistance realAnalysis → 0 ≤ n.autoSpeed →
        100*n.autoSpeed < 2^31 → 0 ≤ (asked calls n).forwardPwm →
          (asked calls n).maxControl = 100*n.autoSpeed ∧ (asked calls n).ek = bearingError n ∧
            Budgeted (asked calls n) (bearingError n) ∧
            ((Cruise.after realAnalysis calls).autoCruisePid realAnalysis n).2 =
              (UInt32.ofInt (leftPwm (asked calls n).scale),UInt32.ofInt (rightPwm (asked calls n).scale)) := by
  constructor
  · exact scale_budgeted c (1/2) ek (by norm_num) (by omega) ahead steers
  · intro calls n away speed fits ahead
    have tuned := after_tuned realAnalysis calls
    have control : (asked calls n).maxControl = 100*n.autoSpeed := wrap_exact (by omega) fits
    have driven := congrArg Prod.snd (if_neg (not_lt.mpr away) :
      (Cruise.after realAnalysis calls).autoCruisePid realAnalysis n = ((asked calls n).scale,(asked calls n).scale.outputs))
    exact ⟨control,rfl,scale_budgeted _ (1/2) _ (by norm_num) (by omega) ahead (regulate_steers _ n tuned),driven⟩

-- Two metres off and square to the course.
theorem abeam_budget : 0 ≤ (asked [] (northward 90)).forwardPwm ∧
    Budgeted (asked [] (northward 90)) (bearingError (northward 90)) := by
  have tuned := after_tuned realAnalysis []
  have away := northward_away 90
  have pushes := (regulate_asks _ (northward 90) tuned away).1
  have ahead : 0 ≤ (asked [] (northward 90)).forwardPwm := by
    rw [asked,pushes]
    have bound := (push_near _ (bearingError (northward 90)) away (northward_near 90)).1
    omega
  exact ⟨ahead,(power_budget (asked [] (northward 90)) (bearingError (northward 90)) 3 ahead (by decide) rfl
    (regulate_steers _ (northward 90) tuned)).1⟩

end UsvRt.PowerBudget
