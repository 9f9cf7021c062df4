import Mathlib.Analysis.SpecialFunctions.Complex.Arg
import Mathlib.Analysis.Real.Pi.Bounds
import UsvRt.Logistic
import UsvRt.HeadingError

-- Whether the autopilot ever drives the boat away from its waypoint, with the exact
-- functions of real analysis in place of math.h.
namespace UsvRt.Autopilot
open Runs MachineWord Truncation Logistic HeadingError

noncomputable def realAnalysis : Analysis ℝ :=
  ⟨Real.sin,Real.cos,Real.exp,Real.arcsin,Real.sqrt,fun y x => Complex.arg ⟨x,y⟩⟩

noncomputable def bearingError (n : Navigation ℝ) : ℝ := headingError (convertTheta (n.targeTheta realAnalysis)) n.currentTheta

structure Advances (next : Cruise ℝ) : Prop where
  forward : 0 ≤ next.forwardPwm
  onTheSpot : 90 < |next.ek| → next.forwardPwm = 0

noncomputable def radians (degrees : ℝ) : ℝ := degrees*pi2degree

-- What the distance and the error ask for before max_control bounds it.
noncomputable def push (distance ek : ℝ) : Int :=
  if distance ≤ (11/2 : ℚ) then ⌊(35 : ℚ)*distance⌋
  else if 91 ≤ |ek| then 0
  else truncate ((1000 : ℚ)*rise ((2/5 : ℚ)*(min distance (10 : ℚ)*Real.cos (radians ek))))

noncomputable def turn (ek : ℝ) : Int := ⌊(1000 : ℚ)*rise (|ek|/40)⌋

-- max_control lets a push through only as far as it outweighs what the scaling cuts off.
def Restrained (distance ek : ℝ) (maxControl : Int) : Prop :=
  (|ek| ≤ 90 ∧ 0 ≤ maxControl) ∨ |maxControl| * |push distance ek| < push distance ek + turn ek

-- The same without int overflow, by kinds of input.
inductive Clear (distance ek : ℝ) (autoSpeed : Int) : Prop where
  | ahead (narrow : |ek| ≤ 90)
  | still (halted : autoSpeed = 0)
  | spot (far : 11/2 < distance) (wide : 91 ≤ |ek|)
  | slight (far : 11/2 < distance) (small : 100*autoSpeed * |push distance ek| < push distance ek + turn ek)

theorem scaled_zero (maxControl forwardPwm steerPwm : Int) (asked : 0 < forwardPwm + |steerPwm|) :
    scaledForward maxControl forwardPwm steerPwm = 0 ↔ |maxControl| * |forwardPwm| < forwardPwm + |steerPwm| := by
  have total : (0 : ℚ) < (forwardPwm : ℚ) + ((|steerPwm| : Int) : ℚ) := by exact_mod_cast asked
  unfold scaledForward
  rw [truncate_eq_zero,abs_div,abs_of_pos total,div_lt_one total,abs_mul]
  exact_mod_cast Iff.rfl

theorem scaled_nonneg (maxControl forwardPwm steerPwm : Int) (control : 0 ≤ maxControl) (ahead : 0 ≤ forwardPwm) :
    0 ≤ scaledForward maxControl forwardPwm steerPwm := by
  have top : (0 : ℚ) ≤ maxControl := by exact_mod_cast control
  have push : (0 : ℚ) ≤ forwardPwm := by exact_mod_cast ahead
  exact truncate_nonneg (by positivity)

theorem scaled_nonpos (maxControl forwardPwm steerPwm : Int) (control : maxControl ≤ 0) (ahead : 0 ≤ forwardPwm) :
    scaledForward maxControl forwardPwm steerPwm ≤ 0 := by
  have top : (maxControl : ℚ) ≤ 0 := by exact_mod_cast control
  have push : (0 : ℚ) ≤ forwardPwm := by exact_mod_cast ahead
  exact truncate_nonpos (div_nonpos_of_nonpos_of_nonneg (mul_nonpos_of_nonpos_of_nonneg top push) (by positivity))

theorem scale_forward (c : Cruise ℝ) :
    c.scale.forwardPwm = if c.forwardPwm + |c.steerPwm| > c.maxControl
      then scaledForward c.maxControl c.forwardPwm c.steerPwm else c.forwardPwm := by
  unfold Cruise.scale
  split <;> rfl

-- The bound leaves nothing of the push exactly when the scaled push is less than one.
theorem scale_zero (c : Cruise ℝ) (asked : 0 < c.forwardPwm + |c.steerPwm|) :
    c.scale.forwardPwm = 0 ↔ |c.maxControl| * |c.forwardPwm| < c.forwardPwm + |c.steerPwm| := by
  rw [scale_forward]
  split
  · exact scaled_zero _ _ _ asked
  · rename_i within
    have room : c.forwardPwm + |c.steerPwm| ≤ |c.maxControl| := (not_lt.mp within).trans (le_abs_self _)
    constructor
    · intro none
      rw [none] at asked
      rwa [none,abs_zero,mul_zero]
    · intro small
      by_contra some
      have grown := mul_le_mul_of_nonneg_left (Int.one_le_abs some) (abs_nonneg c.maxControl)
      omega

theorem scale_nonneg (c : Cruise ℝ) (asked : 0 < c.forwardPwm + |c.steerPwm|) (ahead : 0 ≤ c.forwardPwm) :
    0 ≤ c.scale.forwardPwm ↔ 0 ≤ c.maxControl ∨ |c.maxControl| * |c.forwardPwm| < c.forwardPwm + |c.steerPwm| := by
  rw [← scale_zero c asked]
  rcases le_or_gt 0 c.maxControl with control | control
  · refine ⟨fun _ => .inl control,fun _ => ?_⟩
    rw [scale_forward]
    split
    · exact scaled_nonneg _ _ _ control ahead
    · exact ahead
  · have bound : c.scale.forwardPwm ≤ 0 := by
      rw [scale_forward,if_pos (control.trans asked)]
      exact scaled_nonpos _ _ _ control.le ahead
    omega

-- The sigmoid of auto_cruise_pid is the logistic curve about its centre.
theorem sigmoid_rise (slope value : ℝ) : sigmoidPwm realAnalysis slope value = truncate (1000*rise (slope*value)) := by
  unfold sigmoidPwm
  rw [rise_centred,Real.sigmoid_def,← one_div,neg_mul,mul_comm]
  rfl

-- The 90 degree test sees whole degrees: it is the test for 91.
theorem spot_tests (ek : ℝ) : (truncate ek).natAbs > 90 ↔ 91 ≤ |ek| := by
  simpa [Nat.succ_le_iff] using le_natAbs_truncate (Nat.succ 90) ek

theorem capped (distance : ℝ) : (if distance ≥ 10 then 10 else distance) = min distance 10 := by
  rw [min_comm,min_def]

theorem push_formula (distance ek : ℝ) : push distance ek =
    if distance ≤ 11/2 then ⌊35*distance⌋
    else if 91 ≤ |ek| then 0
    else truncate (1000*rise (2/5*(min distance 10*Real.cos (radians ek)))) := by
  unfold push
  push_cast
  rfl

theorem turn_formula (ek : ℝ) : turn ek = ⌊1000*rise (|ek|/40)⌋ := by
  unfold turn
  push_cast
  rfl

theorem push_asked (distance ek : ℝ) (away : 1 ≤ distance) :
    forwardOf realAnalysis distance (shapeDistance realAnalysis distance ek) = push distance ek := by
  rw [push_formula]
  unfold forwardOf
  split
  · rw [mul_comm]
    exact if_pos (by linarith)
  · rw [sigmoid_rise]
    unfold shapeDistance radians pi2degree
    simp only [spot_tests,capped,mul_div_assoc]
    split
    · rw [mul_zero,rise_zero,mul_zero,truncate_zero]
    · rfl

theorem turn_asked (ek : ℝ) : |sigmoidPwm realAnalysis (1/20) (1/2*ek)| = turn ek := by
  have angle : |1/20*(1/2*ek)| = |ek|/40 := by
    rw [← mul_assoc,abs_mul]
    norm_num
    ring
  rw [sigmoid_rise,abs_truncate,abs_mul,abs_rise,angle,abs_of_pos (by norm_num : (0 : ℝ) < 1000),turn_formula]

theorem abs_radians (degrees : ℝ) : |radians degrees| = radians |degrees| := by
  unfold radians pi2degree
  rw [abs_mul]
  norm_num

-- The rounded constant falls short of pi, so 90 degrees stay within the quarter turn.
theorem cosine_nonneg (ek : ℝ) (ahead : |ek| ≤ 90) : 0 ≤ Real.cos (radians ek) := by
  have circle := Real.pi_gt_d20
  obtain ⟨left,right⟩ := abs_le.mp ahead
  unfold radians pi2degree
  exact Real.cos_nonneg_of_neg_pi_div_two_le_of_le (by linarith) (by linarith)

theorem cosine_wide (ek : ℝ) (ahead : |ek| ≤ 45) : 1/2 ≤ Real.cos (radians ek) := by
  have bound := Real.one_sub_sq_div_two_le_cos (x:=radians ek)
  have angle : |radians ek| ≤ 1 := by
    rw [abs_radians]
    unfold radians pi2degree
    linarith
  have square := (sq_le_one_iff_abs_le_one _).mpr angle
  linarith

-- Within a degree of the quarter turn the cosine is next to nothing.
theorem cosine_small (ek : ℝ) (low : 90 < |ek|) (high : |ek| < 91) : |Real.cos (radians ek)| ≤ 1/50 := by
  have above := Real.pi_gt_d20
  have below := Real.pi_lt_d20
  rw [← Real.cos_abs,abs_radians,← Real.sin_pi_div_two_sub]
  refine Real.abs_sin_le_abs.trans (abs_le.mpr ?_)
  unfold radians pi2degree
  constructor <;> linarith

theorem turn_nonneg (ek : ℝ) : 0 ≤ turn ek := by
  have rising := rise_nonneg (z:=|ek|/40) (by positivity)
  exact Int.floor_nonneg.mpr (by positivity)

theorem turn_below (ek : ℝ) : turn ek < 500 := by
  have bound := rise_lt (|ek|/40)
  exact Int.floor_lt.mpr (by push_cast; linarith)

-- A rise past its value at a rational point, floored.
theorem turn_past (ek : ℝ) (least : Int) (z : ℝ) (positive : 0 ≤ z) (past : z ≤ |ek|/40)
    (enough : (least : ℝ) ≤ 1000*(z/(2*(2 + z)))) : least ≤ turn ek := by
  have point := le_rise positive
  have rising := rise_mono past
  exact Int.le_floor.mpr (by linarith)

theorem turn_wide (ek : ℝ) (wide : 90 ≤ |ek|) : 264 ≤ turn ek :=
  turn_past ek 264 (9/4) (by norm_num) (by linarith) (by norm_num)

theorem turn_aside (ek : ℝ) (aside : 45 ≤ |ek|) : 0 < turn ek :=
  turn_past ek 1 (9/8) (by norm_num) (by linarith) (by norm_num)

-- Near the waypoint the error is not asked.
theorem push_near (distance ek : ℝ) (away : 1 ≤ distance) (near : distance ≤ 11/2) :
    35 ≤ push distance ek ∧ push distance ek ≤ 192 := by
  rw [push_formula,if_pos near]
  constructor
  · exact Int.le_floor.mpr (by push_cast; linarith)
  · exact Int.lt_add_one_iff.mp (Int.floor_lt.mpr (by push_cast; linarith))

theorem push_spot (distance ek : ℝ) (far : 11/2 < distance) (wide : 91 ≤ |ek|) : push distance ek = 0 := by
  rw [push_formula,if_neg (not_le.mpr far),if_pos wide]

theorem push_far (distance ek : ℝ) (far : 11/2 < distance) (ahead : |ek| < 91) :
    push distance ek = truncate (1000*rise (2/5*(min distance 10*Real.cos (radians ek)))) := by
  rw [push_formula,if_neg (not_le.mpr far),if_neg (not_le.mpr ahead)]

theorem push_nonneg (distance ek : ℝ) (away : 1 ≤ distance) (ahead : |ek| ≤ 90) : 0 ≤ push distance ek := by
  rcases le_or_gt distance (11/2) with near | far
  · have bound := (push_near distance ek away near).1
    omega
  · have cosine := cosine_nonneg ek ahead
    have reach : 0 ≤ min distance 10 := le_min (by linarith) (by norm_num)
    rw [push_far distance ek far (by linarith)]
    exact truncate_nonneg (mul_nonneg (by norm_num) (rise_nonneg (by positivity)))

theorem push_ahead (distance ek : ℝ) (far : 11/2 < distance) (ahead : |ek| ≤ 45) : 0 < push distance ek := by
  have cosine := cosine_wide ek ahead
  have reach : 11/2 ≤ min distance 10 := le_min far.le (by norm_num)
  have point : 1 ≤ 2/5*(min distance 10*Real.cos (radians ek)) := by nlinarith
  have rising := (le_rise zero_le_one).trans (rise_mono point)
  rw [push_far distance ek far (by linarith)]
  exact truncate_pos (by linarith)

-- In the last degree before the cut the push may even be astern, but not by much.
theorem push_band (distance ek : ℝ) (far : 11/2 < distance) (low : 90 < |ek|) (high : |ek| < 91) :
    |push distance ek| ≤ 40 := by
  have cosine := cosine_small ek low high
  have reach : 0 ≤ min distance 10 := le_min (by linarith) (by norm_num)
  have point : |2/5*(min distance 10*Real.cos (radians ek))| ≤ 2/25 := by
    rw [abs_mul,abs_mul,abs_of_nonneg reach,abs_of_pos (by norm_num : (0 : ℝ) < 2/5)]
    have product := mul_le_mul (min_le_right distance 10) cosine (abs_nonneg _) (by norm_num)
    linarith
  have rising := rise_le (abs_nonneg (2/5*(min distance 10*Real.cos (radians ek))))
  rw [push_far distance ek far high,abs_truncate,abs_mul,abs_rise,abs_of_pos (by norm_num : (0 : ℝ) < 1000)]
  exact Int.lt_add_one_iff.mp (Int.floor_lt.mpr (by push_cast; linarith))

theorem asked_positive (distance ek : ℝ) (away : 1 ≤ distance) : 0 < push distance ek + turn ek := by
  have turning := turn_nonneg ek
  rcases le_or_gt distance (11/2) with near | far
  · have bound := (push_near distance ek away near).1
    omega
  rcases le_or_gt |ek| 45 with ahead | aside
  · have pushing := push_ahead distance ek far ahead
    omega
  rcases le_or_gt |ek| 90 with ahead | wide
  · have pushing := push_nonneg distance ek away ahead
    have turns := turn_aside ek aside.le
    omega
  have turns := turn_wide ek wide.le
  rcases le_or_gt 91 |ek| with spot | band
  · rw [push_spot distance ek far spot]
    omega
  · have small := abs_le.mp (push_band distance ek far wide band)
    omega

theorem regulate_asks (c : Cruise ℝ) (n : Navigation ℝ) (tuned : c.Tuned) (away : 1 ≤ n.allDistance realAnalysis) :
    (c.regulate realAnalysis n).forwardPwm = push (n.allDistance realAnalysis) (bearingError n) ∧
      |(c.regulate realAnalysis n).steerPwm| = turn (bearingError n) ∧
      (c.regulate realAnalysis n).maxControl = wrap (100*n.autoSpeed) := by
  have steers : (c.regulate realAnalysis n).steerPwm = sigmoidPwm realAnalysis (1/20) (1/2*bearingError n) := by
    unfold Cruise.regulate bearingError
    simp only [tuned.kp,tuned.ki,tuned.kd,zero_mul,add_zero]
  rw [steers,turn_asked]
  exact ⟨push_asked _ _ away,rfl,rfl⟩

theorem advances_restrained (c : Cruise ℝ) (n : Navigation ℝ) (tuned : c.Tuned) (away : 1 ≤ n.allDistance realAnalysis) :
    Advances (c.called realAnalysis n) ↔
      Restrained (n.allDistance realAnalysis) (bearingError n) (wrap (100*n.autoSpeed)) := by
  obtain ⟨pushes,turns,control⟩ := regulate_asks c n tuned away
  have asked := asked_positive _ (bearingError n) away
  have error : (c.called realAnalysis n).ek = bearingError n := (regulated realAnalysis c n away).2
  have next := called_away realAnalysis c n away
  have zero := scale_zero (c.regulate realAnalysis n) (by rwa [pushes,turns])
  rw [pushes,turns,control,← next] at zero
  unfold Restrained
  rcases le_or_gt |bearingError n| 90 with ahead | wide
  · have nonneg := scale_nonneg (c.regulate realAnalysis n) (by rwa [pushes,turns])
      (by rw [pushes]; exact push_nonneg _ _ away ahead)
    rw [pushes,turns,control,← next] at nonneg
    constructor
    · intro advances
      exact (nonneg.mp advances.forward).imp_left (fun control => ⟨ahead,control⟩)
    · intro restrained
      refine ⟨nonneg.mpr (restrained.imp_left And.right),fun wide => ?_⟩
      rw [error] at wide
      exact absurd ahead (not_le.mpr wide)
  · constructor
    · intro advances
      exact .inr (zero.mp (advances.onTheSpot (by rwa [error])))
    · rintro (⟨ahead,_⟩ | small)
      · exact absurd ahead (not_le.mpr wide)
      · have none := zero.mpr small
        exact ⟨none.ge,fun _ => none⟩

-- Near the waypoint even the lowest speed leaves some of the push.
theorem near_outweighs (distance ek : ℝ) (away : 1 ≤ distance) (near : distance ≤ 11/2) (speed : 1 ≤ autoSpeed) :
    push distance ek + turn ek ≤ 100*autoSpeed * |push distance ek| := by
  obtain ⟨low,high⟩ := push_near distance ek away near
  have turns := turn_below ek
  rw [abs_of_nonneg (by omega)]
  nlinarith

theorem restrained_clear (distance ek : ℝ) (autoSpeed : Int) (away : 1 ≤ distance) (speed : 0 ≤ autoSpeed) :
    Restrained distance ek (100*autoSpeed) ↔ Clear distance ek autoSpeed := by
  have control : 0 ≤ 100*autoSpeed := by omega
  have asked := asked_positive distance ek away
  unfold Restrained
  rw [abs_of_nonneg control]
  constructor
  · rintro (⟨ahead,_⟩ | small)
    · exact .ahead ahead
    · rcases speed.eq_or_lt with still | moving
      · exact .still still.symm
      · have far : 11/2 < distance := by
          by_contra near
          have outweighs := near_outweighs distance ek away (not_lt.mp near) moving
          omega
        exact .slight far small
  · intro clear
    cases clear with
    | ahead narrow => exact .inl ⟨narrow,control⟩
    | slight far small => exact .inr small
    | still halted =>
      refine .inr ?_
      rwa [halted,mul_zero,zero_mul]
    | spot far wide =>
      have none := push_spot distance ek far wide
      rw [none] at asked
      refine .inr ?_
      rwa [none,abs_zero,mul_zero]

theorem advance_exact (calls : List (Navigation ℝ)) (n : Navigation ℝ) (away : 1 ≤ n.allDistance realAnalysis)
    (speed : 0 ≤ n.autoSpeed) :
    (Advances ((Cruise.after realAnalysis calls).called realAnalysis n) ↔
        Restrained (n.allDistance realAnalysis) (bearingError n) (wrap (100*n.autoSpeed))) ∧
      (100*n.autoSpeed < 2^31 →
        (Advances ((Cruise.after realAnalysis calls).called realAnalysis n) ↔
          Clear (n.allDistance realAnalysis) (bearingError n) n.autoSpeed)) := by
  have exactly := advances_restrained _ n (after_tuned realAnalysis calls) away
  refine ⟨exactly,fun fits => ?_⟩
  rw [exactly,wrap_exact (by omega) fits]
  exact restrained_clear _ _ _ away speed

-- A waypoint some two metres to the north, with the boat at a given heading.
noncomputable def northward (currentTheta : ℝ) : Navigation ℝ := ⟨120,30,120,30+1/50000,currentTheta,3⟩

noncomputable def northwardArc : ℝ := 1/50000*pi2degree

theorem northward_arcs (currentTheta : ℝ) : (northward currentTheta).longitudeDifference = 0 ∧
    (northward currentTheta).latitudeDifference = northwardArc := by
  unfold Navigation.longitudeDifference Navigation.latitudeDifference northwardArc northward
  constructor <;> ring

theorem northwardArc_small : 0 < northwardArc ∧ northwardArc < 1/1000 := by
  unfold northwardArc pi2degree
  norm_num

theorem northward_distance (currentTheta : ℝ) :
    (northward currentTheta).allDistance realAnalysis = 1000*radiusOfEarth*northwardArc := by
  have circle := Real.pi_gt_d20
  obtain ⟨positive,small⟩ := northwardArc_small
  obtain ⟨longitude,latitude⟩ := northward_arcs currentTheta
  have sine : 0 ≤ Real.sin (northwardArc/2) := Real.sin_nonneg_of_nonneg_of_le_pi (by linarith) (by linarith)
  have chord : Real.arcsin (Real.sqrt (Real.sin (northwardArc/2)^2)) = northwardArc/2 := by
    rw [Real.sqrt_sq sine,Real.arcsin_sin (by linarith) (by linarith)]
  unfold Navigation.allDistance realAnalysis
  dsimp only
  rw [longitude,latitude,zero_div,Real.sin_zero,zero_pow two_ne_zero,mul_zero,add_zero,chord]
  ring

theorem northward_bearing (currentTheta : ℝ) : (northward currentTheta).targeTheta realAnalysis = 0 := by
  have circle := Real.pi_gt_d20
  obtain ⟨positive,small⟩ := northwardArc_small
  obtain ⟨longitude,latitude⟩ := northward_arcs currentTheta
  have sine : 0 ≤ Real.sin northwardArc := Real.sin_nonneg_of_nonneg_of_le_pi (by linarith) (by linarith)
  have north : Real.cos ((northward currentTheta).lat*pi2degree)*Real.sin ((northward currentTheta).targetLat*pi2degree) -
      Real.sin ((northward currentTheta).lat*pi2degree)*Real.cos ((northward currentTheta).targetLat*pi2degree) =
        Real.sin northwardArc := by
    rw [← latitude,Navigation.latitudeDifference,Real.sin_sub]
    ring
  unfold Navigation.targeTheta realAnalysis
  dsimp only
  rw [longitude,Real.sin_zero,Real.cos_zero,zero_mul,mul_one,north]
  have straight : Complex.arg ⟨Real.sin northwardArc,0⟩ = 0 := Complex.arg_ofReal_of_nonneg sine
  rw [straight,zero_mul,zero_div,truncate_zero]

theorem northward_away (currentTheta : ℝ) : 1 ≤ (northward currentTheta).allDistance realAnalysis := by
  rw [northward_distance]
  unfold radiusOfEarth northwardArc pi2degree
  norm_num

theorem northward_near (currentTheta : ℝ) : (northward currentTheta).allDistance realAnalysis ≤ 11/2 := by
  rw [northward_distance]
  unfold radiusOfEarth northwardArc pi2degree
  norm_num

theorem northward_error (currentTheta : ℝ) : bearingError (northward currentTheta) = foldError (0 - currentTheta) := by
  unfold bearingError headingError
  rw [northward_bearing]
  simp [convertTheta,northward]

-- With its back to the waypoint the boat still goes ahead.
theorem astern_pushes : 1 ≤ (northward 180).allDistance realAnalysis ∧ 0 ≤ (northward 180).autoSpeed ∧
    (0 ≤ (northward 180).currentTheta ∧ (northward 180).currentTheta < 360) ∧
    ¬Advances ((Cruise.after realAnalysis []).called realAnalysis (northward 180)) := by
  have turned : (180 : ℝ) ≤ |0 - 180| := by norm_num
  have folded := (fold_tests (0 - 180 : ℝ)).mpr turned
  have error : bearingError (northward 180) = 180 := by
    rw [northward_error,foldError,if_pos folded]
    norm_num
  refine ⟨northward_away 180,by decide,by norm_num [northward],?_⟩
  rw [advances_restrained _ _ (after_tuned realAnalysis []) (northward_away 180)]
  have control : wrap (100*(northward 180).autoSpeed) = 100*3 := by decide
  rw [control,restrained_clear _ _ _ (northward_away 180) (by decide),error]
  intro clear
  cases clear with
  | ahead narrow => norm_num at narrow
  | still halted => cases halted
  | spot far | slight far => exact absurd (northward_near 180) (not_le.mpr far)

theorem straight_advances : Advances ((Cruise.after realAnalysis []).called realAnalysis (northward 0)) := by
  have error : bearingError (northward 0) = 0 := by
    rw [northward_error,foldError,sub_self,if_neg]
    rw [truncate_zero]
    decide
  refine ((advance_exact [] (northward 0) (northward_away 0) (by decide)).2 (by decide)).mpr (.ahead ?_)
  rw [error,abs_zero]
  norm_num

end UsvRt.Autopilot
