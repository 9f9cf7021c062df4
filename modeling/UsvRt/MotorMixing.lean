import UsvRt.Device

-- The motor targets of the remote and the manual mode against the mixes they are
-- meant to be, taken over the integers.
namespace UsvRt.MotorMixing
open MachineWord Runs

def clamped (value : Int) : Int := min 2000 (max 1000 value)

def exactRemote (r : Remote) : Int × Int :=
  let forward := ((100 - (r.col.toNat : Int))*10 + 1000) - 1500
  let steer := (((r.row.toNat : Int)*10 + 1000) - 1500).tdiv 2
  (1500 + forward + steer,1500 + forward - steer)

def exactManual (libm : Libm) (g : Control) : Int × Int :=
  let (forward,steer) := manualMix libm g.controlVal (100*g.handSpeed)
  (1500 + forward + steer,1500 + forward - steer)

def exactMix (libm : Libm) (s : Usv) : Int × Int :=
  if s.timeouts.selectedMode = 1 then exactRemote s.timeouts.remote else exactManual libm s.control

def Saturates (libm : Libm) (cruise : UInt32 × UInt32) (s : Usv) : Prop :=
  ((s.manager libm cruise).drive.motor.targetLeftPwm.toNat : Int) = clamped (exactMix libm s).1 ∧
    ((s.manager libm cruise).drive.motor.targetRightPwm.toNat : Int) = clamped (exactMix libm s).2

-- Sine and cosine of one angle: their moduli sum to at most the root of two, and
-- a truncated product is no longer than its exact value.
def TrigBound (libm : Libm) : Prop :=
  ∀ speed degrees, 2*(|libm.cosPwm speed degrees| + |libm.sinPwm speed degrees|) ≤ 3*|speed|

theorem limit_clamped (value : Int) :
    ((limitPwm (UInt32.ofInt value)).toNat : Int) = clamped (value % 2^32) := by
  have word := ofInt_toNat value
  have limit := limitPwm_toNat (UInt32.ofInt value)
  unfold clamped
  omega

theorem clamp_negative (value : Int) (low : -2^32 + 2000 ≤ value) (high : value < 2^32) :
    clamped (value % 2^32) = clamped value ↔ 0 ≤ value := by
  unfold clamped
  constructor
  · intro same
    apply Classical.byContradiction
    intro negative
    have lifted : value % 2^32 = value + 2^32 := by omega
    omega
  · intro positive
    rw [Int.emod_eq_of_lt positive high]

theorem manual_bound (libm : Libm) (trig : TrigBound libm) (controlVal speed : Int) :
    2*(|(manualMix libm controlVal speed).1| + |(manualMix libm controlVal speed).2|) ≤ 3*|speed| := by
  have bound := fun degrees => trig speed degrees
  unfold manualMix
  split
  · simp
  · split
    · have here := bound controlVal
      simpa using here
    · split
      · have here := bound (controlVal-90)
        simp only [neg_mul,one_mul,abs_neg]
        omega
      · split
        · have here := bound (controlVal-180)
          simpa using here
        · have here := bound (controlVal-270)
          dsimp only
          omega

-- Whole turns of 10*row-500 around the signed range, as the division sees them.
def steerTurns (r : Remote) : Int := (10*(r.row.toNat : Int) - 500 + 2^31) / 2^32

theorem remote_residues (r : Remote) (d : Drive) :
    ((d.remote r).motor.targetLeftPwm.toNat : Int) =
        clamped (((exactRemote r).1 - 2^31*steerTurns r) % 2^32) ∧
      ((d.remote r).motor.targetRightPwm.toNat : Int) =
        clamped (((exactRemote r).2 + 2^31*steerTurns r) % 2^32) := by
  have colBound := r.col.toNat_lt
  have rowBound := r.row.toNat_lt
  have forward : asInt ((100 - r.col)*10 + 1000) % 2^32 = (2000 - 10*(r.col.toNat : Int)) % 2^32 := by
    rw [asInt_congruent]
    simp only [UInt32.toNat_add,UInt32.toNat_mul,UInt32.toNat_sub,UInt32.toNat_ofNat]
    omega
  have raw : asInt (r.row*10 + 1000) % 2^32 = (10*(r.row.toNat : Int) + 1000) % 2^32 := by
    rw [asInt_congruent]
    simp only [UInt32.toNat_add,UInt32.toNat_mul,UInt32.toNat_ofNat]
    omega
  have steer : (wrap (asInt (r.row*10 + 1000) - 1500)).tdiv 2 =
      5*(r.row.toNat : Int) - 250 - 2^31*steerTurns r := by
    have range := wrap_range (asInt (r.row*10 + 1000) - 1500)
    have congruent := wrap_congruent (asInt (r.row*10 + 1000) - 1500)
    have even : wrap (asInt (r.row*10 + 1000) - 1500) = 2*(5*(r.row.toNat : Int) - 250 - 2^31*steerTurns r) := by
      unfold steerTurns
      omega
    rw [even]
    exact Int.mul_tdiv_cancel_left _ (by decide)
  have half : (((r.row.toNat : Int)*10 + 1000) - 1500).tdiv 2 = 5*(r.row.toNat : Int) - 250 := by
    have even : ((r.row.toNat : Int)*10 + 1000) - 1500 = 2*(5*(r.row.toNat : Int) - 250) := by omega
    rw [even]
    exact Int.mul_tdiv_cancel_left _ (by decide)
  simp only [Drive.remote,setPwm,exactRemote,limit_clamped,steer,half]
  refine ⟨congrArg clamped ?_,congrArg clamped ?_⟩ <;> omega

-- The clamp sees the mix only if its 32-bit residue lies on the same side of the
-- band, and is the mix itself inside it.
def SameSide (mix residue : Int) : Prop :=
  (mix ≤ 1000 → residue ≤ 1000) ∧ (1000 < mix → mix < 2000 → residue = mix) ∧ (2000 ≤ mix → 2000 ≤ residue)

theorem sameSide_exact (mix residue : Int) : clamped residue = clamped mix ↔ SameSide mix residue := by
  unfold clamped SameSide
  omega

instance (mix residue : Int) : Decidable (SameSide mix residue) := inferInstanceAs (Decidable (_ ∧ _ ∧ _))

def Covered (libm : Libm) (s : Usv) : Prop :=
  if s.timeouts.selectedMode = 1 then
    SameSide (exactMix libm s).1 (((exactMix libm s).1 - 2^31*steerTurns s.timeouts.remote) % 2^32) ∧
      SameSide (exactMix libm s).2 (((exactMix libm s).2 + 2^31*steerTurns s.timeouts.remote) % 2^32)
  else 0 ≤ (exactMix libm s).1 ∧ 0 ≤ (exactMix libm s).2

instance (libm : Libm) (s : Usv) : Decidable (Covered libm s) := inferInstanceAs (Decidable (ite _ _ _))

theorem remote_exact (libm : Libm) (cruise : UInt32 × UInt32) (s : Usv) (mode : s.timeouts.selectedMode = 1) :
    Saturates libm cruise s ↔ Covered libm s := by
  obtain ⟨left,right⟩ := remote_residues s.timeouts.remote s.drive
  unfold Saturates Covered
  rw [Usv.manager_motor,if_pos mode,if_pos mode,left,right]
  unfold exactMix
  rw [if_pos mode,sameSide_exact,sameSide_exact]

theorem manual_exact (libm : Libm) (trig : TrigBound libm) (cruise : UInt32 × UInt32) (s : Usv)
    (fits : -2^31 ≤ 100*s.control.handSpeed ∧ 100*s.control.handSpeed < 2^31) (mode : s.timeouts.selectedMode = 2) :
    Saturates libm cruise s ↔ Covered libm s := by
  have manual : s.timeouts.selectedMode ≠ 1 := by omega
  have bound := manual_bound libm trig s.control.controlVal (100*s.control.handSpeed)
  have speed : |100*s.control.handSpeed| ≤ 2^31 := abs_le.mpr ⟨by omega,by omega⟩
  unfold Saturates Covered exactMix
  rw [Usv.manager_motor,if_neg manual,if_pos mode,if_neg manual,if_neg manual]
  simp only [Drive.manual,setPwm,exactManual,limit_clamped,wrap_exact fits.1 fits.2]
  generalize (manualMix libm s.control.controlVal (100*s.control.handSpeed)).1 = forward at *
  generalize (manualMix libm s.control.controlVal (100*s.control.handSpeed)).2 = steer at *
  have forwardBound := abs_le.mp (Int.le_refl |forward|)
  have steerBound := abs_le.mp (Int.le_refl |steer|)
  have left := clamp_negative (1500+forward+steer) (by omega) (by omega)
  have right := clamp_negative (1500+forward-steer) (by omega) (by omega)
  exact and_congr left right

theorem remote_short (libm : Libm) (s : Usv) (mode : s.timeouts.selectedMode = 1)
    (col : s.timeouts.remote.col.toNat < 10^8) (row : s.timeouts.remote.row.toNat < 10^8) :
    Covered libm s ↔ 0 ≤ (exactMix libm s).1 ∧ 0 ≤ (exactMix libm s).2 := by
  have turns : steerTurns s.timeouts.remote = 0 := by
    unfold steerTurns; omega
  have half : (((s.timeouts.remote.row.toNat : Int)*10 + 1000) - 1500).tdiv 2 =
      5*(s.timeouts.remote.row.toNat : Int) - 250 := by
    have even : ((s.timeouts.remote.row.toNat : Int)*10 + 1000) - 1500 =
        2*(5*(s.timeouts.remote.row.toNat : Int) - 250) := by omega
    rw [even]
    exact Int.mul_tdiv_cancel_left _ (by decide)
  unfold Covered exactMix
  rw [if_pos mode,if_pos mode,turns]
  simp only [exactRemote,half,Int.mul_zero,Int.sub_zero,Int.add_zero]
  rw [← sameSide_exact,← sameSide_exact,clamp_negative _ (by omega) (by omega),clamp_negative _ (by omega) (by omega)]

theorem saturation_exact (libm : Libm) (trig : TrigBound libm) (cruise : UInt32 × UInt32) (s : Usv)
    (fits : -2^31 ≤ 100*s.control.handSpeed ∧ 100*s.control.handSpeed < 2^31)
    (mode : s.timeouts.selectedMode = 1 ∨ s.timeouts.selectedMode = 2) :
    (Saturates libm cruise s ↔ Covered libm s) ∧
      (s.timeouts.remote.col.toNat < 10^8 → s.timeouts.remote.row.toNat < 10^8 →
        (Saturates libm cruise s ↔ 0 ≤ (exactMix libm s).1 ∧ 0 ≤ (exactMix libm s).2)) := by
  rcases mode with remote | manual
  · have exact_ := remote_exact libm cruise s remote
    exact ⟨exact_,fun col row => exact_.trans (remote_short libm s remote col row)⟩
  · have exact_ := manual_exact libm trig cruise s fits manual
    refine ⟨exact_,fun _ _ => exact_.trans ?_⟩
    unfold Covered
    rw [if_neg (by omega)]

theorem level_bound : TrigBound .level := by
  intro speed degrees
  unfold Libm.level
  dsimp only
  have positive := abs_nonneg speed
  split
  · rw [abs_zero]; omega
  · rw [abs_zero]; omega

-- A9999,50Z with the remote enabled asks for full astern.
def astern : Usv := run (Usv.step .level) Usv.boot [.radio (.keys 1 0),.radio (.stick 9999 50)]

theorem astern_ahead :
    astern.timeouts.selectedMode = 1 ∧ clamped (exactMix .level astern).1 = 1000 ∧
      clamped (exactMix .level astern).2 = 1000 ∧
      (astern.manager .level (1500,1500)).drive.motor.targetLeftPwm = 2000 ∧
      (astern.manager .level (1500,1500)).drive.motor.targetRightPwm = 2000 ∧
      ¬ Saturates .level (1500,1500) astern := by
  refine ⟨by decide,by decide,by decide,by decide,by decide,?_⟩
  intro met
  have left := met.1
  revert left
  decide

def ahead : Usv := run (Usv.step .level) Usv.boot [.server (.control 0 1)]

theorem ahead_saturates : Saturates .level (1500,1500) ahead :=
  (saturation_exact .level level_bound (1500,1500) ahead (by decide) (by decide)).1.mpr (by decide)

end UsvRt.MotorMixing
