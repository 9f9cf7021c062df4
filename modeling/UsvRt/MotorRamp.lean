import UsvRt.EmergencyStop

-- set_pwm against the ramp loop, which may run between its two stores: what the
-- pulses keep to on the way, and which targets they come to rest at.
namespace UsvRt.MotorRamp
open Runs EmergencyStop

-- A call in progress has limited both its arguments and stored the left one; the
-- right one is still to be stored.
structure Motors where
  motor : Motor
  pending : Option UInt32
  deriving DecidableEq

def Motors.boot : Motors := ⟨.boot,none⟩

inductive MotorEvent where
  | storeLeft (leftPwm rightPwm : UInt32)
  | storeRight
  | changePwm
  deriving DecidableEq

-- Only the manager thread calls set_pwm, so a call begins when none is in progress.
def step (s : Motors) : MotorEvent → Motors
  | .storeLeft leftPwm rightPwm =>
    match s.pending with
    | none => ⟨{s.motor with targetLeftPwm:=limitPwm leftPwm},some (limitPwm rightPwm)⟩
    | some _ => s
  | .storeRight =>
    match s.pending with
    | none => s
    | some rightPwm => ⟨{s.motor with targetRightPwm:=rightPwm},none⟩
  | .changePwm => {s with motor:=(loopChangePwm s.motor).1}

theorem stores_setPwm (m : Motor) (leftPwm rightPwm : UInt32) :
    run step ⟨m,none⟩ [.storeLeft leftPwm rightPwm,.storeRight] = ⟨setPwm m leftPwm rightPwm,none⟩ := rfl

structure Bounded (m : Motor) : Prop where
  leftTarget : 1000 ≤ m.targetLeftPwm.toNat ∧ m.targetLeftPwm.toNat ≤ 2000
  rightTarget : 1000 ≤ m.targetRightPwm.toNat ∧ m.targetRightPwm.toNat ≤ 2000
  leftCurrent : 1000 ≤ m.currentLeftPwm.toNat ∧ m.currentLeftPwm.toNat ≤ 2000 ∧ m.currentLeftPwm.toNat % 2 = 0
  rightCurrent : 1000 ≤ m.currentRightPwm.toNat ∧ m.currentRightPwm.toNat ≤ 2000 ∧ m.currentRightPwm.toNat % 2 = 0

-- One pulse over one iteration.
structure Eased (target before after : UInt32) : Prop where
  near : Nat.dist after.toNat before.toNat ≤ 2
  closer : Nat.dist after.toNat target.toNat ≤ Nat.dist before.toNat target.toNat

def Scaled (m : Motor) (written : PwmSet) : Prop :=
  (written.channel = 1 ∧ written.pulse.toNat = 1000*m.currentLeftPwm.toNat) ∨
    (written.channel = 2 ∧ written.pulse.toNat = 1000*m.currentRightPwm.toNat)

structure Gentle (m next : Motor) (writes : List PwmSet) : Prop where
  left : Eased m.targetLeftPwm m.currentLeftPwm next.currentLeftPwm
  right : Eased m.targetRightPwm m.currentRightPwm next.currentRightPwm
  writes : ∀ written ∈ writes, Scaled next written

def Eases (s : Motors) (e : MotorEvent) : Prop :=
  e = .changePwm → Gentle s.motor (step s e).motor (loopChangePwm s.motor).2

-- The right pulse in flight is within the limits too.
structure Driven (s : Motors) : Prop where
  ramped : Ramped s.motor
  pending : ∀ rightPwm ∈ s.pending, 1000 ≤ rightPwm.toNat ∧ rightPwm.toNat ≤ 2000

theorem limit_bounds (pwm : UInt32) : 1000 ≤ (limitPwm pwm).toNat ∧ (limitPwm pwm).toNat ≤ 2000 := by
  have limit := limitPwm_toNat pwm
  omega

theorem driven_boot : Driven .boot := by
  refine ⟨ramped_boot,?_⟩
  intro rightPwm none
  cases none

theorem driven_step (s : Motors) (e : MotorEvent) (driven : Driven s) : Driven (step s e) := by
  obtain ⟨m,pending⟩ := s
  obtain ⟨ramped,bounds⟩ := driven
  cases e with
  | changePwm => exact ⟨ramped_loop ramped,bounds⟩
  | storeLeft leftPwm rightPwm =>
    cases pending with
    | some waiting => exact ⟨ramped,bounds⟩
    | none =>
      obtain ⟨above,below⟩ := limit_bounds leftPwm
      refine ⟨⟨ramped.left,ramped.right,above,below,ramped.rightAbove,ramped.rightBelow⟩,?_⟩
      intro waiting member
      cases member
      exact limit_bounds rightPwm
  | storeRight =>
    cases pending with
    | none => exact ⟨ramped,bounds⟩
    | some waiting =>
      obtain ⟨above,below⟩ := bounds waiting rfl
      refine ⟨⟨ramped.left,ramped.right,ramped.leftAbove,ramped.leftBelow,above,below⟩,?_⟩
      intro rightPwm none
      cases none

theorem driven_run (events : List MotorEvent) : Driven (run step .boot events) :=
  Reached.invariant driven_step driven_boot ⟨events,rfl⟩

theorem within_even (within : Ramp.Within 2 1000 2000 current) : current % 2 = 0 := by
  have above := within.above
  have aligned := within.aligned
  omega

theorem ramped_bounded (ramped : Ramped m) : Bounded m :=
  ⟨⟨ramped.leftAbove,ramped.leftBelow⟩,⟨ramped.rightAbove,ramped.rightBelow⟩,
    ⟨ramped.left.above,ramped.left.below,within_even ramped.left⟩,
    ⟨ramped.right.above,ramped.right.below,within_even ramped.right⟩⟩

theorem pulse_eased (target : UInt32) (within : Ramp.Within 2 1000 2000 current.toNat) :
    Eased target current (rampPulse 2 target current) := by
  have pulse := pulse_within 2 target current rfl within
  refine ⟨?_,?_⟩
  · rw [pulse]
    exact Ramp.approach_near 2 target.toNat current.toNat
  · rw [pulse]
    exact Ramp.approach_closer (Nat.le_refl 2) target.toNat current.toNat

-- A pulse of at most 2000 microseconds is far below 2^32 nanoseconds.
theorem write_scaled (channel : Nat) (target : UInt32) (below : (rampPulse 2 target current).toNat ≤ 2000) :
    ∀ written ∈ rampWrite channel 2 target current,
      written.channel = channel ∧ written.pulse.toNat = 1000*(rampPulse 2 target current).toNat := by
  intro written member
  unfold rampWrite at member
  split at member
  · rw [List.mem_singleton] at member
    subst member
    refine ⟨rfl,?_⟩
    rw [UInt32.toNat_mul]
    change (rampPulse 2 target current).toNat*1000 % 2^32 = _
    omega
  · cases member

theorem loop_writes (m : Motor) (written : PwmSet) (member : written ∈ (loopChangePwm m).2) :
    written ∈ rampWrite 1 2 m.targetLeftPwm m.currentLeftPwm ∨
      written ∈ rampWrite 2 2 m.targetRightPwm m.currentRightPwm := by
  unfold loopChangePwm at member
  split at member
  · exact List.mem_append.mp member
  · cases member

theorem loop_gentle (ramped : Ramped m) : Gentle m (loopChangePwm m).1 (loopChangePwm m).2 := by
  have next := ramped_loop ramped
  rw [loopChangePwm_current] at next ⊢
  refine ⟨pulse_eased m.targetLeftPwm ramped.left,pulse_eased m.targetRightPwm ramped.right,?_⟩
  intro written member
  rcases loop_writes m written member with left | right
  · exact .inl (write_scaled 1 m.targetLeftPwm next.left.below written left)
  · exact .inr (write_scaled 2 m.targetRightPwm next.right.below written right)

theorem motor_pulses_safe (events : List MotorEvent) :
    Bounded (run step .boot events).motor ∧ Along step Eases .boot events := by
  refine ⟨ramped_bounded (driven_run events).ramped,?_⟩
  rw [along_exact]
  rintro earlier e later _ rfl
  exact loop_gentle (driven_run earlier).ramped

def loop (m : Motor) : Motor := (loopChangePwm m).1

structure Settled (m : Motor) : Prop where
  left : m.currentLeftPwm = m.targetLeftPwm
  right : m.currentRightPwm = m.targetRightPwm
  idle : loopChangePwm m = (m,[])

-- Half the larger distance, rounded up.
def iterationsDue (m : Motor) : Nat :=
  (max (Nat.dist m.currentLeftPwm.toNat m.targetLeftPwm.toNat)
    (Nat.dist m.currentRightPwm.toNat m.targetRightPwm.toNat) + 1)/2

def Settles (m : Motor) : Prop := ∀ count ≥ iterationsDue m, Settled (loop^[count] m)

def Even (pwm : UInt32) : Prop := pwm.toNat % 2 = 0

instance (pwm : UInt32) : Decidable (Even pwm) := inferInstanceAs (Decidable (_ = _))

theorem settled_idle (left : m.currentLeftPwm = m.targetLeftPwm) (right : m.currentRightPwm = m.targetRightPwm) :
    Settled m := by
  refine ⟨left,right,?_⟩
  unfold loopChangePwm
  rw [if_neg]
  rw [not_or,sub_ne_zero,sub_ne_zero,not_ne_iff,not_ne_iff]
  exact ⟨left,right⟩

theorem loop_targets (m : Motor) (count : Nat) :
    (loop^[count] m).targetLeftPwm = m.targetLeftPwm ∧ (loop^[count] m).targetRightPwm = m.targetRightPwm := by
  induction count generalizing m with
  | zero => exact ⟨rfl,rfl⟩
  | succ count ih =>
    rw [Function.iterate_succ_apply]
    obtain ⟨left,right⟩ := ih (loop m)
    have kept : (loop m).targetLeftPwm = m.targetLeftPwm ∧ (loop m).targetRightPwm = m.targetRightPwm := by
      unfold loop
      rw [loopChangePwm_current]
      exact ⟨rfl,rfl⟩
    exact ⟨left.trans kept.1,right.trans kept.2⟩

theorem loop_ramped (ramped : Ramped m) (count : Nat) : Ramped (loop^[count] m) := by
  induction count generalizing m with
  | zero => exact ramped
  | succ count ih => exact ih (ramped_loop ramped)

theorem even_within (above : 1000 ≤ pwm.toNat) (below : pwm.toNat ≤ 2000) (even : Even pwm) :
    Ramp.Within 2 1000 2000 pwm.toNat := by
  refine ⟨above,below,?_⟩
  unfold Even at even
  omega

theorem even_arrives (ramped : Ramped m) (left : Even m.targetLeftPwm) (right : Even m.targetRightPwm)
    (enough : iterationsDue m ≤ count) : Settled (loop^[count] m) := by
  obtain ⟨leftRun,rightRun⟩ := loop_iterate ramped count
  obtain ⟨leftTarget,rightTarget⟩ := loop_targets m count
  have leftGoal := even_within ramped.leftAbove ramped.leftBelow left
  have rightGoal := even_within ramped.rightAbove ramped.rightBelow right
  unfold iterationsDue Nat.dist at enough
  rw [ramped.left.arrives (by decide) leftGoal (by omega) (by omega)] at leftRun
  rw [ramped.right.arrives (by decide) rightGoal (by omega) (by omega)] at rightRun
  refine settled_idle ?_ ?_
  · rw [leftTarget]
    exact UInt32.toNat_inj.mp leftRun
  · rw [rightTarget]
    exact UInt32.toNat_inj.mp rightRun

-- An odd target lies between two even pulses and is never met.
theorem settles_even (ramped : Ramped m) : Settles m ↔ Even m.targetLeftPwm ∧ Even m.targetRightPwm := by
  constructor
  · intro settles
    have settled := settles (iterationsDue m) (Nat.le_refl _)
    have later := loop_ramped ramped (iterationsDue m)
    obtain ⟨left,right⟩ := loop_targets m (iterationsDue m)
    rw [← left,← right,← settled.left,← settled.right]
    exact ⟨within_even later.left,within_even later.right⟩
  · rintro ⟨left,right⟩ count enough
    exact even_arrives ramped left right enough

theorem ramp_settles_exact (events : List MotorEvent) (leftPwm rightPwm : UInt32) :
    Settles (setPwm (run step .boot events).motor leftPwm rightPwm) ↔ Even (limitPwm leftPwm) ∧ Even (limitPwm rightPwm) :=
  settles_even (ramped_set (driven_run events).ramped leftPwm rightPwm)

-- From neutral towards 1501 the left pulse alternates between 1500 and 1502.
theorem odd_target_hunts : ¬ Settles (setPwm .boot 1501 1500) ∧
    ∀ count, (loop^[2*count] (setPwm .boot 1501 1500)).currentLeftPwm = 1500 ∧
      (loop^[2*count+1] (setPwm .boot 1501 1500)).currentLeftPwm = 1502 := by
  have period : loop (loop (setPwm .boot 1501 1500)) = setPwm .boot 1501 1500 := by decide
  have returns : ∀ count, loop^[2*count] (setPwm .boot 1501 1500) = setPwm .boot 1501 1500 := by
    intro count
    rw [Function.iterate_mul]
    exact Function.iterate_fixed period count
  refine ⟨?_,?_⟩
  · intro settles
    have settled := (settles 2 (by decide)).left
    revert settled
    decide
  · intro count
    rw [Function.iterate_succ_apply',returns count]
    decide

end UsvRt.MotorRamp
