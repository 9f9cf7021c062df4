import UsvRt.Manager

-- How long a sampling command pumps: measured on the true clock, against the
-- single start tick that the code keeps for it.
namespace UsvRt.SampleTiming
open Runs Sampler MachineWord

def pumpingTime (bottle : Fin 8) (time : Nat) (s : Usv) : Occurrence → Nat
  | .wait ticks => if s.sampler.pins.relay1 && s.sampler.pins.valve bottle then time+ticks else time
  | _ => time

def samples : Occurrence → Bool
  | .server (.sample _ _ _) => true
  | _ => false

def iterates : Occurrence → Bool
  | .manager _ => true
  | _ => false

-- No further sampling command, and every iteration finds the remote released.
def Alone (s : Usv) (e : Occurrence) : Prop := samples e = false ∧ (iterates e = true → s.Released)

instance (s : Usv) (e : Occurrence) : Decidable (Alone s e) := inferInstanceAs (Decidable (_ ∧ (_ → _)))

-- The command waits for its timer, or pumps since the timer's tick, or is done.
inductive Progress (bottle : Fin 8) (due now : Nat) (s : Sampler) (time : Nat) : Prop where
  | waiting (status : s.drawStatus ≠ 4) (unset : s.drawStartTick = 0)
  | pumping (status : s.drawStatus ≠ 4) (start : Nat) (past : start ≤ now)
      (set : s.drawStartTick = stamp start) (covered : now ≤ start + time) (pins : s.pins = pumpInto bottle)
  | done (status : s.drawStatus = 4) (paid : due ≤ time)

structure Timed (bottle : Fin 8) (amount : Int) (due now : Nat) (s : Sampler) (time : Nat) : Prop where
  bottleId : s.bottleId = bottle.val+1
  bottleAmount : s.bottleAmount = amount
  progress : Progress bottle due now s time

theorem started_unset (tick : UInt32) : started 0 tick = tick := rfl

theorem started_set {drawStartTick : UInt32} (set : drawStartTick ≠ 0) (tick : UInt32) :
    started drawStartTick tick = drawStartTick := if_neg set

theorem age_zero (tick : UInt32) : (tick - tick).toNat = 0 := by
  rw [UInt32.toNat_sub]
  have bound := tick.toNat_lt
  omega

theorem finish_paid (due now : Nat) (ticks : (drawTicks amount).toNat = due) (positive : 0 < due)
    (progress : Progress bottle due now s time) (pending : s.drawStatus ≠ 4)
    (overdue : ¬ stamp now - started s.drawStartTick (stamp now) < drawTicks amount) : due ≤ time := by
  have elapsed : due ≤ (stamp now - started s.drawStartTick (stamp now)).toNat := by
    rw [← ticks]
    exact Nat.le_of_not_lt fun less => overdue (UInt32.lt_iff_toNat_lt.mpr less)
  by_cases unset : s.drawStartTick = 0
  · rw [unset,started_unset,age_zero] at elapsed
    omega
  · rw [started_set unset] at elapsed
    cases progress with
    | waiting _ zero => exact absurd zero unset
    | pumping _ start past set covered _ =>
      rw [set] at elapsed
      have age := age_le past
      omega
    | done status => exact absurd status pending

theorem timed_manage (bottle : Fin 8) (amount : Int) (due now : Nat) (ticks : (drawTicks amount).toNat = due)
    (positive : 0 < due) (s : Sampler) (remote : Remote) (time : Nat) (released : remote.key0 = 0)
    (timed : Timed bottle amount due now s time) :
    Timed bottle amount due now (s.manage (stamp now) remote) time := by
  have disabled : remote.key0 ≠ 1 := by omega
  have managed := manage_sound s (stamp now) remote
  obtain ⟨bottleId,bottleAmount,progress⟩ := timed
  generalize s.manage (stamp now) remote = next at managed
  cases managed with
  | remotePump enabled | remoteTimeout enabled | remoteOff enabled => exact absurd enabled disabled
  | travel _ pending away =>
    refine ⟨bottleId,bottleAmount,?_⟩
    cases progress with
    | waiting _ unset => exact .waiting (by simp) unset
    | pumping _ start past set covered pins => exact .pumping (by simp) start past set covered pins
    | done status => exact absurd status pending.2
  | pump _ pending there running =>
    refine ⟨bottleId,bottleAmount,?_⟩
    have pins : draw s.bottleId = pumpInto bottle := by rw [bottleId,draw_pump]
    by_cases unset : s.drawStartTick = 0
    · exact .pumping (by simp) now (Nat.le_refl _) (by rw [unset,started_unset]) (Nat.le_add_right _ _) pins
    · cases progress with
      | waiting _ zero => exact absurd zero unset
      | pumping _ start past set covered _ =>
        exact .pumping (by simp) start past (by rw [started_set unset]; exact set) covered pins
      | done status => exact absurd status pending.2
  | finish _ pending there overdue =>
    refine ⟨bottleId,bottleAmount,.done rfl ?_⟩
    rw [bottleAmount] at overdue
    exact finish_paid due now ticks positive progress pending.2 overdue
  | rest _ idle =>
    refine ⟨bottleId,bottleAmount,?_⟩
    have bottleSet : s.bottleId ≠ 0 := by omega
    have status : s.drawStatus = 4 := Decidable.byContradiction fun other => idle ⟨bottleSet,other⟩
    cases progress with
    | waiting other | pumping other => exact absurd status other
    | done _ paid => exact .done status paid

theorem timed_wait (timed : Timed bottle amount due now s time) (ticks : Nat) :
    Timed bottle amount due (now+ticks) s
      (if s.pins.relay1 && s.pins.valve bottle then time+ticks else time) := by
  obtain ⟨bottleId,bottleAmount,progress⟩ := timed
  refine ⟨bottleId,bottleAmount,?_⟩
  cases progress with
  | waiting status unset => exact .waiting status unset
  | pumping status start past set covered pins =>
    have running : (s.pins.relay1 && s.pins.valve bottle) = true := by simp [pins,pumpInto]
    rw [if_pos running]
    exact .pumping status start (Nat.le_trans past (Nat.le_add_right _ _)) set (by omega) pins
  | done status paid =>
    refine .done status ?_
    split <;> omega

theorem timed_gear (timed : Timed bottle amount due now s time) (gear : Gear) :
    Timed bottle amount due now {s with gear:=gear} time := by
  obtain ⟨bottleId,bottleAmount,progress⟩ := timed
  refine ⟨bottleId,bottleAmount,?_⟩
  cases progress with
  | waiting status unset => exact .waiting status unset
  | pumping status start past set covered pins => exact .pumping status start past set covered pins
  | done status paid => exact .done status paid

def Tracks (bottle : Fin 8) (amount : Int) (due : Nat) (p : Usv × Nat) : Prop :=
  Timed bottle amount due p.1.now p.1.sampler p.2

theorem tracks_step (libm : Libm) (bottle : Fin 8) (amount : Int) (due : Nat)
    (ticks : (drawTicks amount).toNat = due) (positive : 0 < due) (p : Usv × Nat) (e : Occurrence)
    (tracks : Tracks bottle amount due p) (alone : Alone p.1 e) :
    Tracks bottle amount due (observed (Usv.step libm) (pumpingTime bottle) p e) := by
  obtain ⟨s,time⟩ := p
  cases e with
  | wait count => exact timed_wait tracks count
  | server c =>
    have other : s.sampler.apply c = s.sampler := by
      refine s.sampler.apply_other c ?_
      rintro bottleId bottleDeep bottleAmount rfl
      cases alone.1
    unfold Tracks observed
    simp only [Usv.step,Usv.decoded,other]
    exact tracks
  | manager cruise =>
    exact timed_manage bottle amount due s.now ticks positive s.sampler s.timeouts.remote time
      (alone.2 rfl) tracks
  | changeGear => exact timed_gear tracks _
  | heard | radio | changePwm => exact tracks

def FullyTimed (libm : Libm) (s : Usv) (bottle : Fin 8) (deep amount : Int) : Prop :=
  ∀ events, Along (observed (Usv.step libm) (pumpingTime bottle)) (fun p e => Alone p.1 e)
      (s.decoded (.sample (bottle.val+1) deep amount),0) events →
    let final := run (observed (Usv.step libm) (pumpingTime bottle))
      (s.decoded (.sample (bottle.val+1) deep amount),0) events
    final.1.sampler.drawStatus = 4 → 1000*fullTime amount ≤ final.2

-- A command decoded while no timer runs is timed from its own start.
theorem timed_from_start (libm : Libm) (s : Usv) (bottle : Fin 8) (deep amount : Int) (enough : 4 ≤ amount)
    (unset : s.sampler.drawStartTick = 0) (fits : 1000*fullTime amount < 2^32) :
    FullyTimed libm s bottle deep amount := by
  intro events alone final status
  have ticks := drawTicks_toNat amount (by omega) fits
  have scaled := fullTime_scaled amount (by omega)
  have initial : Tracks bottle amount (drawTicks amount).toNat (s.decoded (.sample (bottle.val+1) deep amount),0) :=
    ⟨rfl,rfl,.waiting (by simp [Usv.decoded,Sampler.apply]) unset⟩
  have tracks : Tracks bottle amount (drawTicks amount).toNat final :=
    invariant_run (fun p e => tracks_step libm bottle amount _ rfl (by omega) p e) initial alone
  obtain ⟨_,_,progress⟩ := tracks
  cases progress with
  | waiting other | pumping other => exact absurd status other
  | done _ paid => omega

def undisturbed : List Occurrence :=
  [.wait 1,.manager (1500,1500)] ++ List.replicate 100 .changeGear ++
    [.manager (1500,1500),.wait 1000,.manager (1500,1500)]

theorem undisturbed_timed :
    (run (observed (Usv.step .level) (pumpingTime 0)) (Usv.boot.decoded (.sample 1 0 4),0) undisturbed).1.sampler.drawStatus = 4 ∧
      1000*fullTime 4 ≤ (run (observed (Usv.step .level) (pumpingTime 0)) (Usv.boot.decoded (.sample 1 0 4),0) undisturbed).2 := by
  have alone : Along (observed (Usv.step .level) (pumpingTime 0)) (fun p e => Alone p.1 e)
      (Usv.boot.decoded (.sample 1 0 4),0) undisturbed := by decide +kernel
  have status : (run (observed (Usv.step .level) (pumpingTime 0))
      (Usv.boot.decoded (.sample 1 0 4),0) undisturbed).1.sampler.drawStatus = 4 := by decide +kernel
  exact ⟨status,timed_from_start .level .boot 0 0 4 (by decide) rfl (by decide) undisturbed alone status⟩

-- A draw of bottle 1 runs for five seconds when bottle 2 is commanded at the
-- same depth: the old start tick ends the new command at once.
def drawing : List Occurrence :=
  [.server (.sample 1 0 100),.wait 1,.manager (1500,1500)] ++ List.replicate 100 .changeGear ++
    [.manager (1500,1500),.wait 5000,.manager (1500,1500)]

def interrupted : Usv := run (Usv.step .level) Usv.boot drawing

theorem interrupted_early : Usv.Reached .level interrupted ∧ ¬ FullyTimed .level interrupted 1 0 4 := by
  refine ⟨⟨drawing,rfl⟩,?_⟩
  intro timed
  have alone : Along (observed (Usv.step .level) (pumpingTime 1)) (fun p e => Alone p.1 e)
      (interrupted.decoded (.sample 2 0 4),0) [.manager (1500,1500)] := by decide +kernel
  have paid := timed [.manager (1500,1500)] alone (by decide +kernel)
  revert paid
  decide +kernel

end UsvRt.SampleTiming
