import UsvRt.EmergencyStop

-- drv_pwm.c: what the two ramp loops leave in the registers of their timers.
namespace UsvRt.PwmTimer
open Runs EmergencyStop

-- drv_clk.c: an 8 MHz crystal, times nine, over two on the first peripheral bus. The
-- timers on it run at twice its rate; the driver counts in whole MHz.
def pclk1Freq : Nat := 8000000*9/2
def timClock : Nat := pclk1Freq*2/1000000

def maxPeriod : Nat := 65535
def minPeriod : UInt32 := 3
def minPulse : UInt32 := 2

structure Timer where
  psc : UInt32
  arr : UInt32
  ccr : Fin 4 → UInt32

def Timer.init : Timer := ⟨0,0,fun _ => 0⟩

structure Configuration where
  channel : UInt32
  period : UInt32
  pulse : UInt32
  deriving DecidableEq

-- The HAL's channel number and its compare register: any number it does not know is
-- the last one.
def compareCell (channel : UInt32) : Fin 4 :=
  let halChannel := 4*(channel-1)
  if halChannel = 0 then 0 else if halChannel = 4 then 1 else if halChannel = 8 then 2 else 3

def prescale (period : UInt32) : Nat := period.toNat/maxPeriod+1

def drvPwmSet (t : Timer) (configuration : Configuration) : Timer :=
  let period := UInt32.ofNat (configuration.period.toNat*timClock/1000)
  let psc := prescale period
  let period := UInt32.ofNat (period.toNat/psc)
  let period := if period < minPeriod then minPeriod else period
  let pulse := UInt32.ofNat (configuration.pulse.toNat*timClock/psc/1000)
  let pulse := if pulse < minPulse then minPulse else if pulse > period then period else pulse
  {psc:=UInt32.ofNat (psc-1),arr:=period-1,ccr:=Function.update t.ccr (compareCell configuration.channel) (pulse-1)}

-- Products of 32 bits, the quotient of 64.
def nanoseconds (count psc : UInt32) : UInt32 := UInt32.ofNat (((count+1)*(psc+1)*1000).toNat/timClock)

def drvPwmGet (t : Timer) (channel : UInt32) : Configuration :=
  {channel,period:=nanoseconds t.arr t.psc,pulse:=nanoseconds (t.ccr (compareCell channel)) t.psc}

example : timClock = 72 := by decide

-- In timer ticks: what a configuration asks for, and what it gets.
def requested (nanoseconds : UInt32) : Nat := nanoseconds.toNat*72/1000
def reload (period : UInt32) : Nat := max 3 (requested period/(requested period/65535+1))
def compare (configuration : Configuration) : Nat :=
  min (max 2 (configuration.pulse.toNat*72/(requested configuration.period/65535+1)/1000)) (reload configuration.period)

structure Programmed (t next : Timer) (configuration : Configuration) : Prop where
  psc : next.psc.toNat = requested configuration.period/65535
  arr : next.arr.toNat+1 = reload configuration.period
  ccr : (next.ccr (compareCell configuration.channel)).toNat+1 = compare configuration
  others : ∀ cell, cell ≠ compareCell configuration.channel → next.ccr cell = t.ccr cell

theorem requested_small (nanoseconds : UInt32) : requested nanoseconds < 2^32 := by
  have bound := nanoseconds.toNat_lt
  unfold requested
  omega

theorem ofNat_small {n : Nat} (small : n < 2^32) : (UInt32.ofNat n).toNat = n := by
  rw [UInt32.toNat_ofNat',Nat.mod_eq_of_lt small]

theorem at_least (x bound : UInt32) : (if x < bound then bound else x).toNat = max bound.toNat x.toNat := by
  have below : x < bound ↔ x.toNat < bound.toNat := UInt32.lt_iff_toNat_lt
  split
  · rename_i less
    have := below.mp less
    omega
  · rename_i more
    have : ¬x.toNat < bound.toNat := fun less => more (below.mpr less)
    omega

theorem predecessor {x : UInt32} (positive : 0 < x.toNat) : (x-1).toNat+1 = x.toNat := by
  have bound := x.toNat_lt
  rw [UInt32.toNat_sub]
  change (2^32-1+x.toNat)%2^32+1 = _
  omega

theorem limited (x period : UInt32) (room : 3 ≤ period.toNat) :
    (if x < minPulse then minPulse else if x > period then period else x).toNat = min (max 2 x.toNat) period.toNat := by
  have low : x < minPulse ↔ x.toNat < 2 := UInt32.lt_iff_toNat_lt
  have high : x > period ↔ period.toNat < x.toNat := UInt32.lt_iff_toNat_lt
  by_cases small : x < minPulse
  · have less := low.mp small
    rw [if_pos small]
    change 2 = _
    omega
  · have more : ¬x.toNat < 2 := fun less => small (low.mpr less)
    rw [if_neg small]
    split
    · rename_i large
      have less := high.mp large
      omega
    · rename_i within
      have fits : ¬period.toNat < x.toNat := fun less => within (high.mpr less)
      omega

theorem reload_room (period : UInt32) : 3 ≤ reload period := Nat.le_max_left _ _

theorem reload_period (period : UInt32) :
    (if UInt32.ofNat (requested period/(requested period/65535+1)) < minPeriod then minPeriod
      else UInt32.ofNat (requested period/(requested period/65535+1))).toNat = reload period := by
  have small := requested_small period
  rw [at_least,ofNat_small (Nat.lt_of_le_of_lt (Nat.div_le_self _ _) small)]
  rfl

theorem drvPwmSet_programmed (t : Timer) (c : Configuration) : Programmed t (drvPwmSet t c) c := by
  have small := requested_small c.period
  have ticks : (UInt32.ofNat (c.period.toNat*72/1000)).toNat = requested c.period := ofNat_small small
  have clock : timClock = 72 := by decide
  have arr := reload_period c.period
  have room := reload_room c.period
  have pulse : (UInt32.ofNat (c.pulse.toNat*72/(requested c.period/65535+1)/1000)).toNat =
      c.pulse.toNat*72/(requested c.period/65535+1)/1000 := by
    have bound := c.pulse.toNat_lt
    have less := Nat.div_le_self (c.pulse.toNat*72) (requested c.period/65535+1)
    exact ofNat_small (by omega)
  have limit := limited (UInt32.ofNat (c.pulse.toNat*72/(requested c.period/65535+1)/1000)) _ (arr.symm ▸ room)
  rw [arr,pulse] at limit
  unfold drvPwmSet prescale maxPeriod
  simp only [clock,ticks]
  refine ⟨?_,?_,?_,fun cell apart => Function.update_of_ne apart _ _⟩
  · exact ofNat_small (by omega)
  · rw [← arr]
    exact predecessor (by rw [arr]; omega)
  · dsimp only
    rw [Function.update_self]
    change _ = min _ (reload c.period)
    rw [← limit]
    refine predecessor ?_
    rw [limit]
    omega

-- Whatever is asked for, the registers are 16 bits wide and the compare value lies below
-- the reload value: no output is ever high throughout.
theorem registers_fit (t : Timer) (c : Configuration) :
    (drvPwmSet t c).psc.toNat < 2^16 ∧ (drvPwmSet t c).arr.toNat < 2^16 ∧
      ((drvPwmSet t c).ccr (compareCell c.channel)).toNat ≤ (drvPwmSet t c).arr.toNat := by
  have programmed := drvPwmSet_programmed t c
  have psc := programmed.psc
  have arr := programmed.arr
  have ccr := programmed.ccr
  have bound := c.period.toNat_lt
  have ticks : requested c.period ≤ 309237645 := by
    unfold requested
    omega
  have quotient : requested c.period/(requested c.period/65535+1) ≤ 65535 := by
    refine Nat.le_of_lt_succ ((Nat.div_lt_iff_lt_mul (Nat.succ_pos _)).mpr ?_)
    omega
  unfold reload at arr ccr
  unfold compare reload at ccr
  refine ⟨?_,?_,?_⟩
  · omega
  · omega
  · omega

-- period of motor_pwm.c and period5 of gear_pwm.c.
def period : UInt32 := 20000000

def rtPwmSet (t : Timer) (written : PwmSet) : Timer := drvPwmSet t ⟨UInt32.ofNat written.channel,period,written.pulse⟩

-- init_motor_pwm and init_gear_pwm.
def initPwm : Timer := [⟨1,1500000⟩,⟨2,1500000⟩].foldl rtPwmSet .init

structure Timers where
  tim3 : Timer
  tim5 : Timer

def Timers.boot : Timers := ⟨initPwm,initPwm⟩

def observe (t : Timers) (s : Usv) : Occurrence → Timers
  | .changePwm => {t with tim3:=(loopChangePwm s.drive.motor).2.foldl rtPwmSet t.tim3}
  | .changeGear => {t with tim5:=(loopChangeGear s.sampler.gear).2.foldl rtPwmSet t.tim5}
  | _ => t

def step (libm : Libm) : Usv×Timers → Occurrence → Usv×Timers := observed (Usv.step libm) observe

-- At 20 ms a timer tick lasts 22 clocks, and 65454 of them are a period.
def compareValue (pulse : UInt32) : UInt32 :=
  let ticks := UInt32.ofNat (pulse.toNat*72/22/1000)
  (if ticks < minPulse then minPulse else if ticks > 65454 then 65454 else ticks)-1

-- A timer whose two channels are programmed with these pulses, in microseconds.
def outputs (first second : UInt32) : Timer :=
  ⟨21,65453,fun cell => if cell = 0 then compareValue (first*1000) else if cell = 1 then compareValue (second*1000) else 0⟩

theorem set_period (t : Timer) (channel pulse : UInt32) :
    drvPwmSet t ⟨channel,period,pulse⟩ =
      ⟨21,65453,Function.update t.ccr (compareCell channel) (compareValue pulse)⟩ := by
  have ticks : UInt32.ofNat (period.toNat*timClock/1000) = 1440000 := by decide
  have scale : prescale 1440000 = 22 := by decide
  have cut : (if UInt32.ofNat ((1440000 : UInt32).toNat/22) < minPeriod then minPeriod
      else UInt32.ofNat ((1440000 : UInt32).toNat/22)) = 65454 := by decide
  have clock : timClock = 72 := by decide
  unfold drvPwmSet
  simp only [ticks,scale,cut]
  rw [clock]
  rfl

theorem set_first (t : Timer) (pulse : UInt32) :
    rtPwmSet t ⟨1,pulse⟩ = ⟨21,65453,Function.update t.ccr 0 (compareValue pulse)⟩ := set_period t 1 pulse

theorem set_second (t : Timer) (pulse : UInt32) :
    rtPwmSet t ⟨2,pulse⟩ = ⟨21,65453,Function.update t.ccr 1 (compareValue pulse)⟩ := set_period t 2 pulse

theorem init_outputs : initPwm = outputs 1500 1500 := by
  unfold initPwm
  rw [List.foldl_cons,List.foldl_cons,List.foldl_nil,set_first,set_second]
  refine congrArg (Timer.mk 21 65453) (funext fun cell => ?_)
  revert cell
  decide

theorem write_first (ceil target current second : UInt32) :
    (rampWrite 1 ceil target current).foldl rtPwmSet (outputs current second) =
      outputs (rampPulse ceil target current) second := by
  unfold rampWrite
  split
  · rw [List.foldl_cons,List.foldl_nil,set_first]
    refine congrArg (Timer.mk 21 65453) (funext fun cell => ?_)
    by_cases first : cell = 0
    · subst first
      rfl
    · simp [outputs,first]
  · rename_i still
    rw [rampPulse,if_neg still]
    rfl

theorem write_second (ceil target current first : UInt32) :
    (rampWrite 2 ceil target current).foldl rtPwmSet (outputs first current) =
      outputs first (rampPulse ceil target current) := by
  unfold rampWrite
  split
  · rw [List.foldl_cons,List.foldl_nil,set_second]
    refine congrArg (Timer.mk 21 65453) (funext fun cell => ?_)
    by_cases second : cell = 1
    · subst second
      rfl
    · simp [outputs,second]
  · rename_i still
    rw [rampPulse,if_neg still]
    rfl

-- Each timer is programmed with the pulses its ramp is at.
structure Follows (s : Usv×Timers) : Prop where
  motors : s.2.tim3 = outputs s.1.drive.motor.currentLeftPwm s.1.drive.motor.currentRightPwm
  hose : s.2.tim5 = outputs 1500 s.1.sampler.gear.currentGearPwm

theorem loop_motors (m : Motor) :
    (loopChangePwm m).2.foldl rtPwmSet (outputs m.currentLeftPwm m.currentRightPwm) =
      outputs (loopChangePwm m).1.currentLeftPwm (loopChangePwm m).1.currentRightPwm := by
  have writes : (loopChangePwm m).2.foldl rtPwmSet (outputs m.currentLeftPwm m.currentRightPwm) =
      (rampWrite 1 2 m.targetLeftPwm m.currentLeftPwm++rampWrite 2 2 m.targetRightPwm m.currentRightPwm).foldl rtPwmSet
        (outputs m.currentLeftPwm m.currentRightPwm) := by
    unfold loopChangePwm
    split
    · rfl
    · rename_i idle
      rw [not_or,sub_ne_zero,sub_ne_zero] at idle
      rw [rampWrite,if_neg idle.1,rampWrite,if_neg idle.2,List.append_nil]
  rw [writes,List.foldl_append,write_first,write_second,loopChangePwm_current]

theorem loop_hose (g : Gear) (first : UInt32) :
    (loopChangeGear g).2.foldl rtPwmSet (outputs first g.currentGearPwm) = outputs first (loopChangeGear g).1.currentGearPwm := by
  have writes : (loopChangeGear g).2.foldl rtPwmSet (outputs first g.currentGearPwm) =
      (rampWrite 2 1 g.targetGearPwm g.currentGearPwm).foldl rtPwmSet (outputs first g.currentGearPwm) := by
    unfold loopChangeGear
    split
    · rfl
    · rename_i idle
      rw [sub_ne_zero] at idle
      rw [rampWrite,if_neg idle]
  rw [writes,write_second,loopChangeGear_current]

theorem manage_current (s : Sampler) (tick : UInt32) (remote : Remote) :
    (s.manage tick remote).gear.currentGearPwm = s.gear.currentGearPwm := by
  have managed := s.manage_sound tick remote
  generalize s.manage tick remote = next at managed
  cases managed with
  | remotePump | remoteTimeout | remoteOff | travel | rest => simp only [setGearPwm]
  | pump | finish => rfl

theorem manager_current (libm : Libm) (s : Usv) (cruise : UInt32×UInt32) :
    (s.manager libm cruise).drive.motor.currentLeftPwm = s.drive.motor.currentLeftPwm ∧
      (s.manager libm cruise).drive.motor.currentRightPwm = s.drive.motor.currentRightPwm := by
  have kept : ∀ left right, (setPwm s.drive.motor left right).currentLeftPwm = s.drive.motor.currentLeftPwm ∧
      (setPwm s.drive.motor left right).currentRightPwm = s.drive.motor.currentRightPwm := fun _ _ => ⟨rfl,rfl⟩
  rw [Usv.manager_motor]
  split
  · exact kept _ _
  · split
    · exact kept _ _
    · exact kept _ _

theorem step_follows (libm : Libm) (s : Usv×Timers) (e : Occurrence) (follows : Follows s) : Follows (step libm s e) := by
  obtain ⟨motors,hose⟩ := follows
  cases e with
  | wait | heard | radio => exact ⟨motors,hose⟩
  | server c => cases c <;> exact ⟨motors,hose⟩
  | manager cruise =>
    obtain ⟨left,right⟩ := manager_current libm s.1 cruise
    have gear := manage_current s.1.sampler s.1.tick s.1.timeouts.remote
    refine ⟨?_,?_⟩
    · change s.2.tim3 = outputs (s.1.manager libm cruise).drive.motor.currentLeftPwm _
      rw [left]
      refine motors.trans (congrArg _ ?_)
      exact right.symm
    · refine hose.trans (congrArg _ ?_)
      exact gear.symm
  | changePwm =>
    refine ⟨?_,hose⟩
    change (loopChangePwm s.1.drive.motor).2.foldl rtPwmSet s.2.tim3 = _
    rw [motors]
    exact loop_motors _
  | changeGear =>
    refine ⟨motors,?_⟩
    change (loopChangeGear s.1.sampler.gear).2.foldl rtPwmSet s.2.tim5 = _
    rw [hose]
    exact loop_hose _ _

theorem run_follows (libm : Libm) (occurrences : List Occurrence) :
    Follows (run (step libm) (.boot,.boot) occurrences) := by
  refine Reached.invariant ?_ ?_ ⟨occurrences,rfl⟩
  · exact step_follows libm
  · exact ⟨init_outputs,init_outputs⟩

theorem run_first (libm : Libm) (s : Usv×Timers) (occurrences : List Occurrence) :
    (run (step libm) s occurrences).1 = run (Usv.step libm) s.1 occurrences := by
  induction occurrences generalizing s with
  | nil => rfl
  | cons e rest ih => exact ih (step libm s e)

-- What the driver reads back from a channel: the pulse in nanoseconds, short of it by
-- less than 307, once every 20 ms.
def Shows (t : Timer) (channel pwm : UInt32) : Prop :=
  let c := drvPwmGet t channel
  c.period = 19999833 ∧ c.pulse.toNat ≤ 1000*pwm.toNat ∧ 1000*pwm.toNat ≤ c.pulse.toNat+306

theorem compare_pulse (pwm : UInt32) (above : 1 ≤ pwm.toNat) (below : pwm.toNat ≤ 19999) :
    (compareValue (pwm*1000)).toNat+1 = pwm.toNat*72000/22/1000 := by
  have pulse : (pwm*1000).toNat = pwm.toNat*1000 := by
    rw [UInt32.toNat_mul]
    change pwm.toNat*1000%2^32 = _
    omega
  have ticks : (UInt32.ofNat ((pwm*1000).toNat*72/22/1000)).toNat = pwm.toNat*72000/22/1000 := by
    rw [ofNat_small (by omega),pulse]
    omega
  have limit := limited (UInt32.ofNat ((pwm*1000).toNat*72/22/1000)) 65454 (by decide)
  have top : (65454 : UInt32).toNat = 65454 := rfl
  rw [ticks,top] at limit
  unfold compareValue
  dsimp only
  rw [predecessor (by rw [limit]; omega),limit]
  omega

theorem outputs_show (t : Timer) (channel pwm : UInt32) (psc : t.psc = 21) (arr : t.arr = 65453)
    (ccr : t.ccr (compareCell channel) = compareValue (pwm*1000)) (above : 1 ≤ pwm.toNat) (below : pwm.toNat ≤ 19999) :
    Shows t channel pwm := by
  have clock : timClock = 72 := by decide
  have compare := compare_pulse pwm above below
  have back : (nanoseconds (compareValue (pwm*1000)) 21).toNat = pwm.toNat*72000/22/1000*22000/72 := by
    have product : ((compareValue (pwm*1000)+1)*(21+1)*1000).toNat = pwm.toNat*72000/22/1000*22000 := by
      rw [UInt32.toNat_mul,UInt32.toNat_mul,UInt32.toNat_add]
      change (((compareValue (pwm*1000)).toNat+1)%2^32*22%2^32*1000)%2^32 = _
      rw [compare]
      omega
    unfold nanoseconds
    rw [product,clock]
    exact ofNat_small (by omega)
  unfold Shows drvPwmGet
  dsimp only
  rw [psc,arr,ccr,back]
  refine ⟨by decide,?_,?_⟩
  · omega
  · omega

-- Over every run, from whatever arrives: each motor's output is the pulse its ramp is
-- at, between 1 and 2 ms, and the hose's is its own while that is between 1 us and 19999 us.
theorem outputs_follow (libm : Libm) (occurrences : List Occurrence) :
    let s := run (step libm) (.boot,.boot) occurrences
    let motor := s.1.drive.motor
    s.1 = run (Usv.step libm) .boot occurrences ∧
      Shows s.2.tim3 1 motor.currentLeftPwm ∧ Shows s.2.tim3 2 motor.currentRightPwm ∧
      (1000 ≤ motor.currentLeftPwm.toNat ∧ motor.currentLeftPwm.toNat ≤ 2000) ∧
      (1000 ≤ motor.currentRightPwm.toNat ∧ motor.currentRightPwm.toNat ≤ 2000) ∧
      (1 ≤ s.1.sampler.gear.currentGearPwm.toNat ∧ s.1.sampler.gear.currentGearPwm.toNat ≤ 19999 →
        Shows s.2.tim5 2 s.1.sampler.gear.currentGearPwm) := by
  have same := run_first libm (.boot,.boot) occurrences
  have follows := run_follows libm occurrences
  have ramped : Ramped (run (step libm) (.boot,.boot) occurrences).1.drive.motor := by
    rw [same]
    exact motors_ramped ⟨occurrences,rfl⟩
  generalize run (step libm) (.boot,.boot) occurrences = s at same follows ramped ⊢
  obtain ⟨motors,hose⟩ := follows
  have left := ramped.left
  have right := ramped.right
  refine ⟨same,?_,?_,⟨left.above,left.below⟩,⟨right.above,right.below⟩,fun within => ?_⟩
  · rw [motors]
    exact outputs_show _ 1 _ rfl rfl rfl (by have := left.above; omega) (by have := left.below; omega)
  · rw [motors]
    exact outputs_show _ 2 _ rfl rfl rfl (by have := right.above; omega) (by have := right.below; omega)
  · rw [hose]
    exact outputs_show _ 2 _ rfl rfl rfl within.1 within.2

end UsvRt.PwmTimer
