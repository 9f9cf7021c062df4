import Mathlib.Data.Fintype.Pi
import UsvRt.MachineWord
import UsvRt.Ramp

namespace UsvRt

-- gpio.c: the pins that draw and control_status_led write; true is PIN_HIGH.
-- Valve n of the board is cell n-1.
structure Pins where
  relay1 : Bool
  relay2 : Bool
  valve : Fin 8 → Bool
  deriving DecidableEq

def allLow : Pins := ⟨false,false,fun _ => false⟩
def pumpInto (open_ : Fin 8) : Pins := ⟨true,false,fun n => n == open_⟩

def draw (bottleId : Int) : Pins :=
  match bottleId with
  | 0 => allLow
  | 1 => pumpInto 0
  | 2 => pumpInto 1
  | 3 => pumpInto 2
  | 4 => pumpInto 3
  | 5 => pumpInto 4
  | 6 => pumpInto 5
  | 7 => pumpInto 6
  | 8 => pumpInto 7
  | _ => allLow

theorem draw_pump : ∀ n : Fin 8, draw (n.val+1) = pumpInto n := by decide

theorem draw_cases (bottleId : Int) :
    (draw bottleId = allLow ∧ ¬ (1 ≤ bottleId ∧ bottleId ≤ 8)) ∨
      ∃ n : Fin 8, bottleId = n.val+1 ∧ draw bottleId = pumpInto n := by
  by_cases served : 1 ≤ bottleId ∧ bottleId ≤ 8
  · right
    obtain ⟨n,rfl⟩ : ∃ n : Fin 8, bottleId = n.val+1 :=
      ⟨⟨(bottleId-1).toNat,by omega⟩,by simp only []; omega⟩
    exact ⟨n,rfl,draw_pump n⟩
  · left
    refine ⟨?_,served⟩
    unfold draw
    split
    case h_1 => rfl
    case h_10 => rfl
    all_goals exact absurd (by decide) served

theorem draw_stopped : draw 0 = allLow := rfl

theorem draw_relay (bottleId : Int) : (draw bottleId).relay1 = true ↔ 1 ≤ bottleId ∧ bottleId ≤ 8 := by
  rcases draw_cases bottleId with ⟨low,unserved⟩ | ⟨n,rfl,high⟩
  · simp [low,allLow,unserved]
  · rw [high]
    have bound := n.isLt
    exact ⟨fun _ => by omega,fun _ => rfl⟩

theorem draw_valve (bottleId : Int) (n : Fin 8) : (draw bottleId).valve n = true ↔ bottleId = n.val+1 := by
  rcases draw_cases bottleId with ⟨low,unserved⟩ | ⟨m,rfl,high⟩
  · have bound := n.isLt
    simp only [low,allLow,Bool.false_eq_true,false_iff]
    omega
  · rw [high]
    simp only [pumpInto,beq_iff_eq,Fin.ext_iff]
    omega

structure Leds where
  led1 : Bool
  led2 : Bool
  led3 : Bool
  deriving DecidableEq

def controlStatusLed (statusCode : Int) : Leds :=
  match statusCode with
  | 1 => ⟨false,true,false⟩
  | 2 => ⟨true,false,false⟩
  | 3 => ⟨false,false,true⟩
  | _ => ⟨false,false,false⟩

structure PwmSet where
  channel : Nat
  pulse : UInt32
  deriving DecidableEq

-- The step shared by the two ramp loops, with their change_pwm_ceil.
def rampPulse (changePwmCeil target current : UInt32) : UInt32 :=
  if current ≠ target then
    if current > target then current - changePwmCeil else current + changePwmCeil
  else current

def rampWrite (channel : Nat) (changePwmCeil target current : UInt32) : List PwmSet :=
  if current ≠ target then [⟨channel,rampPulse changePwmCeil target current * 1000⟩] else []

theorem rampPulse_toNat {ceil target current : UInt32} (low : target.toNat < current.toNat → ceil.toNat ≤ current.toNat)
    (high : current.toNat < target.toNat → current.toNat + ceil.toNat < 2^32) :
    (rampPulse ceil target current).toNat = Ramp.approach ceil.toNat target.toNat current.toNat := by
  unfold rampPulse Ramp.approach
  by_cases arrived : current = target
  · simp [arrived]
  · have apart : current.toNat ≠ target.toNat := fun same => arrived (UInt32.toNat_inj.mp same)
    rw [if_pos arrived,if_neg apart]
    by_cases above : current > target
    · have less := UInt32.lt_iff_toNat_lt.mp above
      have room := low less
      have bound := current.toNat_lt
      rw [if_pos above,if_pos less,UInt32.toNat_sub]
      omega
    · have less : ¬ target.toNat < current.toNat := fun below => above (UInt32.lt_iff_toNat_lt.mpr below)
      have room := high (by omega)
      rw [if_neg above,if_neg less,UInt32.toNat_add]
      omega

-- A step of one never passes its target, so it needs no room.
theorem rampPulse_one (target current : UInt32) :
    (rampPulse 1 target current).toNat = Ramp.approach 1 target.toNat current.toNat :=
  rampPulse_toNat Nat.one_le_of_lt fun less => Nat.lt_of_le_of_lt less target.toNat_lt

-- gear_pwm.c
structure Gear where
  currentGearPwm : UInt32
  targetGearPwm : UInt32
  deriving DecidableEq

def Gear.boot : Gear := ⟨1500,1500⟩

def setGearPwm (g : Gear) (gearPwm : UInt32) : Gear := {g with targetGearPwm:=gearPwm}

def loopChangeGear (g : Gear) : Gear × List PwmSet :=
  if g.currentGearPwm - g.targetGearPwm ≠ 0 then
    ({g with currentGearPwm:=rampPulse 1 g.targetGearPwm g.currentGearPwm},
      rampWrite 2 1 g.targetGearPwm g.currentGearPwm)
  else (g,[])

-- motor_pwm.c
structure Motor where
  currentLeftPwm : UInt32
  currentRightPwm : UInt32
  targetLeftPwm : UInt32
  targetRightPwm : UInt32
  deriving DecidableEq

def Motor.boot : Motor := ⟨1500,1500,1500,1500⟩

def loopChangePwm (m : Motor) : Motor × List PwmSet :=
  if m.currentLeftPwm - m.targetLeftPwm ≠ 0 ∨ m.currentRightPwm - m.targetRightPwm ≠ 0 then
    ({m with
      currentLeftPwm:=rampPulse 2 m.targetLeftPwm m.currentLeftPwm
      currentRightPwm:=rampPulse 2 m.targetRightPwm m.currentRightPwm},
      rampWrite 1 2 m.targetLeftPwm m.currentLeftPwm ++ rampWrite 2 2 m.targetRightPwm m.currentRightPwm)
  else (m,[])

def limitPwm (pwm : UInt32) : UInt32 :=
  let pwm := if pwm ≥ 2000 then 2000 else pwm
  if pwm ≤ 1000 then 1000 else pwm

def setPwm (m : Motor) (leftPwm rightPwm : UInt32) : Motor :=
  {m with targetLeftPwm:=limitPwm leftPwm,targetRightPwm:=limitPwm rightPwm}

theorem limitPwm_toNat (pwm : UInt32) : (limitPwm pwm).toNat = min 2000 (max 1000 pwm.toNat) := by
  have above : pwm ≥ 2000 ↔ 2000 ≤ pwm.toNat := UInt32.le_iff_toNat_le
  have below : pwm ≤ 1000 ↔ pwm.toNat ≤ 1000 := UInt32.le_iff_toNat_le
  unfold limitPwm
  by_cases high : pwm ≥ 2000
  · have bound := above.mp high
    simp only [if_pos high]
    rw [if_neg (by decide)]
    change 2000 = _
    omega
  · have bound : ¬ 2000 ≤ pwm.toNat := fun overdue => high (above.mpr overdue)
    simp only [if_neg high]
    by_cases low : pwm ≤ 1000
    · have under := below.mp low
      rw [if_pos low]
      change 1000 = _
      omega
    · have overdue : ¬ pwm.toNat ≤ 1000 := fun under => low (below.mpr under)
      rw [if_neg low]
      omega

theorem sub_ne_zero (current target : UInt32) : current - target ≠ 0 ↔ current ≠ target := by
  have bounds := And.intro current.toNat_lt target.toNat_lt
  have zero : current - target = 0 ↔ current = target := by
    rw [← UInt32.toNat_inj,← UInt32.toNat_inj,UInt32.toNat_sub]
    change (2^32 - target.toNat + current.toNat) % 2^32 = 0 ↔ _
    omega
  exact not_congr zero

-- Both loops ramp unconditionally: their outer tests only skip idle iterations.
theorem loopChangeGear_current (g : Gear) :
    (loopChangeGear g).1 = {g with currentGearPwm:=rampPulse 1 g.targetGearPwm g.currentGearPwm} := by
  unfold loopChangeGear
  split
  · rfl
  · rename_i idle
    have same : g.currentGearPwm = g.targetGearPwm := by
      simpa only [sub_ne_zero,Decidable.not_not] using idle
    cases g
    simp_all [rampPulse]

theorem loopChangeGear_still (g : Gear) (still : g.currentGearPwm = g.targetGearPwm) : (loopChangeGear g).1 = g := by
  rw [loopChangeGear_current,rampPulse,if_neg (not_not_intro still)]

theorem loopChangePwm_current (m : Motor) :
    (loopChangePwm m).1 = {m with
      currentLeftPwm:=rampPulse 2 m.targetLeftPwm m.currentLeftPwm
      currentRightPwm:=rampPulse 2 m.targetRightPwm m.currentRightPwm} := by
  unfold loopChangePwm
  split
  · rfl
  · rename_i idle
    rw [not_or] at idle
    have left : m.currentLeftPwm = m.targetLeftPwm := by
      simpa only [sub_ne_zero,Decidable.not_not] using idle.1
    have right : m.currentRightPwm = m.targetRightPwm := by
      simpa only [sub_ne_zero,Decidable.not_not] using idle.2
    cases m
    simp_all [rampPulse]

end UsvRt
