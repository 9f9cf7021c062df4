import UsvRt.Actuators
import UsvRt.RadioProtocol
import UsvRt.ServerProtocol

namespace UsvRt
open MachineWord

-- The sampling state of manager.c together with the hose servo and the pump pins
-- it drives.
structure Sampler where
  drawStatus : Int
  bottleId : Int
  bottleDeep : Int
  bottleAmount : Int
  fullDrawTime : Int
  dumpDrawTime : Int
  drawStartTick : UInt32
  isDraw : Int
  deepPwm : Int
  gear : Gear
  pins : Pins
  deriving DecidableEq

def Sampler.boot : Sampler := ⟨0,0,0,0,0,0,0,0,800,.boot,allLow⟩

def maxGeerPwm : UInt32 := 2400
def minGeerPwm : UInt32 := 800
def maxDrawAmount : Int := 1000
def drawSpeed : Int := 2000

-- (int)(1400-bottle_deep*(1400-min_geer_pwm)/5): the product is unsigned.
def depthPulse (bottleDeep : Int) : Int :=
  asInt (1400 - UInt32.ofInt bottleDeep * (1400 - minGeerPwm) / 5)

def fullTime (bottleAmount : Int) : Int := (600*bottleAmount).tdiv drawSpeed

def remoteDrawTicks : UInt32 := UInt32.ofInt ((60000*maxDrawAmount).tdiv drawSpeed)
def drawTicks (bottleAmount : Int) : UInt32 := UInt32.ofInt (fullTime bottleAmount*1000)

def Sampler.apply (s : Sampler) : ServerCommand → Sampler
  | .sample bottleId bottleDeep bottleAmount =>
    {s with bottleId:=bottleId,bottleDeep:=bottleDeep,bottleAmount:=bottleAmount,drawStatus:=0}
  | _ => s

namespace Sampler

def started (drawStartTick tick : UInt32) : UInt32 := if drawStartTick = 0 then tick else drawStartTick

def hose (s : Sampler) (gearPwm : UInt32) : Sampler := {s with gear:=setGearPwm s.gear gearPwm}

-- manager.c, key[0]==1.
def remoteBranch (s : Sampler) (tick : UInt32) (remote : Remote) : Sampler :=
  let s := if remote.key1 = 1 then s.hose minGeerPwm else s.hose maxGeerPwm
  if remote.key2 = 1 ∧ s.isDraw ≠ 1 then
    let s := {s with drawStartTick:=started s.drawStartTick tick}
    if tick - s.drawStartTick < remoteDrawTicks then {s with pins:=draw 1}
    else {s with pins:=draw 0,isDraw:=1,drawStartTick:=0}
  else {s with pins:=draw 0,isDraw:=0,drawStartTick:=0}

-- manager.c, key[0]!=1. While the hose travels nothing is written to the pins.
def serverBranch (s : Sampler) (tick : UInt32) : Sampler :=
  if s.bottleId ≠ 0 ∧ s.drawStatus ≠ 4 then
    let s := {s with deepPwm:=depthPulse s.bottleDeep}
    if s.gear.currentGearPwm ≠ UInt32.ofInt s.deepPwm then
      {s.hose (UInt32.ofInt s.deepPwm) with drawStatus:=1}
    else
      let s := {s with drawStartTick:=started s.drawStartTick tick,fullDrawTime:=fullTime s.bottleAmount}
      if tick - s.drawStartTick < UInt32.ofInt (s.fullDrawTime*1000) then
        {s with
          dumpDrawTime:=asInt (UInt32.ofInt s.fullDrawTime - (tick - s.drawStartTick)/1000)
          pins:=draw s.bottleId
          drawStatus:=2}
      else {s with fullDrawTime:=0,dumpDrawTime:=0,pins:=draw 0,drawStartTick:=0,drawStatus:=4}
  else {s.hose maxGeerPwm with fullDrawTime:=0,dumpDrawTime:=0,pins:=draw 0,drawStartTick:=0}

def manage (s : Sampler) (tick : UInt32) (remote : Remote) : Sampler :=
  if remote.key0 = 1 then s.remoteBranch tick remote else s.serverBranch tick

def Pending (s : Sampler) : Prop := s.bottleId ≠ 0 ∧ s.drawStatus ≠ 4
def AtDepth (s : Sampler) : Prop := s.gear.currentGearPwm = UInt32.ofInt (depthPulse s.bottleDeep)
def hosePulse (remote : Remote) : UInt32 := if remote.key1 = 1 then minGeerPwm else maxGeerPwm

instance (s : Sampler) : Decidable s.Pending := inferInstanceAs (Decidable (_ ∧ _))
instance (s : Sampler) : Decidable s.AtDepth := inferInstanceAs (Decidable (_ = _))

-- Everything one manager iteration can do to the sampling state, by its guards.
inductive Managed (s : Sampler) (tick : UInt32) (remote : Remote) : Sampler → Prop where
  | remotePump (enabled : remote.key0 = 1) (pressed : remote.key2 = 1) (ready : s.isDraw ≠ 1)
      (running : tick - started s.drawStartTick tick < remoteDrawTicks) :
      Managed s tick remote {s with gear:=setGearPwm s.gear (hosePulse remote),drawStartTick:=started s.drawStartTick tick,pins:=draw 1}
  | remoteTimeout (enabled : remote.key0 = 1) (pressed : remote.key2 = 1) (ready : s.isDraw ≠ 1)
      (overdue : ¬ tick - started s.drawStartTick tick < remoteDrawTicks) :
      Managed s tick remote {s with gear:=setGearPwm s.gear (hosePulse remote),pins:=draw 0,isDraw:=1,drawStartTick:=0}
  | remoteOff (enabled : remote.key0 = 1) (unpressed : ¬ (remote.key2 = 1 ∧ s.isDraw ≠ 1)) :
      Managed s tick remote {s with gear:=setGearPwm s.gear (hosePulse remote),pins:=draw 0,isDraw:=0,drawStartTick:=0}
  | travel (released : remote.key0 ≠ 1) (pending : s.Pending) (away : ¬ s.AtDepth) :
      Managed s tick remote {s with
        deepPwm:=depthPulse s.bottleDeep
        gear:=setGearPwm s.gear (UInt32.ofInt (depthPulse s.bottleDeep))
        drawStatus:=1}
  | pump (released : remote.key0 ≠ 1) (pending : s.Pending) (there : s.AtDepth)
      (running : tick - started s.drawStartTick tick < drawTicks s.bottleAmount) :
      Managed s tick remote {s with
        deepPwm:=depthPulse s.bottleDeep
        drawStartTick:=started s.drawStartTick tick
        fullDrawTime:=fullTime s.bottleAmount
        dumpDrawTime:=asInt (UInt32.ofInt (fullTime s.bottleAmount) - (tick - started s.drawStartTick tick)/1000)
        pins:=draw s.bottleId
        drawStatus:=2}
  | finish (released : remote.key0 ≠ 1) (pending : s.Pending) (there : s.AtDepth)
      (overdue : ¬ tick - started s.drawStartTick tick < drawTicks s.bottleAmount) :
      Managed s tick remote {s with
        deepPwm:=depthPulse s.bottleDeep
        fullDrawTime:=0
        dumpDrawTime:=0
        pins:=draw 0
        drawStartTick:=0
        drawStatus:=4}
  | rest (released : remote.key0 ≠ 1) (idle : ¬ s.Pending) :
      Managed s tick remote {s with
        gear:=setGearPwm s.gear maxGeerPwm
        fullDrawTime:=0
        dumpDrawTime:=0
        pins:=draw 0
        drawStartTick:=0}

theorem remote_managed (s : Sampler) (tick : UInt32) (remote : Remote) (enabled : remote.key0 = 1) :
    Managed s tick remote (s.remoteBranch tick remote) := by
  have moved : (if remote.key1 = 1 then s.hose minGeerPwm else s.hose maxGeerPwm) = s.hose (hosePulse remote) := by
    unfold hosePulse; split <;> rfl
  unfold remoteBranch
  rw [moved]
  dsimp only [hose]
  split
  · rename_i pumping
    split
    · rename_i running; exact .remotePump enabled pumping.1 pumping.2 running
    · rename_i overdue; exact .remoteTimeout enabled pumping.1 pumping.2 overdue
  · rename_i unpressed; exact .remoteOff enabled unpressed

theorem server_managed (s : Sampler) (tick : UInt32) (remote : Remote) (released : remote.key0 ≠ 1) :
    Managed s tick remote (s.serverBranch tick) := by
  unfold serverBranch
  split
  · rename_i pending
    dsimp only [hose]
    split
    · rename_i away
      have away : ¬ s.AtDepth := by unfold AtDepth; exact away
      exact .travel released pending away
    · rename_i there
      have there : s.AtDepth := by unfold AtDepth; exact Decidable.not_not.mp there
      rw [← drawTicks]
      split
      · rename_i running
        exact .pump released pending there running
      · rename_i overdue
        exact .finish released pending there overdue
  · rename_i idle
    dsimp only [hose]
    exact .rest released idle

theorem manage_sound (s : Sampler) (tick : UInt32) (remote : Remote) :
    Managed s tick remote (s.manage tick remote) := by
  unfold manage
  split
  · rename_i enabled; exact remote_managed s tick remote enabled
  · rename_i released; exact server_managed s tick remote released

-- The guards exclude each other, so the rules are the iteration itself.
theorem manage_exact (s : Sampler) (tick : UInt32) (remote : Remote) :
    s.manage tick remote = next ↔ Managed s tick remote next := by
  constructor
  · rintro rfl; exact manage_sound s tick remote
  · intro other
    have own := manage_sound s tick remote
    generalize s.manage tick remote = result at own
    cases own <;> cases other <;> first | rfl | (exfalso; simp_all)

-- An iteration never changes the command it works on.
theorem manage_kept (s : Sampler) (tick : UInt32) (remote : Remote) :
    (s.manage tick remote).bottleId = s.bottleId ∧ (s.manage tick remote).bottleDeep = s.bottleDeep ∧
      (s.manage tick remote).bottleAmount = s.bottleAmount := by
  have managed := manage_sound s tick remote
  generalize s.manage tick remote = next at managed
  cases managed <;> exact ⟨rfl,rfl,rfl⟩

end Sampler

theorem fullTime_scaled (bottleAmount : Int) (positive : 0 ≤ bottleAmount) :
    fullTime bottleAmount = 600*bottleAmount/2000 := by
  unfold fullTime drawSpeed
  exact Int.tdiv_eq_ediv_of_nonneg (by omega)

theorem drawTicks_toNat (bottleAmount : Int) (positive : 0 ≤ bottleAmount)
    (fits : 1000*fullTime bottleAmount < 2^32) :
    ((drawTicks bottleAmount).toNat : Int) = 1000*fullTime bottleAmount := by
  have scaled := fullTime_scaled bottleAmount positive
  unfold drawTicks
  rw [ofInt_small (by omega) (by omega)]
  omega

theorem Sampler.apply_other (s : Sampler) (c : ServerCommand)
    (other : ∀ bottleId bottleDeep bottleAmount, c ≠ .sample bottleId bottleDeep bottleAmount) :
    s.apply c = s := by
  cases c with
  | sample bottleId bottleDeep bottleAmount => exact absurd rfl (other bottleId bottleDeep bottleAmount)
  | target | control | settings | gains | compass | heartbeat => rfl

end UsvRt
