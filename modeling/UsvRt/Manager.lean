import UsvRt.Runs
import UsvRt.Sampler

namespace UsvRt
open MachineWord

structure Obstacle where
  minDistance : Int
  obstacleTick : UInt32
  deriving DecidableEq

def Obstacle.boot : Obstacle := ⟨10000,0⟩

structure Drive where
  currentMode : Int
  leftPwm : UInt32
  rightPwm : UInt32
  remoteForwardPwm : Int
  remoteSteerPwm : Int
  motor : Motor
  deriving DecidableEq

def Drive.boot : Drive := ⟨2,1500,1500,1500,1500,.boot⟩

-- (int)(speed_pwm*cos(degrees*d2r)) and its sine, as the C library and the
-- double arithmetic of the board return them.
structure Libm where
  cosPwm : Int → Int → Int
  sinPwm : Int → Int → Int

def Libm.level : Libm := ⟨fun speed degrees => if degrees = 0 then speed else 0,fun _ _ => 0⟩

-- Sums of ints are left exact: the conversion to u_int reduces them anyway. Only
-- the signed division sees the wrapped operand.
def Drive.remote (d : Drive) (r : Remote) : Drive :=
  let remoteForwardPwm := asInt ((100 - r.col)*10 + 1000)
  let remoteSteerPwm := asInt (r.row*10 + 1000)
  let steer := (wrap (remoteSteerPwm - 1500)).tdiv 2
  let leftPwm := UInt32.ofInt (1500 + (remoteForwardPwm - 1500) + steer)
  let rightPwm := UInt32.ofInt (1500 + (remoteForwardPwm - 1500) - steer)
  {d with
    remoteForwardPwm:=remoteForwardPwm
    remoteSteerPwm:=remoteSteerPwm
    leftPwm:=leftPwm
    rightPwm:=rightPwm
    motor:=setPwm d.motor leftPwm rightPwm}

def manualMix (libm : Libm) (controlVal speedPwm : Int) : Int × Int :=
  if controlVal = -1 then (0,0)
  else if controlVal < 90 then (libm.cosPwm speedPwm controlVal,-1 * libm.sinPwm speedPwm controlVal)
  else if controlVal < 180 then
    (-1 * libm.sinPwm speedPwm (controlVal-90),libm.cosPwm speedPwm (controlVal-90))
  else if controlVal < 270 then
    (-1 * libm.cosPwm speedPwm (controlVal-180),-1 * libm.sinPwm speedPwm (controlVal-180))
  else (libm.sinPwm speedPwm (controlVal-270),libm.cosPwm speedPwm (controlVal-270))

def Drive.manual (libm : Libm) (d : Drive) (g : Control) : Drive :=
  let (forwardPwm,steerPwm) := manualMix libm g.controlVal (wrap (100*g.handSpeed))
  let leftPwm := UInt32.ofInt (1500 + forwardPwm + steerPwm)
  let rightPwm := UInt32.ofInt (1500 + forwardPwm - steerPwm)
  {d with leftPwm:=leftPwm,rightPwm:=rightPwm,motor:=setPwm d.motor leftPwm rightPwm}

-- Mode 3 works on two locals that shadow the globals; `cruise` is what
-- auto_cruise_pid stores in them.
def Drive.auto (d : Drive) (cruise : UInt32 × UInt32) : Drive :=
  {d with motor:=setPwm d.motor cruise.1 cruise.2}

def Drive.output (libm : Libm) (cruise : UInt32 × UInt32) (g : Control) (r : Remote) (d : Drive) : Drive :=
  if d.currentMode = 1 then d.remote r
  else if d.currentMode = 2 then d.manual libm g
  else if d.currentMode = 3 then d.auto cruise
  else d

theorem Drive.output_mode (libm : Libm) (cruise : UInt32 × UInt32) (g : Control) (r : Remote) (d : Drive) :
    (d.output libm cruise g r).currentMode = d.currentMode := by
  unfold output
  split
  · simp only [Drive.remote]
  · split
    · simp only [Drive.manual]
    · split
      · simp only [Drive.auto]
      · rfl

-- `now` counts all ticks since boot; rt_tick_get() is its low word.
structure Usv where
  now : Nat
  control : Control
  link : Link
  reply : Reply
  remote : Remote
  obstacle : Obstacle
  leds : Leds
  drive : Drive
  sampler : Sampler
  deriving DecidableEq

namespace Usv

def boot : Usv := ⟨0,.boot,.boot,.boot,.boot,.boot,controlStatusLed 2,.boot,.boot⟩

def tick (s : Usv) : UInt32 := stamp s.now

def timeouts (s : Usv) : Usv :=
  {s with
    obstacle:=if s.tick - s.obstacle.obstacleTick > 1500 then {s.obstacle with minDistance:=10000} else s.obstacle
    remote:=if s.tick - s.remote.recTick > 1500 then {s.remote with key0:=0} else s.remote
    link:=if s.tick - s.link.recServerTick > 16000 then {s.link with isConnect:=0} else s.link}

-- The iteration sees key[0]==0, its own time-out check included.
def Released (s : Usv) : Prop := s.timeouts.remote.key0 = 0

instance (s : Usv) : Decidable s.Released := inferInstanceAs (Decidable (_ = _))

def showStatus (s : Usv) : Usv :=
  {s with leds:=controlStatusLed <|
    if s.remote.key0 = 1 then 1
    else if s.control.networkBackhome = 1 ∨ s.control.energyBackhome = 1 then 2
    else if s.link.isConnect = 1 then 3
    else 2}

def selectedMode (s : Usv) : Int :=
  if s.remote.key0 = 1 then 1
  else if s.control.targetLat > 1 ∧ s.control.targetLng > 1 ∧ s.control.controlMode ≠ 4 then 3
  else 2

def selectMode (s : Usv) : Usv := {s with drive:={s.drive with currentMode:=s.selectedMode}}

def driveMotors (libm : Libm) (cruise : UInt32 × UInt32) (s : Usv) : Usv :=
  {s with drive:=s.drive.output libm cruise s.control s.remote}

def sampleWater (s : Usv) : Usv := {s with sampler:=s.sampler.manage s.tick s.remote}

-- One iteration of the manager loop. All its clock reads fall in one tick.
def manager (libm : Libm) (cruise : UInt32 × UInt32) (s : Usv) : Usv :=
  (driveMotors libm cruise s.timeouts.showStatus.selectMode).sampleWater

def decoded (s : Usv) (c : ServerCommand) : Usv :=
  {s with
    control:=s.control.apply c
    sampler:=s.sampler.apply c
    link:=s.link.apply s.tick c
    reply:=s.reply.request c}

end Usv

inductive Occurrence where
  | wait (ticks : Nat)
  | heard
  | server (c : ServerCommand)
  | radio (c : RadioCommand)
  | manager (cruise : UInt32 × UInt32)
  | changePwm
  | changeGear
  deriving DecidableEq

def Usv.step (libm : Libm) (s : Usv) : Occurrence → Usv
  | .wait ticks => {s with now:=s.now+ticks}
  | .heard => {s with link:=s.link.heard s.tick}
  | .server c => s.decoded c
  | .radio c => {s with remote:=s.remote.apply s.tick c}
  | .manager cruise => s.manager libm cruise
  | .changePwm => {s with drive:={s.drive with motor:=(loopChangePwm s.drive.motor).1}}
  | .changeGear => {s with sampler:={s.sampler with gear:=(loopChangeGear s.sampler.gear).1}}

def Usv.Reached (libm : Libm) : Usv → Prop := Runs.Reached (Usv.step libm) Usv.boot

namespace Usv
variable (libm : Libm) (cruise : UInt32 × UInt32) (s : Usv)

theorem manager_drive : (s.manager libm cruise).drive =
    {s.drive with currentMode:=s.timeouts.selectedMode}.output libm cruise s.control s.timeouts.remote := rfl

theorem manager_mode : (s.manager libm cruise).drive.currentMode = s.timeouts.selectedMode := by
  rw [manager_drive,Drive.output_mode]

theorem selected_cases : s.selectedMode = 1 ∨ s.selectedMode = 2 ∨ s.selectedMode = 3 := by
  unfold selectedMode
  split
  · exact .inl rfl
  · split
    · exact .inr (.inr rfl)
    · exact .inr (.inl rfl)

theorem manager_motor : (s.manager libm cruise).drive.motor =
    if s.timeouts.selectedMode = 1 then (s.drive.remote s.timeouts.remote).motor
    else if s.timeouts.selectedMode = 2 then (s.drive.manual libm s.control).motor
    else (s.drive.auto cruise).motor := by
  rw [manager_drive]
  unfold Drive.output
  dsimp only
  rcases selected_cases s.timeouts with one | two | three
  · simp only [one,if_true]; rfl
  · simp only [two,if_true]; rfl
  · simp only [three,if_true]; rfl

theorem remote_mode : (s.manager libm cruise).drive.currentMode = 1 ↔ s.timeouts.remote.key0 = 1 := by
  rw [manager_mode]
  unfold selectedMode
  split
  · rename_i enabled; simp [enabled]
  · rename_i released
    split <;> simp [released]

-- The time-outs clear two flags and leave the rest of the remote and the link.
theorem timeouts_kept :
    s.timeouts.remote = {s.remote with key0:=s.timeouts.remote.key0} ∧
      s.timeouts.link = {s.link with isConnect:=s.timeouts.link.isConnect} := by
  unfold timeouts
  dsimp only
  constructor
  · split <;> rfl
  · split <;> rfl

theorem timeouts_key : s.timeouts.remote.key0 = if s.tick - s.remote.recTick > 1500 then 0 else s.remote.key0 := by
  unfold timeouts
  dsimp only
  split <;> rfl

theorem timeouts_connect :
    s.timeouts.link.isConnect = if s.tick - s.link.recServerTick > 16000 then 0 else s.link.isConnect := by
  unfold timeouts
  dsimp only
  split <;> rfl

end Usv
end UsvRt
