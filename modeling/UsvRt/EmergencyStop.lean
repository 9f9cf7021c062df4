import UsvRt.ServerRecovery

-- From the bytes of a stop message to motors at rest: receiver, mode, mix and ramp.
namespace UsvRt.EmergencyStop
open Runs

-- Both pulses stay even between full astern and full ahead, so that a ramp of two
-- meets the neutral pulse instead of passing it.
structure Ramped (m : Motor) : Prop where
  left : Ramp.Within 2 1000 2000 m.currentLeftPwm.toNat
  right : Ramp.Within 2 1000 2000 m.currentRightPwm.toNat
  leftAbove : 1000 ≤ m.targetLeftPwm.toNat
  leftBelow : m.targetLeftPwm.toNat ≤ 2000
  rightAbove : 1000 ≤ m.targetRightPwm.toNat
  rightBelow : m.targetRightPwm.toNat ≤ 2000

theorem ramped_boot : Ramped .boot :=
  ⟨by decide,by decide,by decide,by decide,by decide,by decide⟩

theorem ramped_set (ramped : Ramped m) (leftPwm rightPwm : UInt32) : Ramped (setPwm m leftPwm rightPwm) := by
  have left := limitPwm_toNat leftPwm
  have right := limitPwm_toNat rightPwm
  refine ⟨ramped.left,ramped.right,?_,?_,?_,?_⟩ <;> simp only [setPwm] <;> omega

theorem pulse_within (ceil target current : UInt32) (pace : ceil.toNat = 2)
    (within : Ramp.Within 2 1000 2000 current.toNat) :
    (rampPulse ceil target current).toNat = Ramp.approach 2 target.toNat current.toNat := by
  have above := within.above
  have below := within.below
  rw [rampPulse_toNat (fun _ => by omega) (fun _ => by omega),pace]

theorem ramped_loop (ramped : Ramped m) : Ramped (loopChangePwm m).1 := by
  rw [loopChangePwm_current]
  refine ⟨?_,?_,ramped.leftAbove,ramped.leftBelow,ramped.rightAbove,ramped.rightBelow⟩
  · dsimp only
    rw [pulse_within 2 _ _ rfl ramped.left]
    exact ramped.left.approach (by decide) ramped.leftAbove ramped.leftBelow
  · dsimp only
    rw [pulse_within 2 _ _ rfl ramped.right]
    exact ramped.right.approach (by decide) ramped.rightAbove ramped.rightBelow

theorem ramped_step (libm : Libm) (s : Usv) (e : Occurrence) (ramped : Ramped s.drive.motor) :
    Ramped (s.step libm e).drive.motor := by
  cases e with
  | wait | heard | server | radio | changeGear => exact ramped
  | changePwm => exact ramped_loop ramped
  | manager cruise =>
    change Ramped (s.manager libm cruise).drive.motor
    rw [Usv.manager_motor]
    split
    · exact ramped_set ramped _ _
    · split
      · exact ramped_set ramped _ _
      · exact ramped_set ramped _ _

def MotorsRamped (s : Usv) : Prop := Ramped s.drive.motor

theorem motors_ramped (reached : Usv.Reached libm s) : MotorsRamped s := by
  refine Runs.Reached.invariant ?_ ?_ reached
  · exact ramped_step libm
  · exact ramped_boot

theorem loop_iterate (ramped : Ramped m) (count : Nat) :
    ((fun m => (loopChangePwm m).1)^[count] m).currentLeftPwm.toNat =
        (Ramp.approach 2 m.targetLeftPwm.toNat)^[count] m.currentLeftPwm.toNat ∧
      ((fun m => (loopChangePwm m).1)^[count] m).currentRightPwm.toNat =
        (Ramp.approach 2 m.targetRightPwm.toNat)^[count] m.currentRightPwm.toNat := by
  induction count generalizing m with
  | zero => exact ⟨rfl,rfl⟩
  | succ count ih =>
    obtain ⟨left,right⟩ := ih (ramped_loop ramped)
    simp only [Function.iterate_succ_apply]
    rw [left,right,loopChangePwm_current]
    dsimp only
    rw [pulse_within 2 _ _ rfl ramped.left,pulse_within 2 _ _ rfl ramped.right]
    exact ⟨rfl,rfl⟩

def Neutral (m : Motor) : Prop := m.targetLeftPwm = 1500 ∧ m.targetRightPwm = 1500

theorem neutral_arrives (ramped : Ramped m) (neutral : Neutral m) (enough : 250 ≤ count) :
    ((fun m => (loopChangePwm m).1)^[count] m).currentLeftPwm = 1500 ∧
      ((fun m => (loopChangePwm m).1)^[count] m).currentRightPwm = 1500 := by
  obtain ⟨left,right⟩ := loop_iterate ramped count
  have goal : Ramp.Within 2 1000 2000 1500 := by decide
  have meets : ∀ current, Ramp.Within 2 1000 2000 current → (Ramp.approach 2 1500)^[count] current = 1500 := by
    intro current within
    have above := within.above
    have below := within.below
    exact within.arrives (by decide) goal (by omega) (by omega)
  rw [neutral.1] at left
  rw [neutral.2] at right
  have left := left.trans (meets _ ramped.left)
  have right := right.trans (meets _ ramped.right)
  exact ⟨UInt32.toNat_inj.mp left,UInt32.toNat_inj.mp right⟩

structure Ordered (g : Control) : Prop where
  controlVal : g.controlVal = -1
  unaimed : ¬ (g.targetLat > 1 ∧ g.targetLng > 1 ∧ g.controlMode ≠ 4)

theorem stop_selected (s : Usv) (ordered : Ordered s.control) (released : s.Released) : s.timeouts.selectedMode = 2 := by
  have key : ¬ s.timeouts.remote.key0 = 1 := by
    rw [released]; decide
  unfold Usv.selectedMode
  rw [if_neg key]
  exact if_neg ordered.unaimed

theorem stop_manager (libm : Libm) (cruise : UInt32 × UInt32) (s : Usv) (ordered : Ordered s.control)
    (released : s.Released) :
    (s.manager libm cruise).drive.currentMode = 2 ∧
      (s.manager libm cruise).drive.motor = {s.drive.motor with targetLeftPwm:=1500,targetRightPwm:=1500} := by
  have mode := stop_selected s ordered released
  rw [Usv.manager_mode,Usv.manager_motor,mode]
  refine ⟨rfl,?_⟩
  rw [if_neg (by decide),if_pos rfl]
  simp only [Drive.manual,manualMix,ordered.controlVal,if_true]
  rfl

-- No server message ends, and every iteration finds the remote released.
def Quiet (d : Device) : Input → Prop
  | .serverByte loraChar => loraChar ≠ byteZ
  | .manager _ => d.usv.Released
  | _ => True

instance (d : Device) (i : Input) : Decidable (Quiet d i) :=
  match i with
  | .serverByte _ => inferInstanceAs (Decidable (_ ≠ _))
  | .manager _ => inferInstanceAs (Decidable (Usv.Released _))
  | .wait _ | .radioByte _ | .changePwm | .changeGear => inferInstanceAs (Decidable True)

theorem quiet_byte (libm : Libm) (d : Device) (loraChar : UInt8) (inner : loraChar ≠ byteZ) :
    (d.step libm (.serverByte loraChar)).usv = d.usv.step libm .heard := by
  rw [Device.server_byte,d.server.receive_inner inner]

theorem radio_kept (libm : Libm) (d : Device) (loraChar : UInt8) :
    (d.step libm (.radioByte loraChar)).usv.control = d.usv.control ∧
      (d.step libm (.radioByte loraChar)).usv.drive = d.usv.drive := by
  rw [Device.radio_byte]
  cases (d.radio.receive loraChar).2 with
  | none => exact ⟨rfl,rfl⟩
  | some c => exact ⟨rfl,rfl⟩

theorem quiet_control (libm : Libm) (d : Device) (i : Input) (quiet : Quiet d i) :
    (d.step libm i).usv.control = d.usv.control := by
  cases i with
  | wait | changePwm | changeGear | manager => rfl
  | serverByte loraChar => rw [quiet_byte libm d loraChar quiet]; rfl
  | radioByte loraChar => exact (radio_kept libm d loraChar).1

def moves (motor : Motor) : Input → Motor
  | .changePwm => (loopChangePwm motor).1
  | _ => motor

-- Once both targets are neutral, only the ramp loop acts on the motors.
theorem quiet_motor (libm : Libm) (d : Device) (i : Input) (ordered : Ordered d.usv.control)
    (neutral : Neutral d.usv.drive.motor) (quiet : Quiet d i) :
    (d.step libm i).usv.drive.motor = moves d.usv.drive.motor i := by
  cases i with
  | wait | changePwm | changeGear => rfl
  | serverByte loraChar => rw [quiet_byte libm d loraChar quiet]; rfl
  | radioByte loraChar => exact congrArg Drive.motor (radio_kept libm d loraChar).2
  | manager cruise =>
    refine (stop_manager libm cruise d.usv ordered quiet).2.trans ?_
    obtain ⟨left,right⟩ := neutral
    generalize d.usv.drive.motor = m at left right
    cases m
    dsimp only at left right
    subst left right
    rfl

theorem moves_neutral (neutral : Neutral m) (i : Input) : Neutral (moves m i) := by
  cases i with
  | changePwm =>
    change Neutral (loopChangePwm m).1
    rw [loopChangePwm_current]
    exact neutral
  | wait | serverByte | radioByte | manager | changeGear => exact neutral

theorem quiet_run (libm : Libm) (d : Device) (inputs : List Input) (ordered : Ordered d.usv.control)
    (neutral : Neutral d.usv.drive.motor) (quiet : Along (Device.step libm) Quiet d inputs) :
    (run (Device.step libm) d inputs).usv.drive.motor =
      (fun m => (loopChangePwm m).1)^[inputs.count .changePwm] d.usv.drive.motor := by
  induction inputs generalizing d with
  | nil => rfl
  | cons i rest ih =>
    have motor := quiet_motor libm d i ordered neutral quiet.1
    have next := ih (d.step libm i) (by rw [quiet_control libm d i quiet.1]; exact ordered)
      (by rw [motor]; exact moves_neutral neutral i) quiet.2
    rw [run_cons,next,motor]
    cases i with
    | changePwm => rw [List.count_cons_self,Function.iterate_succ_apply]; rfl
    | wait | serverByte | radioByte | manager | changeGear => rw [List.count_cons_of_ne (by simp)]; rfl

def modeText (hold : Bool) : List UInt8 := if hold then [52] else [51]

theorem modeText_field (hold : Bool) : FieldText (modeText hold) := by
  cases hold <;> decide

theorem neutral_field : FieldText [45,49] := by decide

-- S3,-1,3Z and S3,-1,4Z.
def stopMessage (hold : Bool) : ServerMessage :=
  ⟨3,[[45,49],modeText hold],arity_control,by simpa using ⟨neutral_field,modeText_field hold⟩,by cases hold <;> decide⟩

theorem stopMessage_command (hold : Bool) :
    (stopMessage hold).command = some (.control (-1) (if hold then 4 else 3)) := by
  cases hold <;> decide

theorem stop_ordered (libm : Libm) (d : Device) (sound : d.server.Sound) (idle : d.server.loraBufferIndex = 0)
    (hold : Bool) : Ordered (d.feed libm (stopMessage hold).bytes).usv.control := by
  have globals := Device.feed_message libm d sound idle (stopMessage hold)
  rw [stopMessage_command] at globals
  have control : (d.feed libm (stopMessage hold).bytes).usv.control =
      d.usv.control.apply (.control (-1) (if hold then 4 else 3)) := congrArg Globals.control globals
  rw [control]
  cases hold with
  | true => exact ⟨rfl,fun aimed => aimed.2.2 rfl⟩
  | false =>
    refine ⟨rfl,?_⟩
    rintro ⟨latitude,_⟩
    exact absurd latitude (by simp [Control.apply,Control.assign])

def Halts (libm : Libm) (d : Device) (i : Input) : Prop :=
  ∀ cruise, i = .manager cruise →
    (d.step libm i).usv.drive.currentMode = 2 ∧ Neutral (d.step libm i).usv.drive.motor

def AtRest (m : Motor) : Prop := m.currentLeftPwm = 1500 ∧ m.currentRightPwm = 1500

theorem stop_step (libm : Libm) (d : Device) (i : Input) (ordered : Ordered d.usv.control) (quiet : Quiet d i) :
    Halts libm d i := by
  rintro cruise rfl
  obtain ⟨mode,motor⟩ := stop_manager libm cruise d.usv ordered quiet
  refine ⟨mode,?_⟩
  change Neutral (d.usv.manager libm cruise).drive.motor
  rw [motor]
  exact ⟨rfl,rfl⟩

theorem emergency_stop (libm : Libm) (d : Device) (reached : Device.Reached libm d)
    (idle : d.server.loraBufferIndex = 0) (hold : Bool) (inputs : List Input)
    (quiet : Along (Device.step libm) Quiet (d.feed libm (stopMessage hold).bytes) inputs) :
    Along (Device.step libm) (Halts libm) (d.feed libm (stopMessage hold).bytes) inputs ∧
      ∀ before cruise after, inputs = before++.manager cruise::after → 250 ≤ after.count .changePwm →
        AtRest (run (Device.step libm) (d.feed libm (stopMessage hold).bytes) inputs).usv.drive.motor := by
  have initial := stop_ordered libm d (Device.server_sound reached) idle hold
  have started : Device.Reached libm (d.feed libm (stopMessage hold).bytes) := reached.run _
  generalize d.feed libm (stopMessage hold).bytes = s at *
  have preserved : ∀ t i, Ordered t.usv.control → Quiet t i → Ordered (Device.step libm t i).usv.control := by
    intro t i ordered allowed
    rw [quiet_control libm t i allowed]
    exact ordered
  refine ⟨invariant_along preserved (stop_step libm) initial quiet,?_⟩
  rintro before cruise after rfl enough
  obtain ⟨first,here,later⟩ := (along_append _ _).mp quiet
  have ordered : Ordered (run (Device.step libm) s before).usv.control := invariant_run preserved initial first
  have neutral := (stop_step libm _ (.manager cruise) ordered here cruise rfl).2
  have next := preserved _ _ ordered here
  have ramped := motors_ramped ((started.run before).run [.manager cruise]).usv
  rw [run_append,run_cons,quiet_run libm _ after next neutral later]
  exact neutral_arrives ramped neutral enough

def departure : List Input :=
  ([83,51,44,48,44,49,90].map .serverByte) ++ .manager (1500,1500)::List.replicate 20 .changePwm

def underway : Device := run (Device.step .level) (Device.boot silentStack) departure

def stopping : List Input := .manager (1500,1500)::List.replicate 250 .changePwm

theorem underway_stops :
    underway.usv.drive.motor.currentLeftPwm = 1540 ∧
      AtRest (run (Device.step .level) (underway.feed .level (stopMessage false).bytes) stopping).usv.drive.motor :=
  ⟨by decide +kernel,
    (emergency_stop .level underway ⟨silentStack,departure,rfl⟩ (by decide +kernel) false stopping
      (by decide +kernel)).2 [] (1500,1500) (List.replicate 250 .changePwm) rfl (by decide +kernel)⟩

end UsvRt.EmergencyStop
