import UsvRt.ServerRecovery
import UsvRt.Supervision

-- The remote is obeyed only while its frames keep coming, on the true clock.
namespace UsvRt.RemoteFailSafe
open Runs MachineWord Supervision

structure Log where
  frame : Option Nat
  checked : Nat

def Log.boot : Log := ⟨none,0⟩

def Log.observe (l : Log) (d : Device) : Input → Log
  | .radioByte loraChar =>
    match (d.radio.receive loraChar).2 with
    | some _ => {l with frame:=some d.usv.now}
    | none => l
  | .manager _ => {l with checked:=d.usv.now}
  | _ => l

def logged (libm : Libm) : Device × Log → Input → Device × Log := observed (Device.step libm) Log.observe

def start (stack : Fin 6 → List UInt8) : Device × Log := (.boot stack,.boot)

def Frequent (p : Device × Log) : Input → Prop
  | .wait ticks => p.1.usv.now+ticks ≤ p.2.checked+2^31
  | _ => True

instance (p : Device × Log) (i : Input) : Decidable (Frequent p i) :=
  match i with
  | .wait _ => inferInstanceAs (Decidable (_ ≤ _))
  | .serverByte _ | .radioByte _ | .manager _ | .changePwm | .changeGear => inferInstanceAs (Decidable True)

def watch (p : Device × Log) : Watch :=
  ⟨p.1.usv.now,p.2.frame.getD 0,p.2.checked,decide (p.1.usv.remote.key0 = 1)⟩

structure Watched (p : Device × Log) : Prop where
  stamped : p.1.usv.remote.recTick = stamp (p.2.frame.getD 0)
  switch : p.1.usv.remote.key0 = 0 ∨ p.1.usv.remote.key0 = 1
  seen : p.1.usv.remote.key0 = 1 → p.2.frame ≠ none
  sound : Sound 1500 (2^31) (watch p)

theorem watched_start (stack : Fin 6 → List UInt8) : Watched (start stack) :=
  ⟨rfl,.inl rfl,fun enabled => absurd (show (0 : Int) = 1 from enabled) (by decide),
    ⟨Nat.le_refl _,Nat.le_refl _,Nat.zero_le _,fun raised => absurd (show decide ((0 : Int) = 1) = true from raised) (by decide)⟩⟩

theorem server_remote (libm : Libm) (d : Device) (loraChar : UInt8) :
    (d.step libm (.serverByte loraChar)).usv.remote = d.usv.remote ∧
      (d.step libm (.serverByte loraChar)).usv.now = d.usv.now := by
  rw [Device.server_byte]
  cases (d.server.receive loraChar).2 with
  | none => exact ⟨rfl,rfl⟩
  | some c => exact ⟨rfl,rfl⟩

theorem switch_apply (r : Remote) (tick : UInt32) (c : RadioCommand) (switch : r.key0 = 0 ∨ r.key0 = 1) :
    (r.apply tick c).key0 = 0 ∨ (r.apply tick c).key0 = 1 := by
  cases c with
  | stick => exact switch
  | keys key1 key2 =>
    by_cases odd : key1.tmod 2 = 1
    · exact .inr (if_pos odd)
    · exact .inl (if_neg odd)

theorem watch_check (p : Device × Log) (stamped : p.1.usv.remote.recTick = stamp (p.2.frame.getD 0)) :
    decide (p.1.usv.timeouts.remote.key0 = 1) = (check 1500 (watch p)).flag := by
  rw [Usv.timeouts_key]
  have same : (1500 : UInt32).toNat = 1500 := rfl
  exact timeout_check (watch p) same stamped rfl

theorem timeouts_switch (s : Usv) : s.timeouts.remote.key0 = 0 ∨ s.timeouts.remote.key0 = s.remote.key0 := by
  rw [s.timeouts_key]
  split
  · exact .inl rfl
  · exact .inr rfl

-- What leaves the remote, the clock and the log alone.
theorem watched_same {d next : Device} {l : Log} (watched : Watched (d,l)) (remote : next.usv.remote = d.usv.remote)
    (now : next.usv.now = d.usv.now) : Watched (next,l) := by
  obtain ⟨stamped,switch,seen,sound⟩ := watched
  have same : watch (next,l) = watch (d,l) := by simp only [watch,remote,now]
  rw [← remote] at stamped switch seen
  exact ⟨stamped,switch,seen,by rw [same]; exact sound⟩

theorem watched_frame {d next : Device} {l : Log} (watched : Watched (d,l)) (c : RadioCommand)
    (remote : next.usv.remote = d.usv.remote.apply d.usv.tick c) (now : next.usv.now = d.usv.now) :
    Watched (next,{l with frame:=some d.usv.now}) := by
  obtain ⟨_,switch,_,sound⟩ := watched
  refine ⟨?_,?_,?_,?_⟩ <;> simp only [watch,remote,now]
  · exact d.usv.remote.apply_stamped d.usv.tick c
  · exact switch_apply d.usv.remote d.usv.tick c switch
  · intro _ none
    cases none
  · exact sound.refresh _

theorem watched_check (libm : Libm) (d : Device) (l : Log) (cruise : UInt32 × UInt32) (watched : Watched (d,l)) :
    Watched (logged libm (d,l) (.manager cruise)) := by
  obtain ⟨stamped,switch,seen,sound⟩ := watched
  have cleared := timeouts_switch d.usv
  refine ⟨(congrArg Remote.recTick d.usv.timeouts_kept.1).trans stamped,?_,?_,?_⟩
  · change d.usv.timeouts.remote.key0 = 0 ∨ d.usv.timeouts.remote.key0 = 1
    rcases cleared with zero | same
    · exact .inl zero
    · rw [same]; exact switch
  · intro enabled
    have enabled : d.usv.timeouts.remote.key0 = 1 := enabled
    rcases cleared with zero | same
    · rw [zero] at enabled; cases enabled
    · exact seen (same.symm.trans enabled)
  · have checked : watch (logged libm (d,l) (.manager cruise)) = check 1500 (watch (d,l)) :=
      check_eq (watch_check (d,l) stamped)
    rw [checked]
    exact sound.check (by decide)

theorem watched_step (libm : Libm) (p : Device × Log) (i : Input) (watched : Watched p) (frequent : Frequent p i) :
    Watched (logged libm p i) := by
  obtain ⟨d,l⟩ := p
  cases i with
  | wait ticks => exact ⟨watched.stamped,watched.switch,watched.seen,watched.sound.wait frequent⟩
  | changePwm | changeGear => exact watched_same watched rfl rfl
  | serverByte loraChar =>
    obtain ⟨remote,now⟩ := server_remote libm d loraChar
    exact watched_same watched remote now
  | radioByte loraChar =>
    have usv := d.radio_byte libm loraChar
    cases completed : (d.radio.receive loraChar).2 with
    | none =>
      have log : l.observe d (.radioByte loraChar) = l := by simp [Log.observe,completed]
      rw [completed] at usv
      dsimp only at usv
      unfold logged observed
      rw [log]
      exact watched_same watched (congrArg Usv.remote usv) (congrArg Usv.now usv)
    | some c =>
      have log : l.observe d (.radioByte loraChar) = {l with frame:=some d.usv.now} := by simp [Log.observe,completed]
      rw [completed] at usv
      dsimp only at usv
      unfold logged observed
      have remote := congrArg Usv.remote usv
      have now := congrArg Usv.now usv
      rw [log]
      exact watched_frame watched c remote now
  | manager cruise => exact watched_check libm d l cruise watched

def Enables (d : Device) (i : Input) : Prop :=
  ∃ loraChar key1 key2, i = .radioByte loraChar ∧ (d.radio.receive loraChar).2 = some (.keys key1 key2) ∧ key1.tmod 2 = 1

theorem released_step (libm : Libm) (d : Device) (i : Input) (released : d.usv.remote.key0 = 0) (idle : ¬ Enables d i) :
    (d.step libm i).usv.remote.key0 = 0 := by
  cases i with
  | wait | changePwm | changeGear => exact released
  | serverByte loraChar => rw [(server_remote libm d loraChar).1]; exact released
  | manager cruise =>
    rcases timeouts_switch d.usv with zero | same
    · exact zero
    · exact same.trans released
  | radioByte loraChar =>
    rw [Device.radio_byte]
    cases completed : (d.radio.receive loraChar).2 with
    | none => exact released
    | some c =>
      cases c with
      | stick => exact released
      | keys key1 key2 => exact if_neg fun odd => idle ⟨loraChar,key1,key2,rfl,completed,odd⟩

-- Motor targets, hose position or pump follow the remote in this iteration.
def Remoted (libm : Libm) (d : Device) (cruise : UInt32 × UInt32) : Prop :=
  (d.step libm (.manager cruise)).usv.drive.currentMode = 1 ∨ d.usv.timeouts.remote.key0 = 1

def Recent (p : Device × Log) : Prop :=
  ∃ frame, p.2.frame = some frame ∧ frame ≤ p.1.usv.now ∧ p.1.usv.now ≤ frame+1500

structure Guarded (libm : Libm) (p : Device × Log) (cruise : UInt32 × UInt32) : Prop where
  obeyed : Remoted libm p.1 cruise → Recent p
  silent : ¬ Recent p → ∀ later, Along (Device.step libm) (fun d i => ¬ Enables d i) (p.1.step libm (.manager cruise)) later →
    (run (Device.step libm) (p.1.step libm (.manager cruise)) later).usv.remote.key0 = 0

def FailSafe (libm : Libm) (p : Device × Log) (i : Input) : Prop := ∀ cruise, i = .manager cruise → Guarded libm p cruise

theorem watched_recent (p : Device × Log) (watched : Watched p) (enabled : p.1.usv.timeouts.remote.key0 = 1) :
    Recent p := by
  have flag := watch_check p watched.stamped
  rw [enabled] at flag
  obtain ⟨raised,fresh⟩ := (watched.sound.check_exact (by decide)).mp flag.symm
  have past := watched.sound.refreshedPast
  cases frame : p.2.frame with
  | none => exact absurd frame (watched.seen (of_decide_eq_true raised))
  | some time =>
    simp only [watch,frame,Option.getD_some] at fresh past
    exact ⟨time,frame,past,fresh⟩

theorem watched_guarded (libm : Libm) (p : Device × Log) (watched : Watched p) (cruise : UInt32 × UInt32) :
    Guarded libm p cruise := by
  constructor
  · rintro (mode | enabled)
    · exact watched_recent p watched ((p.1.usv.remote_mode libm cruise).mp mode)
    · exact watched_recent p watched enabled
  · intro silent later idle
    have released : (p.1.step libm (.manager cruise)).usv.remote.key0 = 0 := by
      change p.1.usv.timeouts.remote.key0 = 0
      rcases timeouts_switch p.1.usv with zero | same
      · exact zero
      · rcases watched.switch with off | on
        · exact same.trans off
        · exact absurd (watched_recent p watched (same.trans on)) silent
    generalize p.1.step libm (.manager cruise) = d at released idle
    induction later generalizing d with
    | nil => exact released
    | cons i rest ih => exact ih (d.step libm i) (released_step libm d i released idle.1) idle.2

theorem remote_failsafe (libm : Libm) (stack : Fin 6 → List UInt8) (inputs : List Input)
    (frequent : Along (logged libm) Frequent (start stack) inputs) :
    Along (logged libm) (FailSafe libm) (start stack) inputs := by
  refine invariant_along (watched_step libm) ?_ (watched_start stack) frequent
  rintro p i watched _ cruise rfl
  exact watched_guarded libm p watched cruise

-- H100Z, one iteration under the remote, and one after 1501 ticks of silence.
def handset : List Input :=
  [.wait 1] ++ [72,49,48,48,90].map .radioByte ++ [.wait 1500,.manager (1500,1500),.wait 1,.manager (1500,1500)]

def silentStart : Device × Log := start silentStack

theorem handset_failsafe : Along (logged .level) (FailSafe .level) silentStart handset :=
  remote_failsafe .level silentStack handset (by decide)

end UsvRt.RemoteFailSafe
