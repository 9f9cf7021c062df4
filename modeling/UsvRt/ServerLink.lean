import UsvRt.ServerRecovery
import UsvRt.Supervision

-- How long is_connect outlives the heartbeats, on the true clock.
namespace UsvRt.ServerLink
open Runs MachineWord Supervision

def byteEight : UInt8 := 56

def Beats (d : Device) (loraChar : UInt8) : Prop :=
  (d.server.receive loraChar).2 = some .heartbeat ∧ d.server.frame[1]? = some byteEight

instance (d : Device) (loraChar : UInt8) : Decidable (Beats d loraChar) := inferInstanceAs (Decidable (_ ∧ _))

-- True times of the last heartbeat, the last byte and the last check; and whether
-- a check since that heartbeat found the line silent for its whole limit.
structure Line where
  heartbeat : Option Nat
  byte : Nat
  checked : Nat
  lost : Bool

def Line.boot : Line := ⟨none,0,0,false⟩

def Line.observe (l : Line) (d : Device) : Input → Line
  | .serverByte loraChar =>
    if Beats d loraChar then {l with heartbeat:=some d.usv.now,byte:=d.usv.now,lost:=false}
    else {l with byte:=d.usv.now}
  | .manager _ => {l with checked:=d.usv.now,lost:=l.lost || decide (l.byte+16000 < d.usv.now)}
  | _ => l

def lined (libm : Libm) : Device × Line → Input → Device × Line := observed (Device.step libm) Line.observe

def start (stack : Fin 6 → List UInt8) : Device × Line := (.boot stack,.boot)

-- An iteration at least once in every 2^31 ticks, and no frame taken for a
-- heartbeat by the type of an earlier one.
def Regular (p : Device × Line) : Input → Prop
  | .wait ticks => p.1.usv.now+ticks ≤ p.2.checked+2^31
  | .serverByte loraChar => (p.1.server.receive loraChar).2 = some .heartbeat → p.1.server.frame[1]? = some byteEight
  | _ => True

instance (p : Device × Line) (i : Input) : Decidable (Regular p i) :=
  match i with
  | .wait _ => inferInstanceAs (Decidable (_ ≤ _))
  | .serverByte _ => inferInstanceAs (Decidable (_ → _))
  | .radioByte _ | .manager _ | .changePwm | .changeGear => inferInstanceAs (Decidable True)

def watch (p : Device × Line) : Watch :=
  ⟨p.1.usv.now,p.2.byte,p.2.checked,decide (p.1.usv.link.isConnect = 1)⟩

structure Watched (p : Device × Line) : Prop where
  stamped : p.1.usv.link.recServerTick = stamp p.2.byte
  connected : p.1.usv.link.isConnect = 1 ↔ p.2.heartbeat ≠ none ∧ p.2.lost = false
  sound : Sound 16000 (2^31) (watch p)

theorem watched_start (stack : Fin 6 → List UInt8) : Watched (start stack) := by
  have apart : ¬ (0 : Int) = 1 := by decide
  refine ⟨rfl,⟨fun one => absurd (show (0 : Int) = 1 from one) apart,fun both => absurd rfl both.1⟩,?_⟩
  exact ⟨Nat.le_refl _,Nat.le_refl _,Nat.zero_le _,fun raised => absurd (show decide ((0 : Int) = 1) = true from raised) (by decide)⟩

-- Every byte renews the stamp; only a decoded heartbeat raises the flag.
theorem server_link (libm : Libm) (d : Device) (loraChar : UInt8) :
    (d.step libm (.serverByte loraChar)).usv.now = d.usv.now ∧
      (d.step libm (.serverByte loraChar)).usv.link.recServerTick = d.usv.tick ∧
      (d.step libm (.serverByte loraChar)).usv.link.isConnect =
        if (d.server.receive loraChar).2 = some .heartbeat then 1 else d.usv.link.isConnect := by
  rw [Device.server_byte]
  cases (d.server.receive loraChar).2 with
  | none => exact ⟨rfl,rfl,rfl⟩
  | some c =>
    cases c with
    | heartbeat => exact ⟨rfl,rfl,rfl⟩
    | target | sample | control | settings | gains | compass => exact ⟨rfl,rfl,rfl⟩

theorem radio_link (libm : Libm) (d : Device) (loraChar : UInt8) :
    (d.step libm (.radioByte loraChar)).usv.now = d.usv.now ∧
      (d.step libm (.radioByte loraChar)).usv.link = d.usv.link := by
  rw [Device.radio_byte]
  cases (d.radio.receive loraChar).2 with
  | none => exact ⟨rfl,rfl⟩
  | some c => exact ⟨rfl,rfl⟩

theorem watch_check (p : Device × Line) (stamped : p.1.usv.link.recServerTick = stamp p.2.byte) :
    decide (p.1.usv.timeouts.link.isConnect = 1) = (check 16000 (watch p)).flag := by
  rw [Usv.timeouts_connect]
  have same : (16000 : UInt32).toNat = 16000 := rfl
  exact timeout_check (watch p) same stamped rfl

theorem connect_exact (p : Device × Line) (watched : Watched p) :
    p.1.usv.timeouts.link.isConnect = 1 ↔
      p.2.heartbeat ≠ none ∧ p.2.lost = false ∧ p.1.usv.now ≤ p.2.byte+16000 := by
  have flag := watch_check p watched.stamped
  have exact_ := watched.sound.check_exact (by decide)
  rw [← flag,decide_eq_true_iff] at exact_
  rw [exact_]
  change decide (p.1.usv.link.isConnect = 1) = true ∧ p.1.usv.now ≤ p.2.byte+16000 ↔ _
  rw [decide_eq_true_iff,watched.connected,and_assoc]

-- Any byte renews the stamp; what it leaves connected must fit the log.
theorem watched_byte {d next : Device} {l line : Line} (watched : Watched (d,l)) (now : next.usv.now = d.usv.now)
    (stamped : next.usv.link.recServerTick = d.usv.tick) (byte : line.byte = d.usv.now) (checked : line.checked = l.checked)
    (connected : next.usv.link.isConnect = 1 ↔ line.heartbeat ≠ none ∧ line.lost = false) : Watched (next,line) := by
  have renewed : watch (next,line) = refresh (decide (next.usv.link.isConnect = 1)) (watch (d,l)) := by
    simp only [watch,refresh,now,byte,checked]
  refine ⟨?_,connected,?_⟩
  · rw [stamped,byte]
    rfl
  · rw [renewed]
    exact watched.sound.refresh _

theorem watched_step (libm : Libm) (p : Device × Line) (i : Input) (watched : Watched p) (regular : Regular p i) :
    Watched (lined libm p i) := by
  obtain ⟨d,l⟩ := p
  obtain ⟨stamped,connected,sound⟩ := watched
  cases i with
  | wait ticks => exact ⟨stamped,connected,sound.wait regular⟩
  | changePwm | changeGear => exact ⟨stamped,connected,sound⟩
  | radioByte loraChar =>
    obtain ⟨now,link⟩ := radio_link libm d loraChar
    have same : watch (lined libm (d,l) (.radioByte loraChar)) = watch (d,l) := by
      simp only [watch,lined,observed,link,now]; rfl
    refine ⟨?_,?_,by rw [same]; exact sound⟩ <;> simp only [lined,observed,link]
    · exact stamped
    · exact connected
  | serverByte loraChar =>
    obtain ⟨now,stamp,connect⟩ := server_link libm d loraChar
    by_cases beats : Beats d loraChar
    · have line : l.observe d (.serverByte loraChar) = {l with heartbeat:=some d.usv.now,byte:=d.usv.now,lost:=false} :=
        if_pos beats
      rw [if_pos beats.1] at connect
      unfold lined observed
      rw [line]
      exact watched_byte ⟨stamped,connected,sound⟩ now stamp rfl rfl (by simp [connect])
    · have line : l.observe d (.serverByte loraChar) = {l with byte:=d.usv.now} := if_neg beats
      have other : (d.server.receive loraChar).2 ≠ some .heartbeat := fun same => beats ⟨same,regular same⟩
      rw [if_neg other] at connect
      unfold lined observed
      rw [line]
      exact watched_byte ⟨stamped,connected,sound⟩ now stamp rfl rfl (by rw [connect]; exact connected)
  | manager cruise =>
    refine ⟨(congrArg Link.recServerTick d.usv.timeouts_kept.2).trans stamped,?_,?_⟩
    · refine (connect_exact (d,l) ⟨stamped,connected,sound⟩).trans ?_
      simp only [lined,observed,Line.observe,Bool.or_eq_false_iff,decide_eq_false_iff_not,Nat.not_lt]
    · have checked : watch (lined libm (d,l) (.manager cruise)) = check 16000 (watch (d,l)) :=
        check_eq (watch_check (d,l) stamped)
      rw [checked]
      exact sound.check (by decide)

def Supervised (libm : Libm) (p : Device × Line) : Input → Prop
  | .manager cruise => (p.1.step libm (.manager cruise)).usv.link.isConnect = 1 →
      ∃ beat ∈ p.2.heartbeat, p.1.usv.now ≤ beat+16000
  | _ => True

-- An iteration past the limit of a heartbeat finds the line silent for as long,
-- or follows one since that heartbeat that did.
def Noticed (p : Device × Line) : Input → Prop
  | .manager _ => ∀ beat ∈ p.2.heartbeat, beat+16000 < p.1.usv.now →
      p.2.lost = true ∨ p.2.byte+16000 < p.1.usv.now
  | _ => True

instance (libm : Libm) (p : Device × Line) (i : Input) : Decidable (Supervised libm p i) :=
  match i with
  | .manager _ => inferInstanceAs (Decidable (_ → ∃ beat ∈ p.2.heartbeat, _))
  | .wait _ | .serverByte _ | .radioByte _ | .changePwm | .changeGear => inferInstanceAs (Decidable True)

instance (p : Device × Line) (i : Input) : Decidable (Noticed p i) :=
  match i with
  | .manager _ => inferInstanceAs (Decidable (∀ beat ∈ p.2.heartbeat, _))
  | .wait _ | .serverByte _ | .radioByte _ | .changePwm | .changeGear => inferInstanceAs (Decidable True)

theorem supervised_noticed (libm : Libm) (p : Device × Line) (i : Input) (watched : Watched p) :
    Supervised libm p i ↔ Noticed p i := by
  cases i with
  | wait | serverByte | radioByte | changePwm | changeGear => exact Iff.rfl
  | manager cruise =>
    have connect := connect_exact p watched
    change (p.1.usv.timeouts.link.isConnect = 1 → _) ↔ _
    rw [connect]
    constructor
    · intro recent beat last overdue
      apply Classical.byContradiction
      intro unnoticed
      rw [not_or,Bool.not_eq_true,Nat.not_lt] at unnoticed
      obtain ⟨other,same,near⟩ := recent ⟨by rw [last]; simp,unnoticed.1,unnoticed.2⟩
      rw [last] at same
      cases same
      omega
    · rintro noticed ⟨beaten,kept,fresh⟩
      obtain ⟨beat,last⟩ := Option.ne_none_iff_exists'.mp beaten
      refine ⟨beat,last,?_⟩
      apply Classical.byContradiction
      intro overdue
      rcases noticed beat last (by omega) with lost | silent
      · rw [lost] at kept; cases kept
      · omega

theorem supervision_exact (libm : Libm) (stack : Fin 6 → List UInt8) (inputs : List Input)
    (regular : Along (lined libm) Regular (start stack) inputs) :
    Along (lined libm) (Supervised libm) (start stack) inputs ↔ Along (lined libm) Noticed (start stack) inputs := by
  refine Along.congr (invariant_along (watched_step libm) ?_ (watched_start stack) regular)
  intro p i watched _
  exact supervised_noticed libm p i watched

-- S8Z twice, then silence.
def beating : List Input :=
  [83,56,90].map .serverByte ++ [.wait 9000,.manager (1500,1500)] ++ [83,56,90].map .serverByte ++
    [.wait 9000,.manager (1500,1500),.wait 9000,.manager (1500,1500)]

theorem beating_supervised : Along (lined .level) (Supervised .level) (start silentStack) beating :=
  (supervision_exact .level silentStack beating (by decide +kernel)).mpr (by decide +kernel)

-- S8Z, then one stray byte every 9000 ticks.
def chatter : List Input :=
  [83,56,90].map .serverByte ++ [.wait 9000,.manager (1500,1500),.serverByte 120,.wait 9000,.manager (1500,1500)]

theorem chatter_connected :
    Along (lined .level) Regular (start silentStack) chatter ∧
      ¬ Along (lined .level) (Supervised .level) (start silentStack) chatter := by decide +kernel

end UsvRt.ServerLink
