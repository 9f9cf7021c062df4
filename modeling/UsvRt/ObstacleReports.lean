import Mathlib.Logic.Function.Basic
import UsvRt.Confirmation
import UsvRt.Radar

-- The radar receiver, the manager and lora_send share the obstacle table: which
-- targets are reported, and how old their last update is.
namespace UsvRt.ObstacleReports
open Runs Confirmation MachineWord

-- Locals of lora_send and what it has printed.
structure Sender where
  pause : Pause
  drawSendTick : UInt32
  lines : List Line

structure Vessel where
  device : Device
  radar : RadarParser
  targets : Targets
  sender : Sender

inductive Event where
  | input (i : Input)
  | radarByte (rHex : UInt8)
  | send

namespace Vessel

def boot (stack : Fin 6 → List UInt8) : Vessel := ⟨.boot stack,.boot,.boot,⟨.started,0,[]⟩⟩

def now (v : Vessel) : Nat := v.device.usv.now

def serial (v : Vessel) : Serial :=
  ⟨v.device.server,v.device.usv.reply,v.sender.pause,v.sender.drawSendTick,v.sender.lines⟩

def view (v : Vessel) : View :=
  ⟨v.device.usv.tick,v.device.usv.sampler.drawStatus,v.device.usv.obstacle.minDistance,
    fun i => v.targets.targetId.getD i 0⟩

def send (kprintf : List UInt8 → List UInt8) (v : Vessel) : Vessel :=
  let s := loraSend kprintf v.serial v.view
  {v with
    device:={v.device with usv:={v.device.usv with reply:=s.reply}}
    sender:=⟨s.pause,s.drawSendTick,s.lines⟩}

def updated (v : Vessel) (target : Target) : Vessel :=
  {v with
    device:={v.device with usv:={v.device.usv with
      obstacle:=v.device.usv.obstacle.update v.device.usv.tick target}}
    targets:=v.targets.update target}

def radarByte (v : Vessel) (rHex : UInt8) : Vessel :=
  let next := {v with radar:=(v.radar.receive rHex).1}
  match (v.radar.receive rHex).2 with
  | some target => next.updated target
  | none => next

def step (libm : Libm) (kprintf : List UInt8 → List UInt8) (v : Vessel) : Event → Vessel
  | .input i => {v with device:=v.device.step libm i}
  | .radarByte rHex => v.radarByte rHex
  | .send => v.send kprintf

-- manager.c's test of the obstacles' age.
def Overdue (v : Vessel) : Prop := v.device.usv.tick - v.device.usv.obstacle.obstacleTick > 1500

instance (v : Vessel) : Decidable v.Overdue := inferInstanceAs (Decidable (_ > _))

end Vessel

-- True times: of the latest update of each target of the table, of the start of
-- the latest obstacle scan, of the latest manager iteration.
structure History where
  updatedAt : Nat → Option Nat
  scanAt : Nat
  managedAt : Nat

namespace History

def boot : History := ⟨fun _ => none,0,0⟩

def noted (h : History) (now : Nat) (target : Target) : History :=
  if target.id < 10 then {h with updatedAt:=Function.update h.updatedAt target.id (some now)} else h

def scanned (h : History) (v : Vessel) : History :=
  match v.sender.pause with
  | .afterObstacle _ => h
  | _ => {h with scanAt:=v.now}

def observe (h : History) (v : Vessel) : Event → History
  | .input (.manager _) => {h with managedAt:=v.now}
  | .input _ => h
  | .radarByte rHex =>
    match (v.radar.receive rHex).2 with
    | some target => h.noted v.now target
    | none => h
  | .send => h.scanned v

end History

variable (libm : Libm) (kprintf : List UInt8 → List UInt8)

def watched : Vessel × History → Event → Vessel × History := observed (Vessel.step libm kprintf) History.observe

def start (stack : Fin 6 → List UInt8) : Vessel × History := (.boot stack,.boot)

def Reports (v : Vessel) (i : Nat) : Prop := (v.send kprintf).sender.lines = v.sender.lines++[.obstacle i]

-- An iteration that finds the last update over 1500 ticks old leaves no target set;
-- a reported one was updated, 1500 ticks and a period before the scan at most.
def Expires (period : Nat) (s : Vessel × History) : Event → Prop
  | .input (.manager cruise) => s.1.Overdue →
      ∀ i < 10, (s.1.step libm kprintf (.input (.manager cruise))).targets.targetId.getD i 0 ≠ 1
  | .send => ∀ i, Reports kprintf s.1 i →
      ∃ time, s.2.updatedAt i = some time ∧ (s.2.scanned s.1).scanAt ≤ time+1500+period
  | _ => True

def detectIds (v : Vessel) : Option (List Nat) :=
  if v.device.usv.obstacle.minDistance < 1500 then some (List.range 10) else none

def waterIds (v : Vessel) : Option (List Nat) :=
  if v.device.usv.sampler.drawStatus = 4 then none else detectIds v

def cycleIds (v : Vessel) : Option (List Nat) :=
  if v.device.usv.reply.sendStatusData = 1 then
    if v.device.usv.tick - v.sender.drawSendTick > 1000 then none else waterIds v
  else none

-- The entries lora_send still looks at when it is resumed now.
def toVisit (v : Vessel) : Option (List Nat) :=
  match v.sender.pause with
  | .started | .cycle => cycleIds v
  | .afterDraw => waterIds v
  | .afterWater => detectIds v
  | .afterObstacle rest => some rest
  | .afterPosition | .afterEcho => none

-- No target of the table was ever updated before an iteration that finds the last
-- update overdue; the first entry still to be looked at that ever was has been
-- updated lately.
def Lately (period : Nat) (s : Vessel × History) : Event → Prop
  | .input (.manager _) => s.1.Overdue → ∀ i, s.2.updatedAt i = none
  | .send => ∀ ids ∈ toVisit s.1, ∀ i ∈ ids.find? fun i => (s.2.updatedAt i).isSome,
      ∀ time ∈ s.2.updatedAt i, (s.2.scanned s.1).scanAt ≤ time+1500+period
  | _ => True

def isSet (v : Vessel) (i : Nat) : Bool := v.targets.targetId.getD i 0 == 1

theorem obstacle_first (v : Vessel) (ids : List Nat) (i : Nat) :
    (obstacleLines v.view ids).1 = .obstacle i ↔ ids.find? (isSet v) = some i := by
  induction ids with
  | nil => simp [obstacleLines]
  | cons id rest ih =>
    rw [obstacleLines,List.find?_cons]
    by_cases set : v.view.targetId id = 1
    · rw [if_pos set,show isSet v id = true from beq_iff_eq.mpr set]
      simp
    · rw [if_neg set,show isSet v id = false from beq_eq_false_iff_ne.mpr set]
      exact ih

theorem detect_first (v : Vessel) (i : Nat) :
    (detectLines v.view).1 = .obstacle i ↔ ∃ ids ∈ detectIds v, ids.find? (isSet v) = some i := by
  unfold detectLines
  by_cases close : v.view.minDistance < 1500
  · rw [if_pos close,show detectIds v = _ from if_pos close,obstacle_first]
    simp
  · rw [if_neg close,show detectIds v = _ from if_neg close]
    simp

theorem water_first (v : Vessel) (i : Nat) :
    (waterLines v.view).1 = .obstacle i ↔ ∃ ids ∈ waterIds v, ids.find? (isSet v) = some i := by
  unfold waterLines
  by_cases drawn : v.view.drawStatus = 4
  · rw [if_pos drawn,show waterIds v = _ from if_pos drawn]
    simp
  · rw [if_neg drawn,show waterIds v = _ from if_neg drawn]
    exact detect_first v i

theorem emit_reports (lines : List Line) (out : Line × Pause) (i : Nat) :
    lines++[out.1] = lines++[.obstacle i] ↔ out.1 = .obstacle i := by simp

theorem silent_reports (lines : List Line) (i : Nat) : ¬ lines = lines++[.obstacle i] := by simp

theorem cycle_reports (v : Vessel) (i : Nat) (top : v.sender.pause = .started ∨ v.sender.pause = .cycle) :
    (loraSend kprintf v.serial v.view).lines = v.sender.lines++[.obstacle i] ↔
      ∃ ids ∈ cycleIds v, ids.find? (isSet v) = some i := by
  have none : ¬ ∃ ids ∈ (none : Option (List Nat)), ids.find? (isSet v) = some i := by simp
  rw [send_top kprintf v.serial v.view top]
  unfold cycleIds
  by_cases status : v.serial.reply.sendStatusData = 1
  · rw [if_pos status,if_pos (show v.device.usv.reply.sendStatusData = 1 from status)]
    by_cases due : v.view.tick - v.serial.drawSendTick > 1000
    · rw [if_pos due,if_pos (show v.device.usv.tick - v.sender.drawSendTick > 1000 from due)]
      exact iff_of_false (fun same => by cases (emit_reports _ (.draw,.afterDraw) i).mp same) none
    · rw [if_neg due,if_neg (show ¬ v.device.usv.tick - v.sender.drawSendTick > 1000 from due)]
      exact (emit_reports _ _ i).trans (water_first v i)
  · rw [if_neg status,if_neg (show ¬ v.device.usv.reply.sendStatusData = 1 from status)]
    by_cases confirming : v.serial.reply.sendConfirmData = 1
    · rw [if_pos confirming]
      exact iff_of_false (fun same => by cases (emit_reports _ (.echo _,.afterEcho) i).mp same) none
    · rw [if_neg confirming]
      exact iff_of_false (silent_reports v.sender.lines i) none

-- lora_send reports the first entry that is set among those it still looks at.
theorem reports_exact (v : Vessel) (i : Nat) :
    Reports kprintf v i ↔ ∃ ids ∈ toVisit v, ids.find? (isSet v) = some i := by
  change (loraSend kprintf v.serial v.view).lines = v.sender.lines++[.obstacle i] ↔ _
  unfold toVisit
  cases paused : v.sender.pause with
  | started => exact cycle_reports kprintf v i (.inl paused)
  | cycle => exact cycle_reports kprintf v i (.inr paused)
  | afterDraw =>
    unfold loraSend
    rw [show v.serial.pause = _ from paused]
    exact (emit_reports _ _ i).trans (water_first v i)
  | afterWater =>
    unfold loraSend
    rw [show v.serial.pause = _ from paused]
    exact (emit_reports _ _ i).trans (detect_first v i)
  | afterObstacle rest =>
    unfold loraSend
    rw [show v.serial.pause = _ from paused]
    exact (emit_reports _ _ i).trans ((obstacle_first v rest i).trans (by simp))
  | afterPosition | afterEcho =>
    unfold loraSend
    rw [show v.serial.pause = _ from paused]
    exact iff_of_false (silent_reports v.sender.lines i) (by simp)

structure Aligned (s : Vessel × History) : Prop where
  size : s.1.targets.targetId.length = 10
  recorded : ∀ i, s.1.targets.targetId.getD i 0 = 1 ↔ s.2.updatedAt i ≠ none

theorem start_aligned (stack : Fin 6 → List UInt8) : Aligned (start stack) := by
  refine ⟨List.length_replicate,?_⟩
  intro i
  have zero : (List.replicate 10 (0 : Int)).getD i 0 = 0 := by
    simp only [List.getD,List.getElem?_replicate]
    split <;> rfl
  change (List.replicate 10 (0 : Int)).getD i 0 = 1 ↔ _
  rw [zero]
  exact iff_of_false (by decide) fun some => some rfl

theorem update_aligned (aligned : Aligned (v,h)) (target : Target) (now : Nat) :
    (v.targets.update target).targetId.length = 10 ∧
      ∀ i, (v.targets.update target).targetId.getD i 0 = 1 ↔ (h.noted now target).updatedAt i ≠ none := by
  have size := aligned.size
  unfold Targets.update History.noted
  by_cases listed : target.id < 10
  · rw [if_pos listed,if_pos listed]
    refine ⟨List.length_set.trans size,fun i => ?_⟩
    change _ ↔ Function.update h.updatedAt target.id (some now) i ≠ none
    rw [Framing.cell_set v.targets.targetId 1 0 (by dsimp only at size; omega)]
    by_cases same : i = target.id
    · rw [if_pos same,same,Function.update_self]
      simp
    · rw [if_neg same,Function.update_of_ne same]
      exact aligned.recorded i
  · rw [if_neg listed,if_neg listed]
    exact ⟨size,aligned.recorded⟩

theorem watched_step (s : Vessel × History) (e : Event) (aligned : Aligned s) : Aligned (watched libm kprintf s e) := by
  obtain ⟨v,h⟩ := s
  cases e with
  | input i => cases i <;> exact ⟨aligned.size,aligned.recorded⟩
  | send =>
    have kept : (h.scanned v).updatedAt = h.updatedAt := by
      unfold History.scanned
      split <;> rfl
    refine ⟨aligned.size,fun i => ?_⟩
    change _ ↔ (h.scanned v).updatedAt i ≠ none
    rw [kept]
    exact aligned.recorded i
  | radarByte rHex =>
    cases found : (v.radar.receive rHex).2 with
    | none =>
      have stepped : v.radarByte rHex = {v with radar:=(v.radar.receive rHex).1} := by
        unfold Vessel.radarByte
        rw [found]
      have observed : h.observe v (.radarByte rHex) = h := by
        unfold History.observe
        dsimp only
        rw [found]
      change Aligned (v.radarByte rHex,h.observe v (.radarByte rHex))
      rw [stepped,observed]
      exact ⟨aligned.size,aligned.recorded⟩
    | some target =>
      have stepped : v.radarByte rHex = ({v with radar:=(v.radar.receive rHex).1} : Vessel).updated target := by
        unfold Vessel.radarByte
        rw [found]
      have observed : h.observe v (.radarByte rHex) = h.noted v.now target := by
        unfold History.observe
        dsimp only
        rw [found]
      change Aligned (v.radarByte rHex,h.observe v (.radarByte rHex))
      rw [stepped,observed]
      obtain ⟨size,recorded⟩ := update_aligned aligned target v.now
      exact ⟨size,recorded⟩

theorem recorded_set (aligned : Aligned (v,h)) : isSet v = fun i => (h.updatedAt i).isSome := by
  funext i
  rw [Bool.eq_iff_iff,Option.isSome_iff_ne_none,← aligned.recorded i]
  exact beq_iff_eq

-- A scan reports the first entry that was ever updated.
theorem send_expires (period : Nat) (aligned : Aligned (v,h)) :
    Expires libm kprintf period (v,h) .send ↔ Lately period (v,h) .send := by
  have same := recorded_set aligned
  change (∀ i, Reports kprintf v i → _) ↔ _
  constructor
  · intro expires ids visited i first time updated
    have reported := (reports_exact kprintf v i).mpr ⟨ids,visited,same ▸ first⟩
    obtain ⟨latest,recent,bound⟩ := expires i reported
    cases recent.symm.trans updated
    exact bound
  · intro lately i reported
    obtain ⟨ids,visited,first⟩ := (reports_exact kprintf v i).mp reported
    rw [same] at first
    have some := List.find?_some first
    obtain ⟨time,updated⟩ := Option.isSome_iff_exists.mp some
    exact ⟨time,updated,lately ids visited i first time updated⟩

-- An iteration leaves the entries as they are, so none is set only if none ever was.
theorem manager_expires (period : Nat) (aligned : Aligned (v,h)) (cruise : UInt32 × UInt32) :
    Expires libm kprintf period (v,h) (.input (.manager cruise)) ↔ Lately period (v,h) (.input (.manager cruise)) := by
  refine forall_congr' fun overdue => ?_
  constructor
  · intro clear i
    by_contra some
    have set := (aligned.recorded i).mpr some
    have below : i < 10 := by
      by_contra beyond
      rw [List.getD,List.getElem?_eq_none (by rw [aligned.size]; omega)] at set
      exact absurd set (by decide)
    exact clear i below set
  · intro none i _ set
    exact (aligned.recorded i).mp set (none i)

theorem expires_exact (period : Nat) (s : Vessel × History) (e : Event) (aligned : Aligned s) :
    Expires libm kprintf period s e ↔ Lately period s e := by
  cases e with
  | radarByte => exact Iff.rfl
  | send => exact send_expires libm kprintf period aligned
  | input i =>
    cases i with
    | manager cruise => exact manager_expires libm kprintf period aligned cruise
    | wait | serverByte | radioByte | changePwm | changeGear => exact Iff.rfl

theorem expiry_exact (period : Nat) (stack : Fin 6 → List UInt8) (events : List Event) :
    Along (watched libm kprintf) (Expires libm kprintf period) (start stack) events ↔
      Along (watched libm kprintf) (Lately period) (start stack) events := by
  have every : ∀ s e, Aligned s → True → Aligned (watched libm kprintf s e) :=
    fun s e aligned _ => watched_step libm kprintf s e aligned
  have same : ∀ s e, Aligned s → True → (Expires libm kprintf period s e ↔ Lately period s e) :=
    fun s e aligned _ => expires_exact libm kprintf period s e aligned
  exact Along.congr (invariant_along every same (start_aligned stack) (along_every _ fun _ _ => trivial))

def Paced (period : Nat) (s : Vessel × History) : Event → Prop
  | .input (.wait ticks) => s.1.now+ticks ≤ s.2.managedAt+period
  | _ => True

instance (period : Nat) (s : Vessel × History) (e : Event) : Decidable (Paced period s e) :=
  match e with
  | .input (.wait _) => inferInstanceAs (Decidable (_ ≤ _))
  | .input (.serverByte _) | .input (.radioByte _) | .input (.manager _) | .input .changePwm | .input .changeGear
  | .radarByte _ | .send => inferInstanceAs (Decidable True)

def sighting (id : UInt8) : List Event :=
  [170,170,12,7,id,0,1,44,90,0,0,0,85,85].map .radarByte

def patrol : List Event := [.input (.wait 400),.input (.manager (1500,1500))]

-- Target 3 is seen at tick 1 and never again; target 4 at tick 2401.
def sightings : List Event :=
  [.input (.wait 1)] ++ sighting 3 ++ [.input (.manager (1500,1500))] ++ patrol ++ patrol ++ patrol ++ patrol ++ patrol ++
    patrol ++ sighting 4 ++ [.send]

theorem stale_reported :
    Along (watched .level id) (Paced 400) (start silentStack) (sightings++[.send]) ∧
      (run (watched .level id) (start silentStack) (sightings++[.send])).1.sender.lines = [.draw,.obstacle 3] ∧
      ¬ Along (watched .level id) (Expires .level id 400) (start silentStack) (sightings++[.send]) := by
  refine ⟨by decide +kernel,by decide +kernel,?_⟩
  intro path
  obtain ⟨_,last,_⟩ := (along_append (watched .level id) (Expires .level id 400)).mp path
  have reported : Reports id (run (watched .level id) (start silentStack) sightings).1 3 := by
    unfold Reports
    decide +kernel
  obtain ⟨time,updated,bound⟩ := last 3 reported
  have early : (run (watched .level id) (start silentStack) sightings).2.updatedAt 3 = some 1 := by decide +kernel
  have begun : ((run (watched .level id) (start silentStack) sightings).2.scanned
      (run (watched .level id) (start silentStack) sightings).1).scanAt = 2401 := by decide +kernel
  cases updated.symm.trans early
  omega

end UsvRt.ObstacleReports
