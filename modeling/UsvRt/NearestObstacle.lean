import Mathlib.Order.Bounds.Basic
import UsvRt.ObstacleReports

-- Whether min_distance is what the radar last said of the targets still in sight.
namespace UsvRt.NearestObstacle
open Runs MachineWord ObstacleReports

section order
variable {α : Type} [LinearOrder α] {cap least d : α} {near far : Set α}

-- A running minimum under a cap. More values keep it exact.
theorem least_insert (minimum : IsLeast (insert cap far) least) :
    IsLeast (insert cap (insert d far)) (if d < least then d else least) := by
  have lower : ∀ x ∈ insert cap far, least ≤ x := fun x member => minimum.2 member
  split
  · rename_i nearer
    refine ⟨.inr (.inl rfl),?_⟩
    rintro x (rfl | rfl | member)
    · exact nearer.le.trans (lower x (.inl rfl))
    · exact le_rfl
    · exact nearer.le.trans (lower x (.inr member))
  · rename_i farther
    refine ⟨?_,?_⟩
    · rcases minimum.1 with same | member
      · exact .inl same
      · exact .inr (.inr member)
    · rintro x (rfl | rfl | member)
      · exact lower x (.inl rfl)
      · exact not_lt.mp farther
      · exact lower x (.inr member)

-- Fewer do so when something no greater is left for each that counts.
theorem least_shrink (minimum : IsLeast (insert cap far) least) (kept : near ⊆ far) :
    IsLeast (insert cap near) least ↔ ∀ d ∈ far, d < cap → ∃ nearer ∈ near, nearer ≤ d := by
  constructor
  · intro still d member below
    have bound : least ≤ d := minimum.2 (.inr member)
    rcases still.1 with same | inside
    · exact absurd (bound.trans_lt below) (by rw [same]; exact lt_irrefl cap)
    · exact ⟨least,inside,bound⟩
  · intro undercut
    refine ⟨?_,?_⟩
    · rcases minimum.1 with same | member
      · exact .inl same
      rcases lt_or_ge least cap with below | above
      · obtain ⟨nearer,inside,bound⟩ := undercut least member below
        have same : least = nearer := (minimum.2 (.inr (kept inside))).antisymm bound
        exact .inr (same ▸ inside)
      · exact .inl ((minimum.2 (.inl rfl)).antisymm above)
    · rintro x (rfl | member)
      · exact minimum.2 (.inl rfl)
      · exact minimum.2 (.inr (kept member))

end order

structure Report where
  id : Nat
  time : Nat
  distance : Nat
  deriving DecidableEq

-- All reports, the latest first, and the distances among them since an iteration
-- last found them overdue.
structure Sightings where
  reports : List Report
  reported : List Nat

namespace Sightings

def boot : Sightings := ⟨[],[]⟩

def latest (h : Sightings) (id : Nat) : Option Report := h.reports.find? fun r => r.id = id

def noted (h : Sightings) (now : Nat) (target : Target) : Sightings :=
  ⟨⟨target.id,now,target.distance⟩::h.reports,target.distance::h.reported⟩

def expired (h : Sightings) (v : Vessel) : Sightings := if v.Overdue then {h with reported:=[]} else h

def observe (h : Sightings) (v : Vessel) : Event → Sightings
  | .input (.manager _) => h.expired v
  | .input _ => h
  | .radarByte rHex =>
    match (v.radar.receive rHex).2 with
    | some target => h.noted v.now target
    | none => h
  | .send => h

-- The latest report of its target, and made in the last 1500 ticks.
def InSight (h : Sightings) (now : Nat) (r : Report) : Prop := h.latest r.id = some r ∧ now ≤ r.time+1500

instance (h : Sightings) (now : Nat) (r : Report) : Decidable (h.InSight now r) := inferInstanceAs (Decidable (_ ∧ _))

def distances (h : Sightings) (now : Nat) : Set Int := {d | ∃ r, h.InSight now r ∧ d = r.distance}

def sinceExpiry (h : Sightings) : Set Int := {d | ∃ distance ∈ h.reported, d = (distance : Nat)}

end Sightings

variable (libm : Libm) (kprintf : List UInt8 → List UInt8)

def sighted : Vessel × Sightings → Event → Vessel × Sightings := observed (Vessel.step libm kprintf) Sightings.observe

def start (stack : Fin 6 → List UInt8) : Vessel × Sightings := (.boot stack,.boot)

-- What an iteration leaves in min_distance.
def Nearest (s : Vessel × Sightings) : Event → Prop
  | .input (.manager cruise) => IsLeast (insert 10000 (s.2.distances s.1.now))
      (s.1.step libm kprintf (.input (.manager cruise))).device.usv.obstacle.minDistance
  | _ => True

-- Every distance reported since the last expiry is still matched by a target in sight.
def Matched (s : Vessel × Sightings) : Event → Prop
  | .input (.manager _) => ∀ distance ∈ (s.2.expired s.1).reported, distance < 10000 →
      ∃ r ∈ s.2.reports, s.2.InSight s.1.now r ∧ r.distance ≤ distance
  | _ => True

instance (s : Vessel × Sightings) (e : Event) : Decidable (Matched s e) :=
  match e with
  | .input (.manager _) => inferInstanceAs (Decidable (∀ _ ∈ _,_ → _))
  | .input (.wait _) | .input (.serverByte _) | .input (.radioByte _) | .input .changePwm | .input .changeGear
  | .radarByte _ | .send => inferInstanceAs (Decidable True)

structure Tracked (s : Vessel × Sightings) : Prop where
  least : IsLeast (insert 10000 s.2.sinceExpiry) s.1.device.usv.obstacle.minDistance
  stamped : ∃ lastAt ≤ s.1.now, s.1.device.usv.obstacle.obstacleTick = stamp lastAt ∧
    ∀ r ∈ s.2.reports, r.time ≤ lastAt
  fresh : s.2.distances s.1.now ⊆ s.2.sinceExpiry

theorem insight_reported (inSight : Sightings.InSight h now r) : r ∈ h.reports := List.mem_of_find?_eq_some inSight.1

theorem none_since (h : Sightings) (none : h.reported = []) : h.sinceExpiry = ∅ := by
  unfold Sightings.sinceExpiry
  rw [none]
  simp

theorem none_least (h : Sightings) (none : h.reported = []) : IsLeast (insert 10000 h.sinceExpiry) 10000 := by
  rw [none_since h none]
  simp

theorem start_tracked (stack : Fin 6 → List UInt8) : Tracked (start stack) := by
  refine ⟨none_least .boot rfl,⟨0,le_rfl,rfl,fun r member => by cases member⟩,?_⟩
  rintro d ⟨r,inSight,rfl⟩
  cases insight_reported inSight

-- An iteration that finds the latest report overdue has no target in sight.
theorem overdue_blind (tracked : Tracked (v,h)) (overdue : v.Overdue) : h.distances v.now = ∅ := by
  obtain ⟨lastAt,order,tick,bound⟩ := tracked.stamped
  have past : lastAt ≤ v.now := order
  have age := age_le past
  have aged : 1500 < (stamp v.now - stamp lastAt).toNat := by
    have late : v.device.usv.tick - v.device.usv.obstacle.obstacleTick > 1500 := overdue
    rw [tick] at late
    exact late
  refine Set.eq_empty_iff_forall_notMem.mpr ?_
  rintro d ⟨r,inSight,rfl⟩
  have early := bound r (insight_reported inSight)
  have recent := inSight.2
  omega

theorem expired_reports (h : Sightings) (v : Vessel) : (h.expired v).reports = h.reports := by
  unfold Sightings.expired
  split <;> rfl

theorem expired_distances (h : Sightings) (v : Vessel) : (h.expired v).distances = h.distances := by
  unfold Sightings.distances Sightings.InSight Sightings.latest
  rw [expired_reports]

theorem manager_tracked (tracked : Tracked (v,h)) (cruise : UInt32 × UInt32) :
    Tracked (sighted libm kprintf (v,h) (.input (.manager cruise))) := by
  obtain ⟨lastAt,order,tick,bound⟩ := tracked.stamped
  have obstacle : (v.step libm kprintf (.input (.manager cruise))).device.usv.obstacle =
      if v.Overdue then {v.device.usv.obstacle with minDistance:=10000} else v.device.usv.obstacle := rfl
  have same : (v.step libm kprintf (.input (.manager cruise))).now = v.now := rfl
  refine ⟨?_,⟨lastAt,order,?_,?_⟩,?_⟩
  · change IsLeast (insert 10000 (h.expired v).sinceExpiry) (v.step libm kprintf (.input (.manager cruise))).device.usv.obstacle.minDistance
    rw [obstacle]
    unfold Sightings.expired
    split
    · exact none_least _ rfl
    · exact tracked.least
  · change (v.step libm kprintf (.input (.manager cruise))).device.usv.obstacle.obstacleTick = _
    rw [obstacle]
    split <;> exact tick
  · change ∀ r ∈ (h.expired v).reports, _
    rw [expired_reports]
    exact bound
  · change (h.expired v).distances v.now ⊆ (h.expired v).sinceExpiry
    rw [expired_distances]
    unfold Sightings.expired
    split
    · rename_i overdue
      rw [overdue_blind tracked overdue]
      exact Set.empty_subset _
    · exact tracked.fresh

theorem noted_since (h : Sightings) (now : Nat) (target : Target) :
    (h.noted now target).sinceExpiry = insert (target.distance : Int) h.sinceExpiry := by
  ext d
  simp [Sightings.sinceExpiry,Sightings.noted]

theorem noted_distances (h : Sightings) (now : Nat) (target : Target) :
    (h.noted now target).distances now ⊆ insert (target.distance : Int) (h.distances now) := by
  rintro d ⟨r,⟨latest,recent⟩,rfl⟩
  unfold Sightings.latest Sightings.noted at latest
  rw [List.find?_cons] at latest
  by_cases same : target.id = r.id
  · rw [decide_eq_true same] at latest
    cases latest
    exact .inl rfl
  · rw [decide_eq_false same] at latest
    exact .inr ⟨r,⟨latest,recent⟩,rfl⟩

theorem noted_tracked (tracked : Tracked (v,h)) (target : Target) : Tracked (v.updated target,h.noted v.now target) := by
  obtain ⟨lastAt,order,_,bound⟩ := tracked.stamped
  refine ⟨?_,⟨v.now,le_rfl,rfl,?_⟩,?_⟩
  · rw [noted_since]
    exact least_insert tracked.least
  · intro r member
    rcases List.mem_cons.mp member with rfl | old
    · exact le_rfl
    · exact (bound r old).trans order
  · rw [noted_since]
    exact (noted_distances h v.now target).trans (Set.insert_subset_insert tracked.fresh)

-- Time passes and the obstacle is left alone.
structure Idle (v next : Vessel) : Prop where
  obstacle : next.device.usv.obstacle = v.device.usv.obstacle
  later : v.now ≤ next.now

theorem idle_tracked (tracked : Tracked (v,h)) (idle : Idle v next) : Tracked (next,h) := by
  obtain ⟨lastAt,order,tick,bound⟩ := tracked.stamped
  refine ⟨?_,⟨lastAt,order.trans idle.later,?_,bound⟩,?_⟩
  · rw [idle.obstacle]
    exact tracked.least
  · rw [idle.obstacle]
    exact tick
  · rintro d ⟨r,⟨latest,recent⟩,rfl⟩
    exact tracked.fresh ⟨r,⟨latest,idle.later.trans recent⟩,rfl⟩

theorem input_idle (v : Vessel) (i : Input) (other : ∀ cruise, i ≠ .manager cruise) :
    Idle v (v.step libm kprintf (.input i)) := by
  cases i with
  | manager cruise => exact absurd rfl (other cruise)
  | wait ticks => exact ⟨rfl,Nat.le_add_right _ _⟩
  | changePwm | changeGear => exact ⟨rfl,le_rfl⟩
  | serverByte loraChar =>
    have decoded := Device.server_byte libm v.device loraChar
    constructor
    · change (v.device.step libm (.serverByte loraChar)).usv.obstacle = _
      rw [decoded]
      split <;> rfl
    · change v.now ≤ (v.device.step libm (.serverByte loraChar)).usv.now
      rw [decoded]
      split <;> exact le_rfl
  | radioByte loraChar =>
    have decoded := Device.radio_byte libm v.device loraChar
    constructor
    · change (v.device.step libm (.radioByte loraChar)).usv.obstacle = _
      rw [decoded]
      split <;> rfl
    · change v.now ≤ (v.device.step libm (.radioByte loraChar)).usv.now
      rw [decoded]
      split <;> exact le_rfl

theorem radar_tracked (tracked : Tracked (v,h)) (rHex : UInt8) : Tracked (sighted libm kprintf (v,h) (.radarByte rHex)) := by
  have next : Tracked (({v with radar:=(v.radar.receive rHex).1} : Vessel),h) := idle_tracked tracked ⟨rfl,le_rfl⟩
  change Tracked (v.radarByte rHex,h.observe v (.radarByte rHex))
  unfold Vessel.radarByte Sightings.observe
  dsimp only
  cases (v.radar.receive rHex).2 with
  | none => exact next
  | some target => exact noted_tracked next target

theorem sighted_step (s : Vessel × Sightings) (e : Event) (tracked : Tracked s) : Tracked (sighted libm kprintf s e) := by
  obtain ⟨v,h⟩ := s
  cases e with
  | send => exact idle_tracked tracked ⟨rfl,le_rfl⟩
  | radarByte rHex => exact radar_tracked libm kprintf tracked rHex
  | input i =>
    cases i with
    | manager cruise => exact manager_tracked libm kprintf tracked cruise
    | wait | serverByte | radioByte | changePwm | changeGear =>
      exact idle_tracked tracked (input_idle libm kprintf v _ (fun _ same => by cases same))

theorem nearest_matched (s : Vessel × Sightings) (e : Event) (tracked : Tracked s) :
    Nearest libm kprintf s e ↔ Matched s e := by
  obtain ⟨v,h⟩ := s
  cases e with
  | radarByte | send => exact Iff.rfl
  | input i =>
    cases i with
    | wait | serverByte | radioByte | changePwm | changeGear => exact Iff.rfl
    | manager cruise =>
      have next := manager_tracked libm kprintf tracked cruise
      have kept : h.distances v.now ⊆ (h.expired v).sinceExpiry := by
        rw [← expired_distances h v]
        exact next.fresh
      refine (least_shrink next.least kept).trans ?_
      constructor
      · intro matched distance reported below
        obtain ⟨d,⟨r,inSight,rfl⟩,bound⟩ := matched distance ⟨distance,reported,rfl⟩ (by exact_mod_cast below)
        exact ⟨r,insight_reported inSight,inSight,by exact_mod_cast bound⟩
      · rintro matched d ⟨distance,reported,rfl⟩ below
        obtain ⟨r,_,inSight,bound⟩ := matched distance reported (by exact_mod_cast below)
        exact ⟨r.distance,⟨r,inSight,rfl⟩,by exact_mod_cast bound⟩

theorem along_matched (s : Vessel × Sightings) (events : List Event) (tracked : Tracked s) :
    Along (sighted libm kprintf) (Nearest libm kprintf) s events ↔ Along (sighted libm kprintf) Matched s events :=
  along_exchange (fun s e tracked _ => nearest_matched libm kprintf s e tracked)
    (fun s e tracked _ _ => sighted_step libm kprintf s e tracked) tracked (along_every _ (fun _ _ => trivial))

theorem nearest_exact (stack : Fin 6 → List UInt8) (events : List Event) :
    Along (sighted libm kprintf) (Nearest libm kprintf) (start stack) events ↔
      Along (sighted libm kprintf) Matched (start stack) events :=
  along_matched libm kprintf (start stack) events (start_tracked stack)

def ping (id high low : UInt8) : List Event :=
  [170,170,12,7,id,0,high,low,90,0,0,0,85,85].map .radarByte

-- Target 3 moves from 300 to 600 between two iterations.
def receding : List Event :=
  [.input (.wait 1)] ++ ping 3 1 44 ++ [.input (.manager (1500,1500))] ++ ping 3 2 88 ++ [.input (.manager (1500,1500))]

theorem receding_near : (run (sighted .level id) (start silentStack) receding).1.device.usv.obstacle.minDistance = 300 ∧
    ¬Along (sighted .level id) (Nearest .level id) (start silentStack) receding := by
  refine ⟨by decide +kernel,?_⟩
  rw [along_matched _ _ _ _ (start_tracked silentStack)]
  decide +kernel

end UsvRt.NearestObstacle
