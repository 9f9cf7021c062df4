import UsvRt.Dosing

-- How long after the pump is switched on the manager switches it off again, for every
-- amount that atoi can deliver.
namespace UsvRt.PumpTime
open Runs Sampler MachineWord SampleTiming Dosing

-- The iteration that switched the pump on, with the age of the timer it found then,
-- and the last iteration.
structure Switch where
  on : Bool
  onAt : Nat
  age : Nat
  lastAt : Nat
  deriving DecidableEq

def Switch.boot : Switch := ⟨false,0,0,0⟩

def Switch.iterate (w : Switch) (now : Nat) (remote : Remote) (s : Sampler) : Switch :=
  if w.on then {w with lastAt:=now}
  else ⟨decide (Draws s (stamp now) remote),now,(stamp now - started s.drawStartTick (stamp now)).toNat,now⟩

def Switch.observe (w : Switch) (s : Usv) : Occurrence → Switch
  | .manager _ => w.iterate s.now s.timeouts.remote s.sampler
  | _ => w

def watched (libm : Libm) : Usv × Switch → Occurrence → Usv × Switch := observed (Usv.step libm) Switch.observe

def Paced (period : Nat) (p : Usv × Switch) : Occurrence → Prop
  | .wait ticks => p.2.on = true → p.1.sampler.drawStatus ≠ 4 → p.1.now+ticks ≤ p.2.lastAt+period
  | _ => True

-- The pump is switched on with the hose at rest and not at tick value zero, and every
-- iteration while it runs comes within one turn of the counter.
def Regular (now : Nat) (remote : Remote) (s : Sampler) (w : Switch) : Prop :=
  (w.on = true → s.drawStatus ≠ 4 → w.age+(now-w.onAt) < 2^32) ∧
    (w.on = false → Draws s (stamp now) remote →
      s.gear.currentGearPwm = s.gear.targetGearPwm ∧ (s.drawStartTick = 0 → stamp now ≠ 0))

def Allowed (period : Nat) (p : Usv × Switch) (e : Occurrence) : Prop :=
  Alone p.1 e ∧ Paced period p e ∧ (iterates e = true → Regular p.1.now p.1.timeouts.remote p.1.sampler p.2)

instance (period : Nat) (p : Usv × Switch) (e : Occurrence) : Decidable (Paced period p e) :=
  match e with
  | .wait _ => inferInstanceAs (Decidable (_ → _ → _ ≤ _))
  | .heard | .server _ | .radio _ | .manager _ | .changePwm | .changeGear => inferInstanceAs (Decidable True)

instance (now : Nat) (remote : Remote) (s : Sampler) (w : Switch) : Decidable (Regular now remote s w) :=
  inferInstanceAs (Decidable ((_ → _ → _) ∧ (_ → _ → _ ∧ (_ → _))))

instance (period : Nat) (p : Usv × Switch) (e : Occurrence) : Decidable (Allowed period p e) :=
  inferInstanceAs (Decidable (_ ∧ _ ∧ (_ → _)))

-- 60000*10*bottle_amount/draw_speed, or zero.
def dueTicks (bottleAmount : Int) : Int := max 0 (300*bottleAmount)

-- Past the deadline the pump is off and the draw reported as done.
def Stopped (amount : Int) (period : Nat) (p : Usv × Switch) : Prop :=
  p.2.on = true → (p.2.onAt : Int)+dueTicks amount+period < p.1.now →
    p.1.sampler.drawStatus = 4 ∧ p.1.sampler.pins = allLow

inductive Phase (due period now : Nat) (s : Sampler) (w : Switch) : Prop where
  | waiting (off : w.on = false)
  | pumping (on : w.on = true) (pending : s.Pending) (there : s.AtDepth) (still : s.gear.currentGearPwm = s.gear.targetGearPwm)
      (running : s.drawStartTick ≠ 0) (age : (stamp w.onAt - s.drawStartTick).toNat = w.age)
      (since : w.onAt ≤ w.lastAt) (fresh : w.age+(w.lastAt-w.onAt) < due) (last : w.lastAt ≤ now) (near : now ≤ w.lastAt+period)
  | done (status : s.drawStatus = 4) (low : s.pins = allLow)

theorem age_later {start : UInt32} {onAt now : Nat} (order : onAt ≤ now) (near : (stamp onAt - start).toNat+(now-onAt) < 2^32) :
    (stamp now - start).toNat = (stamp onAt - start).toNat+(now-onAt) := by
  have bound := start.toNat_lt
  have first := UInt32.toNat_sub (stamp onAt) start
  have later := UInt32.toNat_sub (stamp now) start
  rw [stamp_toNat] at first later
  omega

theorem first_pumps (w : Switch) (draws : Draws s (stamp now) remote) (off : w.on = false)
    (still : s.gear.currentGearPwm = s.gear.targetGearPwm) (visible : s.drawStartTick = 0 → stamp now ≠ 0) :
    Phase (drawTicks s.bottleAmount).toNat period now (s.manage (stamp now) remote) (w.iterate now remote s) := by
  obtain ⟨status,gear,_,_,timer⟩ := draws_next draws
  obtain ⟨bottleId,bottleDeep,_⟩ := manage_kept s (stamp now) remote
  have drew := decide_eq_true draws
  obtain ⟨_,pending,there,before⟩ := draws
  have on : w.iterate now remote s =
      ⟨decide (Draws s (stamp now) remote),now,(stamp now - started s.drawStartTick (stamp now)).toNat,now⟩ :=
    if_neg (by rw [off]; decide)
  have running : started s.drawStartTick (stamp now) ≠ 0 := by
    unfold started
    split
    · next unset => exact visible unset
    · next set => exact set
  have young := UInt32.lt_iff_toNat_lt.mp before
  rw [on]
  refine .pumping drew ⟨by rw [bottleId]; exact pending.1,by omega⟩ ?_ (by rw [gear]; exact still) (by rw [timer]; exact running)
    (by rw [timer]) (Nat.le_refl _) (by dsimp only; omega) (Nat.le_refl _) (Nat.le_add_right _ _)
  rw [AtDepth,gear,bottleDeep]
  exact there

theorem phase_manage (s : Sampler) (w : Switch) (remote : Remote) (now : Nat) (released : remote.key0 ≠ 1)
    (phase : Phase (drawTicks s.bottleAmount).toNat period now s w) (regular : Regular now remote s w) :
    Phase (drawTicks s.bottleAmount).toNat period now (s.manage (stamp now) remote) (w.iterate now remote s) := by
  obtain ⟨near,first⟩ := regular
  cases on : w.on with
  | false =>
    by_cases draws : Draws s (stamp now) remote
    · obtain ⟨still,visible⟩ := first on draws
      exact first_pumps w draws on still visible
    · refine .waiting ?_
      unfold Switch.iterate
      rw [on]
      exact decide_eq_false draws
  | true =>
    have kept : w.iterate now remote s = {w with lastAt:=now} := if_pos on
    rw [kept]
    have managed := manage_sound s (stamp now) remote
    generalize s.manage (stamp now) remote = next at managed
    cases phase with
    | waiting off => rw [on] at off; cases off
    | pumping _ pending there still running age since fresh last =>
      have young := near on pending.2
      have order : w.onAt ≤ now := by omega
      cases managed with
      | remotePump enabled | remoteTimeout enabled | remoteOff enabled => exact absurd enabled released
      | travel _ _ away => exact absurd there away
      | pump _ _ _ before =>
        have before := UInt32.lt_iff_toNat_lt.mp before
        rw [started_set running,age_later order (by rw [age]; exact young),age] at before
        exact .pumping on ⟨pending.1,by simp⟩ there still (by dsimp only; rw [started_set running]; exact running)
          (by dsimp only; rw [started_set running]; exact age) order before (Nat.le_refl _) (Nat.le_add_right _ _)
      | finish => exact .done rfl draw_stopped
      | rest _ idle => exact absurd pending idle
    | done status low =>
      cases managed with
      | remotePump enabled | remoteTimeout enabled | remoteOff enabled => exact absurd enabled released
      | travel _ pending | pump _ pending | finish _ pending => exact absurd status pending.2
      | rest => exact .done status draw_stopped

theorem phase_wait (phase : Phase due period now s w) (ticks : Nat)
    (paced : w.on = true → s.drawStatus ≠ 4 → now+ticks ≤ w.lastAt+period) : Phase due period (now+ticks) s w := by
  cases phase with
  | waiting off => exact .waiting off
  | done status low => exact .done status low
  | pumping on pending there still running age since fresh last =>
    exact .pumping on pending there still running age since fresh (by omega) (paced on pending.2)

theorem phase_loop (phase : Phase due period now s w) :
    Phase due period now {s with gear:=(loopChangeGear s.gear).1} w := by
  cases phase with
  | waiting off => exact .waiting off
  | done status low => exact .done status low
  | pumping on pending there still running age since fresh last near =>
    rw [loopChangeGear_still s.gear still]
    exact .pumping on pending there still running age since fresh last near

structure Tracked (amount : Int) (period : Nat) (p : Usv × Switch) : Prop where
  ordered : p.1.sampler.bottleAmount = amount
  phase : Phase (drawTicks amount).toNat period p.1.now p.1.sampler p.2

theorem tracked_step (libm : Libm) (p : Usv × Switch) (e : Occurrence) (tracked : Tracked amount period p)
    (allowed : Allowed period p e) : Tracked amount period (watched libm p e) := by
  obtain ⟨s,w⟩ := p
  obtain ⟨ordered,phase⟩ := tracked
  obtain ⟨⟨single,released⟩,paced,regular⟩ := allowed
  cases e with
  | heard | radio | changePwm => exact ⟨ordered,phase⟩
  | wait ticks => exact ⟨ordered,phase_wait phase ticks paced⟩
  | changeGear => exact ⟨ordered,phase_loop phase⟩
  | server c =>
    have same : (watched libm (s,w) (.server c)).1.sampler = s.sampler := server_other libm s c single
    exact ⟨by rw [same]; exact ordered,by rw [same]; exact phase⟩
  | manager cruise =>
    have disabled : s.timeouts.remote.key0 ≠ 1 := by
      have zero : s.timeouts.remote.key0 = 0 := released rfl
      omega
    obtain ⟨_,_,bottleAmount⟩ := manage_kept s.sampler s.tick s.timeouts.remote
    have ordered : s.sampler.bottleAmount = amount := ordered
    subst ordered
    exact ⟨bottleAmount,phase_manage s.sampler w s.timeouts.remote s.now disabled phase (regular rfl)⟩

theorem phase_stopped (phase : Phase (drawTicks amount).toNat period p.1.now p.1.sampler p.2)
    (within : ((drawTicks amount).toNat : Int) ≤ dueTicks amount) : Stopped amount period p := by
  intro on late
  cases phase with
  | waiting off => rw [on] at off; cases off
  | pumping _ _ _ _ _ _ since fresh _ near => omega
  | done status low => exact ⟨status,low⟩

-- Every regular run of every reachable state with this amount keeps to the deadline.
def Keeps (libm : Libm) (amount : Int) : Prop :=
  ∀ s, Usv.Reached libm s → ∀ (bottle : Fin 8) (deep : Int), 0 ≤ deep → deep ≤ 5 → ∀ period events,
    Along (watched libm) (Allowed period) (s.decoded (.sample (bottle.val+1) deep amount),.boot) events →
      Stopped amount period (run (watched libm) (s.decoded (.sample (bottle.val+1) deep amount),.boot) events)

theorem within_keeps (libm : Libm) (within : ((drawTicks amount).toNat : Int) ≤ dueTicks amount) : Keeps libm amount := by
  intro s _ bottle deep _ _ period events allowed
  have initial : Tracked amount period (s.decoded (.sample (bottle.val+1) deep amount),Switch.boot) := ⟨rfl,.waiting rfl⟩
  exact phase_stopped (invariant_run (tracked_step libm) initial allowed).phase within

theorem ticks_residue (amount : Int) : ((drawTicks amount).toNat : Int) = fullTime amount*1000 % 2^32 := by
  unfold drawTicks
  exact ofInt_toNat _

theorem ticks_zero (amount : Int) : (drawTicks amount).toNat = 0 ↔ fullTime amount % 2^29 = 0 := by
  have coprime : IsCoprime (2^29 : Int) 125 := Int.isCoprime_iff_gcd_eq_one.mpr rfl
  have seconds : fullTime amount*1000 = 8*(125*fullTime amount) := by omega
  rw [← word_turns coprime,← seconds,← ticks_residue,Int.natCast_eq_zero]

-- An amount of at least zero never pumps longer than it should, even where the
-- product overflows; a negative one only where the product is a whole number of turns.
theorem within_exact (amount : Int) :
    ((drawTicks amount).toNat : Int) ≤ dueTicks amount ↔ 0 ≤ amount ∨ fullTime amount % 2^29 = 0 := by
  unfold dueTicks
  constructor
  · intro within
    rcases Int.lt_or_le amount 0 with negative | positive
    · exact .inr ((ticks_zero amount).mp (by omega))
    · exact .inl positive
  · rintro (positive | turns)
    · have scaled := fullTime_scaled amount positive
      have short : fullTime amount*1000 % 2^32 ≤ fullTime amount*1000 := by omega
      rw [← ticks_residue] at short
      omega
    · have zero := (ticks_zero amount).mpr turns
      omega

-- What the sampling depends on; the motors are not part of it.
structure Alike (s t : Usv) : Prop where
  now : s.now = t.now
  remote : s.remote = t.remote
  sampler : s.sampler = t.sampler

theorem Alike.timeouts (alike : Alike s t) : s.timeouts.remote = t.timeouts.remote := by
  unfold Usv.timeouts Usv.tick
  dsimp only
  rw [alike.now,alike.remote]

theorem Alike.step (alike : Alike s t) (libm other : Libm) (e : Occurrence) : Alike (s.step libm e) (t.step other e) := by
  obtain ⟨now,remote,sampler⟩ := alike
  cases e with
  | wait ticks => exact ⟨congrArg (·+ticks) now,remote,sampler⟩
  | heard | changePwm => exact ⟨now,remote,sampler⟩
  | server c => exact ⟨now,remote,congrArg (Sampler.apply · c) sampler⟩
  | radio c =>
    refine ⟨now,?_,sampler⟩
    change s.remote.apply (stamp s.now) c = t.remote.apply (stamp t.now) c
    rw [now,remote]
  | changeGear =>
    refine ⟨now,remote,?_⟩
    change {s.sampler with gear:=(loopChangeGear s.sampler.gear).1} = {t.sampler with gear:=(loopChangeGear t.sampler.gear).1}
    rw [sampler]
  | manager cruise =>
    have seen := Alike.timeouts ⟨now,remote,sampler⟩
    refine ⟨now,seen,?_⟩
    change s.sampler.manage (stamp s.now) s.timeouts.remote = t.sampler.manage (stamp t.now) t.timeouts.remote
    rw [now,seen,sampler]

theorem alike_run (libm other : Libm) (alike : Alike s t) (events : List Occurrence) :
    Alike (run (Usv.step libm) s events) (run (Usv.step other) t events) := by
  induction events generalizing s t with
  | nil => exact alike
  | cons e rest ih => exact ih (alike.step libm other e)

def parking : List Occurrence :=
  [.server (.sample 1 0 0),.wait 1,.manager (1500,1500)]++List.replicate 100 .changeGear

-- Ready to draw: the hose at rest at the depth of a pending command, one tick after boot or later.
structure Ready (amount : Int) (s : Usv) : Prop where
  visible : 1 ≤ s.now ∧ s.now ≤ 2
  key : s.remote.key0 = 0
  pending : s.sampler.Pending
  there : s.sampler.AtDepth
  still : s.sampler.gear.currentGearPwm = s.sampler.gear.targetGearPwm
  ordered : s.sampler.bottleAmount = amount

def parked (libm : Libm) : Usv := run (Usv.step libm) .boot parking

theorem level_parked : (parked .level).now = 1 ∧ (parked .level).remote.key0 = 0 ∧
    (parked .level).sampler.gear = ⟨1400,1400⟩ ∧ (parked .level).sampler.drawStartTick = 0 := by decide +kernel

theorem parked_alike (libm : Libm) : Alike (parked libm) (parked .level) :=
  alike_run libm .level ⟨rfl,rfl,rfl⟩ parking

theorem parked_reached (libm : Libm) : Usv.Reached libm (parked libm) := by
  unfold parked
  exact ⟨parking,rfl⟩

theorem decoded_ready (s : Usv) (early : s.now = 1) (key : s.remote.key0 = 0) (gear : s.sampler.gear = ⟨1400,1400⟩)
    (amount : Int) : Ready amount (s.decoded (.sample 1 0 amount)) := by
  have commanded : (s.decoded (.sample 1 0 amount)).sampler.gear = ⟨1400,1400⟩ := gear
  have deep : (s.decoded (.sample 1 0 amount)).sampler.bottleDeep = 0 := rfl
  refine ⟨?_,key,⟨?_,?_⟩,?_,?_,rfl⟩
  · change 1 ≤ s.now ∧ s.now ≤ 2
    omega
  · simp [Usv.decoded,Sampler.apply]
  · simp [Usv.decoded,Sampler.apply]
  · rw [AtDepth,commanded,deep]
    decide
  · rw [commanded]

theorem released_key (s : Usv) (key : s.remote.key0 = 0) : s.Released := by
  unfold Usv.Released
  rw [s.timeouts_key]
  split
  · rfl
  · exact key

theorem ready_draws (ready : Ready amount s)
    (before : (stamp s.now - started s.sampler.drawStartTick (stamp s.now)).toNat < (drawTicks amount).toNat) :
    Draws s.sampler s.tick s.timeouts.remote := by
  have released : s.timeouts.remote.key0 = 0 := released_key s ready.key
  refine ⟨by omega,ready.pending,ready.there,?_⟩
  rw [ready.ordered]
  exact UInt32.lt_iff_toNat_lt.mpr before

theorem ready_manager (libm : Libm) (cruise : UInt32 × UInt32) (ready : Ready amount s)
    (draws : Draws s.sampler s.tick s.timeouts.remote) :
    Ready amount (s.step libm (.manager cruise)) ∧ (s.step libm (.manager cruise)).sampler.drawStatus = 2 ∧
      (s.step libm (.manager cruise)).sampler.drawStartTick = started s.sampler.drawStartTick s.tick := by
  obtain ⟨status,gear,_,_,timer⟩ := draws_next draws
  obtain ⟨bottleId,bottleDeep,bottleAmount⟩ := manage_kept s.sampler s.tick s.timeouts.remote
  refine ⟨⟨ready.visible,released_key s ready.key,⟨?_,?_⟩,?_,?_,?_⟩,status,timer⟩
  · exact fun none => ready.pending.1 (bottleId.symm.trans none)
  · intro done
    have done : (s.sampler.manage s.tick s.timeouts.remote).drawStatus = 4 := done
    omega
  · change (s.sampler.manage s.tick s.timeouts.remote).AtDepth
    rw [AtDepth,gear,bottleDeep]
    exact ready.there
  · change (s.sampler.manage s.tick s.timeouts.remote).gear.currentGearPwm = (s.sampler.manage s.tick s.timeouts.remote).gear.targetGearPwm
    rw [gear]
    exact ready.still
  · exact bottleAmount.trans ready.ordered

theorem ready_wait (libm : Libm) (ready : Ready amount s) (early : s.now = 1) : Ready amount (s.step libm (.wait 1)) := by
  have later : (s.step libm (.wait 1)).now = s.now+1 := rfl
  exact ⟨by omega,ready.key,ready.pending,ready.there,ready.still,ready.ordered⟩

theorem manager_allowed {w : Switch} (ready : Ready amount s) (regular : Regular s.now s.timeouts.remote s.sampler w) :
    Allowed period (s,w) (.manager cruise) :=
  ⟨⟨rfl,fun _ => released_key s ready.key⟩,trivial,fun _ => regular⟩

theorem wait_allowed {s : Usv} {w : Switch} (near : s.now+ticks ≤ w.lastAt+period) : Allowed period (s,w) (.wait ticks) :=
  ⟨⟨rfl,(fun other => by cases other)⟩,fun _ _ => near,(fun other => by cases other)⟩

-- Two iterations and two ticks after the pump is switched on.
def overrun : List Occurrence := [.manager (1500,1500),.wait 1,.manager (1500,1500),.wait 1]

theorem switch_starts (libm : Libm) (cruise : UInt32 × UInt32) (s : Usv) (ready : Ready amount s) (early : s.now = 1)
    (unset : s.sampler.drawStartTick = 0) (some : 0 < (drawTicks amount).toNat) :
    Allowed 1 (s,.boot) (.manager cruise) ∧ Ready amount (s.step libm (.manager cruise)) ∧
      watched libm (s,.boot) (.manager cruise) = (s.step libm (.manager cruise),⟨true,1,0,1⟩) ∧
      (s.step libm (.manager cruise)).sampler.drawStartTick = 1 := by
  have draws : Draws s.sampler s.tick s.timeouts.remote := by
    refine ready_draws ready ?_
    rw [unset,started_unset,age_zero]
    exact some
  obtain ⟨next,_,timer⟩ := ready_manager libm cruise ready draws
  have drew : decide (Draws s.sampler (stamp s.now) s.timeouts.remote) = true := decide_eq_true draws
  refine ⟨manager_allowed ready ⟨fun on => (by cases on),fun _ _ => ⟨ready.still,fun _ => ?_⟩⟩,next,Prod.ext rfl ?_,?_⟩
  · rw [early]
    decide
  · change Switch.boot.iterate s.now s.timeouts.remote s.sampler = _
    unfold Switch.iterate
    rw [if_neg (by decide),drew,unset,started_unset,age_zero,early]
  · rw [timer,unset,started_unset,Usv.tick,early]
    rfl

theorem switch_runs (libm : Libm) (cruise : UInt32 × UInt32) (s : Usv) (ready : Ready amount s) (later : s.now = 2)
    (running : s.sampler.drawStartTick = 1) (long : 1 < (drawTicks amount).toNat) :
    Allowed 1 (s,⟨true,1,0,1⟩) (.manager cruise) ∧
      watched libm (s,⟨true,1,0,1⟩) (.manager cruise) = (s.step libm (.manager cruise),⟨true,1,0,2⟩) ∧
      (s.step libm (.manager cruise)).sampler.drawStatus = 2 := by
  have draws : Draws s.sampler s.tick s.timeouts.remote := by
    refine ready_draws ready ?_
    rw [running,later,started_set (by decide)]
    exact long
  obtain ⟨_,status,_⟩ := ready_manager libm cruise ready draws
  refine ⟨manager_allowed ready ⟨fun _ _ => ?_,(fun off => by cases off)⟩,Prod.ext rfl ?_,status⟩
  · rw [later]
    decide
  · change (⟨true,1,0,s.now⟩ : Switch) = _
    rw [later]

theorem overrun_pumps (libm : Libm) (s : Usv) (ready : Ready amount s) (early : s.now = 1)
    (unset : s.sampler.drawStartTick = 0) (long : 1 < (drawTicks amount).toNat) :
    Along (watched libm) (Allowed 1) (s,.boot) overrun ∧
      (run (watched libm) (s,.boot) overrun).2.on = true ∧ (run (watched libm) (s,.boot) overrun).2.onAt = 1 ∧
      (run (watched libm) (s,.boot) overrun).1.now = 3 ∧
      (run (watched libm) (s,.boot) overrun).1.sampler.drawStatus = 2 := by
  obtain ⟨starts,firstReady,first,firstTimer⟩ := switch_starts libm (1500,1500) s ready early unset (by omega)
  have firstNow : (s.step libm (.manager (1500,1500))).now = 1 := early
  generalize s.step libm (.manager (1500,1500)) = t at *
  have second : watched libm (t,⟨true,1,0,1⟩) (.wait 1) = (t.step libm (.wait 1),⟨true,1,0,1⟩) := rfl
  have secondReady := ready_wait libm firstReady firstNow
  have secondNow : (t.step libm (.wait 1)).now = 2 := congrArg (·+1) firstNow
  have secondTimer : (t.step libm (.wait 1)).sampler.drawStartTick = 1 := firstTimer
  have waits : Allowed 1 (t,⟨true,1,0,1⟩) (.wait 1) := wait_allowed (by rw [firstNow])
  generalize t.step libm (.wait 1) = u at *
  obtain ⟨runs,third,thirdStatus⟩ := switch_runs libm (1500,1500) u secondReady secondNow secondTimer long
  have thirdNow : (u.step libm (.manager (1500,1500))).now = 2 := secondNow
  have last : watched libm (u.step libm (.manager (1500,1500)),⟨true,1,0,2⟩) (.wait 1) =
      ((u.step libm (.manager (1500,1500))).step libm (.wait 1),⟨true,1,0,2⟩) := rfl
  have lastNow : ((u.step libm (.manager (1500,1500))).step libm (.wait 1)).now = 3 := congrArg (·+1) thirdNow
  have ends : Allowed 1 (u.step libm (.manager (1500,1500)),⟨true,1,0,2⟩) (.wait 1) := wait_allowed (by rw [thirdNow])
  simp only [overrun,Along,run_cons,run_nil,first,second,third,last]
  exact ⟨⟨starts,waits,runs,ends,trivial⟩,trivial,trivial,lastNow,thirdStatus⟩

def Exceeds (libm : Libm) (s : Usv) (amount : Int) : Prop :=
  Along (watched libm) (Allowed 1) (s.decoded (.sample 1 0 amount),.boot) overrun ∧
    ¬ Stopped amount 1 (run (watched libm) (s.decoded (.sample 1 0 amount),.boot) overrun)

theorem overrun_exceeds (libm : Libm) (s : Usv) (early : s.now = 1) (key : s.remote.key0 = 0)
    (gear : s.sampler.gear = ⟨1400,1400⟩) (timer : s.sampler.drawStartTick = 0) (negative : amount < 0)
    (long : 1 < (drawTicks amount).toNat) : Exceeds libm s amount := by
  have ready := decoded_ready s early key gear amount
  obtain ⟨allowed,on,onAt,later,status⟩ := overrun_pumps libm _ ready early timer long
  have due : dueTicks amount = 0 := by
    unfold dueTicks
    omega
  refine ⟨allowed,?_⟩
  intro stopped
  have done := stopped on
  rw [onAt,later,due,status] at done
  cases (done (by decide)).1

theorem parked_exceeds (libm : Libm) (negative : amount < 0) (long : 1 < (drawTicks amount).toNat) :
    Exceeds libm (parked libm) amount := by
  obtain ⟨now,remote,sampler⟩ := parked_alike libm
  obtain ⟨early,key,gear,timer⟩ := level_parked
  rw [← now] at early
  rw [← remote] at key
  rw [← sampler] at gear timer
  exact overrun_exceeds libm (parked libm) early key gear timer negative long

theorem keeps_within (libm : Libm) (keeps : Keeps libm amount) : 0 ≤ amount ∨ fullTime amount % 2^29 = 0 := by
  rcases Int.lt_or_le amount 0 with negative | positive
  · right
    apply Classical.byContradiction
    intro turned
    have some := (ticks_zero amount).not.mpr turned
    have long : 1 < (drawTicks amount).toNat := by
      have whole : ((drawTicks amount).toNat : Int) % 8 = 0 := by
        rw [ticks_residue,Int.emod_emod_of_dvd _ (by decide)]
        omega
      omega
    obtain ⟨allowed,late⟩ := parked_exceeds libm negative long
    exact late (keeps (parked libm) (parked_reached libm) 0 0 (by decide) (by decide) 1 overrun allowed)
  · exact .inl positive

-- The pump stops in time for the amounts of at least zero, and for the negative ones
-- whose full_draw_time is a whole multiple of 2^29 seconds, zero among them.
theorem pump_time_exact (libm : Libm) (amount : Int) : Keeps libm amount ↔ 0 ≤ amount ∨ fullTime amount % 2^29 = 0 :=
  ⟨keeps_within libm,fun known => within_keeps libm ((within_exact amount).mpr known)⟩

-- An amount of -4 asks for -1 seconds, which the comparison takes for 4294966296 ticks.
theorem negative_overruns : drawTicks (-4) = 4294966296 ∧ ¬ Keeps .level (-4) := by
  refine ⟨by decide,?_⟩
  intro keeps
  have kept := keeps_within .level keeps
  revert kept
  decide

end UsvRt.PumpTime
