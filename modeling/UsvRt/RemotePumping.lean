import UsvRt.SampleTiming

-- The pump key held down on the remote: how long it pumps, and what the time-out
-- leaves behind for the iterations after it.
namespace UsvRt.RemotePumping
open Runs Sampler MachineWord SampleTiming

def TimesOut (s : Sampler) (tick : UInt32) : Prop :=
  s.isDraw ≠ 1 ∧ ¬ tick - started s.drawStartTick tick < remoteDrawTicks

instance (s : Sampler) (tick : UInt32) : Decidable (TimesOut s tick) := inferInstanceAs (Decidable (_ ∧ ¬ _))

-- Time with the pump on, the last iteration, the true time at which the timer was
-- last set, and the iterations from the time-out on.
structure Watch where
  total : Nat
  lastAt : Nat
  startedAt : Nat
  since : Nat
  deriving DecidableEq

def Watch.boot : Watch := ⟨0,0,0,0⟩

def Watch.iterate (w : Watch) (now : Nat) (s : Sampler) : Watch :=
  {w with
    lastAt:=now
    startedAt:=if s.drawStartTick = 0 then now else w.startedAt
    since:=if w.since = 0 then if TimesOut s (stamp now) then 1 else 0 else w.since+1}

def Watch.observe (w : Watch) (s : Usv) : Occurrence → Watch
  | .wait ticks => {w with total:=if s.sampler.pins.relay1 then w.total+ticks else w.total}
  | .manager _ => w.iterate s.now s.sampler
  | _ => w

def watched (libm : Libm) : Usv × Watch → Occurrence → Usv × Watch := observed (Usv.step libm) Watch.observe

-- Every iteration sees the remote enabled and the pump key pressed, and comes within
-- the period while the pump is on.
def Pressing (period : Nat) (p : Usv × Watch) : Occurrence → Prop
  | .wait ticks => p.1.sampler.pins.relay1 = true → p.1.now+ticks ≤ p.2.lastAt+period
  | .manager _ => p.1.timeouts.remote.key0 = 1 ∧ p.1.timeouts.remote.key2 = 1
  | _ => True

instance (period : Nat) (p : Usv × Watch) (e : Occurrence) : Decidable (Pressing period p e) :=
  match e with
  | .wait _ => inferInstanceAs (Decidable (_ → _ ≤ _))
  | .manager _ => inferInstanceAs (Decidable (_ ∧ _))
  | .heard | .server _ | .radio _ | .changePwm | .changeGear => inferInstanceAs (Decidable True)

-- After the time-out no iteration leaves the pump on.
def StaysOff (libm : Libm) (p : Usv × Watch) (e : Occurrence) : Prop :=
  iterates e = true → p.2.since ≠ 0 → (p.1.step libm e).sampler.pins.relay1 = false

-- At most one iteration follows the time-out.
def Leaves (p : Usv × Watch) (e : Occurrence) : Prop := iterates e = true → p.2.since ≤ 1

-- The timer is set at a tick other than zero, and each iteration under it comes
-- within one turn of the counter.
def Timed (p : Usv × Watch) (e : Occurrence) : Prop :=
  iterates e = true →
    (p.1.sampler.drawStartTick ≠ 0 → p.1.now < p.2.startedAt+2^32) ∧
      (p.1.sampler.drawStartTick = 0 → p.1.sampler.isDraw ≠ 1 → p.1.tick ≠ 0)

instance (libm : Libm) (p : Usv × Watch) (e : Occurrence) : Decidable (StaysOff libm p e) :=
  inferInstanceAs (Decidable (_ → _ → _))
instance (p : Usv × Watch) (e : Occurrence) : Decidable (Leaves p e) := inferInstanceAs (Decidable (_ → _))
instance (p : Usv × Watch) (e : Occurrence) : Decidable (Timed p e) :=
  inferInstanceAs (Decidable (_ → (_ → _) ∧ (_ → _ → _)))

-- What the iterations after a time-out find: the latch still set, then neither the
-- latch nor a timer.
inductive Latch (s : Sampler) : Nat → Prop where
  | ready : Latch s 0
  | latched (latch : s.isDraw = 1) : Latch s 1
  | reset (latch : s.isDraw ≠ 1) (unset : s.drawStartTick = 0) : Latch s 2

theorem pressed_cases (s : Sampler) (tick : UInt32) (remote : Remote) (enabled : remote.key0 = 1) (pressed : remote.key2 = 1) :
    (s.isDraw = 1 ∧ s.manage tick remote = {s with gear:=setGearPwm s.gear (hosePulse remote),pins:=draw 0,isDraw:=0,drawStartTick:=0}) ∨
      (TimesOut s tick ∧ s.manage tick remote = {s with gear:=setGearPwm s.gear (hosePulse remote),pins:=draw 0,isDraw:=1,drawStartTick:=0}) ∨
      (s.isDraw ≠ 1 ∧ ¬ TimesOut s tick ∧ s.manage tick remote =
        {s with gear:=setGearPwm s.gear (hosePulse remote),drawStartTick:=started s.drawStartTick tick,pins:=draw 1}) := by
  have managed := manage_sound s tick remote
  generalize s.manage tick remote = next at managed
  cases managed with
  | remotePump _ _ ready running => exact .inr (.inr ⟨ready,fun late => late.2 running,rfl⟩)
  | remoteTimeout _ _ ready overdue => exact .inr (.inl ⟨⟨ready,overdue⟩,rfl⟩)
  | remoteOff _ unpressed =>
    have latch : s.isDraw = 1 := Decidable.byContradiction fun other => unpressed ⟨pressed,other⟩
    exact .inl ⟨latch,rfl⟩
  | travel released | pump released | finish released | rest released => exact absurd enabled released

theorem fresh_runs (unset : s.drawStartTick = 0) (tick : UInt32) : ¬ TimesOut s tick := by
  rintro ⟨_,overdue⟩
  rw [unset,started_unset,UInt32.lt_iff_toNat_lt,age_zero] at overdue
  exact overdue (by decide)

theorem latch_step (s : Sampler) (w : Watch) (remote : Remote) (now : Nat) (enabled : remote.key0 = 1)
    (pressed : remote.key2 = 1) (latch : Latch s w.since) (leaves : w.since ≤ 1) :
    Latch (s.manage (stamp now) remote) (w.iterate now s).since := by
  unfold Watch.iterate
  dsimp only
  generalize w.since = since at latch leaves
  rcases pressed_cases s (stamp now) remote enabled pressed with ⟨latched,next⟩ | ⟨late,next⟩ | ⟨ready,early,next⟩
  · rw [next]
    cases latch with
    | ready => rw [if_pos rfl,if_neg fun late => late.1 latched]; exact .ready
    | latched => rw [if_neg (by decide)]; exact .reset (by simp) rfl
    | reset other => exact absurd latched other
  · rw [next]
    cases latch with
    | ready => rw [if_pos rfl,if_pos late]; exact .latched rfl
    | latched latched => exact absurd latched late.1
    | reset => exact absurd leaves (by decide)
  · rw [next]
    cases latch with
    | ready => rw [if_pos rfl,if_neg early]; exact .ready
    | latched latched => exact absurd latched ready
    | reset => exact absurd leaves (by decide)

theorem latch_exact (s : Sampler) (tick : UInt32) (remote : Remote) (enabled : remote.key0 = 1) (pressed : remote.key2 = 1)
    (latch : Latch s since) : (since ≠ 0 → (s.manage tick remote).pins.relay1 = false) ↔ since ≤ 1 := by
  rcases pressed_cases s tick remote enabled pressed with ⟨latched,next⟩ | ⟨late,next⟩ | ⟨ready,early,next⟩
  · rw [next]
    cases latch with
    | ready | latched => exact iff_of_true (fun _ => rfl) (by decide)
    | reset other => exact absurd latched other
  · rw [next]
    cases latch with
    | ready | latched => exact iff_of_true (fun _ => rfl) (by decide)
    | reset _ unset => exact absurd late (fresh_runs unset tick)
  · rw [next]
    cases latch with
    | ready => exact iff_of_true (fun other => absurd rfl other) (by decide)
    | latched latched => exact absurd latched ready
    | reset =>
      refine iff_of_false ?_ (by decide)
      intro off
      cases off (by decide)

def limit : Nat := remoteDrawTicks.toNat

inductive Phase (period now : Nat) (s : Sampler) (w : Watch) : Prop where
  | waiting (since : w.since = 0) (ready : s.isDraw ≠ 1) (unset : s.drawStartTick = 0) (off : s.pins.relay1 = false)
      (none : w.total = 0)
  | pumping (since : w.since = 0) (ready : s.isDraw ≠ 1) (on : s.pins.relay1 = true)
      (set : s.drawStartTick = stamp w.startedAt) (running : s.drawStartTick ≠ 0) (spent : w.startedAt+w.total ≤ now) (fresh : w.lastAt < w.startedAt+limit)
      (near : now ≤ w.lastAt+period)
  | cut (since : w.since ≠ 0) (off : s.pins.relay1 = false) (bounded : w.total ≤ limit+period)

theorem Phase.bounded (phase : Phase period now s w) : w.total ≤ limit+period := by
  cases phase with
  | waiting _ _ _ _ none => omega
  | pumping _ _ _ _ _ spent fresh near => omega
  | cut _ _ bounded => exact bounded

theorem phase_manage (s : Sampler) (w : Watch) (remote : Remote) (now : Nat) (enabled : remote.key0 = 1)
    (pressed : remote.key2 = 1) (phase : Phase period now s w)
    (stays : w.since ≠ 0 → (s.manage (stamp now) remote).pins.relay1 = false)
    (near : s.drawStartTick ≠ 0 → now < w.startedAt+2^32) (visible : s.drawStartTick = 0 → s.isDraw ≠ 1 → stamp now ≠ 0) :
    Phase period now (s.manage (stamp now) remote) (w.iterate now s) := by
  cases phase with
  | cut since off bounded =>
    have later : (w.iterate now s).since = w.since+1 := if_neg since
    exact .cut (by omega) (stays since) bounded
  | waiting since ready unset off none =>
    have early := fresh_runs unset (stamp now)
    rcases pressed_cases s (stamp now) remote enabled pressed with ⟨latched,_⟩ | ⟨late,_⟩ | ⟨_,_,next⟩
    · exact absurd latched ready
    · exact absurd late early
    · have still : (w.iterate now s).since = 0 := (if_pos since).trans (if_neg early)
      have begun : (w.iterate now s).startedAt = now := if_pos unset
      have set : started s.drawStartTick (stamp now) = stamp now := by rw [unset,started_unset]
      have total : (w.iterate now s).total = 0 := none
      have last : (w.iterate now s).lastAt = now := rfl
      have positive : 0 < limit := by decide
      rw [next,set]
      exact .pumping still ready rfl (by rw [begun]) (visible unset ready) (by omega) (by omega) (by omega)
  | pumping since ready _ set running spent fresh recent =>
    have begun : (w.iterate now s).startedAt = w.startedAt := if_neg running
    have total : (w.iterate now s).total = w.total := rfl
    have last : (w.iterate now s).lastAt = now := rfl
    have age : (stamp now - started s.drawStartTick (stamp now)).toNat = now - w.startedAt := by
      have within := near running
      rw [started_set running,set,age_exact (by omega) (by omega)]
    rcases pressed_cases s (stamp now) remote enabled pressed with ⟨latched,_⟩ | ⟨late,next⟩ | ⟨_,early,next⟩
    · exact absurd latched ready
    · have cut : (w.iterate now s).since = 1 := (if_pos since).trans (if_pos late)
      rw [next]
      exact .cut (by omega) rfl (by omega)
    · have still : (w.iterate now s).since = 0 := (if_pos since).trans (if_neg early)
      have before : (stamp now - started s.drawStartTick (stamp now)).toNat < limit :=
        Nat.lt_of_not_le fun overdue => early ⟨ready,fun less => absurd (UInt32.lt_iff_toNat_lt.mp less) (Nat.not_lt.mpr overdue)⟩
      rw [age] at before
      rw [next,started_set running]
      exact .pumping still ready rfl (by rw [begun]; exact set) running (by omega) (by omega) (by omega)

theorem phase_wait (phase : Phase period now s w) (ticks : Nat)
    (paced : s.pins.relay1 = true → now+ticks ≤ w.lastAt+period) :
    Phase period (now+ticks) s {w with total:=if s.pins.relay1 then w.total+ticks else w.total} := by
  cases phase with
  | waiting since ready unset off none =>
    refine .waiting since ready unset off ?_
    rw [off]
    exact none
  | pumping since ready on set running spent fresh =>
    refine .pumping since ready on set running ?_ fresh (paced on)
    rw [on]
    simp only [if_true]
    omega
  | cut since off bounded =>
    refine .cut since off ?_
    rw [off]
    exact bounded

theorem pumping_other (libm : Libm) (s : Usv) (c : ServerCommand) :
    (s.step libm (.server c)).sampler.isDraw = s.sampler.isDraw ∧
      (s.step libm (.server c)).sampler.drawStartTick = s.sampler.drawStartTick ∧
      (s.step libm (.server c)).sampler.pins = s.sampler.pins := by
  cases c with
  | sample | target | control | settings | gains | compass | heartbeat => exact ⟨rfl,rfl,rfl⟩

theorem phase_same (phase : Phase period now s w) (latch : next.isDraw = s.isDraw)
    (timer : next.drawStartTick = s.drawStartTick) (pins : next.pins = s.pins) : Phase period now next w := by
  cases phase with
  | waiting since ready unset off none =>
    rw [← latch] at ready
    rw [← timer] at unset
    rw [← pins] at off
    exact .waiting since ready unset off none
  | pumping since ready on set running spent fresh near =>
    rw [← latch] at ready
    rw [← timer] at set running
    rw [← pins] at on
    exact .pumping since ready on set running spent fresh near
  | cut since off bounded =>
    rw [← pins] at off
    exact .cut since off bounded

def Phased (period : Nat) (p : Usv × Watch) : Prop := Phase period p.1.now p.1.sampler p.2

theorem phased_step (libm : Libm) (p : Usv × Watch) (e : Occurrence) (phased : Phased period p)
    (pressing : Pressing period p e) (stays : StaysOff libm p e) (timed : Timed p e) : Phased period (watched libm p e) := by
  obtain ⟨s,w⟩ := p
  cases e with
  | heard | radio | changePwm => exact phased
  | wait ticks => exact phase_wait phased ticks pressing
  | changeGear => exact phase_same phased rfl rfl rfl
  | server c =>
    obtain ⟨latch,timer,pins⟩ := pumping_other libm s c
    exact phase_same phased latch timer pins
  | manager cruise =>
    obtain ⟨near,visible⟩ := timed rfl
    exact phase_manage s.sampler w s.timeouts.remote s.now pressing.1 pressing.2 phased (stays rfl) near visible

def Latched (p : Usv × Watch) : Prop := Latch p.1.sampler p.2.since

theorem latch_same (latch : Latch s since) (same : next.isDraw = s.isDraw) (timer : next.drawStartTick = s.drawStartTick) :
    Latch next since := by
  cases latch with
  | ready => exact .ready
  | latched latched => exact .latched (same.trans latched)
  | reset other unset => exact .reset (by rw [same]; exact other) (timer.trans unset)

theorem latched_step (libm : Libm) (p : Usv × Watch) (e : Occurrence) (latched : Latched p)
    (pressing : Pressing period p e) (leaves : Leaves p e) : Latched (watched libm p e) := by
  obtain ⟨s,w⟩ := p
  cases e with
  | wait | heard | radio | changePwm => exact latched
  | changeGear => exact latch_same latched rfl rfl
  | server c =>
    obtain ⟨latch,timer,_⟩ := pumping_other libm s c
    exact latch_same latched latch timer
  | manager cruise =>
    exact latch_step s.sampler w s.timeouts.remote s.now pressing.1 pressing.2 latched (leaves rfl)

theorem stays_exact (libm : Libm) (p : Usv × Watch) (e : Occurrence) (latched : Latched p)
    (pressing : Pressing period p e) : StaysOff libm p e ↔ Leaves p e := by
  cases e with
  | wait | heard | server | radio | changePwm | changeGear => exact iff_of_true (fun other => by cases other) (fun other => by cases other)
  | manager cruise =>
    exact imp_congr_right fun _ => latch_exact p.1.sampler p.1.tick p.1.timeouts.remote pressing.1 pressing.2 latched

-- With the key held down the time-out cuts the pump off for exactly as long as at
-- most one iteration follows it; until then it has pumped its limit and a period.
theorem remote_cutoff (libm : Libm) (period : Nat) (s : Usv) (off : s.sampler.pins.relay1 = false)
    (unlatched : s.sampler.isDraw = 0) (unset : s.sampler.drawStartTick = 0) (events : List Occurrence)
    (pressing : Along (watched libm) (Pressing period) (s,.boot) events) :
    (Along (watched libm) (StaysOff libm) (s,.boot) events ↔ Along (watched libm) Leaves (s,.boot) events) ∧
      (Along (watched libm) (fun p e => Leaves p e ∧ Timed p e) (s,.boot) events →
        (run (watched libm) (s,.boot) events).2.total ≤ 60000*1000/2000+period) := by
  have ready : s.sampler.isDraw ≠ 1 := by omega
  have initial : Latched (s,Watch.boot) := .ready
  refine ⟨?_,?_⟩
  · refine along_exchange ?_ ?_ initial pressing
    · exact fun p e latched allowed => stays_exact libm p e latched allowed
    · exact fun p e latched allowed leaves => latched_step libm p e latched allowed leaves
  · intro kept
    have start : Phased period (s,Watch.boot) ∧ Latched (s,Watch.boot) := ⟨.waiting rfl ready unset off rfl,initial⟩
    have preserved : ∀ p e, Phased period p ∧ Latched p → Pressing period p e ∧ Leaves p e ∧ Timed p e →
        Phased period (watched libm p e) ∧ Latched (watched libm p e) := by
      rintro p e ⟨phased,latched⟩ ⟨pressed,leaves,timed⟩
      have stays := (stays_exact libm p e latched pressed).mpr leaves
      exact ⟨phased_step libm p e phased pressed stays timed,latched_step libm p e latched pressed leaves⟩
    have final := (invariant_run preserved start (pressing.and kept)).1
    have bounded := Phase.bounded final
    have ticks : limit = 60000*1000/2000 := by decide
    rw [ticks] at bounded
    exact bounded

-- The key is held down and its frames keep coming, with an iteration each time.
def beats (count : Nat) : List Occurrence :=
  (List.replicate count [.wait 1400,.radio (.keys 1 1),.manager (1500,1500)]).flatten

theorem held_cutoff :
    (run (watched .level) (.boot,.boot) (beats 24)).2.since = 2 ∧
      Along (watched .level) (StaysOff .level) (.boot,.boot) (beats 24) ∧
      (run (watched .level) (.boot,.boot) (beats 24)).2.total ≤ 60000*1000/2000+1400 := by
  have cutoff := remote_cutoff .level 1400 .boot rfl rfl rfl (beats 24) (by decide +kernel)
  exact ⟨by decide +kernel,cutoff.1.mpr (by decide +kernel),cutoff.2 (by decide +kernel)⟩

-- The second iteration after the time-out starts the pump again, and it runs its
-- whole limit once more.
theorem held_restarts :
    Along (watched .level) (Pressing 1400) (.boot,.boot) (beats 46) ∧
      ¬ Along (watched .level) (StaysOff .level) (.boot,.boot) (beats 46) ∧
      (run (watched .level) (.boot,.boot) (beats 46)).2.total = 60200 := by
  refine ⟨by decide +kernel,by decide +kernel,?_⟩
  decide +kernel

end UsvRt.RemotePumping
