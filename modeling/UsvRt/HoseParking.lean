import UsvRt.Dosing

-- A draw begins where the servo happens to be: the iteration compares its present
-- pulse with the depth and does not look where the ramp is taking it.
namespace UsvRt.HoseParking
open Runs Sampler MachineWord Dosing SampleTiming

variable (libm : Libm)

def Parked (s : Sampler) : Prop :=
  s.gear.targetGearPwm = UInt32.ofInt s.deepPwm ∧ s.gear.currentGearPwm = UInt32.ofInt s.deepPwm

-- Neither another command nor a remote take-over.
def Untouched (s : Usv) (e : Occurrence) : Prop :=
  samples e = false ∧ (iterates e = true → s.timeouts.remote.key0 ≠ 1)

instance (s : Usv) (e : Occurrence) : Decidable (Untouched s e) := inferInstanceAs (Decidable (_ ∧ (_ → _)))

-- An iteration that sets draw_status to 2 aims at the depth, and until the draw is
-- done the hose stays there.
def Parks (s : Usv) (e : Occurrence) : Prop :=
  ∀ cruise, e = .manager cruise → Draws s.sampler s.tick s.timeouts.remote →
    (s.step libm e).sampler.gear.targetGearPwm = UInt32.ofInt (s.step libm e).sampler.deepPwm ∧
      ∀ later, Along (Usv.step libm) Untouched (s.step libm e) later →
        (run (Usv.step libm) (s.step libm e) later).sampler.drawStatus ≠ 4 →
        Parked (run (Usv.step libm) (s.step libm e) later).sampler

-- No iteration starts or continues a draw while the servo moves.
def AtRest (s : Usv) (e : Occurrence) : Prop :=
  ∀ cruise, e = .manager cruise → Draws s.sampler s.tick s.timeouts.remote →
    s.sampler.gear.currentGearPwm = s.sampler.gear.targetGearPwm

-- A draw in progress: the hose at its depth and nowhere else to go.
structure Drawing (s : Sampler) : Prop where
  commanded : s.bottleId ≠ 0
  deepPwm : s.deepPwm = depthPulse s.bottleDeep
  parked : Parked s

def Holding (s : Sampler) : Prop := s.drawStatus ≠ 4 → Drawing s

theorem draws_parked (draws : Draws s tick remote) :
    (s.manage tick remote).gear.targetGearPwm = UInt32.ofInt (s.manage tick remote).deepPwm ↔
      s.gear.currentGearPwm = s.gear.targetGearPwm := by
  obtain ⟨_,gear,deepPwm,_⟩ := draws_next draws
  rw [gear,deepPwm,← draws.2.2.1]
  exact eq_comm

theorem draws_drawing (draws : Draws s tick remote) (still : s.gear.currentGearPwm = s.gear.targetGearPwm) :
    Drawing (s.manage tick remote) := by
  obtain ⟨_,gear,deepPwm,_⟩ := draws_next draws
  obtain ⟨bottleId,bottleDeep,_⟩ := manage_kept s tick remote
  refine ⟨by rw [bottleId]; exact draws.2.1.1,by rw [bottleDeep]; exact deepPwm,(draws_parked draws).mpr still,?_⟩
  rw [gear,deepPwm]
  exact draws.2.2.1

theorem manage_holding (tick : UInt32) (remote : Remote) (released : remote.key0 ≠ 1) (holding : Holding s) :
    Holding (s.manage tick remote) := by
  have managed := manage_sound s tick remote
  generalize s.manage tick remote = next at managed
  cases managed with
  | remotePump enabled | remoteTimeout enabled | remoteOff enabled => exact absurd enabled released
  | travel _ pending away =>
    have drawing := holding pending.2
    refine absurd ?_ away
    rw [AtDepth,← drawing.deepPwm]
    exact drawing.parked.2
  | pump _ pending =>
    obtain ⟨commanded,deepPwm,parked⟩ := holding pending.2
    rw [Parked,deepPwm] at parked
    intro _
    refine ⟨commanded,?_,?_⟩
    · dsimp only
    · unfold Parked
      dsimp only
      exact parked
  | finish => exact fun other => absurd rfl other
  | rest _ idle =>
    intro other
    have drawing := holding other
    exact absurd ⟨drawing.commanded,other⟩ idle

theorem loop_holding (holding : Holding s) : Holding {s with gear:=(loopChangeGear s.gear).1} := by
  intro other
  obtain ⟨commanded,deepPwm,target,current⟩ := holding other
  have still : s.gear.currentGearPwm = s.gear.targetGearPwm := current.trans target.symm
  rw [loopChangeGear_still s.gear still]
  exact ⟨commanded,deepPwm,target,current⟩

theorem step_holding (s : Usv) (e : Occurrence) (holding : Holding s.sampler) (untouched : Untouched s e) :
    Holding (s.step libm e).sampler := by
  cases e with
  | wait | heard | radio | changePwm => exact holding
  | server c => rw [server_other libm s c untouched.1]; exact holding
  | manager cruise => exact manage_holding s.tick s.timeouts.remote (untouched.2 rfl) holding
  | changeGear => exact loop_holding holding

theorem drawing_held (drawing : Drawing s.sampler) (untouched : Along (Usv.step libm) Untouched s later)
    (unfinished : (run (Usv.step libm) s later).sampler.drawStatus ≠ 4) :
    Parked (run (Usv.step libm) s later).sampler := by
  have initial : Holding s.sampler := fun _ => drawing
  have held : Holding (run (Usv.step libm) s later).sampler :=
    invariant_run (step_holding libm) initial untouched
  exact (held unfinished).parked

theorem hose_parking_exact (events : List Occurrence) :
    Along (Usv.step libm) (Parks libm) .boot events ↔ Along (Usv.step libm) AtRest .boot events := by
  refine along_congr fun s e => forall_congr' fun cruise => imp_congr_right fun same => forall_congr' fun draws => ?_
  subst same
  constructor
  · intro parks
    exact (draws_parked draws).mp parks.1
  · intro still
    refine ⟨(draws_parked draws).mpr still,?_⟩
    intro later untouched unfinished
    exact drawing_held libm (draws_drawing draws still) untouched unfinished

-- On its way to depth 5 the hose passes depth 0 just when that is commanded.
def passing : List Occurrence :=
  [.server (.sample 1 5 10),.wait 1,.manager (1500,1500)]++List.replicate 100 .changeGear++
    [.server (.sample 1 0 10),.manager (1500,1500)]

theorem passing_draws :
    (run (Usv.step .level) .boot passing).sampler.drawStatus = 2 ∧
      (run (Usv.step .level) .boot passing).sampler.deepPwm = 1400 ∧
      (run (Usv.step .level) .boot passing).sampler.gear.targetGearPwm = 800 ∧
      ¬ Along (Usv.step .level) (Parks .level) .boot passing := by
  refine ⟨by decide +kernel,by decide +kernel,by decide +kernel,?_⟩
  intro parks
  have last := (along_exact _ _).mp parks (passing.take 104) (.manager (1500,1500)) [] (by decide +kernel) (1500,1500) rfl
    (by decide +kernel)
  have target := last.1
  revert target
  decide +kernel

end UsvRt.HoseParking
