import UsvRt.Manager

namespace UsvRt.PumpInterlock
open Runs Sampler Usv

def Interlocked (s : Sampler) : Prop :=
  s.pins.relay1 = true →
    s.drawStatus = 2 ∧ s.deepPwm = depthPulse s.bottleDeep ∧
      s.gear.currentGearPwm = UInt32.ofInt s.deepPwm ∧
      ∀ n : Fin 8, s.pins.valve n = true ↔ s.bottleId = n.val+1

def Travelling (s : Sampler) : Prop := s.Pending ∧ ¬ s.AtDepth

instance (s : Sampler) : Decidable (Interlocked s) := inferInstanceAs (Decidable (_ → _))
instance (s : Sampler) : Decidable (Travelling s) := inferInstanceAs (Decidable (_ ∧ _))

theorem stopped_interlocked (s : Sampler) (stopped : s.pins = draw 0) : Interlocked s := by
  intro pumping
  rw [stopped,draw_stopped] at pumping
  cases pumping

-- Every branch but one writes the pins; the travelling one inherits them.
theorem manage_interlocked (s : Sampler) (tick : UInt32) (remote : Remote) (released : remote.key0 = 0) :
    Interlocked (s.manage tick remote) ↔ ¬ (Travelling s ∧ s.pins.relay1 = true) := by
  have disabled : remote.key0 ≠ 1 := by omega
  have managed := manage_sound s tick remote
  generalize s.manage tick remote = next at managed
  cases managed with
  | remotePump enabled | remoteTimeout enabled | remoteOff enabled => exact absurd enabled disabled
  | travel _ pending away =>
    constructor
    · rintro interlocked ⟨_,pumping⟩
      have status := (interlocked pumping).1
      cases status
    · intro low pumping
      exact absurd ⟨⟨pending,away⟩,pumping⟩ low
  | pump _ pending there running =>
    refine iff_of_true ?_ ?_
    · intro _
      dsimp only
      exact ⟨rfl,rfl,there,draw_valve s.bottleId⟩
    · rintro ⟨travelling,_⟩
      exact travelling.2 there
  | finish _ pending there overdue =>
    refine iff_of_true (stopped_interlocked _ rfl) ?_
    rintro ⟨travelling,_⟩
    exact travelling.2 there
  | rest _ idle =>
    refine iff_of_true (stopped_interlocked _ rfl) ?_
    rintro ⟨travelling,_⟩
    exact idle travelling.1

variable (libm : Libm)

def InterlockKept (s : Usv) (e : Occurrence) : Prop :=
  ∀ cruise, e = .manager cruise → Released s → Interlocked (s.step libm e).sampler

-- No iteration enters the travelling branch with the pump relay already high.
def DryTravel (s : Usv) (e : Occurrence) : Prop :=
  ∀ cruise, e = .manager cruise → Released s → ¬ (Travelling s.sampler ∧ s.sampler.pins.relay1 = true)

theorem interlock_exact (events : List Occurrence) :
    Along (Usv.step libm) (InterlockKept libm) Usv.boot events ↔ Along (Usv.step libm) DryTravel Usv.boot events := by
  refine along_congr fun s e => forall_congr' fun cruise => imp_congr_right fun same => imp_congr_right fun released => ?_
  subst same
  exact manage_interlocked s.sampler s.tick s.timeouts.remote released

-- The remote hands a running pump over to a command whose hose is elsewhere.
def handover : List Occurrence :=
  [.wait 1,.radio (.keys 1 1),.manager (1500,1500),.server (.sample 3 0 10),.radio (.keys 0 0),.manager (1500,1500)]

theorem handover_pumps : ¬ Along (Usv.step .level) (InterlockKept .level) Usv.boot handover := by
  intro path
  have last := (along_exact _ _).mp path (handover.take 5) (.manager (1500,1500)) [] rfl (1500,1500) rfl (by decide)
  revert last
  decide

end UsvRt.PumpInterlock
