import UsvRt.Dosing

-- The start tick of the pump doubles as the flag that its timer runs. The two agree
-- in every run, whichever of remote and server draws.
namespace UsvRt.PumpTimer
open Runs Sampler SampleTiming Dosing

def RemoteDraws (s : Sampler) (tick : UInt32) (remote : Remote) : Prop :=
  remote.key0 = 1 ∧ remote.key2 = 1 ∧ s.isDraw ≠ 1 ∧ tick - started s.drawStartTick tick < remoteDrawTicks

-- The iteration is in the drawing phase of the remote or of a sampling command.
def Drawing (s : Sampler) (tick : UInt32) (remote : Remote) : Prop := RemoteDraws s tick remote ∨ Draws s tick remote

instance (s : Sampler) (tick : UInt32) (remote : Remote) : Decidable (RemoteDraws s tick remote) :=
  inferInstanceAs (Decidable (_ ∧ _ ∧ _ ∧ _))
instance (s : Sampler) (tick : UInt32) (remote : Remote) : Decidable (Drawing s tick remote) :=
  inferInstanceAs (Decidable (_ ∨ _))

-- The pump relay goes high, or the drawing phase begins.
def SwitchesOn (s : Sampler) (tick : UInt32) (remote : Remote) (drew : Bool) : Prop :=
  (s.pins.relay1 = false ∧ (s.manage tick remote).pins.relay1 = true) ∨ (drew = false ∧ Drawing s tick remote)

instance (s : Sampler) (tick : UInt32) (remote : Remote) (drew : Bool) : Decidable (SwitchesOn s tick remote drew) :=
  inferInstanceAs (Decidable ((_ ∧ _) ∨ (_ ∧ _)))

-- The ticks of the iterations that switched something on, latest first, and whether the
-- last iteration was drawing.
structure Log where
  starts : List UInt32
  drew : Bool
  deriving DecidableEq

namespace Log

def empty : Log := ⟨[],false⟩

def iterate (m : Log) (s : Sampler) (tick : UInt32) (remote : Remote) : Log :=
  ⟨if SwitchesOn s tick remote m.drew then tick::m.starts else m.starts,decide (Drawing s tick remote)⟩

def observe (m : Log) (s : Usv) : Occurrence → Log
  | .manager _ => m.iterate s.sampler s.tick s.timeouts.remote
  | _ => m

theorem starts_kept (m : Log) (s : Sampler) (remote : Remote) (member : t ∈ m.starts) :
    t ∈ (m.iterate s tick remote).starts := by
  unfold iterate
  dsimp only
  split
  · exact List.mem_cons_of_mem tick member
  · exact member

theorem starts_begin (m : Log) (off : m.drew = false) (drawing : Drawing s tick remote) :
    tick ∈ (m.iterate s tick remote).starts := by
  unfold iterate
  dsimp only
  rw [if_pos (.inr ⟨off,drawing⟩)]
  exact List.mem_cons_self

theorem iterate_drew (m : Log) : (m.iterate s tick remote).drew = true ↔ Drawing s tick remote := decide_eq_true_iff

end Log

def logged (libm : Libm) : Usv × Log → Occurrence → Usv × Log := observed (Usv.step libm) Log.observe

def Visible (p : Usv × Log) (e : Occurrence) : Prop := iterates e = true → p.1.tick ≠ 0

instance (p : Usv × Log) (e : Occurrence) : Decidable (Visible p e) := inferInstanceAs (Decidable (_ → _))

theorem drawing_remote (enabled : remote.key0 = 1) : Drawing s tick remote ↔ RemoteDraws s tick remote :=
  or_iff_left fun server => server.1 enabled

theorem drawing_server (released : remote.key0 ≠ 1) : Drawing s tick remote ↔ Draws s tick remote :=
  or_iff_right fun remote => released remote.1

-- What an iteration can do to the timer and the relay.
theorem manage_timer (s : Sampler) (tick : UInt32) (remote : Remote) :
    (Drawing s tick remote ∧ (s.manage tick remote).drawStartTick = started s.drawStartTick tick) ∨
      (¬ Drawing s tick remote ∧ (s.manage tick remote).drawStartTick = 0 ∧ (s.manage tick remote).pins = allLow) ∨
      (¬ Drawing s tick remote ∧ (s.manage tick remote).drawStartTick = s.drawStartTick ∧
        (s.manage tick remote).pins = s.pins) := by
  have managed := manage_sound s tick remote
  generalize s.manage tick remote = next at managed
  cases managed with
  | remotePump enabled pressed ready running => exact .inl ⟨.inl ⟨enabled,pressed,ready,running⟩,rfl⟩
  | pump released pending there running => exact .inl ⟨.inr ⟨released,pending,there,running⟩,rfl⟩
  | remoteTimeout enabled _ _ overdue =>
    have idle : ¬ Drawing s tick remote := (drawing_remote enabled).not.mpr fun draws => overdue draws.2.2.2
    exact .inr (.inl ⟨idle,rfl,draw_stopped⟩)
  | remoteOff enabled unpressed =>
    have idle : ¬ Drawing s tick remote := (drawing_remote enabled).not.mpr fun draws => unpressed ⟨draws.2.1,draws.2.2.1⟩
    exact .inr (.inl ⟨idle,rfl,draw_stopped⟩)
  | travel released _ away =>
    have idle : ¬ Drawing s tick remote := (drawing_server released).not.mpr fun draws => away draws.2.2.1
    exact .inr (.inr ⟨idle,rfl,rfl⟩)
  | finish released _ _ overdue =>
    have idle : ¬ Drawing s tick remote := (drawing_server released).not.mpr fun draws => overdue draws.2.2.2
    exact .inr (.inl ⟨idle,rfl,draw_stopped⟩)
  | rest released unasked =>
    have idle : ¬ Drawing s tick remote := (drawing_server released).not.mpr fun draws => unasked draws.2.1
    exact .inr (.inl ⟨idle,rfl,draw_stopped⟩)

-- The timer of the code: a logged start, or the one that ran before the log began.
def Known (left : UInt32) (m : Log) (timer : UInt32) : Prop := timer ∈ m.starts ∨ (left ≠ 0 ∧ timer = left)

def TimerRuns (left : UInt32) (p : Usv × Log) : Prop :=
  p.1.sampler.pins.relay1 = true → p.1.sampler.drawStartTick ≠ 0 ∧ Known left p.2 p.1.sampler.drawStartTick

structure Kept (left : UInt32) (s : Sampler) (m : Log) : Prop where
  pumping : s.pins.relay1 = true → s.drawStartTick ≠ 0
  drew : m.drew = true → s.drawStartTick ≠ 0
  known : s.drawStartTick ≠ 0 → Known left m s.drawStartTick

theorem Known.iterate (known : Known left m timer) (s : Sampler) (tick : UInt32) (remote : Remote) :
    Known left (m.iterate s tick remote) timer :=
  known.imp_left (m.starts_kept s remote)

-- Only an unset timer is set, and then nothing was drawing before.
theorem kept_drawing (drawing : Drawing s tick remote) (timer : (s.manage tick remote).drawStartTick = started s.drawStartTick tick)
    (visible : tick ≠ 0) (kept : Kept left s m) : Kept left (s.manage tick remote) (m.iterate s tick remote) := by
  by_cases unset : s.drawStartTick = 0
  · have off : m.drew = false := Bool.eq_false_iff.mpr fun drew => kept.drew drew unset
    rw [unset,started_unset] at timer
    have running : (s.manage tick remote).drawStartTick ≠ 0 := by rw [timer]; exact visible
    refine ⟨fun _ => running,fun _ => running,fun _ => .inl ?_⟩
    rw [timer]
    exact m.starts_begin off drawing
  · rw [started_set unset] at timer
    have running : (s.manage tick remote).drawStartTick ≠ 0 := by rw [timer]; exact unset
    refine ⟨fun _ => running,fun _ => running,fun _ => ?_⟩
    rw [timer]
    exact (kept.known unset).iterate s tick remote

theorem kept_manage (s : Sampler) (m : Log) (tick : UInt32) (remote : Remote) (visible : tick ≠ 0)
    (kept : Kept left s m) : Kept left (s.manage tick remote) (m.iterate s tick remote) := by
  rcases manage_timer s tick remote with ⟨drawing,timer⟩ | ⟨idle,timer,pins⟩ | ⟨idle,timer,pins⟩
  · exact kept_drawing drawing timer visible kept
  · refine ⟨?_,fun drew => absurd (m.iterate_drew.mp drew) idle,fun set => absurd timer set⟩
    intro on
    rw [pins] at on
    cases on
  · refine ⟨?_,fun drew => absurd (m.iterate_drew.mp drew) idle,?_⟩
    · rw [pins,timer]
      exact kept.pumping
    · rw [timer]
      intro set
      exact (kept.known set).iterate s tick remote

theorem kept_apply (kept : Kept left s m) (c : ServerCommand) : Kept left (s.apply c) m := by
  cases c with
  | sample => exact ⟨kept.pumping,kept.drew,kept.known⟩
  | target | control | settings | gains | compass | heartbeat => exact kept

theorem kept_step (libm : Libm) (p : Usv × Log) (e : Occurrence) (kept : Kept left p.1.sampler p.2)
    (visible : Visible p e) : Kept left (logged libm p e).1.sampler (logged libm p e).2 := by
  cases e with
  | wait | heard | radio | changePwm => exact kept
  | changeGear => exact ⟨kept.pumping,kept.drew,kept.known⟩
  | server c => exact kept_apply kept c
  | manager cruise => exact kept_manage p.1.sampler p.2 p.1.tick p.1.timeouts.remote (visible rfl) kept

theorem Kept.timer (kept : Kept left p.1.sampler p.2) : TimerRuns left p := by
  intro pumping
  have running := kept.pumping pumping
  exact ⟨running,kept.known running⟩

theorem timer_step (libm : Libm) (p : Usv × Log) (e : Occurrence) (kept : Kept left p.1.sampler p.2) (visible : Visible p e) :
    iterates e = true → TimerRuns left (logged libm p e) :=
  fun _ => (kept_step libm p e kept visible).timer

-- From boot no timer is left, so it is always a logged one.
theorem timer_runs (libm : Libm) (s : Usv) (off : s.sampler.pins.relay1 = false) (events : List Occurrence)
    (visible : Along (logged libm) Visible (s,.empty) events) :
    Along (logged libm) (fun p e => iterates e = true → TimerRuns s.sampler.drawStartTick (logged libm p e)) (s,.empty) events := by
  have initial : Kept s.sampler.drawStartTick s.sampler .empty := by
    refine ⟨?_,?_,fun set => .inr ⟨set,rfl⟩⟩
    · intro pumping
      rw [off] at pumping
      cases pumping
    · intro drew
      cases drew
  have every := invariant_along (kept_step libm) (timer_step libm) initial visible
  exact every

-- The remote pumps from tick 1 on and hands over to a command whose hose is elsewhere.
def handed : List Occurrence :=
  [.wait 1,.radio (.keys 1 1),.manager (1500,1500),.server (.sample 3 0 10),.radio (.keys 0 0),.wait 5,.manager (1500,1500)]

theorem handed_timed : TimerRuns 0 (run (logged .level) (.boot,.empty) handed) ∧
    (run (logged .level) (.boot,.empty) handed).1.sampler.pins.relay1 = true ∧
    (run (logged .level) (.boot,.empty) handed).2.starts = [1] := by
  have last := (along_exact _ _).mp (timer_runs .level .boot rfl handed (by decide +kernel)) (handed.take 6)
    (.manager (1500,1500)) [] rfl rfl
  exact ⟨last,by decide +kernel,by decide +kernel⟩

end UsvRt.PumpTimer
