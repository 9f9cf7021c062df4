import UsvRt.SampleTiming

-- How much a single sampling command pumps, summed over all iterations that
-- call draw for it.
namespace UsvRt.Dosing
open Runs Sampler MachineWord SampleTiming

def Draws (s : Sampler) (tick : UInt32) (remote : Remote) : Prop :=
  remote.key0 ≠ 1 ∧ s.Pending ∧ s.AtDepth ∧ tick - started s.drawStartTick tick < drawTicks s.bottleAmount

instance (s : Sampler) (tick : UInt32) (remote : Remote) : Decidable (Draws s tick remote) :=
  inferInstanceAs (Decidable (_ ∧ _ ∧ _ ∧ _))

theorem draws_next (draws : Draws s tick remote) :
    (s.manage tick remote).drawStatus = 2 ∧ (s.manage tick remote).gear = s.gear ∧
      (s.manage tick remote).deepPwm = depthPulse s.bottleDeep ∧ (s.manage tick remote).pins = draw s.bottleId ∧
      (s.manage tick remote).drawStartTick = started s.drawStartTick tick := by
  obtain ⟨released,pending,there,running⟩ := draws
  have managed := manage_sound s tick remote
  generalize s.manage tick remote = next at managed
  cases managed with
  | remotePump enabled | remoteTimeout enabled | remoteOff enabled => exact absurd enabled released
  | travel _ _ away => exact absurd there away
  | pump =>
    refine ⟨rfl,rfl,?_,rfl,rfl⟩
    dsimp only
  | finish _ _ _ overdue => exact absurd running overdue
  | rest _ idle => exact absurd pending idle

-- Pumped time on the true clock, the last iteration, and the true time at which
-- the timer was last set.
structure Meter where
  total : Nat
  lastAt : Nat
  drew : Bool
  startedAt : Nat
  deriving DecidableEq

namespace Meter

def boot : Meter := ⟨0,0,false,0⟩

def elapse (m : Meter) (ticks : Nat) : Meter := {m with total:=if m.drew then m.total+ticks else m.total}

def iterate (m : Meter) (now : Nat) (remote : Remote) (s : Sampler) : Meter :=
  {m with
    lastAt:=now
    drew:=decide (Draws s (stamp now) remote)
    startedAt:=if s.drawStartTick = 0 then now else m.startedAt}

def observe (m : Meter) (s : Usv) : Occurrence → Meter
  | .wait ticks => m.elapse ticks
  | .manager _ => m.iterate s.now s.timeouts.remote s.sampler
  | _ => m

end Meter

def presses : Occurrence → Bool
  | .radio (.keys _ key2) => key2.tmod 3 == 1
  | _ => false

def Paced (period : Nat) (p : Usv × Meter) : Occurrence → Prop
  | .wait ticks => p.2.drew = true → p.1.now+ticks ≤ p.2.lastAt+period
  | _ => True

instance (period : Nat) (p : Usv × Meter) (e : Occurrence) : Decidable (Paced period p e) :=
  match e with
  | .wait _ => inferInstanceAs (Decidable (_ → _ ≤ _))
  | .heard | .server _ | .radio _ | .manager _ | .changePwm | .changeGear => inferInstanceAs (Decidable True)

-- No remote iteration while the timer runs, no timer set at tick value zero, and
-- every iteration less than one turn of the counter after the timer was set.
def TimerKept (m : Meter) (now : Nat) (remote : Remote) (s : Sampler) : Prop :=
  (s.drawStartTick ≠ 0 → remote.key0 ≠ 1 ∧ now < m.startedAt+2^32) ∧
    (s.drawStartTick = 0 → Draws s (stamp now) remote → stamp now ≠ 0)

def Undisturbed (p : Usv × Meter) (e : Occurrence) : Prop :=
  iterates e = true → TimerKept p.2 p.1.now p.1.timeouts.remote p.1.sampler

instance (p : Usv × Meter) (e : Occurrence) : Decidable (Undisturbed p e) :=
  inferInstanceAs (Decidable (_ → (_ → _ ∧ _) ∧ (_ → _ → _)))

inductive Phase (due period now : Nat) (s : Sampler) (m : Meter) : Prop where
  | waiting (unset : s.drawStartTick = 0) (off : m.drew = false) (none : m.total = 0)
  | pumping (pending : s.Pending) (set : s.drawStartTick = stamp m.startedAt) (running : s.drawStartTick ≠ 0)
      (spent : m.startedAt+m.total ≤ now) (bounded : m.total ≤ due+period)
      (fresh : m.drew = true → m.lastAt < m.startedAt+due ∧ now ≤ m.lastAt+period)
  | done (commanded : s.bottleId ≠ 0) (status : s.drawStatus = 4) (unset : s.drawStartTick = 0)
      (off : m.drew = false) (bounded : m.total ≤ due+period)

theorem Phase.bounded (phase : Phase due period now s m) : m.total ≤ due+period := by
  cases phase with
  | waiting _ _ none => omega
  | pumping _ _ _ _ bounded => exact bounded
  | done _ _ _ _ bounded => exact bounded

-- An iteration that draws sets the timer, or finds it within the time asked for.
theorem phase_draws (phase : Phase (drawTicks amount).toNat period now s m) (draws : Draws s (stamp now) remote)
    (ordered : s.bottleId ≠ 0 → s.bottleAmount = amount) (kept : TimerKept m now remote s) :
    Phase (drawTicks amount).toNat period now (s.manage (stamp now) remote) (m.iterate now remote s) := by
  obtain ⟨held,visible⟩ := kept
  obtain ⟨status,_,_,_,timer⟩ := draws_next draws
  obtain ⟨bottleId,_,_⟩ := manage_kept s (stamp now) remote
  have pending := draws.2.1
  have next : (s.manage (stamp now) remote).Pending := ⟨by rw [bottleId]; exact pending.1,by omega⟩
  have running := draws.2.2.2
  rw [ordered pending.1] at running
  have before := UInt32.lt_iff_toNat_lt.mp running
  have last : (m.iterate now remote s).lastAt = now := rfl
  have total : (m.iterate now remote s).total = m.total := rfl
  cases phase with
  | waiting unset _ none =>
    have same : (m.iterate now remote s).startedAt = now := if_pos unset
    have set : started s.drawStartTick (stamp now) = stamp now := by rw [unset,started_unset]
    rw [set] at timer before
    rw [age_zero] at before
    refine .pumping next (by rw [same]; exact timer) ?_ (by omega) (by omega) (fun _ => by omega)
    rw [timer]
    exact visible unset draws
  | pumping _ set ticking spent bounded _ =>
    have same : (m.iterate now remote s).startedAt = m.startedAt := if_neg ticking
    have near := (held ticking).2
    rw [started_set ticking] at timer before
    rw [set,age_exact (by omega) (by omega)] at before
    refine .pumping next (by rw [same,timer]; exact set) ?_ (by omega) (by omega) (fun _ => by omega)
    rw [timer]
    exact ticking
  | done _ status => exact absurd status pending.2

theorem phase_manage (now : Nat) (remote : Remote) (s : Sampler) (m : Meter)
    (phase : Phase (drawTicks amount).toNat period now s m) (unpressed : remote.key2 ≠ 1)
    (ordered : s.bottleId ≠ 0 → s.bottleAmount = amount) (kept : TimerKept m now remote s) :
    Phase (drawTicks amount).toNat period now (s.manage (stamp now) remote) (m.iterate now remote s) := by
  by_cases draws : Draws s (stamp now) remote
  · exact phase_draws phase draws ordered kept
  have off : (m.iterate now remote s).drew = false := decide_eq_false draws
  have managed := manage_sound s (stamp now) remote
  generalize s.manage (stamp now) remote = next at managed
  cases managed with
  | remotePump _ pressed | remoteTimeout _ pressed => exact absurd pressed unpressed
  | pump released pending there running => exact absurd ⟨released,pending,there,running⟩ draws
  | remoteOff enabled _ =>
    cases phase with
    | waiting _ _ none => exact .waiting rfl off none
    | pumping _ _ running => exact absurd enabled (kept.1 running).1
    | done commanded status _ _ bounded => exact .done commanded status rfl off bounded
  | travel _ pending _ =>
    cases phase with
    | waiting unset _ none => exact .waiting unset off none
    | pumping _ set running spent bounded _ =>
      have same : (m.iterate now remote s).startedAt = m.startedAt := if_neg running
      refine .pumping ⟨pending.1,by simp⟩ (by rw [same]; exact set) running (by rw [same]; exact spent) bounded ?_
      intro on
      rw [off] at on
      cases on
    | done _ status => exact absurd status pending.2
  | finish _ pending => exact .done pending.1 rfl rfl off phase.bounded
  | rest _ idle =>
    cases phase with
    | waiting _ _ none => exact .waiting rfl off none
    | pumping pending => exact absurd pending idle
    | done commanded status _ _ bounded => exact .done commanded status rfl off bounded

theorem phase_wait (phase : Phase due period now s m) (ticks : Nat)
    (paced : m.drew = true → now+ticks ≤ m.lastAt+period) : Phase due period (now+ticks) s (m.elapse ticks) := by
  cases phase with
  | waiting unset off none =>
    have total : (m.elapse ticks).total = m.total := by simp [Meter.elapse,off]
    exact .waiting unset off (total.trans none)
  | done commanded status unset off bounded =>
    have total : (m.elapse ticks).total = m.total := by simp [Meter.elapse,off]
    exact .done commanded status unset off (by rw [total]; exact bounded)
  | pumping pending set running spent bounded fresh =>
    cases on : m.drew with
    | false =>
      have total : (m.elapse ticks).total = m.total := by simp [Meter.elapse,on]
      have start : (m.elapse ticks).startedAt = m.startedAt := rfl
      refine .pumping pending set running (by omega) (by omega) ?_
      intro drew
      have drew : m.drew = true := drew
      rw [on] at drew
      cases drew
    | true =>
      have total : (m.elapse ticks).total = m.total+ticks := by simp [Meter.elapse,on]
      have start : (m.elapse ticks).startedAt = m.startedAt := rfl
      have last := fresh on
      have next := paced on
      exact .pumping pending set running (by omega) (by omega) fun _ => ⟨last.1,next⟩

def metered (libm : Libm) : Usv × Meter → Occurrence → Usv × Meter :=
  observed (Usv.step libm) Meter.observe

def start : Usv × Meter := (.boot,.boot)

structure Metered (amount : Int) (period : Nat) (p : Usv × Meter) : Prop where
  unpressed : p.1.remote.key2 ≠ 1
  ordered : p.1.sampler.bottleId ≠ 0 → p.1.sampler.bottleAmount = amount
  phase : Phase (drawTicks amount).toNat period p.1.now p.1.sampler p.2

theorem phase_gear (phase : Phase due period now s m) (gear : Gear) :
    Phase due period now {s with gear:=gear} m := by
  cases phase with
  | waiting unset off none => exact .waiting unset off none
  | pumping pending set running spent bounded fresh => exact .pumping pending set running spent bounded fresh
  | done commanded status unset off bounded => exact .done commanded status unset off bounded

theorem server_other (libm : Libm) (s : Usv) (c : ServerCommand) (single : samples (.server c) = false) :
    (s.step libm (.server c)).sampler = s.sampler := by
  refine s.sampler.apply_other c ?_
  rintro bottleId bottleDeep bottleAmount rfl
  cases single

theorem radio_unpressed (r : Remote) (tick : UInt32) (c : RadioCommand) (quiet : presses (.radio c) = false)
    (unpressed : r.key2 ≠ 1) : (r.apply tick c).key2 ≠ 1 := by
  cases c with
  | stick => exact unpressed
  | keys key1 key2 =>
    have other : key2.tmod 3 ≠ 1 := by simpa [presses] using quiet
    simp [Remote.apply,other]

def Allowed (period : Nat) (p : Usv × Meter) (e : Occurrence) : Prop :=
  (presses e = false ∧ Paced period p e) ∧ Undisturbed p e

theorem metered_step (libm : Libm) (p : Usv × Meter) (e : Occurrence) (inside : Metered amount period p)
    (single : samples e = false) (allowed : Allowed period p e) : Metered amount period (metered libm p e) := by
  obtain ⟨s,m⟩ := p
  obtain ⟨unpressed,ordered,phase⟩ := inside
  cases e with
  | wait ticks => exact ⟨unpressed,ordered,phase_wait phase ticks allowed.1.2⟩
  | heard | changePwm => exact ⟨unpressed,ordered,phase⟩
  | changeGear => exact ⟨unpressed,ordered,phase_gear phase _⟩
  | radio c => exact ⟨radio_unpressed s.remote s.tick c allowed.1.1 unpressed,ordered,phase⟩
  | server c =>
    have same := server_other libm s c single
    refine ⟨unpressed,?_,?_⟩
    · change (s.step libm (.server c)).sampler.bottleId ≠ 0 → (s.step libm (.server c)).sampler.bottleAmount = amount
      rw [same]
      exact ordered
    · change Phase _ _ _ (s.step libm (.server c)).sampler _
      rw [same]
      exact phase
  | manager cruise =>
    have key2 : s.timeouts.remote.key2 ≠ 1 := by rw [s.timeouts_kept.1]; exact unpressed
    obtain ⟨bottleId,_,bottleAmount⟩ := manage_kept s.sampler s.tick s.timeouts.remote
    refine ⟨key2,?_,?_⟩
    · change (s.sampler.manage s.tick s.timeouts.remote).bottleId ≠ 0 →
        (s.sampler.manage s.tick s.timeouts.remote).bottleAmount = amount
      rw [bottleId,bottleAmount]
      exact ordered
    · exact phase_manage s.now s.timeouts.remote s.sampler m phase key2 ordered (allowed.2 rfl)

theorem bottle_kept (libm : Libm) (p : Usv × Meter) (e : Occurrence) (single : samples e = false) :
    (metered libm p e).1.sampler.bottleId = p.1.sampler.bottleId := by
  cases e with
  | wait | heard | radio | changePwm | changeGear => rfl
  | server c => exact congrArg Sampler.bottleId (server_other libm p.1 c single)
  | manager cruise => exact (manage_kept p.1.sampler p.1.tick p.1.timeouts.remote).1

theorem metered_command (libm : Libm) (p : Usv × Meter) (inside : Metered amount period p)
    (idle : p.1.sampler.bottleId = 0) (bottle deep : Int) :
    Metered amount period (metered libm p (.server (.sample bottle deep amount))) := by
  refine ⟨inside.unpressed,fun _ => rfl,?_⟩
  cases inside.phase with
  | waiting unset off none => exact .waiting unset off none
  | pumping pending => exact absurd idle pending.1
  | done commanded => exact absurd idle commanded

-- Every run with this one command pumps its full time and a period at most.
def DoseBounded (libm : Libm) (period : Nat) (amount : Int) (events : List Occurrence) : Prop :=
  Along (metered libm) (fun p e => presses e = false ∧ Paced period p e) start events →
    ((run (metered libm) start events).2.total : Int) ≤ 1000*fullTime amount+period

theorem undisturbed_dose (libm : Libm) (period : Nat) (bottle deep amount : Int) (nonnegative : 0 ≤ amount)
    (fits : 1000*fullTime amount < 2^31) (before after : List Occurrence)
    (single : ∀ e ∈ before++after, samples e = false)
    (undisturbed : Along (metered libm) Undisturbed start (before++.server (.sample bottle deep amount)::after)) :
    DoseBounded libm period amount (before++.server (.sample bottle deep amount)::after) := by
  intro paced
  have ticks := drawTicks_toNat amount nonnegative (by omega)
  obtain ⟨first,_,second⟩ := (along_append _ _).mp (Along.and paced undisturbed)
  have singleBefore : ∀ e ∈ before, samples e = false := fun e member => single e (List.mem_append_left _ member)
  have singleAfter : ∀ e ∈ after, samples e = false := fun e member => single e (List.mem_append_right _ member)
  have initial : Metered amount period start ∧ start.1.sampler.bottleId = 0 :=
    ⟨⟨by decide,fun commanded => absurd rfl commanded,.waiting rfl rfl rfl⟩,rfl⟩
  have idle : ∀ p e, Metered amount period p ∧ p.1.sampler.bottleId = 0 → samples e = false ∧ Allowed period p e →
      Metered amount period (metered libm p e) ∧ (metered libm p e).1.sampler.bottleId = 0 := by
    intro p e inside allowed
    exact ⟨metered_step libm p e inside.1 allowed.1 allowed.2,(bottle_kept libm p e allowed.1).trans inside.2⟩
  have waiting := invariant_run idle initial (Along.and (along_every _ singleBefore) first)
  have commanded := metered_command libm _ waiting.1 waiting.2 bottle deep
  have final := invariant_run (fun p e inside allowed => metered_step libm p e inside allowed.1 allowed.2) commanded
    (Along.and (along_every _ singleAfter) second)
  have bounded := final.phase.bounded
  rw [run_append,run_cons]
  omega

def soleCommand : Occurrence := .server (.sample 1 0 4)

def lowering : List Occurrence := [.wait 1,.manager (1500,1500)] ++ List.replicate 100 .changeGear

def dosing : List Occurrence :=
  lowering ++ [.manager (1500,1500),.wait 400,.manager (1500,1500),.wait 400,.manager (1500,1500),.wait 400,
    .manager (1500,1500)]

theorem single_dose : ((run (metered .level) start (soleCommand::dosing)).2.total : Int) ≤ 1000*fullTime 4+400 :=
  undisturbed_dose .level 400 1 0 4 (by decide) (by decide) [] dosing (by decide +kernel) (by decide +kernel)
    (by decide +kernel)

-- The remote is enabled for one iteration after 801 ticks of pumping: the timer
-- is cleared and the bottle gets its full time once more.
def redosing : List Occurrence :=
  lowering ++ [.manager (1500,1500),.wait 400,.manager (1500,1500),.wait 400,.manager (1500,1500),.wait 1,
    .radio (.keys 1 0),.manager (1500,1500),.radio (.keys 0 0),.wait 1,.manager (1500,1500),.wait 400,
    .manager (1500,1500),.wait 400,.manager (1500,1500),.wait 400,.manager (1500,1500)]

theorem redosing_overdoses :
    (∀ e ∈ redosing, samples e = false) ∧ ¬ DoseBounded .level 400 4 (soleCommand::redosing) := by
  refine ⟨by decide +kernel,?_⟩
  intro bounded
  have total := bounded (by decide +kernel)
  revert total
  decide +kernel

end UsvRt.Dosing
