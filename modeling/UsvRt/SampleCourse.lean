import Mathlib.Data.List.Chain
import UsvRt.SampleTiming

-- The course of one sampling command from its decoding on: the hose travels, the bottle is
-- filled, the sampler rests. A log beside the machine keeps what each iteration showed.
namespace UsvRt.SampleCourse
open Runs Sampler MachineWord SampleTiming

structure Sight where
  now : Nat
  steps : Nat
  status : Int
  deriving DecidableEq

structure Log where
  sights : List Sight
  steps : Nat
  deriving DecidableEq

namespace Log

def boot : Log := ⟨[],0⟩

def see (log : Log) (now : Nat) (status : Int) : Log := {log with sights:=log.sights++[⟨now,log.steps,status⟩]}

-- Gear steps count from the first iteration that saw the command.
def moved (log : Log) : Log := if log.sights = [] then log else {log with steps:=log.steps+1}

def observe (libm : Libm) (log : Log) (s : Usv) : Occurrence → Log
  | .manager cruise => log.see s.now (s.manager libm cruise).sampler.drawStatus
  | .changeGear => log.moved
  | _ => log

end Log

def Paced (period : Nat) (sights : List Sight) : Prop :=
  sights.IsChain fun earlier later => later.now ≤ earlier.now+period

instance (period : Nat) (sights : List Sight) : Decidable (Paced period sights) := by
  unfold Paced
  infer_instance

-- The sights of a command whose hose is stepsDue away and whose draw takes due ticks. The
-- upper bound needs iterations close enough not to miss a whole turn of the tick counter.
structure Course (stepsDue due period : Nat) (travels pumps rests : List Sight) : Prop where
  travelling : ∀ x ∈ travels, x.status = 1 ∧ x.steps < stepsDue
  pumping : ∀ x ∈ pumps, x.status = 2 ∧ stepsDue ≤ x.steps
  resting : ∀ x ∈ rests, x.status = 4 ∧ stepsDue ≤ x.steps
  skipped : pumps = [] → rests ≠ [] → due = 0
  lasted : ∀ first ∈ pumps.head?, ∀ last ∈ rests.head?, first.now+due ≤ last.now
  ended : due+period ≤ 2^32 → Paced period (travels++(pumps++rests)) → ∀ first ∈ pumps.head?,
    (∀ x ∈ pumps, x.now < first.now+due) ∧ ∀ last ∈ rests.head?, last.now < first.now+due+period

theorem paced_before (paced : Paced period (before++after)) : Paced period before :=
  (List.isChain_append.mp paced).1

theorem paced_last (paced : Paced period (before++(y::between)++[x])) : ∃ z ∈ y::between, x.now ≤ z.now+period := by
  have linked := (List.isChain_append.mp paced).2.2
  rw [List.getLast?_append_cons] at linked
  obtain ⟨z,last⟩ : ∃ z, (y::between).getLast? = some z := ⟨_,List.getLast?_cons⟩
  exact ⟨z,List.mem_of_getLast? last,linked z last x rfl⟩

namespace Course

theorem boot : Course stepsDue due period [] [] [] :=
  ⟨nofun,nofun,nofun,fun _ some => absurd rfl some,nofun,fun _ _ => nofun⟩

theorem every_snoc {P : Sight → Prop} (every : ∀ x ∈ sights, P x) (last : P y) : ∀ x ∈ sights++[y], P x :=
  List.forall_mem_append.mpr ⟨every,List.forall_mem_singleton.mpr last⟩

theorem travel (course : Course stepsDue due period travels [] []) (early : steps < stepsDue) :
    Course stepsDue due period (travels++[⟨now,steps,1⟩]) [] [] :=
  ⟨every_snoc course.travelling ⟨rfl,early⟩,nofun,nofun,fun _ some => absurd rfl some,nofun,fun _ _ => nofun⟩

theorem pump (course : Course stepsDue due period travels [] []) (late : stepsDue ≤ steps) (positive : 0 < due) :
    Course stepsDue due period travels [⟨now,steps,2⟩] [] := by
  refine ⟨course.travelling,List.forall_mem_singleton.mpr ⟨rfl,late⟩,nofun,nofun,fun _ _ => nofun,?_⟩
  intro _ _ first head
  cases head
  exact ⟨List.forall_mem_singleton.mpr (Nat.lt_add_of_pos_right positive),nofun⟩

-- The next sight after a draw that still ran is less than a period late.
theorem next_near (course : Course stepsDue due period travels (first::more) []) (fits : due+period ≤ 2^32)
    (paced : Paced period (travels++(first::more)++[x])) :
    (∀ y ∈ first::more, y.now < first.now+due) ∧ x.now < first.now+due+period := by
  have earlier : Paced period (travels++(first::more++[])) := by
    rw [List.append_nil]
    exact paced_before paced
  have before := (course.ended fits earlier first rfl).1
  obtain ⟨z,member,near⟩ := paced_last paced
  have bound := before z member
  exact ⟨before,by omega⟩

theorem pump_on (course : Course stepsDue due period travels (first::more) []) (late : stepsDue ≤ steps)
    (past : first.now ≤ now) (running : (now-first.now)%2^32 < due) :
    Course stepsDue due period travels (first::(more++[⟨now,steps,2⟩])) [] := by
  refine ⟨course.travelling,every_snoc course.pumping ⟨rfl,late⟩,nofun,nofun,fun _ _ => nofun,?_⟩
  intro fits paced head same
  cases same
  have joined : Paced period (travels++(first::more)++[⟨now,steps,2⟩]) := by
    simpa only [List.append_nil,List.cons_append,List.append_assoc] using paced
  obtain ⟨before,near⟩ := course.next_near fits joined
  refine ⟨every_snoc before ?_,nofun⟩
  dsimp only at near ⊢
  omega

theorem rest_at_once (course : Course stepsDue 0 period travels [] []) (late : stepsDue ≤ steps) :
    Course stepsDue 0 period travels [] [⟨now,steps,4⟩] :=
  ⟨course.travelling,nofun,List.forall_mem_singleton.mpr ⟨rfl,late⟩,fun _ _ => rfl,nofun,fun _ _ => nofun⟩

theorem rest (course : Course stepsDue due period travels (first::more) []) (late : stepsDue ≤ steps)
    (overdue : first.now+due ≤ now) :
    Course stepsDue due period travels (first::more) [⟨now,steps,4⟩] := by
  refine ⟨course.travelling,course.pumping,List.forall_mem_singleton.mpr ⟨rfl,late⟩,nofun,?_,?_⟩
  · intro head same last final
    cases same
    cases final
    exact overdue
  · intro fits paced head same
    cases same
    have joined : Paced period (travels++(first::more)++[⟨now,steps,4⟩]) := by
      simpa only [List.append_assoc] using paced
    obtain ⟨before,near⟩ := course.next_near fits joined
    refine ⟨before,?_⟩
    intro last final
    cases final
    exact near

theorem rest_on (course : Course stepsDue due period travels pumps (last::later)) (late : stepsDue ≤ steps) :
    Course stepsDue due period travels pumps (last::(later++[⟨now,steps,4⟩])) := by
  refine ⟨course.travelling,course.pumping,every_snoc course.resting ⟨rfl,late⟩,?_,course.lasted,?_⟩
  · intro none _
    exact course.skipped none nofun
  · intro fits paced
    have joined : Paced period (travels++(pumps++(last::later))++[⟨now,steps,4⟩]) := by
      simpa only [List.cons_append,List.append_assoc] using paced
    exact course.ended fits (paced_before joined)

end Course

def depth (deep : Int) : UInt32 := UInt32.ofInt (depthPulse deep)

def away (deep : Int) (g : Gear) : Nat := Nat.dist g.currentGearPwm.toNat (depth deep).toNat

theorem away_zero (deep : Int) (g : Gear) : away deep g = 0 ↔ g.currentGearPwm = depth deep := by
  constructor
  · intro near
    exact UInt32.toNat_inj.mp (Nat.eq_of_dist_eq_zero near)
  · intro there
    rw [away,there,Nat.dist_self]

theorem away_set (deep : Int) (g : Gear) (gearPwm : UInt32) : away deep (setGearPwm g gearPwm) = away deep g := rfl

theorem depth_toNat (low : 0 ≤ deep) (high : deep ≤ 5) : ((depth deep).toNat : Int) = 1400-120*deep := by
  have depths : deep = 0 ∨ deep = 1 ∨ deep = 2 ∨ deep = 3 ∨ deep = 4 ∨ deep = 5 := by omega
  rcases depths with rfl | rfl | rfl | rfl | rfl | rfl <;> rfl

theorem gear_nearer (g : Gear) (bound : g.targetGearPwm = depth deep) :
    away deep (loopChangeGear g).1 = away deep g - 1 ∧ (loopChangeGear g).1.targetGearPwm = depth deep := by
  rw [loopChangeGear_current]
  refine ⟨?_,bound⟩
  unfold away
  rw [← bound,rampPulse_one,Ramp.dist_approach]

structure Commanded (bottle : Fin 8) (deep amount : Int) (s : Sampler) : Prop where
  bottleId : s.bottleId = bottle.val+1
  bottleDeep : s.bottleDeep = deep
  bottleAmount : s.bottleAmount = amount

structure Filling (bottle : Fin 8) (amount : Int) (s : Sampler) : Prop where
  pins : s.pins = pumpInto bottle
  full : s.fullDrawTime = fullTime amount
  dump : 0 < s.dumpDrawTime ∧ s.dumpDrawTime ≤ s.fullDrawTime

-- Until the hose is down it rests where the command found it, or it is on its way.
inductive Towards (deep : Int) (s : Sampler) (sights : List Sight) : Prop where
  | still (none : sights = []) (status : s.drawStatus = 0) (resting : s.gear.currentGearPwm = s.gear.targetGearPwm)
  | moving (some : sights ≠ []) (status : s.drawStatus = 1) (bound : s.gear.targetGearPwm = depth deep)

theorem Towards.early (towards : Towards deep s sights) : s.drawStatus = 0 ∨ s.drawStatus = 1 := by
  cases towards with
  | still _ status => exact .inl status
  | moving _ status => exact .inr status

theorem Towards.arrived (towards : Towards deep s sights) (there : s.gear.currentGearPwm = depth deep) :
    s.gear.currentGearPwm = s.gear.targetGearPwm := by
  cases towards with
  | still _ _ resting => exact resting
  | moving _ _ bound => exact there.trans bound.symm

inductive Stage (bottle : Fin 8) (deep amount : Int) (stepsDue period now : Nat) (s : Sampler) (log : Log) : Prop where
  | approaching (course : Course stepsDue (drawTicks amount).toNat period log.sights [] [])
      (unset : s.drawStartTick = 0) (low : s.pins = allLow) (left : away deep s.gear = stepsDue-log.steps)
      (towards : Towards deep s log.sights)
  | pumping (travels more : List Sight) (first : Sight) (sights : log.sights = travels++(first::more))
      (course : Course stepsDue (drawTicks amount).toNat period travels (first::more) [])
      (late : stepsDue ≤ log.steps) (status : s.drawStatus = 2)
      (set : s.drawStartTick = stamp first.now) (running : s.drawStartTick ≠ 0) (past : first.now ≤ now)
      (still : s.gear.currentGearPwm = s.gear.targetGearPwm) (there : s.gear.currentGearPwm = depth deep)
      (filling : Filling bottle amount s)
  | resting (travels pumps later : List Sight) (last : Sight) (sights : log.sights = travels++(pumps++(last::later)))
      (course : Course stepsDue (drawTicks amount).toNat period travels pumps (last::later))
      (late : stepsDue ≤ log.steps) (status : s.drawStatus = 4) (low : s.pins = allLow)

theorem filling_dump (fits : 1000*fullTime amount < 2^31) (nonnegative : 0 ≤ amount) (age : UInt32)
    (running : age < drawTicks amount) :
    0 < asInt (UInt32.ofInt (fullTime amount) - age/1000) ∧
      asInt (UInt32.ofInt (fullTime amount) - age/1000) ≤ fullTime amount := by
  have ticks := drawTicks_toNat amount nonnegative (by omega)
  have scaled := fullTime_scaled amount nonnegative
  have full : ((UInt32.ofInt (fullTime amount)).toNat : Int) = fullTime amount := ofInt_small (by omega) (by omega)
  have before := UInt32.lt_iff_toNat_lt.mp running
  have spent : (age/1000).toNat = age.toNat/1000 := UInt32.toNat_div age 1000
  have left : (UInt32.ofInt (fullTime amount) - age/1000).toNat = (UInt32.ofInt (fullTime amount)).toNat-(age/1000).toNat :=
    UInt32.toNat_sub_of_le _ _ (UInt32.le_iff_toNat_le.mpr (by omega))
  unfold asInt
  split <;> omega

theorem stage_travel (stage : Stage bottle deep amount stepsDue period now s log) (pending : s.Pending)
    (apart : s.gear.currentGearPwm ≠ depth deep) (gear : next.gear = setGearPwm s.gear (depth deep))
    (pins : next.pins = s.pins) (start : next.drawStartTick = s.drawStartTick) (status : next.drawStatus = 1) :
    Stage bottle deep amount stepsDue period now next (log.see now 1) := by
  cases stage with
  | approaching course unset low left =>
    have early : log.steps < stepsDue := by
      have some : away deep s.gear ≠ 0 := fun none => apart ((away_zero deep s.gear).mp none)
      omega
    refine .approaching (course.travel early) (start.trans unset) (pins.trans low) ?_ (.moving ?_ status ?_)
    · rw [gear,away_set]
      exact left
    · exact List.append_ne_nil_of_right_ne_nil _ (List.cons_ne_nil _ _)
    · rw [gear]
      rfl
  | pumping travels more first sights course late status set running past still there => exact absurd there apart
  | resting travels pumps later last sights course late status => exact absurd status pending.2

theorem stage_pump (stage : Stage bottle deep amount stepsDue period now s log) (pending : s.Pending)
    (there : s.gear.currentGearPwm = depth deep) (visible : stamp now ≠ 0)
    (running : stamp now - started s.drawStartTick (stamp now) < drawTicks amount)
    (shown : Filling bottle amount next) (gear : next.gear = s.gear) (status : next.drawStatus = 2)
    (start : next.drawStartTick = started s.drawStartTick (stamp now)) :
    Stage bottle deep amount stepsDue period now next (log.see now 2) := by
  have before := UInt32.lt_iff_toNat_lt.mp running
  cases stage with
  | approaching course unset low left towards =>
    have late : stepsDue ≤ log.steps := by
      have none := (away_zero deep s.gear).mpr there
      omega
    have still := towards.arrived there
    rw [unset,started_unset] at start before
    rw [age_zero] at before
    refine .pumping log.sights [] ⟨now,log.steps,2⟩ rfl (course.pump late before) late status start ?_ (Nat.le_refl _) ?_ ?_ shown
    · rw [start]
      exact visible
    · rw [gear]
      exact still
    · rw [gear]
      exact there
  | pumping travels more first sights course late _ set ticking past still =>
    rw [started_set ticking] at start before
    rw [set,age_toNat past] at before
    refine .pumping travels (more++[⟨now,log.steps,2⟩]) first ?_ (course.pump_on late past before) late status ?_ ?_ past ?_ ?_ shown
    · rw [Log.see,sights,List.append_assoc]
      rfl
    · rw [start]
      exact set
    · rw [start]
      exact ticking
    · rw [gear]
      exact still
    · rw [gear]
      exact there
  | resting travels pumps later last sights course late resting => exact absurd resting pending.2

theorem stage_finish (stage : Stage bottle deep amount stepsDue period now s log) (pending : s.Pending)
    (there : s.gear.currentGearPwm = depth deep)
    (overdue : ¬ stamp now - started s.drawStartTick (stamp now) < drawTicks amount)
    (status : next.drawStatus = 4) (low : next.pins = allLow) :
    Stage bottle deep amount stepsDue period now next (log.see now 4) := by
  have elapsed : (drawTicks amount).toNat ≤ (stamp now - started s.drawStartTick (stamp now)).toNat :=
    Nat.le_of_not_lt fun less => overdue (UInt32.lt_iff_toNat_lt.mpr less)
  cases stage with
  | approaching course unset _ left =>
    have late : stepsDue ≤ log.steps := by
      have none := (away_zero deep s.gear).mpr there
      omega
    rw [unset,started_unset,age_zero] at elapsed
    have none : (drawTicks amount).toNat = 0 := Nat.le_zero.mp elapsed
    refine .resting log.sights [] [] ⟨now,log.steps,4⟩ rfl ?_ late status low
    rw [none] at course ⊢
    exact course.rest_at_once late
  | pumping travels more first sights course late _ set ticking past =>
    rw [started_set ticking,set] at elapsed
    have age := age_le past
    refine .resting travels (first::more) [] ⟨now,log.steps,4⟩ ?_ (course.rest late (by omega)) late status low
    rw [Log.see,sights,List.append_assoc]
  | resting travels pumps later last sights course late resting => exact absurd resting pending.2

theorem stage_rest (stage : Stage bottle deep amount stepsDue period now s log) (status : s.drawStatus = 4)
    (kept : next.drawStatus = s.drawStatus) (low : next.pins = allLow) :
    Stage bottle deep amount stepsDue period now next (log.see now next.drawStatus) := by
  cases stage with
  | approaching course unset _ left towards =>
    have other := towards.early
    omega
  | pumping travels more first sights course late other => omega
  | resting travels pumps later last sights course late =>
    rw [kept,status]
    refine .resting travels pumps (later++[⟨now,log.steps,4⟩]) last ?_ (course.rest_on late) late (kept.trans status) low
    rw [Log.see,sights,List.append_assoc,List.append_assoc]
    rfl

theorem stage_manage (fits : 1000*fullTime amount < 2^31) (nonnegative : 0 ≤ amount) (s : Sampler) (log : Log)
    (remote : Remote) (released : remote.key0 = 0) (visible : stamp now ≠ 0) (commanded : Commanded bottle deep amount s)
    (stage : Stage bottle deep amount stepsDue period now s log) :
    Stage bottle deep amount stepsDue period now (s.manage (stamp now) remote)
      (log.see now (s.manage (stamp now) remote).drawStatus) := by
  obtain ⟨bottleId,bottleDeep,bottleAmount⟩ := commanded
  have disabled : remote.key0 ≠ 1 := by omega
  have managed := manage_sound s (stamp now) remote
  generalize s.manage (stamp now) remote = next at managed
  cases managed with
  | remotePump enabled | remoteTimeout enabled | remoteOff enabled => exact absurd enabled disabled
  | travel _ pending apart =>
    rw [AtDepth,bottleDeep] at apart
    have bound : setGearPwm s.gear (UInt32.ofInt (depthPulse s.bottleDeep)) = setGearPwm s.gear (depth deep) := by
      rw [bottleDeep]
      rfl
    exact stage_travel stage pending apart bound rfl rfl rfl
  | pump _ pending there running =>
    rw [AtDepth,bottleDeep] at there
    rw [bottleAmount] at running
    rw [bottleAmount,bottleId,draw_pump]
    exact stage_pump stage pending there visible running ⟨rfl,rfl,filling_dump fits nonnegative _ running⟩ rfl rfl rfl
  | finish _ pending there overdue =>
    rw [AtDepth,bottleDeep] at there
    rw [bottleAmount] at overdue
    exact stage_finish stage pending there overdue rfl draw_stopped
  | rest _ idle =>
    have status : s.drawStatus = 4 := Decidable.byContradiction fun other => idle ⟨by omega,other⟩
    exact stage_rest stage status rfl draw_stopped

theorem moved_some (log : Log) (some : log.sights ≠ []) : log.moved = {log with steps:=log.steps+1} := if_neg some

theorem stage_gear (stage : Stage bottle deep amount stepsDue period now s log) :
    Stage bottle deep amount stepsDue period now {s with gear:=(loopChangeGear s.gear).1} log.moved := by
  cases stage with
  | approaching course unset low left towards =>
    cases towards with
    | still none status resting =>
      have kept : log.moved = log := if_pos none
      rw [kept,loopChangeGear_still s.gear resting]
      exact .approaching course unset low left (.still none status resting)
    | moving some status bound =>
      obtain ⟨nearer,same⟩ := gear_nearer s.gear bound
      rw [moved_some log some]
      refine .approaching course unset low ?_ (.moving some status same)
      dsimp only
      omega
  | pumping travels more first sights course late status set running past still there filling =>
    have some : log.sights ≠ [] := sights ▸ List.append_ne_nil_of_right_ne_nil _ (List.cons_ne_nil _ _)
    rw [moved_some log some,loopChangeGear_still s.gear still]
    exact .pumping travels more first sights course (Nat.le_succ_of_le late) status set running past still there filling
  | resting travels pumps later last sights course late status low =>
    have some : log.sights ≠ [] := by
      rw [sights]
      exact List.append_ne_nil_of_right_ne_nil _ (List.append_ne_nil_of_right_ne_nil _ (List.cons_ne_nil _ _))
    rw [moved_some log some]
    exact .resting travels pumps later last sights course (Nat.le_succ_of_le late) status low

theorem stage_wait (stage : Stage bottle deep amount stepsDue period now s log) (ticks : Nat) :
    Stage bottle deep amount stepsDue period (now+ticks) s log := by
  cases stage with
  | approaching course unset low left towards => exact .approaching course unset low left towards
  | pumping travels more first sights course late status set running past still there filling =>
    exact .pumping travels more first sights course late status set running (Nat.le_add_right_of_le past) still there filling
  | resting travels pumps later last sights course late status low =>
    exact .resting travels pumps later last sights course late status low

-- No iteration samples tick 0, which the code takes for a timer that is not set.
def Ticking (s : Usv) (e : Occurrence) : Prop := iterates e = true → s.tick ≠ 0

instance (s : Usv) (e : Occurrence) : Decidable (Ticking s e) := inferInstanceAs (Decidable (_ → _))

def watched (libm : Libm) : Usv × Log → Occurrence → Usv × Log := observed (Usv.step libm) (Log.observe libm)

structure Tracked (bottle : Fin 8) (deep amount : Int) (stepsDue period : Nat) (p : Usv × Log) : Prop where
  commanded : Commanded bottle deep amount p.1.sampler
  stage : Stage bottle deep amount stepsDue period p.1.now p.1.sampler p.2

theorem manage_commanded (commanded : Commanded bottle deep amount s) (tick : UInt32) (remote : Remote) :
    Commanded bottle deep amount (s.manage tick remote) := by
  obtain ⟨bottleId,bottleDeep,bottleAmount⟩ := manage_kept s tick remote
  exact ⟨bottleId.trans commanded.bottleId,bottleDeep.trans commanded.bottleDeep,bottleAmount.trans commanded.bottleAmount⟩

theorem tracked_step (libm : Libm) (fits : 1000*fullTime amount < 2^31) (nonnegative : 0 ≤ amount) (p : Usv × Log)
    (e : Occurrence) (tracked : Tracked bottle deep amount stepsDue period p) (alone : Alone p.1 e)
    (ticking : Ticking p.1 e) : Tracked bottle deep amount stepsDue period (watched libm p e) := by
  obtain ⟨s,log⟩ := p
  obtain ⟨commanded,stage⟩ := tracked
  cases e with
  | wait ticks => exact ⟨commanded,stage_wait stage ticks⟩
  | heard | radio | changePwm => exact ⟨commanded,stage⟩
  | changeGear => exact ⟨⟨commanded.1,commanded.2,commanded.3⟩,stage_gear stage⟩
  | server c =>
    have other : s.sampler.apply c = s.sampler := by
      refine s.sampler.apply_other c ?_
      rintro bottleId bottleDeep bottleAmount rfl
      cases alone.1
    have same : (watched libm (s,log) (.server c)).1.sampler = s.sampler := other
    exact ⟨same ▸ commanded,same ▸ stage⟩
  | manager cruise =>
    exact ⟨manage_commanded commanded _ _,
      stage_manage fits nonnegative s.sampler log s.timeouts.remote (alone.2 rfl) (ticking rfl) commanded stage⟩

-- A timer that is not set leaves nothing running.
def Dry (s : Sampler) : Prop := s.drawStartTick = 0 → s.pins = allLow

theorem started_visible (visible : tick ≠ 0) (drawStartTick : UInt32) : started drawStartTick tick ≠ 0 := by
  unfold started
  split
  · exact visible
  · next set => exact set

theorem manage_dry (dry : Dry s) (visible : tick ≠ 0) (remote : Remote) : Dry (s.manage tick remote) := by
  have managed := manage_sound s tick remote
  generalize s.manage tick remote = next at managed
  cases managed with
  | remotePump | pump => exact fun unset => absurd unset (started_visible visible s.drawStartTick)
  | remoteTimeout | remoteOff | finish | rest => exact fun _ => draw_stopped
  | travel => exact dry

theorem step_dry (libm : Libm) (s : Usv) (e : Occurrence) (dry : Dry s.sampler) (ticking : Ticking s e) :
    Dry (s.step libm e).sampler := by
  cases e with
  | wait | heard | radio | changePwm | changeGear => exact dry
  | server c =>
    cases c with
    | sample | target | control | settings | gains | compass | heartbeat => exact dry
  | manager cruise => exact manage_dry dry (ticking rfl) s.timeouts.remote

def TickingReached (libm : Libm) (s : Usv) : Prop :=
  ∃ history, Along (Usv.step libm) Ticking Usv.boot history ∧ run (Usv.step libm) Usv.boot history = s

theorem reached_dry (reached : TickingReached libm s) : Dry s.sampler := by
  obtain ⟨history,ticking,rfl⟩ := reached
  have initial : Dry Usv.boot.sampler := fun _ => rfl
  exact invariant_run (step_dry libm) initial ticking

-- At tick 0 the pump starts and its timer still reads as not set.
example : ¬ Dry (run (Usv.step .level) .boot [.radio (.keys 1 1),.manager (1500,1500)]).sampler :=
  fun dry => absurd (dry (by decide)) (by decide)

-- What holds at any moment after the command: the sights so far, and the state itself.
structure Completes (bottle : Fin 8) (deep amount : Int) (stepsDue period : Nat) (s : Sampler) (sights : List Sight) :
    Prop where
  course : ∃ travels pumps rests, sights = travels++(pumps++rests) ∧
    Course stepsDue (1000*fullTime amount).toNat period travels pumps rests
  latest : ∀ x ∈ sights.getLast?, s.drawStatus = x.status
  travelling : s.drawStatus = 1 → s.pins = allLow
  pumping : s.drawStatus = 2 → Filling bottle amount s ∧ (s.gear.currentGearPwm.toNat : Int) = 1400-120*deep
  resting : s.drawStatus = 4 → s.pins = allLow

theorem stage_completes (ticks : (drawTicks amount).toNat = (1000*fullTime amount).toNat) (low : 0 ≤ deep) (high : deep ≤ 5)
    (stage : Stage bottle deep amount stepsDue period now s log) :
    Completes bottle deep amount stepsDue period s log.sights := by
  cases stage with
  | approaching course unset dry left towards =>
    rw [ticks] at course
    have early := towards.early
    refine ⟨⟨log.sights,[],[],(List.append_nil _).symm,course⟩,?_,fun _ => dry,by omega,by omega⟩
    intro x last
    have member := List.mem_of_getLast? last
    cases towards with
    | still none =>
      rw [none] at member
      cases member
    | moving _ status => exact status.trans (course.travelling x member).1.symm
  | pumping travels more first sights course late status set running past still there filling =>
    rw [ticks] at course
    refine ⟨⟨travels,first::more,[],by rw [sights,List.append_nil],course⟩,?_,by omega,?_,by omega⟩
    · intro x last
      rw [sights,List.getLast?_append_cons] at last
      exact status.trans (course.pumping x (List.mem_of_getLast? last)).1.symm
    · intro _
      refine ⟨filling,?_⟩
      rw [there]
      exact depth_toNat low high
  | resting travels pumps later final sights course late status dry =>
    rw [ticks] at course
    refine ⟨⟨travels,pumps,final::later,sights,course⟩,?_,by omega,by omega,fun _ => dry⟩
    intro x last
    rw [sights,← List.append_assoc,List.getLast?_append_cons] at last
    exact status.trans (course.resting x (List.mem_of_getLast? last)).1.symm

-- From any state whose own history has sampled no tick 0 either. A draw ends no earlier
-- than it should, whatever the period; `Course.ended` adds that it ends less than a period
-- late, where draw and period together fit one turn of the tick counter.
theorem undisturbed_completes (libm : Libm) (s : Usv) (reached : TickingReached libm s) (unset : s.sampler.drawStartTick = 0)
    (still : s.sampler.gear.currentGearPwm = s.sampler.gear.targetGearPwm) (bottle : Fin 8) (deep amount : Int)
    (low : 0 ≤ deep) (high : deep ≤ 5) (nonnegative : 0 ≤ amount) (fits : 1000*fullTime amount < 2^31)
    (events : List Occurrence) (period : Nat)
    (undisturbed : Along (Usv.step libm) (fun s e => Alone s e ∧ Ticking s e) (s.decoded (.sample (bottle.val+1) deep amount)) events) :
    let final := run (watched libm) (s.decoded (.sample (bottle.val+1) deep amount),.boot) events
    Completes bottle deep amount (away deep s.sampler.gear) period final.1.sampler final.2.sights := by
  intro final
  have ticks := drawTicks_toNat amount nonnegative (by omega)
  have dry := reached_dry reached unset
  have initial : Tracked bottle deep amount (away deep s.sampler.gear) period
      (s.decoded (.sample (bottle.val+1) deep amount),Log.boot) :=
    ⟨⟨rfl,rfl,rfl⟩,.approaching .boot unset dry rfl (.still rfl rfl still)⟩
  have tracked : Tracked bottle deep amount (away deep s.sampler.gear) period final :=
    invariant_run (fun p e inside allowed => tracked_step libm fits nonnegative p e inside allowed.1 allowed.2) initial
      (undisturbed.observed (Log.observe libm) Log.boot)
  exact stage_completes (by omega) low high tracked.stage

theorem shallow_completes :
    (run (watched .level) (Usv.boot.decoded (.sample 1 0 4),.boot) undisturbed).2.sights.map Sight.status = [1,2,4] ∧
      Completes 0 0 4 (away 0 Usv.boot.sampler.gear) 1000
        (run (watched .level) (Usv.boot.decoded (.sample 1 0 4),.boot) undisturbed).1.sampler
        (run (watched .level) (Usv.boot.decoded (.sample 1 0 4),.boot) undisturbed).2.sights := by
  refine ⟨by decide +kernel,?_⟩
  exact undisturbed_completes .level .boot ⟨[],trivial,rfl⟩ rfl rfl 0 0 4 (by decide) (by decide) (by decide) (by decide)
    undisturbed 1000 (by decide +kernel)

end UsvRt.SampleCourse
