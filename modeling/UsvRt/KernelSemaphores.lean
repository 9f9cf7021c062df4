import UsvRt.KernelSleep

-- A semaphore that threads wait on without a time limit: a permit goes to one waiter, to the
-- one that has waited longest, and none is lost.
namespace Kernel
open Runs State

def Event.takes (s : Nat) : Event → Bool
  | .take sem _ => sem == s
  | _ => false

-- Nobody who waits on the semaphore will give up.
def Patient (k : State) (s : Nat) : Prop := ∀ i ∈ k.suspendThread s, i ∉ k.rtTimerList

-- No take of the semaphore has a time limit.
def Event.Plain (s : Nat) : Event → Prop
  | .take sem time => sem = s → time < 0
  | _ => True

instance (s : Nat) (e : Event) : Decidable (e.Plain s) :=
  match e with
  | .take sem time => inferInstanceAs (Decidable (sem = s → time < 0))
  | .tick | .sleep _ | .release _ | .suspend | .startup _ | .unlink _ | .insert _ | .exit | .lock | .unlock | .schedule =>
    inferInstanceAs (Decidable True)

-- rt_sem_release checks no bound.
def Roomy (s : Nat) (k : State) (e : Event) : Prop := e = .release s → k.value s ≠ 65535

instance (s : Nat) (k : State) (e : Event) : Decidable (Roomy s k e) :=
  inferInstanceAs (Decidable (e = .release s → k.value s ≠ 65535))

section Exact

theorem resume_suspendThread {k : State} (suspended : (k.thread i).stat = .suspend) (s : Nat) :
    (k.rtThreadResume i).suspendThread s = (k.suspendThread s).erase i := by
  rw [resume_suspended suspended,insert_suspendThread,unlink_suspendThread]

theorem waitFor_suspendThread (linked : Linked now idle k) (working : k.Working) (sem : Nat) (time : Int32) :
    (k.waitFor sem time).suspendThread = Function.update k.suspendThread sem (k.suspendThread sem++[k.rtCurrentThread]) := by
  have same := suspend_suspendThread (clearError_linked linked k.rtCurrentThread 0) (clearError_working working 0)
  rw [modify_current] at same
  unfold waitFor rtIpcListSuspend
  dsimp only
  split
  · show Function.update _ sem _ = _
    rw [same]
    rfl
  · show Function.update _ sem _ = _
    rw [same]
    rfl

theorem release_suspendThread (linked : Linked now idle k) (sem s : Nat) :
    (k.giveOrWake sem).suspendThread s = if sem = s then (k.suspendThread s).tail else k.suspendThread s := by
  unfold giveOrWake
  split
  · next nobody =>
    split
    · next same =>
      subst same
      rw [nobody]
      rfl
    · rfl
  · next i rest queue =>
    have member : i ∈ k.suspendThread sem := queue ▸ List.mem_cons_self
    rw [resume_suspendThread (linked.waiting sem i member)]
    split
    · next same =>
      subst same
      rw [queue,List.erase_cons_head]
      rfl
    · next other => exact List.erase_of_not_mem fun also => other (linked.once sem s i member also)

theorem takeOrWait_none {k : State} (zero : k.value sem = 0) (endless : time ≠ 0) :
    k.takeOrWait sem time = k.waitFor sem time := by simp [takeOrWait,zero,endless]

theorem takeOrWait_some {k : State} (some : k.value sem ≠ 0) :
    k.takeOrWait sem time = {k with value:=Function.update k.value sem (k.value sem-1)} := by
  have positive : k.value sem > 0 := UInt16.pos_iff_ne_zero.mpr some
  simp [takeOrWait,positive]

theorem take_suspendThread (linked : Linked now idle k) (working : k.Working) (sem s : Nat) (time : Int32) :
    (k.takeOrWait sem time).suspendThread s =
      if sem = s ∧ k.value s = 0 ∧ time ≠ 0 then k.suspendThread s++[k.rtCurrentThread] else k.suspendThread s := by
  by_cases waits : k.value sem = 0 ∧ time ≠ 0
  · rw [takeOrWait_none waits.1 waits.2,waitFor_suspendThread linked working]
    by_cases own : sem = s
    · subst own
      rw [Function.update_self,if_pos ⟨rfl,waits⟩]
    · rw [Function.update_of_ne (Ne.symm own),if_neg fun all => own all.1]
  · rw [if_neg (by rintro ⟨rfl,all⟩; exact waits all)]
    by_cases zero : k.value sem = 0
    · have atOnce : time = 0 := not_not.mp fun endless => waits ⟨zero,endless⟩
      simp [takeOrWait,zero,atOnce]
    · rw [takeOrWait_some zero]

theorem step_queue (linked : Linked k.rtTick idle k) (safe : Safe idle k e) (patient : Patient k s)
    (plain : e.Plain s) :
    (step k e).suspendThread s =
      if e = .release s then (k.suspendThread s).tail
      else if e.takes s = true ∧ k.value s = 0 then k.suspendThread s++[k.rtCurrentThread]
      else k.suspendThread s := by
  have allowed := safe.allowed
  cases e with
  | tick =>
    show _ = k.suspendThread s
    rw [show (step k .tick).suspendThread s = _ from (tick_spec linked).2.suspendThread s]
    refine List.filter_eq_self.mpr fun i waiting => decide_eq_true fun late => ?_
    exact patient i waiting (List.mem_filter.mp late).1
  | sleep tick => exact congrFun (suspend_suspendThread linked allowed.1) s
  | take sem time =>
    show (k.takeOrWait sem time).suspendThread s = _
    rw [take_suspendThread linked allowed.1]
    by_cases own : sem = s
    · have endless := Int32.ne_of_lt (plain own)
      simp [own,endless,Event.takes]
    · simp [own,Event.takes]
  | release sem =>
    show (k.giveOrWake sem).suspendThread s = _
    rw [release_suspendThread linked]
    by_cases own : sem = s
    · subst own
      simp
    · simp [own,Event.takes]
  | suspend => exact congrFun (suspend_suspendThread linked allowed.1) s
  | startup i => rfl
  | unlink i => exact congrFun (unlink_free_suspendThread (safe.free i (.inl rfl))) s
  | insert i => exact congrFun (insert_suspendThread k i) s
  | exit => exact congrFun (exit_suspendThread linked allowed.1 allowed.2.1) s
  | lock => rfl
  | unlock => rfl
  | schedule => exact congrFun (schedule_dispatched linked).suspendThread s

theorem waitFor_value (k : State) (sem : Nat) (time : Int32) : (k.waitFor sem time).value = k.value := by
  unfold waitFor
  dsimp only
  split <;> exact suspend_value _ _

theorem resume_value (k : State) (i : Nat) : (k.rtThreadResume i).value = k.value := by
  unfold rtThreadResume
  split
  · rfl
  · simp [unlink,listRemove]

theorem exit_value (linked : Linked now idle k) (working : k.Working) (other : k.rtCurrentThread ≠ idle) :
    k.rtThreadExit.value = k.value := by
  rw [(exit_dispatched linked working other).value]
  simp

theorem take_value (k : State) (sem : Nat) (time : Int32) :
    (k.takeOrWait sem time).value =
      if k.value sem = 0 then k.value else Function.update k.value sem (k.value sem-1) := by
  split
  · next zero =>
    by_cases atOnce : time = 0
    · simp [takeOrWait,zero,atOnce]
    · rw [takeOrWait_none zero atOnce,waitFor_value]
  · next some => rw [takeOrWait_some some]

theorem release_value (k : State) (sem : Nat) :
    (k.giveOrWake sem).value =
      if k.suspendThread sem = [] then Function.update k.value sem (k.value sem+1) else k.value := by
  unfold giveOrWake
  split
  · next nobody => exact (if_pos nobody).symm
  · next i rest queue =>
    rw [resume_value,queue]
    exact (if_neg (List.cons_ne_nil _ _)).symm

theorem step_value (linked : Linked k.rtTick idle k) (safe : Safe idle k e) (s : Nat) :
    (step k e).value s =
      if e = .release s ∧ k.suspendThread s = [] then k.value s+1
      else if e.takes s = true ∧ k.value s ≠ 0 then k.value s-1
      else k.value s := by
  cases e with
  | tick => exact congrFun (tick_spec linked).2.value s
  | sleep tick => exact congrFun (suspend_value _ _) s
  | take sem time =>
    show (k.takeOrWait sem time).value s = _
    rw [take_value]
    by_cases own : sem = s
    · subst own
      by_cases zero : k.value sem = 0
      · simp [zero]
      · simp [zero,Event.takes]
    · have apart := Function.update_of_ne (Ne.symm own) (k.value sem-1) k.value
      split <;> simp [own,Event.takes,apart]
  | release sem =>
    show (k.giveOrWake sem).value s = _
    rw [release_value]
    by_cases own : sem = s
    · subst own
      by_cases nobody : k.suspendThread sem = []
      · simp [nobody]
      · simp [nobody,Event.takes]
    · have apart := Function.update_of_ne (Ne.symm own) (k.value sem+1) k.value
      split <;> simp [own,Event.takes,apart]
  | suspend => exact congrFun (suspend_value _ _) s
  | startup i => rfl
  | unlink i => exact congrFun (timerStop_value (k.listRemove i) i) s
  | insert i => exact congrFun (insert_value k i) s
  | exit => exact congrFun (exit_value linked safe.allowed.1 safe.allowed.2.1) s
  | lock => rfl
  | unlock => rfl
  | schedule => exact congrFun (schedule_dispatched linked).value s

end Exact

theorem step_patient (linked : Linked k.rtTick idle k) (safe : Safe idle k e) (patient : Patient k s)
    (plain : e.Plain s) : Patient (step k e) s := by
  have effect := step_effect linked safe
  have old : ∀ i ∈ k.suspendThread s, i ∉ (step k e).rtTimerList :=
    fun i member => effect.untimed i (patient i member) (linked.waiting s i member)
  intro i member
  rw [step_queue linked safe patient plain] at member
  split at member
  · exact old i (List.mem_of_mem_tail member)
  · split at member
    · next waits =>
      cases List.mem_append.mp member with
      | inl before => exact old i before
      | inr now =>
        obtain rfl := List.mem_singleton.mp now
        cases e with
        | take sem time =>
          obtain rfl : sem = s := beq_iff_eq.mp waits.1
          have forever := plain rfl
          have endless := Int32.ne_of_lt forever
          show k.rtCurrentThread ∉ (k.takeOrWait sem time).rtTimerList
          rw [takeOrWait_none waits.2 endless]
          unfold waitFor
          dsimp only
          rw [if_neg (Int32.not_lt.mpr (Int32.le_of_lt forever))]
          exact (suspend_free (clearError_linked linked _ 0) (clearError_working safe.allowed.1 0)).untimed
        | tick | sleep | release | suspend | startup | unlink | insert | exit | lock | unlock | schedule => exact nomatch waits.1
    · exact old i member

-- What a run's state says of a semaphore, counted from how it was at the start.
structure Counted (k : State) (s supply demand : Nat) : Prop where
  value : (k.value s).toNat = supply-demand
  waiting : (k.suspendThread s).length = demand-supply
  patient : Patient k s

theorem succ_value {value : UInt16} (room : value ≠ 65535) : (value+1).toNat = value.toNat+1 := by
  have bound := value.toNat_lt
  have apart : value.toNat ≠ 65535 := fun same => room (UInt16.toNat_inj.mp same)
  rw [UInt16.toNat_add]
  show (value.toNat+1)%65536 = _
  omega

theorem pred_value {value : UInt16} (some : value ≠ 0) : (value-1).toNat = value.toNat-1 := by
  have bound := value.toNat_lt
  have apart : value.toNat ≠ 0 := fun same => some (UInt16.toNat_inj.mp same)
  rw [UInt16.toNat_sub]
  show (65536-1+value.toNat)%65536 = _
  omega

theorem step_counted (linked : Linked k.rtTick idle k) (safe : Safe idle k e) (plain : e.Plain s)
    (room : Roomy s k e) (counted : Counted k s supply demand) :
    Counted (step k e) s (supply+if e = .release s then 1 else 0) (demand+if e.takes s = true then 1 else 0) := by
  obtain ⟨value,waiting,patient⟩ := counted
  have spent : k.value s = 0 ↔ supply ≤ demand := by
    rw [← UInt16.toNat_inj,value]
    exact Nat.sub_eq_zero_iff_le
  have nobody : k.suspendThread s = [] ↔ demand ≤ supply := by
    rw [← List.length_eq_zero_iff,waiting]
    exact Nat.sub_eq_zero_iff_le
  have queue := step_queue linked safe patient plain
  have count := step_value linked safe s
  refine ⟨?_,?_,step_patient linked safe patient plain⟩
  · rw [count]
    by_cases give : e = .release s
    · have idle : e.takes s ≠ true := give ▸ nofun
      rw [if_pos give,if_neg idle]
      by_cases empty : k.suspendThread s = []
      · have less := nobody.mp empty
        rw [if_pos ⟨give,empty⟩,succ_value (room give)]
        omega
      · have more := nobody.not.mp empty
        rw [if_neg fun both => empty both.2,if_neg fun both => idle both.1]
        omega
    · rw [if_neg fun both => give both.1,if_neg give]
      by_cases take : e.takes s = true
      · rw [if_pos take]
        by_cases none : k.value s = 0
        · have less := spent.mp none
          rw [if_neg fun both => both.2 none]
          omega
        · have more := spent.not.mp none
          rw [if_pos ⟨take,none⟩,pred_value none]
          omega
      · rw [if_neg take,if_neg fun both => take both.1]
        exact value
  · rw [queue]
    by_cases give : e = .release s
    · have idle : e.takes s ≠ true := give ▸ nofun
      rw [if_pos give,if_pos give,if_neg idle,List.length_tail]
      omega
    · rw [if_neg give,if_neg give]
      by_cases take : e.takes s = true
      · rw [if_pos take]
        by_cases none : k.value s = 0
        · have less := spent.mp none
          rw [if_pos ⟨take,none⟩,List.length_append,List.length_singleton]
          omega
        · have more := spent.not.mp none
          rw [if_neg fun both => none both.2]
          omega
      · rw [if_neg take,if_neg fun both => take both.1]
        exact waiting

theorem boot_counted (c : Config) (s : Nat) : Counted c.boot s (c.value s).toNat 0 := by
  obtain ⟨i,_,start⟩ := boot_starts c
  have empty : c.boot.suspendThread s = [] := by
    rw [start,startWith_suspendThread]
    rfl
  have value : c.boot.value s = c.value s := by
    rw [start,startWith_value]
    rfl
  exact ⟨by rw [value,Nat.sub_zero],by rw [empty,Nat.zero_sub,List.length_nil],fun j member => by simp [empty] at member⟩

theorem along_counted (linked : Linked k.rtTick idle k) (path : Along step (Safe idle) k events)
    (plain : ∀ e ∈ events, e.Plain s)
    (room : Along step (Roomy s) k events)
    (counted : Counted k s supply demand) :
    Counted (run step k events) s (supply+events.count (.release s)) (demand+events.countP (Event.takes s)) := by
  induction events generalizing k supply demand with
  | nil => exact counted
  | cons e rest ih =>
    have next := step_counted linked path.1 (plain e List.mem_cons_self) room.1 counted
    have later := ih (step_linked linked path.1) path.2 (fun e' member => plain e' (List.mem_cons_of_mem _ member))
      room.2 next
    have supplied : supply+(e::rest).count (.release s) =
        supply+(if e = .release s then 1 else 0)+rest.count (.release s) := by
      rw [List.count_cons]
      simp only [beq_iff_eq]
      omega
    have asked : demand+(e::rest).countP (Event.takes s) =
        demand+(if e.takes s = true then 1 else 0)+rest.countP (Event.takes s) := by
      rw [List.countP_cons]
      omega
    rw [supplied,asked]
    exact later

theorem along_patient (linked : Linked k.rtTick idle k) (path : Along step (Safe idle) k events)
    (plain : ∀ e ∈ events, e.Plain s) (patient : Patient k s) : Patient (run step k events) s := by
  induction events generalizing k with
  | nil => exact patient
  | cons e rest ih =>
    exact ih (step_linked linked path.1) path.2 (fun e' member => plain e' (List.mem_cons_of_mem _ member))
      (step_patient linked path.1 patient (plain e List.mem_cons_self))

theorem step_turns (linked : Linked k.rtTick idle k) (safe : Safe idle k e) (plain : e.Plain s) (patient : Patient k s) :
    ∃ new, (step k e).suspendThread s = (k.suspendThread s).drop (if e = .release s then 1 else 0)++new := by
  rw [step_queue linked safe patient plain]
  split
  · exact ⟨[],by rw [List.append_nil,List.drop_one]⟩
  · split
    · exact ⟨[k.rtCurrentThread],rfl⟩
    · exact ⟨[],(List.append_nil _).symm⟩

-- Those who waited first leave first, and whoever comes stands behind them.
theorem along_turns (linked : Linked k.rtTick idle k) (path : Along step (Safe idle) k events)
    (plain : ∀ e ∈ events, e.Plain s) (patient : Patient k s) :
    ∃ new, (run step k events).suspendThread s = (k.suspendThread s).drop (events.count (.release s))++new := by
  induction events generalizing k with
  | nil => exact ⟨[],(List.append_nil _).symm⟩
  | cons e rest ih =>
    have plainRest : ∀ e ∈ rest, e.Plain s := fun e' member => plain e' (List.mem_cons_of_mem _ member)
    obtain ⟨first,now⟩ := step_turns linked path.1 (plain e List.mem_cons_self) patient
    obtain ⟨second,later⟩ := ih (step_linked linked path.1) path.2 plainRest
      (step_patient linked path.1 patient (plain e List.mem_cons_self))
    rw [now,List.drop_append,List.drop_drop,List.append_assoc] at later
    have released : (e::rest).count (.release s) = (if e = .release s then 1 else 0)+rest.count (.release s) := by
      rw [List.count_cons,Nat.add_comm]
      simp only [beq_iff_eq]
    rw [released]
    exact ⟨_,later⟩

end Kernel
