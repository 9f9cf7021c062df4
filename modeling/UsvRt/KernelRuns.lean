import UsvRt.KernelSteps

-- The clock interrupt, and what every run of the kernel keeps.
namespace Kernel
open Runs

theorem erase_filter {queue : List Nat} (nodup : queue.Nodup) : queue.erase i = queue.filter (· ∉ [i]) := by
  rw [nodup.erase_eq_filter]
  refine List.filter_congr fun j _ => ?_
  rw [Bool.eq_iff_iff]
  simp

namespace State

-- The threads whose timers are due on the tick after `now`.
def expiring (k : State) (now : UInt32) : List Nat := k.rtTimerList.filter fun i => k.left now i ≤ 1

theorem due_left (linked : Linked now idle k) (tick : k.rtTick = now+1) (member : i ∈ k.rtTimerList) :
    k.Due i ↔ k.left now i ≤ 1 := by
  rw [Due,tick]
  exact Deadlines.due_exact (linked.soon i member)

theorem modify_settled {k : State} {change : Thread → Thread} (settled : k.Settled) (stat : ∀ t, (change t).stat = t.stat)
    (priority : ∀ t, (change t).currentPriority = t.currentPriority) : (k.modify i change).Settled := by
  have same : ∀ j, ((k.modify i change).thread j).stat = (k.thread j).stat ∧
      ((k.modify i change).thread j).currentPriority = (k.thread j).currentPriority := by
    intro j
    rw [thread_modify]
    split
    · exact ⟨stat _,priority _⟩
    · exact ⟨rfl,rfl⟩
  refine ⟨?_,fun j ready => ?_⟩
  · rw [Working,modify_current,(same _).1]
    exact settled.1
  · rw [modify_current,(same _).2,(same _).2]
    exact settled.2 j ((same j).1 ▸ ready)

theorem expire_settled (linked : Linked now idle k) (suspended : (k.thread i).stat = .suspend)
    (unlocked : k.rtSchedulerLockNest = 0) : (k.expire i).Settled := by
  have woken := schedule_settled (wake_linked linked suspended) ((wake_lock k i).trans unlocked)
  rw [expire_wake]
  exact modify_settled woken (fun _ => rfl) fun _ => rfl

-- What the clock interrupt does to the lists: some threads leave them, and are awake.
structure Expired (gone : List Nat) (k k' : State) : Prop where
  lock : k'.rtSchedulerLockNest = k.rtSchedulerLockNest
  tick : k'.rtTick = k.rtTick
  timerList : k'.rtTimerList = k.rtTimerList.filter (· ∉ gone)
  value : k'.value = k.value
  suspendThread : ∀ s, k'.suspendThread s = (k.suspendThread s).filter (· ∉ gone)
  priority : ∀ i, (k'.thread i).currentPriority = (k.thread i).currentPriority
  others : ∀ i ∉ gone, (k.thread i).Same (k'.thread i)
  woken : ∀ i ∈ gone, (k'.thread i).Awake ∧ (k'.thread i).error = eTimeout

theorem Expired.refl (k : State) : Expired [] k k :=
  ⟨rfl,rfl,by simp,rfl,by simp,fun _ => rfl,fun _ _ => .refl _,fun _ member => nomatch member⟩

theorem Expired.trans (first : Expired gone k k') (second : Expired gone' k' k'') : Expired (gone++gone') k k'' := by
  refine ⟨second.lock.trans first.lock,second.tick.trans first.tick,?_,second.value.trans first.value,?_,
    fun i => (second.priority i).trans (first.priority i),?_,?_⟩
  · rw [second.timerList,first.timerList,List.filter_filter]
    congr 1
    funext i
    simp [Bool.and_comm]
  · intro s
    rw [second.suspendThread,first.suspendThread,List.filter_filter]
    congr 1
    funext i
    simp [Bool.and_comm]
  · intro i out
    rw [List.mem_append,not_or] at out
    exact (first.others i out.1).trans (second.others i out.2)
  · intro i member
    by_cases late : i ∈ gone'
    · exact second.woken i late
    · obtain ⟨awake,error⟩ := first.woken i ((List.mem_append.mp member).resolve_right late)
      have same := second.others i late
      exact ⟨same.awake awake,same.error.trans error⟩

theorem Dispatched.expired (d : Dispatched k k') : Expired [] k k' :=
  ⟨d.lock,d.tick,by simp [d.timerList],d.value,by simp [d.suspendThread],fun i => (d.thread i).priority,fun i _ => d.thread i,
    fun _ member => nomatch member⟩

theorem thread_wake (k : State) (i j : Nat) :
    (k.wake i).thread j =
      if j = i then {k.thread j with error:=eTimeout,stat:=if i = k.rtCurrentThread then .running else .ready}
      else k.thread j := by
  by_cases same : j = i
  · subst same
    simp [wake,thread_insert,listRemove]
  · simp [wake,thread_insert,listRemove,same]

theorem wake_expired (linked : Linked now idle k) (i : Nat) : Expired [i] k (k.wake i) := by
  refine ⟨wake_lock k i,wake_tick k i,?_,insert_value _ _,?_,?_,?_,?_⟩
  · rw [wake_timerList,erase_filter linked.listed]
  · intro s
    rw [wake,insert_suspendThread]
    show (k.suspendThread s).erase i = _
    rw [erase_filter (linked.queued s)]
  · intro j
    rw [thread_wake]
    split <;> rfl
  · intro j out
    rw [List.mem_singleton] at out
    rw [thread_wake,if_neg out]
    exact .refl _
  · intro j member
    rw [List.mem_singleton] at member
    rw [thread_wake,if_pos member]
    refine ⟨?_,rfl⟩
    show (if i = k.rtCurrentThread then Stat.running else .ready) = .ready ∨ _
    split
    · exact .inr rfl
    · exact .inl rfl

theorem expire_expired (linked : Linked now idle k) (suspended : (k.thread i).stat = .suspend) :
    Expired [i] k (k.expire i) := by
  have woken := (wake_expired linked i).trans (schedule_dispatched (wake_linked linked suspended)).expired
  rw [List.append_nil] at woken
  rw [expire_wake]
  refine ⟨woken.lock,woken.tick,woken.timerList,woken.value,woken.suspendThread,?_,?_,?_⟩
  · intro j
    rw [thread_modify]
    split <;> exact woken.priority j
  · intro j out
    rw [thread_modify,if_neg (List.mem_singleton.not.mp out)]
    exact woken.others j out
  · intro j member
    rw [thread_modify,if_pos (List.mem_singleton.mp member)]
    exact woken.woken j member

theorem expire_expiring (linked : Linked now idle k) (head : k.rtTimerList = i::rest) (due : k.left now i ≤ 1) :
    k.expiring now = i::(k.expire i).expiring now := by
  have suspended := linked.sleeping i (head ▸ List.mem_cons_self)
  have fresh : i ∉ rest := (List.nodup_cons.mp (head ▸ linked.listed)).1
  rw [expiring,expiring,expire_timerList linked suspended,head,List.erase_cons_head,List.filter_cons_of_pos (by simpa using due)]
  congr 1
  apply List.filter_congr
  intro j member
  have out : j ∉ [i] := fun same => fresh (List.mem_singleton.mp same ▸ member)
  rw [left,left,((expire_expired linked suspended).others j out).timer]

theorem expiring_late (linked : Linked now idle k) (tick : k.rtTick = now+1) (head : k.rtTimerList = i::rest) (late : ¬k.Due i) :
    k.expiring now = [] := by
  have first := (due_left linked tick (head ▸ List.mem_cons_self)).not.mp late
  refine List.filter_eq_nil_iff.mpr fun j listed => ?_
  have order : k.left now i ≤ k.left now j := by
    rw [head] at listed
    cases List.mem_cons.mp listed with
    | inl same => exact same ▸ Nat.le_refl _
    | inr later => exact (List.pairwise_cons.mp (head ▸ linked.ordered)).1 j later
  rw [decide_eq_true_eq]
  omega

theorem checkTimers_spec (turns : Nat) (linked : Linked now idle k) (tick : k.rtTick = now+1)
    (enough : k.rtTimerList.length ≤ turns) :
    Linked now idle (checkTimers turns k) ∧ Expired (k.expiring now) k (checkTimers turns k) := by
  induction turns generalizing k with
  | zero =>
    have empty := List.length_eq_zero_iff.mp (Nat.le_zero.mp enough)
    have quiet : k.expiring now = [] := by rw [expiring,empty,List.filter_nil]
    exact ⟨linked,quiet ▸ .refl k⟩
  | succ turns ih =>
    unfold checkTimers
    split
    · next empty =>
      have quiet : k.expiring now = [] := by rw [expiring,empty,List.filter_nil]
      exact ⟨linked,quiet ▸ .refl k⟩
    · next i rest head =>
      have member : i ∈ k.rtTimerList := head ▸ List.mem_cons_self
      have suspended := linked.sleeping i member
      split
      · next due =>
        have soon := (due_left linked tick member).mp due
        have fewer : (k.expire i).rtTimerList.length ≤ turns := by
          rw [expire_timerList linked suspended,head,List.erase_cons_head]
          rw [head,List.length_cons] at enough
          omega
        obtain ⟨after,expired⟩ := ih (expire_linked linked suspended) ((expire_tick linked suspended).trans tick) fewer
        rw [expire_expiring linked head soon]
        exact ⟨after,(expire_expired linked suspended).trans expired⟩
      · next late =>
        exact ⟨linked,expiring_late linked tick head late ▸ .refl k⟩

-- The lists hold what they held, counted from the next tick.
theorem advance_linked (linked : Linked now idle k) (late : ∀ i ∈ k.rtTimerList, 1 < k.left now i) :
    Linked (now+1) idle k := by
  have next : ∀ i ∈ k.rtTimerList, k.left (now+1) i = k.left now i-1 :=
    fun i member => Deadlines.left_next (Nat.lt_of_lt_of_le Nat.zero_lt_one (Nat.le_of_lt (late i member)))
  refine ⟨linked.toQueues,linked.toWaits,⟨linked.sleeping,linked.activated,linked.listed,?_,?_⟩,linked.toProcessor⟩
  · refine linked.ordered.imp_of_mem ?_
    intro i j first second order
    rw [next i first,next j second]
    exact Nat.sub_le_sub_right order 1
  · intro i member
    rw [next i member]
    exact Nat.lt_of_le_of_lt (Nat.sub_le _ _) (linked.soon i member)

theorem modify_dispatched (k : State) (i : Nat) (same : ∀ t : Thread, t.Same (change t)) : Dispatched k (k.modify i change) := by
  refine ⟨rfl,rfl,rfl,rfl,rfl,fun j => ?_⟩
  rw [thread_modify]
  split
  · exact same _
  · exact .refl _

theorem Dispatched.trans (first : Dispatched k k') (second : Dispatched k' k'') : Dispatched k k'' :=
  ⟨second.lock.trans first.lock,second.tick.trans first.tick,second.timerList.trans first.timerList,second.value.trans first.value,
    second.suspendThread.trans first.suspendThread,fun i => (first.thread i).trans (second.thread i)⟩

-- The running thread's time slice, and the switch when it has run out.
def spendSlice (k : State) : State :=
  let self := k.rtCurrentThread
  let k := k.modify self fun t => {t with remainingTick:=t.remainingTick-1}
  if (k.thread self).remainingTick = 0 then
    (k.modify self fun t => {t with remainingTick:=t.initTick,yielded:=true}).rtSchedule
  else k

theorem tickIncrease_parts (k : State) : k.rtTickIncrease = ({k with rtTick:=k.rtTick+1}).spendSlice.rtTimerCheck := rfl

theorem spendSlice_spec (linked : Linked now idle k) : Linked now idle k.spendSlice ∧ Dispatched k k.spendSlice := by
  let spent := k.modify k.rtCurrentThread fun t => {t with remainingTick:=t.remainingTick-1}
  have less : Linked now idle spent := modify_linked linked (fun _ => rfl) (fun _ => rfl) fun _ _ => rfl
  have same : Dispatched k spent := modify_dispatched _ _ fun t => ⟨rfl,rfl,rfl,.inl rfl⟩
  unfold spendSlice
  dsimp only
  split
  · have renewed : Linked now idle (spent.modify k.rtCurrentThread fun t => {t with remainingTick:=t.initTick,yielded:=true}) :=
      modify_linked less (fun _ => rfl) (fun _ => rfl) fun _ _ => rfl
    have still : Dispatched spent (spent.modify k.rtCurrentThread fun t => {t with remainingTick:=t.initTick,yielded:=true}) :=
      modify_dispatched _ _ fun t => ⟨rfl,rfl,rfl,.inl rfl⟩
    exact ⟨schedule_linked renewed,(same.trans still).trans (schedule_dispatched renewed)⟩
  · exact ⟨less,same⟩

theorem Expired.late (expired : Expired (k.expiring now) k k') : ∀ i ∈ k'.rtTimerList, 1 < k'.left now i := by
  intro i member
  rw [expired.timerList,List.mem_filter,decide_eq_true_eq] at member
  rw [left,(expired.others i member.2).timer]
  by_contra soon
  exact member.2 (List.mem_filter.mpr ⟨member.1,decide_eq_true (Nat.le_of_not_lt soon)⟩)

theorem later_linked (linked : Linked now idle k) (tick : UInt32) : Linked now idle {k with rtTick:=tick} :=
  ⟨⟨linked.ready,linked.distinct,linked.group⟩,⟨linked.waiting,linked.queued,linked.once,linked.spent⟩,
    ⟨linked.sleeping,linked.activated,linked.listed,linked.ordered,linked.soon⟩,
    ⟨linked.running,linked.current,linked.awake⟩⟩

theorem expiring_dispatched (d : Dispatched k k') (now : UInt32) : k'.expiring now = k.expiring now := by
  rw [expiring,expiring,d.timerList]
  refine List.filter_congr fun i _ => ?_
  rw [left,left,(d.thread i).timer]

theorem tick_spec (linked : Linked k.rtTick idle k) :
    Linked (k.rtTick+1) idle k.rtTickIncrease ∧
      Expired (k.expiring k.rtTick) {k with rtTick:=k.rtTick+1} k.rtTickIncrease := by
  obtain ⟨sliced,same⟩ := spendSlice_spec (later_linked linked (k.rtTick+1))
  obtain ⟨checked,expired⟩ := checkTimers_spec _ sliced same.tick (Nat.le_refl _)
  have late := advance_linked checked expired.late
  rw [expiring_dispatched same] at expired
  exact ⟨late,same.expired.trans expired⟩

theorem tick_linked (linked : Linked k.rtTick idle k) : Linked k.rtTickIncrease.rtTick idle k.rtTickIncrease := by
  obtain ⟨after,expired⟩ := tick_spec linked
  rw [expired.tick]
  exact after

theorem fallAsleep_tick (k : State) (tick : UInt32) : (k.fallAsleep tick).rtTick = k.rtTick := suspend_tick _ _

theorem waitFor_tick (k : State) (sem : Nat) (time : Int32) : (k.waitFor sem time).rtTick = k.rtTick := by
  unfold waitFor
  dsimp only
  split <;> exact suspend_tick _ _

theorem takeOrWait_tick (k : State) (sem : Nat) (time : Int32) : (k.takeOrWait sem time).rtTick = k.rtTick := by
  unfold takeOrWait
  split
  · rfl
  · split
    · rfl
    · exact waitFor_tick _ _ _

theorem resume_tick (k : State) (i : Nat) : (k.rtThreadResume i).rtTick = k.rtTick := by
  unfold rtThreadResume
  split
  · rfl
  · simp [unlink,listRemove]

theorem unlink_tick (k : State) (i : Nat) : (k.unlink i).rtTick = k.rtTick := timerStop_tick _ _

theorem exit_dispatched (linked : Linked now idle k) (working : k.Working) (other : k.rtCurrentThread ≠ idle) :
    Dispatched (((k.rtScheduleRemoveThread k.rtCurrentThread).setStat k.rtCurrentThread .close).rtTimerStop k.rtCurrentThread)
      k.rtThreadExit :=
  schedule_dispatched (timerStop_linked (leave_linked linked working other (.inr rfl)) _)

theorem exit_tick (linked : Linked now idle k) (working : k.Working) (other : k.rtCurrentThread ≠ idle) :
    k.rtThreadExit.rtTick = k.rtTick := by
  rw [(exit_dispatched linked working other).tick]
  simp

theorem giveOrWake_tick (k : State) (sem : Nat) : (k.giveOrWake sem).rtTick = k.rtTick := by
  unfold giveOrWake
  split
  · rfl
  · exact resume_tick _ _

end State
open State

-- Allowed, and a thread that rt_thread_resume is on the way to insert stands on no list.
structure Safe (idle : Nat) (k : State) (e : Event) : Prop where
  allowed : Allowed idle k e
  free : ∀ i, e = .unlink i ∨ e = .insert i → k.Free i

theorem safe_tick (idle : Nat) (k : State) : Safe idle k .tick := ⟨trivial,by simp⟩
theorem safe_release (idle : Nat) (k : State) (sem : Nat) : Safe idle k (.release sem) := ⟨trivial,by simp⟩
theorem safe_schedule (idle : Nat) (k : State) : Safe idle k .schedule := ⟨trivial,by simp⟩

theorem step_tick (linked : Linked k.rtTick idle k) (safe : Safe idle k e) :
    (step k e).rtTick = if e = .tick then k.rtTick+1 else k.rtTick := by
  cases e with
  | tick => exact (tick_spec linked).2.tick
  | sleep tick => exact fallAsleep_tick _ _
  | take sem time => exact takeOrWait_tick _ _ _
  | release sem => exact giveOrWake_tick _ _
  | suspend => exact suspend_tick _ _
  | startup i => rfl
  | unlink i => exact unlink_tick _ _
  | insert i => exact insert_tick _ _
  | exit => exact exit_tick linked safe.allowed.1 safe.allowed.2.1
  | lock => rfl
  | unlock => rfl
  | schedule => exact (schedule_dispatched linked).tick

theorem step_linked (linked : Linked k.rtTick idle k) (safe : Safe idle k e) :
    Linked (step k e).rtTick idle (step k e) := by
  have allowed := safe.allowed
  have tick := step_tick linked safe
  cases e with
  | tick => exact tick_linked linked
  | sleep tick =>
    rw [tick]
    exact fallAsleep_linked linked allowed.1 allowed.2.1 allowed.2.2.2
  | take sem time =>
    rw [tick]
    exact takeOrWait_linked linked allowed.1 allowed.2.1 allowed.2.2.2
  | release sem =>
    rw [tick]
    exact giveOrWake_linked linked sem
  | suspend =>
    rw [tick]
    exact suspend_linked linked allowed.1 allowed.2.1
  | startup i => exact prepare_linked linked allowed.2
  | unlink i =>
    rw [tick]
    exact unlink_linked linked (safe.free i (.inl rfl)).suspended
  | insert i =>
    rw [tick]
    exact insert_linked linked (safe.free i (.inr rfl))
  | exit =>
    rw [tick]
    exact exit_linked linked allowed.1 allowed.2.1
  | lock => exact critical_linked linked _
  | unlock => exact critical_linked linked _
  | schedule =>
    rw [tick]
    exact schedule_linked linked

section Start
variable (k : State) (i : Nat)

@[simp] theorem thread_startWith (j : Nat) :
    (startWith k i).thread j = if j = i then {k.thread j with stat:=.running} else k.thread j := by simp [startWith]
@[simp] theorem startWith_current : (startWith k i).rtCurrentThread = i := by simp [startWith]
@[simp] theorem startWith_value : (startWith k i).value = k.value := by simp [startWith]
@[simp] theorem startWith_timerList : (startWith k i).rtTimerList = k.rtTimerList := by simp [startWith]
@[simp] theorem startWith_suspendThread (s : Nat) : (startWith k i).suspendThread s = (k.suspendThread s).erase i := by
  simp [startWith]

end Start

theorem startWith_linked (queues : Queues k) (stat : ∀ j, (k.thread j).stat ≠ .running)
    (idleReady : (k.thread idle).stat = .ready) (timerList : k.rtTimerList = [])
    (suspendThread : ∀ s, k.suspendThread s = []) : Linked now idle (startWith k i) := by
  refine ⟨?_,?_,?_,?_,?_,?_⟩
  · exact queues_remove (queues.of_same rfl rfl (fun _ => .rfl) (fun _ => rfl)) Stat.running_out.1
  · exact ⟨by simp [suspendThread],by simp [suspendThread],by simp [suspendThread],by simp [suspendThread]⟩
  · exact ⟨by simp [timerList],by simp [timerList],by simp [timerList],by simp [timerList],by simp [timerList]⟩
  · intro j running
    rw [startWith_current]
    by_contra apart
    rw [thread_startWith,if_neg apart] at running
    exact stat j running
  · rw [startWith_current,thread_startWith,if_pos rfl]
    exact Stat.running_out
  · rw [thread_startWith]
    split
    · exact .inr rfl
    · exact .inl idleReady

theorem made_stat (c : Config) (i : Nat) :
    (c.made.thread i).stat = if i = c.idle ∨ i = c.timer ∨ i = c.main then .ready else .init := by
  by_cases first : i = c.main <;> by_cases second : i = c.timer <;> by_cases third : i = c.idle <;>
    simp_all [Config.made,rtThreadInit]

theorem made_priority (c : Config) (i : Nat) : (c.made.thread i).currentPriority = c.priority i := by
  unfold Config.made
  dsimp only
  rw [thread_readyInsert,thread_readyInsert,thread_readyInsert]
  split <;> split <;> split <;> rfl

theorem made_queues (c : Config) : Queues c.made := by
  have distinct : c.main ≠ c.timer ∧ c.main ≠ c.idle ∧ c.timer ≠ c.idle := by
    have apart := c.apart
    simp only [List.nodup_cons,List.mem_cons,List.not_mem_nil,or_false,not_or] at apart
    exact ⟨apart.1.1,apart.1.2,apart.2.1⟩
  apply queues_insert
  · apply queues_insert
    · apply queues_insert
      · exact ⟨by simp [rtThreadInit],by simp,by simp⟩
      · simp [rtThreadInit]
    · simp [rtThreadInit,Ne.symm distinct.1]
  · simp [rtThreadInit,Ne.symm distinct.2.1,Ne.symm distinct.2.2]

theorem boot_starts (c : Config) : ∃ i, c.made.Foremost i ∧ c.boot = startWith c.made i := by
  have queues := made_queues c
  unfold Config.boot schedulerStart
  cases found : c.made.getHighestPriorityThread with
  | none =>
    have ready : (c.made.thread c.idle).stat = .ready := by rw [made_stat,if_pos (.inl rfl)]
    exact absurd ready (highest_none queues found c.idle)
  | some top => exact ⟨top.2,(highest_foremost queues found).2.2,rfl⟩

theorem boot_linked (c : Config) : Linked c.boot.rtTick c.idle c.boot := by
  obtain ⟨i,_,start⟩ := boot_starts c
  rw [start]
  refine startWith_linked (made_queues c) ?_ ?_ rfl fun _ => rfl
  · intro j
    rw [made_stat]
    split <;> exact nofun
  · rw [made_stat,if_pos (.inl rfl)]

theorem boot_priority (c : Config) (i : Nat) : (c.boot.thread i).currentPriority = c.priority i := by
  obtain ⟨first,_,start⟩ := boot_starts c
  rw [start,thread_startWith]
  split <;> exact made_priority c i

-- From the start of the scheduler on, and from any state a run has reached.
theorem along_linked (linked : Linked k.rtTick idle k) (path : Along step (Safe idle) k events) :
    Linked (run step k events).rtTick idle (run step k events) := by
  induction events generalizing k with
  | nil => exact linked
  | cons e rest ih => exact ih (step_linked linked path.1) path.2

namespace State

theorem expire_lock (linked : Linked now idle k) (suspended : (k.thread i).stat = .suspend) :
    (k.expire i).rtSchedulerLockNest = k.rtSchedulerLockNest := (expire_expired linked suspended).lock

theorem checkTimers_settled (turns : Nat) (linked : Linked now idle k) (unlocked : k.rtSchedulerLockNest = 0)
    (settled : k.Settled) : (checkTimers turns k).Settled := by
  induction turns generalizing k with
  | zero => exact settled
  | succ turns ih =>
    unfold checkTimers
    split
    · exact settled
    · next i rest head =>
      split
      · have suspended := linked.sleeping i (head ▸ List.mem_cons_self)
        have still := (expire_lock linked suspended).trans unlocked
        exact ih (expire_linked linked suspended) still (expire_settled linked suspended unlocked)
      · exact settled

-- The first timer that expires asks for a new thread.
theorem timerCheck_settles (linked : Linked now idle k) (tick : k.rtTick = now+1) (unlocked : k.rtSchedulerLockNest = 0)
    (some : k.expiring now ≠ []) : k.rtTimerCheck.Settled := by
  unfold rtTimerCheck
  cases head : k.rtTimerList with
  | nil => exact absurd (by rw [expiring,head,List.filter_nil]) some
  | cons i rest =>
    have member : i ∈ k.rtTimerList := head ▸ List.mem_cons_self
    have suspended := linked.sleeping i member
    rw [List.length_cons,checkTimers,head]
    dsimp only
    split
    · have still := (expire_lock linked suspended).trans unlocked
      exact checkTimers_settled _ (expire_linked linked suspended) still (expire_settled linked suspended unlocked)
    · next late => exact absurd (expiring_late linked tick head late) some

theorem spendSlice_settled (linked : Linked now idle k) (unlocked : k.rtSchedulerLockNest = 0) (settled : k.Settled) :
    k.spendSlice.Settled := by
  unfold spendSlice
  dsimp only
  split
  · refine schedule_settled (modify_linked (modify_linked linked (fun _ => rfl) (fun _ => rfl) fun _ _ => rfl) (fun _ => rfl)
      (fun _ => rfl) fun _ _ => rfl) unlocked
  · exact modify_settled settled (fun _ => rfl) fun _ => rfl

theorem tick_settles (linked : Linked k.rtTick idle k) (unlocked : k.rtSchedulerLockNest = 0) (some : k.expiring k.rtTick ≠ []) :
    k.rtTickIncrease.Settled := by
  obtain ⟨sliced,same⟩ := spendSlice_spec (later_linked linked (k.rtTick+1))
  rw [tickIncrease_parts]
  refine timerCheck_settles sliced same.tick (same.lock.trans unlocked) ?_
  rw [expiring_dispatched same]
  exact some

theorem tick_settled (linked : Linked k.rtTick idle k) (unlocked : k.rtSchedulerLockNest = 0) (settled : k.Settled) :
    k.rtTickIncrease.Settled := by
  have later := later_linked linked (k.rtTick+1)
  obtain ⟨sliced,same⟩ := spendSlice_spec later
  exact checkTimers_settled _ sliced (same.lock.trans unlocked) (spendSlice_settled later unlocked settled)

theorem tick_lock (linked : Linked k.rtTick idle k) : k.rtTickIncrease.rtSchedulerLockNest = k.rtSchedulerLockNest :=
  (tick_spec linked).2.lock

end State

theorem ticks_lock (linked : Linked k.rtTick idle k) (ticks : ∀ e ∈ events, e = .tick) :
    (run step k events).rtSchedulerLockNest = k.rtSchedulerLockNest := by
  induction events generalizing k with
  | nil => rfl
  | cons e rest ih =>
    obtain rfl := ticks e List.mem_cons_self
    exact (ih (tick_linked linked) fun e member => ticks e (List.mem_cons_of_mem _ member)).trans (tick_lock linked)

theorem ticks_settled (linked : Linked k.rtTick idle k) (unlocked : k.rtSchedulerLockNest = 0) (settled : k.Settled)
    (ticks : ∀ e ∈ events, e = .tick) : (run step k events).Settled := by
  induction events generalizing k with
  | nil => exact settled
  | cons e rest ih =>
    obtain rfl := ticks e List.mem_cons_self
    exact ih (tick_linked linked) ((tick_lock linked).trans unlocked) (tick_settled linked unlocked settled)
      fun e member => ticks e (List.mem_cons_of_mem _ member)

end Kernel
