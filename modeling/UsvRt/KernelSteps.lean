import UsvRt.KernelLists

-- Each operation of the kernel keeps its lists linked, whatever interrupts come between.
namespace Kernel

theorem timed_short {time : Int32} (positive : time > 0) (short : time ≠ Int32.maxValue) : time.toUInt32 < rtTickMax/2 := by
  have sign : (0 : Int32).toInt < time.toInt := Int32.lt_iff_toInt_lt.mp positive
  have limit : time.toInt ≠ Int32.maxValue.toInt := fun same => short (Int32.toInt_inj.mp same)
  have word : time.toInt = if 2*time.toUInt32.toNat < 2^32 then (time.toUInt32.toNat : Int) else time.toUInt32.toNat-(2^32 : Nat) :=
    BitVec.toInt_eq_toNat_cond time.toBitVec
  have bound := time.toUInt32.toNat_lt
  rw [UInt32.lt_iff_toNat_lt]
  show time.toUInt32.toNat < 2147483647
  rw [show (0 : Int32).toInt = 0 from rfl] at sign
  rw [show Int32.maxValue.toInt = 2147483647 from rfl] at limit
  split at word <;> omega

namespace State

-- A suspended thread that waits for nothing.
structure Free (k : State) (i : Nat) : Prop where
  suspended : (k.thread i).stat = .suspend
  alone : ∀ s, i ∉ k.suspendThread s
  untimed : i ∉ k.rtTimerList

theorem Processor.of_same (processor : Processor idle k) (stat : ∀ i, (k'.thread i).stat = (k.thread i).stat)
    (current : k'.rtCurrentThread = k.rtCurrentThread) : Processor idle k' := by
  refine ⟨?_,?_,?_⟩
  · intro i running
    rw [stat] at running
    rw [current]
    exact processor.running i running
  · rw [current,stat]
    exact processor.current
  · rw [Thread.Awake,stat]
    exact processor.awake

theorem Linked.not_idle (linked : Linked now idle k) (suspended : (k.thread i).stat = .suspend) : i ≠ idle := by
  rintro rfl
  exact linked.awake.not_suspended suspended

-- A change to a thread's slice, error or timer, where the timer is not running.
theorem modify_linked (linked : Linked now idle k) (stat : ∀ t, (change t).stat = t.stat)
    (priority : ∀ t, (change t).currentPriority = t.currentPriority)
    (timer : i ∈ k.rtTimerList → ∀ t, (change t).timer = t.timer) : Linked now idle (k.modify i change) := by
  have same : ∀ j, ((k.modify i change).thread j).stat = (k.thread j).stat := by
    intro j
    rw [thread_modify]
    split
    · exact stat _
    · rfl
  refine ⟨?_,?_,?_,linked.toProcessor.of_same same rfl⟩
  · refine linked.toQueues.of_same rfl rfl (fun j => by rw [same]) ?_
    intro j
    rw [thread_modify]
    split
    · exact priority _
    · rfl
  · refine linked.toWaits.of_sublist (fun _ => .refl _) rfl ?_
    intro s j member
    rw [same]
    exact linked.waiting s j member
  · refine linked.toTimers.of_sublist (.refl _) ?_ ?_
    · intro j member
      rw [thread_modify]
      split
      · next self => exact timer (self ▸ member) _
      · rfl
    · intro j member
      rw [same]
      exact linked.sleeping j member

theorem listRemove_linked (linked : Linked now idle k) (suspended : (k.thread i).stat = .suspend) :
    Linked now idle (k.listRemove i) := by
  have table : (k.listRemove i).rtThreadPriorityTable = k.rtThreadPriorityTable := by
    funext p
    apply List.erase_of_not_mem
    intro member
    exact nomatch suspended.symm.trans ((linked.ready i p).mp member).1
  refine ⟨?_,?_,?_,linked.toProcessor.of_same (fun _ => rfl) rfl⟩
  · exact linked.toQueues.of_same table rfl (fun _ => .rfl) (fun _ => rfl)
  · refine linked.toWaits.of_sublist (fun _ => List.erase_sublist) rfl ?_
    exact fun s j member => linked.waiting s j (List.mem_of_mem_erase member)
  · exact linked.toTimers.of_sublist (.refl _) (fun _ _ => rfl) linked.sleeping

theorem listRemove_alone (linked : Linked now idle k) (i s : Nat) : i ∉ (k.listRemove i).suspendThread s :=
  fun member => ((linked.queued s).mem_erase_iff.mp member).1 rfl

theorem unlist_linked (linked : Linked now idle k) (i : Nat) :
    Linked now idle {k with rtTimerList:=k.rtTimerList.erase i} := by
  refine ⟨?_,?_,?_,linked.toProcessor.of_same (fun _ => rfl) rfl⟩
  · exact linked.toQueues.of_same rfl rfl (fun _ => .rfl) (fun _ => rfl)
  · exact linked.toWaits.of_sublist (fun _ => .refl _) rfl linked.waiting
  · refine linked.toTimers.of_sublist List.erase_sublist (fun _ _ => rfl) ?_
    exact fun j member => linked.sleeping j (List.mem_of_mem_erase member)

theorem unlisted (linked : Linked now idle k) (i : Nat) : i ∉ k.rtTimerList.erase i :=
  fun member => (linked.listed.mem_erase_iff.mp member).1 rfl

theorem thread_timerStop (k : State) (i j : Nat) :
    (k.rtTimerStop i).thread j =
      if j = i then {k.thread j with timer:={(k.thread j).timer with activated:=false}} else k.thread j := by
  unfold rtTimerStop
  split
  · exact thread_modify _ _ _ _
  · next off =>
    split
    · next same =>
      subst same
      rw [← Bool.eq_false_iff.mpr off]
    · rfl

theorem timerStop_timerList (linked : Linked now idle k) (i : Nat) :
    (k.rtTimerStop i).rtTimerList = k.rtTimerList.erase i := by
  unfold rtTimerStop
  split
  · rfl
  · next off => rw [List.erase_of_not_mem fun member => off (linked.activated i member)]

section TimerStop
variable (k : State) (i : Nat)

@[simp] theorem timerStop_suspendThread : (k.rtTimerStop i).suspendThread = k.suspendThread := by
  unfold rtTimerStop; split <;> rfl
@[simp] theorem timerStop_current : (k.rtTimerStop i).rtCurrentThread = k.rtCurrentThread := by
  unfold rtTimerStop; split <;> rfl
@[simp] theorem timerStop_value : (k.rtTimerStop i).value = k.value := by
  unfold rtTimerStop; split <;> rfl
@[simp] theorem timerStop_tick : (k.rtTimerStop i).rtTick = k.rtTick := by
  unfold rtTimerStop; split <;> rfl

end TimerStop

theorem timerStop_linked (linked : Linked now idle k) (i : Nat) : Linked now idle (k.rtTimerStop i) := by
  unfold rtTimerStop
  split
  · exact modify_linked (unlist_linked linked i) (fun _ => rfl) (fun _ => rfl) fun member => absurd member (unlisted linked i)
  · exact linked

theorem insert_linked (linked : Linked now idle k) (free : k.Free i) : Linked now idle (k.rtScheduleInsertThread i) := by
  have other := linked.not_idle free.suspended
  unfold rtScheduleInsertThread
  split
  · next self =>
    have stat : ∀ j, j ≠ i → ((k.setStat i .running).thread j).stat = (k.thread j).stat := by
      intro j apart
      rw [thread_setStat,if_neg apart]
    refine ⟨?_,?_,?_,?_,?_,?_⟩
    · refine linked.toQueues.of_same rfl rfl ?_ ?_
      · intro j
        rw [thread_setStat]
        split
        · next same => simp [same,free.suspended]
        · rfl
      · intro j
        rw [thread_setStat]
        split <;> rfl
    · refine linked.toWaits.of_sublist (fun _ => .refl _) rfl ?_
      intro s j member
      rw [stat j fun same => free.alone s (same ▸ member)]
      exact linked.waiting s j member
    · refine linked.toTimers.of_sublist (.refl _) ?_ ?_
      · intro j _
        rw [thread_setStat]
        split <;> rfl
      · intro j member
        rw [stat j fun same => free.untimed (same ▸ member)]
        exact linked.sleeping j member
    · intro j running
      by_cases same : j = i
      · exact same.trans self
      · rw [stat j same] at running
        exact linked.running j running
    · rw [setStat_current,← self,thread_setStat,if_pos rfl]
      exact Stat.running_out
    · rw [Thread.Awake,stat idle (Ne.symm other)]
      exact linked.awake
  · next apart =>
    have stat : ∀ j, j ≠ i → ((k.readyInsert i).thread j).stat = (k.thread j).stat := by
      intro j apart
      rw [thread_readyInsert,if_neg apart]
    refine ⟨?_,?_,?_,?_,?_,?_⟩
    · refine queues_insert linked.toQueues ?_
      rw [free.suspended]
      decide
    · refine linked.toWaits.of_sublist (fun _ => .refl _) rfl ?_
      intro s j member
      rw [stat j fun same => free.alone s (same ▸ member)]
      exact linked.waiting s j member
    · refine linked.toTimers.of_sublist (.refl _) ?_ ?_
      · intro j _
        rw [thread_readyInsert]
        split <;> rfl
      · intro j member
        rw [stat j fun same => free.untimed (same ▸ member)]
        exact linked.sleeping j member
    · intro j running
      by_cases same : j = i
      · rw [same,thread_readyInsert,if_pos rfl] at running
        contradiction
      · rw [stat j same] at running
        exact linked.running j running
    · rw [readyInsert_current,stat _ (Ne.symm apart)]
      exact linked.current
    · rw [Thread.Awake,stat idle (Ne.symm other)]
      exact linked.awake

theorem suspend_self {k : State} (working : k.Working) :
    k.rtThreadSuspend k.rtCurrentThread =
      ((k.rtScheduleRemoveThread k.rtCurrentThread).setStat k.rtCurrentThread .suspend).rtTimerStop k.rtCurrentThread := by
  have running : (k.thread k.rtCurrentThread).stat = .running := working
  simp [rtThreadSuspend,running]

theorem Linked.running_unlisted (linked : Linked now idle k) (working : k.Working) :
    (∀ s, k.rtCurrentThread ∉ k.suspendThread s) ∧ k.rtCurrentThread ∉ k.rtTimerList :=
  ⟨fun s member => (nomatch working.symm.trans (linked.waiting s _ member)),
    fun member => (nomatch working.symm.trans (linked.sleeping _ member))⟩

-- The running thread stops, to wait or for good.
theorem leave_linked (linked : Linked now idle k) (working : k.Working) (other : k.rtCurrentThread ≠ idle)
    (stops : stat = .suspend ∨ stat = .close) :
    Linked now idle ((k.rtScheduleRemoveThread k.rtCurrentThread).setStat k.rtCurrentThread stat) := by
  have out : stat ≠ .ready ∧ stat ≠ .init ∧ stat ≠ .running := by
    cases stops with
    | inl waits => subst waits; decide
    | inr ends => subst ends; decide
  obtain ⟨alone,untimed⟩ := linked.running_unlisted working
  have others : ∀ i ≠ k.rtCurrentThread,
      ((k.rtScheduleRemoveThread k.rtCurrentThread).setStat k.rtCurrentThread stat).thread i = k.thread i := by
    intro i apart
    rw [thread_setStat,remove_thread,if_neg apart]
  have own : (((k.rtScheduleRemoveThread k.rtCurrentThread).setStat k.rtCurrentThread stat).thread k.rtCurrentThread).stat = stat := by
    rw [thread_setStat,if_pos rfl]
  refine ⟨queues_remove linked.toQueues out.1,?_,?_,?_,?_,?_⟩
  · refine linked.toWaits.of_sublist (fun s => ?_) (by simp) fun s i member => ?_
    · rw [setStat_suspendThread,remove_suspendThread]
      exact List.erase_sublist
    · rw [setStat_suspendThread,remove_suspendThread] at member
      have waiting := List.mem_of_mem_erase member
      rw [others i fun same => alone s (same ▸ waiting)]
      exact linked.waiting s i waiting
  · have apart : ∀ i ∈ k.rtTimerList, i ≠ k.rtCurrentThread := fun i member same => untimed (same ▸ member)
    refine linked.toTimers.of_sublist (by simp) (fun i member => ?_) fun i member => ?_
    · rw [setStat_timerList,remove_timerList] at member
      rw [others i (apart i member)]
    · rw [setStat_timerList,remove_timerList] at member
      rw [others i (apart i member)]
      exact linked.sleeping i member
  · intro i running
    by_cases same : i = k.rtCurrentThread
    · rw [same,own] at running
      exact absurd running out.2.2
    · rw [others i same] at running
      exact absurd (linked.running i running) same
  · rw [setStat_current,remove_current,own]
    exact ⟨out.1,out.2.1⟩
  · rw [others idle (Ne.symm other)]
    exact linked.awake

theorem suspend_linked (linked : Linked now idle k) (working : k.Working) (other : k.rtCurrentThread ≠ idle) :
    Linked now idle (k.rtThreadSuspend k.rtCurrentThread) := by
  rw [suspend_self working]
  exact timerStop_linked (leave_linked linked working other (.inl rfl)) _

theorem exit_linked (linked : Linked now idle k) (working : k.Working) (other : k.rtCurrentThread ≠ idle) :
    Linked now idle k.rtThreadExit :=
  schedule_linked (timerStop_linked (leave_linked linked working other (.inr rfl)) _)

theorem suspend_suspendThread (linked : Linked now idle k) (working : k.Working) :
    (k.rtThreadSuspend k.rtCurrentThread).suspendThread = k.suspendThread := by
  rw [suspend_self working,timerStop_suspendThread]
  funext s
  rw [setStat_suspendThread,remove_suspendThread]
  exact List.erase_of_not_mem fun member => nomatch working.symm.trans (linked.waiting s _ member)

theorem suspend_timerList (linked : Linked now idle k) (working : k.Working) :
    (k.rtThreadSuspend k.rtCurrentThread).rtTimerList = k.rtTimerList := by
  have out : k.rtCurrentThread ∉ k.rtTimerList := fun member => nomatch working.symm.trans (linked.sleeping _ member)
  rw [suspend_self working]
  unfold rtTimerStop
  split
  · show (rtTimerList _).erase _ = _
    rw [setStat_timerList,remove_timerList,List.erase_of_not_mem out]
  · simp

theorem thread_suspend {k : State} (working : k.Working) (j : Nat) :
    (k.rtThreadSuspend k.rtCurrentThread).thread j =
      if j = k.rtCurrentThread then
        {k.thread j with stat:=.suspend,timer:={(k.thread j).timer with activated:=false}}
      else k.thread j := by
  rw [suspend_self working,thread_timerStop,thread_setStat,remove_thread]
  split <;> rfl

@[simp] theorem suspend_current (k : State) (i : Nat) : (k.rtThreadSuspend i).rtCurrentThread = k.rtCurrentThread := by
  unfold rtThreadSuspend; split <;> simp
@[simp] theorem suspend_value (k : State) (i : Nat) : (k.rtThreadSuspend i).value = k.value := by
  unfold rtThreadSuspend; split <;> simp
@[simp] theorem suspend_tick (k : State) (i : Nat) : (k.rtThreadSuspend i).rtTick = k.rtTick := by
  unfold rtThreadSuspend; split <;> simp

theorem suspend_free (linked : Linked now idle k) (working : k.Working) :
    (k.rtThreadSuspend k.rtCurrentThread).Free k.rtCurrentThread := by
  refine ⟨?_,?_,?_⟩
  · rw [thread_suspend working,if_pos rfl]
  · intro s
    rw [suspend_suspendThread linked working]
    exact fun member => nomatch working.symm.trans (linked.waiting s _ member)
  · rw [suspend_timerList linked working]
    exact fun member => nomatch working.symm.trans (linked.sleeping _ member)

theorem insertTimer_place (thread : Nat → Thread) (timeoutTick : UInt32) (i : Nat) (list : List Nat) :
    insertTimer thread timeoutTick i list =
      Deadlines.place (fun j => (thread j).timer.timeoutTick-timeoutTick ≠ 0 ∧
        (thread j).timer.timeoutTick-timeoutTick < rtTickMax/2) i list := by
  induction list with
  | nil => rfl
  | cons j rest ih =>
    unfold insertTimer Deadlines.place
    by_cases same : (thread j).timer.timeoutTick-timeoutTick = 0
    · simp [same,ih]
    · by_cases later : (thread j).timer.timeoutTick-timeoutTick < rtTickMax/2 <;> simp [same,later,ih]

theorem thread_timerStart (k : State) (i j : Nat) :
    (k.rtTimerStart i).thread j =
      if j = i then
        {k.thread j with timer:={(k.thread j).timer with
          timeoutTick:=k.rtTick+(k.thread j).timer.initTick,activated:=true}}
      else k.thread j := by
  unfold rtTimerStart
  dsimp only
  rw [thread_modify]
  split
  · next same => rw [same]
  · rfl

theorem mem_timerStart (linked : Linked now idle k) (i j : Nat) :
    j ∈ (k.rtTimerStart i).rtTimerList ↔ j = i ∨ j ∈ k.rtTimerList := by
  show j ∈ insertTimer _ _ _ _ ↔ _
  rw [insertTimer_place,Deadlines.mem_place,linked.listed.mem_erase_iff]
  by_cases same : j = i <;> simp [same]

theorem timerStart_linked (linked : Linked now idle k) (tick : k.rtTick = now) (suspended : (k.thread i).stat = .suspend)
    (short : (k.thread i).timer.initTick < rtTickMax/2) : Linked now idle (k.rtTimerStart i) := by
  have stat : ∀ j, ((k.rtTimerStart i).thread j).stat = (k.thread j).stat := by
    intro j
    rw [thread_timerStart]
    split <;> rfl
  have own : (k.rtTimerStart i).left now i = (k.thread i).timer.initTick.toNat := by
    rw [left,thread_timerStart,if_pos rfl,tick]
    exact Deadlines.left_start _
  have others : ∀ j ≠ i, (k.rtTimerStart i).left now j = k.left now j := by
    intro j apart
    rw [left,thread_timerStart,if_neg apart,left]
  have bound : (k.rtTimerStart i).left now i < Deadlines.half.toNat := own ▸ UInt32.lt_iff_toNat_lt.mp short
  have sub : Linked now idle {k with rtTimerList:=k.rtTimerList.erase i} := unlist_linked linked i
  refine ⟨?_,?_,?_,linked.toProcessor.of_same stat rfl⟩
  · refine linked.toQueues.of_same rfl rfl (fun j => by rw [stat]) ?_
    intro j
    rw [thread_timerStart]
    split <;> rfl
  · refine linked.toWaits.of_sublist (fun _ => .refl _) rfl ?_
    intro s j member
    rw [stat]
    exact linked.waiting s j member
  · refine ⟨?_,?_,?_,?_,?_⟩
    · intro j member
      rw [stat]
      cases (mem_timerStart linked i j).mp member with
      | inl same => exact same ▸ suspended
      | inr old => exact linked.sleeping j old
    · intro j member
      rw [thread_timerStart]
      split
      · rfl
      · next apart =>
        cases (mem_timerStart linked i j).mp member with
        | inl same => exact absurd same apart
        | inr old => exact linked.activated j old
    · show (insertTimer _ _ _ _).Nodup
      rw [insertTimer_place]
      exact Deadlines.place_nodup _ (unlisted linked i) (linked.listed.erase i)
    · show (insertTimer _ _ _ _).Pairwise _
      rw [insertTimer_place]
      apply Deadlines.place_ordered
      · intro j member
        have apart : j ≠ i := fun same => unlisted linked i (same ▸ member)
        have soon := (others j apart).symm ▸ linked.soon j (List.mem_of_mem_erase member)
        have old : ((k.rtTimerStart i).thread j).timer = (k.thread j).timer := by rw [thread_timerStart,if_neg apart]
        have new : ((k.rtTimerStart i).thread i).timer.timeoutTick = k.rtTick+(k.thread i).timer.initTick := by
          rw [thread_timerStart,if_pos rfl]
        have later := Deadlines.later_exact bound soon
        rw [old,new] at later
        rw [left,left,old,new]
        exact later
      · refine sub.ordered.imp_of_mem ?_
        intro j j' first second order
        rw [others j fun same => unlisted linked i (same ▸ first),others j' fun same => unlisted linked i (same ▸ second)]
        exact order
    · intro j member
      by_cases same : j = i
      · exact same ▸ bound
      · rw [others j same]
        exact linked.soon j (((mem_timerStart linked i j).mp member).resolve_left same)

theorem unlink_linked (linked : Linked now idle k) (suspended : (k.thread i).stat = .suspend) : Linked now idle (k.unlink i) :=
  timerStop_linked (listRemove_linked linked suspended) i

theorem unlink_free (linked : Linked now idle k) (suspended : (k.thread i).stat = .suspend) : (k.unlink i).Free i := by
  have removed := listRemove_linked linked suspended
  unfold unlink
  refine ⟨?_,?_,?_⟩
  · rw [thread_timerStop,if_pos rfl]
    exact suspended
  · intro s
    rw [timerStop_suspendThread]
    exact listRemove_alone linked i s
  · rw [timerStop_timerList removed]
    exact unlisted linked i

theorem resume_linked (linked : Linked now idle k) (i : Nat) : Linked now idle (k.rtThreadResume i) := by
  unfold rtThreadResume
  split
  · exact linked
  · next suspended =>
    rw [ne_eq,not_not] at suspended
    exact insert_linked (unlink_linked linked suspended) (unlink_free linked suspended)

@[simp] theorem insert_tick (k : State) (i : Nat) : (k.rtScheduleInsertThread i).rtTick = k.rtTick := by
  unfold rtScheduleInsertThread; split <;> rfl
@[simp] theorem insert_lock (k : State) (i : Nat) :
    (k.rtScheduleInsertThread i).rtSchedulerLockNest = k.rtSchedulerLockNest := by
  unfold rtScheduleInsertThread; split <;> rfl
@[simp] theorem insert_timerList (k : State) (i : Nat) : (k.rtScheduleInsertThread i).rtTimerList = k.rtTimerList := by
  unfold rtScheduleInsertThread; split <;> rfl
@[simp] theorem insert_suspendThread (k : State) (i : Nat) :
    (k.rtScheduleInsertThread i).suspendThread = k.suspendThread := by
  unfold rtScheduleInsertThread; split <;> rfl
@[simp] theorem insert_value (k : State) (i : Nat) : (k.rtScheduleInsertThread i).value = k.value := by
  unfold rtScheduleInsertThread; split <;> rfl
@[simp] theorem insert_current (k : State) (i : Nat) : (k.rtScheduleInsertThread i).rtCurrentThread = k.rtCurrentThread := by
  unfold rtScheduleInsertThread; split <;> rfl

theorem thread_insert (k : State) (i j : Nat) :
    (k.rtScheduleInsertThread i).thread j =
      if j = i then {k.thread j with stat:=if i = k.rtCurrentThread then .running else .ready} else k.thread j := by
  unfold rtScheduleInsertThread
  split
  · exact thread_setStat _ _ _ _
  · exact thread_readyInsert _ _ _

-- Setting and starting the timer of a suspended thread.
theorem arm_linked (linked : Linked k.rtTick idle k) (suspended : (k.thread i).stat = .suspend) (untimed : i ∉ k.rtTimerList)
    (short : tick < rtTickMax/2) : Linked k.rtTick idle ((k.rtTimerControl i tick).rtTimerStart i) := by
  apply timerStart_linked
  · exact modify_linked linked (fun _ => rfl) (fun _ => rfl) fun member => absurd member untimed
  · rfl
  · rw [rtTimerControl,thread_modify,if_pos rfl]
    exact suspended
  · rw [rtTimerControl,thread_modify,if_pos rfl]
    exact short

theorem fallAsleep_linked (linked : Linked k.rtTick idle k) (working : k.Working) (other : k.rtCurrentThread ≠ idle)
    (short : tick < rtTickMax/2) : Linked k.rtTick idle (k.fallAsleep tick) := by
  have free := suspend_free linked working
  have asleep := suspend_linked linked working other
  rw [← suspend_tick k k.rtCurrentThread] at asleep ⊢
  exact arm_linked asleep free.suspended free.untimed short

theorem enqueue_linked (linked : Linked now idle k) (free : k.Free i) (none : k.value sem = 0) :
    Linked now idle {k with suspendThread:=Function.update k.suspendThread sem (k.suspendThread sem++[i])} := by
  have member : ∀ s j, j ∈ Function.update k.suspendThread sem (k.suspendThread sem++[i]) s ↔
      j ∈ k.suspendThread s ∨ j = i ∧ s = sem := by
    intro s j
    by_cases same : s = sem
    · subst same
      simp
    · simp [same]
  refine ⟨?_,⟨?_,?_,?_,?_⟩,?_,linked.toProcessor.of_same (fun _ => rfl) rfl⟩
  · exact linked.toQueues.of_same rfl rfl (fun _ => .rfl) (fun _ => rfl)
  · intro s j queued
    cases (member s j).mp queued with
    | inl old => exact linked.waiting s j old
    | inr new => exact new.1 ▸ free.suspended
  · intro s
    by_cases same : s = sem
    · subst same
      simpa using nodup_snoc (linked.queued s) (free.alone s)
    · simpa [same] using linked.queued s
  · intro s s' j first second
    cases (member s j).mp first with
    | inl old =>
      cases (member s' j).mp second with
      | inl old' => exact linked.once s s' j old old'
      | inr new' => exact absurd (new'.1 ▸ old) (free.alone s)
    | inr new =>
      cases (member s' j).mp second with
      | inl old' => exact absurd (new.1 ▸ old') (free.alone s')
      | inr new' => exact new.2.trans new'.2.symm
  · intro s some
    by_cases same : s = sem
    · exact absurd (same ▸ none) some
    · simpa [same] using linked.spent s some
  · exact linked.toTimers.of_sublist (.refl _) (fun _ _ => rfl) linked.sleeping

theorem clearError_linked (linked : Linked now idle k) (i : Nat) (error : Int) :
    Linked now idle (k.modify i fun t => {t with error:=error}) :=
  modify_linked linked (fun _ => rfl) (fun _ => rfl) fun _ _ => rfl

theorem ipcListSuspend_linked (linked : Linked now idle k) (working : k.Working) (other : k.rtCurrentThread ≠ idle)
    (none : k.value sem = 0) : Linked now idle (k.rtIpcListSuspend sem k.rtCurrentThread) := by
  refine enqueue_linked (suspend_linked linked working other) (suspend_free linked working) ?_
  rw [suspend_value]
  exact none

theorem clearError_working {k : State} (working : k.Working) (error : Int) :
    (k.modify k.rtCurrentThread fun t => {t with error:=error}).Working := by
  rw [Working,modify_current,thread_modify,if_pos rfl]
  exact working

theorem waitFor_linked (linked : Linked k.rtTick idle k) (working : k.Working) (other : k.rtCurrentThread ≠ idle)
    (none : k.value sem = 0) (short : time ≠ Int32.maxValue) : Linked k.rtTick idle (k.waitFor sem time) := by
  have cleared := clearError_linked linked k.rtCurrentThread 0
  have still := clearError_working working 0
  have free := suspend_free cleared still
  have queued := ipcListSuspend_linked cleared still other none
  unfold waitFor
  dsimp only
  split
  · next positive =>
    have tick : ((k.modify k.rtCurrentThread fun t => {t with error:=0}).rtIpcListSuspend sem k.rtCurrentThread).rtTick = k.rtTick :=
      suspend_tick _ _
    rw [← tick] at queued ⊢
    exact arm_linked queued free.suspended free.untimed (timed_short positive short)
  · exact queued

theorem value_linked (linked : Linked now idle k) (value : UInt16) (safe : value ≠ 0 → k.suspendThread sem = []) :
    Linked now idle {k with value:=Function.update k.value sem value} := by
  refine ⟨?_,⟨linked.waiting,linked.queued,linked.once,?_⟩,?_,linked.toProcessor.of_same (fun _ => rfl) rfl⟩
  · exact linked.toQueues.of_same rfl rfl (fun _ => .rfl) (fun _ => rfl)
  · intro s some
    by_cases same : s = sem
    · subst same
      exact safe (by simpa using some)
    · exact linked.spent s (by simpa [same] using some)
  · exact linked.toTimers.of_sublist (.refl _) (fun _ _ => rfl) linked.sleeping

theorem takeOrWait_linked (linked : Linked k.rtTick idle k) (working : k.Working) (other : k.rtCurrentThread ≠ idle)
    (short : time ≠ Int32.maxValue) : Linked k.rtTick idle (k.takeOrWait sem time) := by
  unfold takeOrWait
  split
  · next some =>
    refine value_linked linked _ fun _ => linked.spent sem fun zero => ?_
    rw [zero] at some
    contradiction
  · next none =>
    split
    · exact linked
    · exact waitFor_linked linked working other (Nat.eq_zero_of_not_pos none |> UInt16.toNat_inj.mp) short

theorem giveOrWake_linked (linked : Linked now idle k) (sem : Nat) : Linked now idle (k.giveOrWake sem) := by
  unfold giveOrWake
  split
  · next nobody => exact value_linked linked _ fun _ => nobody
  · exact resume_linked linked _

-- A thread that is not started yet stands on no list.
theorem prepare_linked (linked : Linked now idle k) (init : (k.thread i).stat = .init) : Linked now idle (k.prepare i) := by
  have others : ∀ j, (k.thread j).stat ≠ .init → (k.prepare i).thread j = k.thread j := by
    intro j apart
    rw [prepare,thread_modify,if_neg]
    rintro rfl
    exact apart init
  refine ⟨?_,?_,?_,?_,?_,?_⟩
  · refine linked.toQueues.of_same rfl rfl ?_ ?_
    · intro j
      rw [prepare,thread_modify]
      split
      · next same => simp [same,init]
      · rfl
    · intro j
      rw [prepare,thread_modify]
      split <;> rfl
  · refine linked.toWaits.of_sublist (fun _ => .refl _) rfl ?_
    intro s j member
    have suspended := linked.waiting s j member
    rw [others j fun new => (Thread.not_started new).1 suspended]
    exact suspended
  · refine linked.toTimers.of_sublist (.refl _) ?_ ?_
    · intro j member
      rw [others j fun new => (Thread.not_started new).1 (linked.sleeping j member)]
    · intro j member
      rw [others j fun new => (Thread.not_started new).1 (linked.sleeping j member)]
      exact linked.sleeping j member
  · intro j running
    rw [prepare,thread_modify] at running
    split at running
    · contradiction
    · exact linked.running j running
  · rw [show (k.prepare i).rtCurrentThread = k.rtCurrentThread from rfl,others _ linked.current.2]
    exact linked.current
  · rw [others idle fun new => (Thread.not_started new).2 linked.awake]
    exact linked.awake

theorem prepare_free (linked : Linked now idle k) (init : (k.thread i).stat = .init) : (k.prepare i).Free i := by
  have apart := (Thread.not_started init).1
  refine ⟨?_,fun s member => apart (linked.waiting s i member),fun member => apart (linked.sleeping i member)⟩
  rw [prepare,thread_modify,if_pos rfl]

theorem critical_linked (linked : Linked now idle k) (nest : Int16) :
    Linked now idle {k with rtSchedulerLockNest:=nest} :=
  ⟨⟨linked.ready,linked.distinct,linked.group⟩,⟨linked.waiting,linked.queued,linked.once,linked.spent⟩,
    ⟨linked.sleeping,linked.activated,linked.listed,linked.ordered,linked.soon⟩,
    ⟨linked.running,linked.current,linked.awake⟩⟩

-- What an expired timer does before it asks for a new thread.
def wake (k : State) (i : Nat) : State :=
  ((({k with rtTimerList:=k.rtTimerList.erase i}).modify i fun t => {t with error:=eTimeout}).listRemove i).rtScheduleInsertThread i

theorem wake_linked (linked : Linked now idle k) (suspended : (k.thread i).stat = .suspend) :
    Linked now idle (k.wake i) := by
  have marked := clearError_linked (unlist_linked linked i) i eTimeout
  have still : ((({k with rtTimerList:=k.rtTimerList.erase i} : State).modify i fun t => {t with error:=eTimeout}).thread i).stat
      = .suspend := by
    rw [thread_modify,if_pos rfl]
    exact suspended
  exact insert_linked (listRemove_linked marked still) ⟨still,listRemove_alone marked i,unlisted linked i⟩

theorem expire_wake (k : State) (i : Nat) :
    k.expire i = (k.wake i).rtSchedule.modify i fun t => {t with timer:={t.timer with activated:=false}} := rfl

theorem wake_timerList (k : State) (i : Nat) : (k.wake i).rtTimerList = k.rtTimerList.erase i := insert_timerList _ _
theorem wake_lock (k : State) (i : Nat) : (k.wake i).rtSchedulerLockNest = k.rtSchedulerLockNest := insert_lock _ _
theorem wake_tick (k : State) (i : Nat) : (k.wake i).rtTick = k.rtTick := insert_tick _ _

theorem expire_timerList (linked : Linked now idle k) (suspended : (k.thread i).stat = .suspend) :
    (k.expire i).rtTimerList = k.rtTimerList.erase i := by
  rw [expire_wake,modify_timerList,(schedule_dispatched (wake_linked linked suspended)).timerList,wake_timerList]

theorem expire_tick (linked : Linked now idle k) (suspended : (k.thread i).stat = .suspend) :
    (k.expire i).rtTick = k.rtTick := by
  rw [expire_wake,modify_tick,(schedule_dispatched (wake_linked linked suspended)).tick,wake_tick]

theorem expire_linked (linked : Linked now idle k) (suspended : (k.thread i).stat = .suspend) :
    Linked now idle (k.expire i) := by
  have woken := wake_linked linked suspended
  rw [expire_wake]
  refine modify_linked (schedule_linked woken) (fun _ => rfl) (fun _ => rfl) fun member => ?_
  rw [(schedule_dispatched woken).timerList,wake_timerList] at member
  exact absurd member (unlisted linked i)

end State
end Kernel
