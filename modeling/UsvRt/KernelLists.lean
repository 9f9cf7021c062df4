import UsvRt.Deadlines
import UsvRt.Kernel

-- The lists of the kernel and the fields of its threads tell one story: where each thread
-- stands. Every operation keeps them in agreement.
namespace Kernel

theorem numberMask_bit (p q : Fin 32) : (State.numberMask p).getLsbD q.val = decide (q = p) := by
  simp only [State.numberMask,BitVec.getLsbD_twoPow,Fin.ext_iff]
  grind

theorem group_set (group : BitVec 32) (p q : Fin 32) :
    (group ||| State.numberMask p).getLsbD q.val = true ↔ group.getLsbD q.val = true ∨ q = p := by
  simp only [BitVec.getLsbD_or,numberMask_bit,Bool.or_eq_true,decide_eq_true_eq]

theorem group_clear (group : BitVec 32) (p q : Fin 32) :
    (group &&& ~~~State.numberMask p).getLsbD q.val = true ↔ group.getLsbD q.val = true ∧ q ≠ p := by
  simp only [BitVec.getLsbD_and,BitVec.getLsbD_not,numberMask_bit,q.isLt,decide_true,Bool.true_and,Bool.and_eq_true,
    Bool.not_eq_true',decide_eq_false_iff_not,ne_eq]

theorem lowestBit_some (found : lowestBit group = some p) :
    group.getLsbD p.val = true ∧ ∀ q, group.getLsbD q.val = true → p ≤ q := by
  obtain ⟨bit,before,after,split,none⟩ := List.find?_eq_some_iff_append.mp found
  refine ⟨bit,fun q set => ?_⟩
  have sorted : (before++p::after).Pairwise (· < ·) := split ▸ List.pairwise_lt_finRange 32
  have member : q ∈ before++p::after := split ▸ List.mem_finRange q
  cases List.mem_append.mp member with
  | inl early =>
    have clear := none q early
    rw [set] at clear
    contradiction
  | inr late =>
    cases List.mem_cons.mp late with
    | inl same => exact same ▸ Fin.le_refl _
    | inr later => exact Fin.le_of_lt ((List.pairwise_cons.mp (List.pairwise_append.mp sorted).2.1).1 q later)

theorem lowestBit_none : lowestBit group = none ↔ ∀ q : Fin 32, group.getLsbD q.val = false := by
  simp [lowestBit,List.mem_finRange]

theorem nodup_snoc {queue : List Nat} (nodup : queue.Nodup) (fresh : i ∉ queue) : (queue++[i]).Nodup :=
  (List.perm_append_singleton i queue).nodup_iff.mpr (List.nodup_cons.mpr ⟨fresh,nodup⟩)

theorem Stat.running_out : Stat.running ≠ .ready ∧ Stat.running ≠ .init := by decide

def Thread.Awake (t : Thread) : Prop := t.stat = .ready ∨ t.stat = .running

-- One thread before and after others were given the processor, or it was.
structure Thread.Same (t t' : Thread) : Prop where
  priority : t'.currentPriority = t.currentPriority
  timer : t'.timer = t.timer
  error : t'.error = t.error
  stat : t'.stat = t.stat ∨ t.Awake ∧ t'.Awake

namespace Thread
variable {t t' t'' : Thread}

theorem Same.refl (t : Thread) : t.Same t := ⟨rfl,rfl,rfl,.inl rfl⟩

theorem Same.awake (same : Same t t') (awake : t.Awake) : t'.Awake := by
  cases same.stat with
  | inl equal => rwa [Awake,equal]
  | inr both => exact both.2

theorem Same.trans (first : Same t t') (second : Same t' t'') : Same t t'' := by
  refine ⟨second.priority.trans first.priority,second.timer.trans first.timer,second.error.trans first.error,?_⟩
  cases first.stat with
  | inl equal =>
    rw [← equal,Awake,← equal]
    exact second.stat
  | inr both => exact .inr ⟨both.1,second.awake both.2⟩

theorem Awake.not_suspended (awake : t.Awake) : t.stat ≠ .suspend := by
  cases awake with
  | inl ready => rw [ready]; exact nofun
  | inr running => rw [running]; exact nofun

theorem not_started (init : t.stat = .init) : t.stat ≠ .suspend ∧ ¬t.Awake := by
  rw [Awake,init]
  decide

theorem Same.suspended (same : Same t t') : t'.stat = .suspend ↔ t.stat = .suspend := by
  cases same.stat with
  | inl equal => rw [equal]
  | inr both => exact ⟨fun asleep => absurd asleep both.2.not_suspended,fun asleep => absurd asleep both.1.not_suspended⟩

end Thread

namespace State

@[simp] theorem thread_modify (k : State) (i j : Nat) (change : Thread → Thread) :
    (k.modify i change).thread j = if j = i then change (k.thread j) else k.thread j := by
  by_cases same : j = i
  · subst same
    simp [modify]
  · simp [modify,same]

section Modify
variable (k : State) (i : Nat) (change : Thread → Thread) (stat : Stat)

@[simp] theorem modify_table : (k.modify i change).rtThreadPriorityTable = k.rtThreadPriorityTable := rfl
@[simp] theorem modify_group : (k.modify i change).rtThreadReadyPriorityGroup = k.rtThreadReadyPriorityGroup := rfl
@[simp] theorem modify_current : (k.modify i change).rtCurrentThread = k.rtCurrentThread := rfl
@[simp] theorem modify_lock : (k.modify i change).rtSchedulerLockNest = k.rtSchedulerLockNest := rfl
@[simp] theorem modify_tick : (k.modify i change).rtTick = k.rtTick := rfl
@[simp] theorem modify_timerList : (k.modify i change).rtTimerList = k.rtTimerList := rfl
@[simp] theorem modify_value : (k.modify i change).value = k.value := rfl
@[simp] theorem modify_suspendThread : (k.modify i change).suspendThread = k.suspendThread := rfl
@[simp] theorem thread_setStat (j : Nat) :
    (k.setStat i stat).thread j = if j = i then {k.thread j with stat:=stat} else k.thread j := thread_modify _ _ _ _
@[simp] theorem setStat_table : (k.setStat i stat).rtThreadPriorityTable = k.rtThreadPriorityTable := rfl
@[simp] theorem setStat_group : (k.setStat i stat).rtThreadReadyPriorityGroup = k.rtThreadReadyPriorityGroup := rfl
@[simp] theorem setStat_current : (k.setStat i stat).rtCurrentThread = k.rtCurrentThread := rfl
@[simp] theorem setStat_lock : (k.setStat i stat).rtSchedulerLockNest = k.rtSchedulerLockNest := rfl
@[simp] theorem setStat_tick : (k.setStat i stat).rtTick = k.rtTick := rfl
@[simp] theorem setStat_timerList : (k.setStat i stat).rtTimerList = k.rtTimerList := rfl
@[simp] theorem setStat_value : (k.setStat i stat).value = k.value := rfl
@[simp] theorem setStat_suspendThread : (k.setStat i stat).suspendThread = k.suspendThread := rfl

end Modify

structure Queues (k : State) : Prop where
  ready : ∀ i p, i ∈ k.rtThreadPriorityTable p ↔ (k.thread i).stat = .ready ∧ (k.thread i).currentPriority = p
  distinct : ∀ p, (k.rtThreadPriorityTable p).Nodup
  group : ∀ p : Fin 32, k.rtThreadReadyPriorityGroup.getLsbD p.val = true ↔ k.rtThreadPriorityTable p ≠ []

structure Waits (k : State) : Prop where
  waiting : ∀ s, ∀ i ∈ k.suspendThread s, (k.thread i).stat = .suspend
  queued : ∀ s, (k.suspendThread s).Nodup
  once : ∀ s s', ∀ i ∈ k.suspendThread s, i ∈ k.suspendThread s' → s = s'
  spent : ∀ s, k.value s ≠ 0 → k.suspendThread s = []

-- How far ahead a thread's timer is, counted from a tick `now`.
def left (k : State) (now : UInt32) (i : Nat) : Nat := Deadlines.left now (k.thread i).timer.timeoutTick

structure Timers (now : UInt32) (k : State) : Prop where
  sleeping : ∀ i ∈ k.rtTimerList, (k.thread i).stat = .suspend
  activated : ∀ i ∈ k.rtTimerList, (k.thread i).timer.activated = true
  listed : k.rtTimerList.Nodup
  ordered : k.rtTimerList.Pairwise fun i j => k.left now i ≤ k.left now j
  soon : ∀ i ∈ k.rtTimerList, k.left now i < Deadlines.half.toNat

-- A thread that has suspended itself stays the current one until rt_schedule.
structure Processor (idle : Nat) (k : State) : Prop where
  running : ∀ i, (k.thread i).stat = .running → i = k.rtCurrentThread
  current : (k.thread k.rtCurrentThread).stat ≠ .ready ∧ (k.thread k.rtCurrentThread).stat ≠ .init
  awake : (k.thread idle).Awake

structure Linked (now : UInt32) (idle : Nat) (k : State) : Prop
    extends Queues k, Waits k, Timers now k, Processor idle k

section Primitives
variable (k : State) (i : Nat)

@[simp] theorem thread_readyInsert (j : Nat) :
    (k.readyInsert i).thread j = if j = i then {k.thread j with stat:=.ready} else k.thread j := thread_setStat _ _ _ _
@[simp] theorem readyInsert_suspendThread : (k.readyInsert i).suspendThread = k.suspendThread := rfl
@[simp] theorem readyInsert_value : (k.readyInsert i).value = k.value := rfl
@[simp] theorem readyInsert_lock : (k.readyInsert i).rtSchedulerLockNest = k.rtSchedulerLockNest := rfl
@[simp] theorem readyInsert_tick : (k.readyInsert i).rtTick = k.rtTick := rfl
@[simp] theorem readyInsert_timerList : (k.readyInsert i).rtTimerList = k.rtTimerList := rfl
@[simp] theorem readyInsert_current : (k.readyInsert i).rtCurrentThread = k.rtCurrentThread := rfl

theorem mem_readyInsert (j : Nat) (p : Fin 32) :
    j ∈ (k.readyInsert i).rtThreadPriorityTable p ↔
      j ∈ k.rtThreadPriorityTable p ∨ j = i ∧ (k.thread i).currentPriority = p := by
  by_cases same : p = (k.thread i).currentPriority
  · subst same
    simp [readyInsert]
  · simp [readyInsert,same,Ne.symm same]

@[simp] theorem remove_thread : (k.rtScheduleRemoveThread i).thread = k.thread := by
  unfold rtScheduleRemoveThread; dsimp only; split <;> rfl
@[simp] theorem remove_table (p : Fin 32) :
    (k.rtScheduleRemoveThread i).rtThreadPriorityTable p = (k.rtThreadPriorityTable p).erase i := by
  unfold rtScheduleRemoveThread; dsimp only; split <;> rfl
@[simp] theorem remove_suspendThread (s : Nat) :
    (k.rtScheduleRemoveThread i).suspendThread s = (k.suspendThread s).erase i := by
  unfold rtScheduleRemoveThread; dsimp only; split <;> rfl
@[simp] theorem remove_value : (k.rtScheduleRemoveThread i).value = k.value := by
  unfold rtScheduleRemoveThread; dsimp only; split <;> rfl
@[simp] theorem remove_lock : (k.rtScheduleRemoveThread i).rtSchedulerLockNest = k.rtSchedulerLockNest := by
  unfold rtScheduleRemoveThread; dsimp only; split <;> rfl
@[simp] theorem remove_tick : (k.rtScheduleRemoveThread i).rtTick = k.rtTick := by
  unfold rtScheduleRemoveThread; dsimp only; split <;> rfl
@[simp] theorem remove_timerList : (k.rtScheduleRemoveThread i).rtTimerList = k.rtTimerList := by
  unfold rtScheduleRemoveThread; dsimp only; split <;> rfl
@[simp] theorem remove_current : (k.rtScheduleRemoveThread i).rtCurrentThread = k.rtCurrentThread := by
  unfold rtScheduleRemoveThread; dsimp only; split <;> rfl

theorem remove_group (p : Fin 32) :
    (k.rtScheduleRemoveThread i).rtThreadReadyPriorityGroup.getLsbD p.val = true ↔
      k.rtThreadReadyPriorityGroup.getLsbD p.val = true ∧
        ((k.rtThreadPriorityTable p).erase i ≠ [] ∨ p ≠ (k.thread i).currentPriority) := by
  unfold rtScheduleRemoveThread
  dsimp only [listRemove]
  split
  · next empty =>
    rw [group_clear]
    constructor
    · exact fun ⟨set,other⟩ => ⟨set,.inr other⟩
    · rintro ⟨set,some | other⟩
      · exact ⟨set,fun same => some (same ▸ empty)⟩
      · exact ⟨set,other⟩
  · next some =>
    refine ⟨fun set => ⟨set,?_⟩,fun both => both.1⟩
    by_cases same : p = (k.thread i).currentPriority
    · exact .inl (same ▸ some)
    · exact .inr same

end Primitives

theorem queues_insert (queues : Queues k) (out : (k.thread i).stat ≠ .ready) : Queues (k.readyInsert i) := by
  refine ⟨?_,?_,?_⟩
  · intro j p
    rw [mem_readyInsert,queues.ready,thread_readyInsert]
    by_cases same : j = i
    · subst same
      simp [out]
    · simp [same]
  · intro p
    have fresh : i ∉ k.rtThreadPriorityTable p := fun member => out ((queues.ready i p).mp member).1
    by_cases same : p = (k.thread i).currentPriority
    · subst same
      simpa [readyInsert] using nodup_snoc (queues.distinct _) fresh
    · simpa [readyInsert,same] using queues.distinct p
  · intro p
    have set := group_set k.rtThreadReadyPriorityGroup (k.thread i).currentPriority p
    by_cases same : p = (k.thread i).currentPriority
    · subst same
      simpa [readyInsert] using set
    · rw [queues.group p] at set
      simpa [readyInsert,same] using set

theorem queues_remove (queues : Queues k) (out : stat ≠ .ready) :
    Queues ((k.rtScheduleRemoveThread i).setStat i stat) := by
  refine ⟨?_,?_,?_⟩
  · intro j p
    rw [setStat_table,remove_table,(queues.distinct p).mem_erase_iff,queues.ready,thread_setStat,remove_thread]
    by_cases same : j = i
    · subst same
      simp [out]
    · simp [same]
  · intro p
    rw [setStat_table,remove_table]
    exact (queues.distinct p).erase i
  · intro p
    rw [setStat_group,remove_group,queues.group,setStat_table,remove_table]
    constructor
    · rintro ⟨some,left | other⟩
      · exact left
      · have stays : i ∉ k.rtThreadPriorityTable p := fun member => other ((queues.ready i p).mp member).2.symm
        rwa [List.erase_of_not_mem stays]
    · intro left
      refine ⟨fun empty => left ?_,.inl left⟩
      rw [empty,List.erase_nil]

theorem Queues.of_same (queues : Queues k) (table : k'.rtThreadPriorityTable = k.rtThreadPriorityTable)
    (group : k'.rtThreadReadyPriorityGroup = k.rtThreadReadyPriorityGroup)
    (stat : ∀ i, (k'.thread i).stat = .ready ↔ (k.thread i).stat = .ready)
    (priority : ∀ i, (k'.thread i).currentPriority = (k.thread i).currentPriority) : Queues k' := by
  refine ⟨?_,?_,?_⟩
  · intro i p
    rw [table,queues.ready,stat,priority]
  · rw [table]
    exact queues.distinct
  · rw [table,group]
    exact queues.group

theorem Waits.of_sublist (waits : Waits k) (lists : ∀ s, (k'.suspendThread s).Sublist (k.suspendThread s))
    (value : k'.value = k.value) (stat : ∀ s, ∀ i ∈ k'.suspendThread s, (k'.thread i).stat = .suspend) : Waits k' := by
  refine ⟨stat,?_,?_,?_⟩
  · exact fun s => (waits.queued s).sublist (lists s)
  · exact fun s s' i first second => waits.once s s' i ((lists s).subset first) ((lists s').subset second)
  · intro s some
    rw [value] at some
    exact List.sublist_nil.mp (waits.spent s some ▸ lists s)

theorem Timers.of_sublist (timers : Timers now k) (lists : k'.rtTimerList.Sublist k.rtTimerList)
    (timer : ∀ i ∈ k'.rtTimerList, (k'.thread i).timer = (k.thread i).timer)
    (stat : ∀ i ∈ k'.rtTimerList, (k'.thread i).stat = .suspend) : Timers now k' := by
  have left : ∀ i ∈ k'.rtTimerList, k'.left now i = k.left now i := fun i member => by rw [State.left,State.left,timer i member]
  refine ⟨stat,?_,timers.listed.sublist lists,?_,?_⟩
  · intro i member
    rw [timer i member]
    exact timers.activated i (lists.subset member)
  · refine (timers.ordered.sublist lists).imp_of_mem ?_
    intro i j first second order
    rwa [left i first,left j second]
  · intro i member
    rw [left i member]
    exact timers.soon i (lists.subset member)

-- What rt_schedule leaves alone.
structure Dispatched (k k' : State) : Prop where
  lock : k'.rtSchedulerLockNest = k.rtSchedulerLockNest
  tick : k'.rtTick = k.rtTick
  timerList : k'.rtTimerList = k.rtTimerList
  value : k'.value = k.value
  suspendThread : k'.suspendThread = k.suspendThread
  thread : ∀ i, (k.thread i).Same (k'.thread i)

theorem Dispatched.refl (k : State) : Dispatched k k := ⟨rfl,rfl,rfl,rfl,rfl,fun _ => .refl _⟩

theorem Waits.dispatch (waits : Waits k) (d : Dispatched k k') : Waits k' := by
  refine waits.of_sublist (fun s => d.suspendThread ▸ .refl _) d.value ?_
  intro s i member
  rw [d.suspendThread] at member
  exact (d.thread i).suspended.mpr (waits.waiting s i member)

theorem Timers.dispatch (timers : Timers now k) (d : Dispatched k k') : Timers now k' := by
  refine timers.of_sublist (d.timerList ▸ .refl _) (fun i _ => (d.thread i).timer) ?_
  intro i member
  rw [d.timerList] at member
  exact (d.thread i).suspended.mpr (timers.sleeping i member)

-- rt_schedule when it takes the processor from the current thread.
def switchTo (k : State) (i : Nat) : State :=
  let self := k.rtCurrentThread
  let k :=
    if k.Working then ({k.modify self fun t => {t with yielded:=false} with rtCurrentThread:=i}).readyInsert self
    else {k with rtCurrentThread:=i}
  (k.rtScheduleRemoveThread i).setStat i .running

def Foremost (k : State) (i : Nat) : Prop :=
  (k.rtThreadPriorityTable (k.thread i).currentPriority).head? = some i ∧
    ∀ j, (k.thread j).stat = .ready → (k.thread i).currentPriority ≤ (k.thread j).currentPriority

theorem highest_foremost (queues : Queues k) (found : k.getHighestPriorityThread = some (p,i)) :
    (k.thread i).stat = .ready ∧ (k.thread i).currentPriority = p ∧ k.Foremost i := by
  simp only [getHighestPriorityThread,Option.bind_eq_bind,Option.bind_eq_some_iff,Option.pure_def,Option.some.injEq,
    Prod.mk.injEq] at found
  obtain ⟨q,lowest,j,head,rfl,rfl⟩ := found
  have ⟨stat,priority⟩ := (queues.ready j q).mp (List.mem_of_mem_head? head)
  subst priority
  refine ⟨stat,rfl,head,?_⟩
  intro j' ready
  apply (lowestBit_some lowest).2
  rw [queues.group]
  exact List.ne_nil_of_mem ((queues.ready j' _).mpr ⟨ready,rfl⟩)

theorem highest_none (queues : Queues k) (found : k.getHighestPriorityThread = none) (i : Nat) :
    (k.thread i).stat ≠ .ready := by
  intro ready
  have member := (queues.ready i _).mpr ⟨ready,rfl⟩
  cases lowest : lowestBit k.rtThreadReadyPriorityGroup with
  | none =>
    have clear := lowestBit_none.mp lowest (k.thread i).currentPriority
    have set := (queues.group _).mpr (List.ne_nil_of_mem member)
    rw [clear] at set
    contradiction
  | some p =>
    have some := (queues.group p).mp (lowestBit_some lowest).1
    obtain ⟨head,first⟩ := Option.isSome_iff_exists.mp (List.isSome_head?.mpr some)
    simp [getHighestPriorityThread,lowest,first] at found

-- Taking the running thread off a list it stands on none of changes nothing.
theorem retake_running (queues : Queues k) (waits : Waits k) (working : k.Working) :
    (k.rtScheduleRemoveThread k.rtCurrentThread).setStat k.rtCurrentThread .running = k := by
  have absent : ∀ p, k.rtCurrentThread ∉ k.rtThreadPriorityTable p := by
    intro p member
    have ready := ((queues.ready _ p).mp member).1
    rw [working] at ready
    contradiction
  have alone : ∀ s, k.rtCurrentThread ∉ k.suspendThread s := by
    intro s member
    have suspended := waits.waiting s _ member
    rw [working] at suspended
    contradiction
  have group : (k.rtScheduleRemoveThread k.rtCurrentThread).rtThreadReadyPriorityGroup = k.rtThreadReadyPriorityGroup := by
    apply BitVec.eq_of_getLsbD_eq
    intro p bound
    apply Bool.eq_iff_iff.mpr
    rw [remove_group k k.rtCurrentThread ⟨p,bound⟩,List.erase_of_not_mem (absent _),queues.group ⟨p,bound⟩]
    exact ⟨fun both => both.1,fun some => ⟨some,.inl some⟩⟩
  have table : (k.rtScheduleRemoveThread k.rtCurrentThread).rtThreadPriorityTable = k.rtThreadPriorityTable :=
    funext fun p => (remove_table k _ p).trans (List.erase_of_not_mem (absent p))
  have suspendThread : (k.rtScheduleRemoveThread k.rtCurrentThread).suspendThread = k.suspendThread :=
    funext fun s => (remove_suspendThread k _ s).trans (List.erase_of_not_mem (alone s))
  have thread : ((k.rtScheduleRemoveThread k.rtCurrentThread).setStat k.rtCurrentThread .running).thread = k.thread := by
    funext j
    rw [thread_setStat,remove_thread]
    split
    · next same =>
      subst same
      rw [← working]
    · rfl
  exact State.ext thread table group (remove_current _ _) (remove_lock _ _) (remove_tick _ _) (remove_timerList _ _)
    (remove_value _ _) suspendThread

theorem dispatch_cases (linked : Linked now idle k) :
    (k.Working ∧ (∀ i, (k.thread i).stat = .ready → k.Keeps (k.thread i).currentPriority) ∧ k.dispatch = k) ∨
    ∃ i, (k.thread i).stat = .ready ∧ k.Foremost i ∧ ¬(k.Working ∧ k.Keeps (k.thread i).currentPriority) ∧
      k.dispatch = k.switchTo i := by
  cases found : k.getHighestPriorityThread with
  | none =>
    have out := highest_none linked.toQueues found
    have working : k.Working := by
      cases linked.awake with
      | inl ready => exact absurd ready (out idle)
      | inr running =>
        rw [Working,← linked.running idle running]
        exact running
    exact .inl ⟨working,fun i ready => absurd ready (out i),by rw [dispatch,found]⟩
  | some top =>
    obtain ⟨p,i⟩ := top
    obtain ⟨ready,rfl,foremost⟩ := highest_foremost linked.toQueues found
    by_cases keeps : k.Working ∧ k.Keeps (k.thread i).currentPriority
    · refine .inl ⟨keeps.1,?_,?_⟩
      · intro j readyToo
        have order := foremost.2 j readyToo
        cases keeps.2 with
        | inl less => exact .inl (lt_of_lt_of_le less order)
        | inr equal =>
          cases lt_or_eq_of_le order with
          | inl less => exact .inl (equal.1 ▸ less)
          | inr same => exact .inr (same ▸ equal)
      · simp only [dispatch,found,keeps,and_self,if_true,not_true_eq_false,and_false,if_false,ne_eq]
        exact retake_running linked.toQueues linked.toWaits keeps.1
    · have other : i ≠ k.rtCurrentThread := by
        rintro rfl
        exact linked.current.1 ready
      refine .inr ⟨i,ready,foremost,keeps,?_⟩
      by_cases working : k.Working
      · have loses : ¬k.Keeps (k.thread i).currentPriority := fun keeps' => keeps ⟨working,keeps'⟩
        simp [dispatch,found,working,loses,switchTo,other,rtScheduleInsertThread,Ne.symm other]
      · simp [dispatch,found,working,switchTo,other]

theorem Linked.ready_other (linked : Linked now idle k) (ready : (k.thread i).stat = .ready) : i ≠ k.rtCurrentThread := by
  rintro rfl
  exact linked.current.1 ready

theorem thread_switchTo {k : State} (other : i ≠ k.rtCurrentThread) (j : Nat) :
    (k.switchTo i).thread j =
      if j = i then {k.thread j with stat:=.running}
      else if k.Working ∧ j = k.rtCurrentThread then {k.thread j with stat:=.ready,yielded:=false}
      else k.thread j := by
  by_cases working : k.Working
  · by_cases first : j = i
    · subst first
      simp [switchTo,working,other]
    · by_cases second : j = k.rtCurrentThread
      · subst second
        simp [switchTo,working,first]
      · simp [switchTo,working,first,second]
  · by_cases first : j = i <;> simp [switchTo,working,first]

@[simp] theorem switchTo_current (k : State) (i : Nat) : (k.switchTo i).rtCurrentThread = i := by
  by_cases working : k.Working <;> simp [switchTo,working]

theorem switchTo_dispatched (linked : Linked now idle k) (ready : (k.thread i).stat = .ready) : Dispatched k (k.switchTo i) := by
  have other := linked.ready_other ready
  have alone : ∀ s, i ∉ k.suspendThread s := by
    intro s member
    have suspended := linked.waiting s i member
    rw [ready] at suspended
    contradiction
  refine ⟨?_,?_,?_,?_,?_,?_⟩
  · by_cases working : k.Working <;> simp [switchTo,working]
  · by_cases working : k.Working <;> simp [switchTo,working]
  · by_cases working : k.Working <;> simp [switchTo,working]
  · by_cases working : k.Working <;> simp [switchTo,working]
  · funext s
    by_cases working : k.Working <;> simp [switchTo,working,List.erase_of_not_mem (alone s)]
  · intro j
    rw [thread_switchTo other]
    split
    · next same => exact ⟨rfl,rfl,rfl,.inr ⟨.inl (same ▸ ready),.inr rfl⟩⟩
    · split
      · next self => exact ⟨rfl,rfl,rfl,.inr ⟨.inr (self.2 ▸ self.1),.inl rfl⟩⟩
      · exact .refl _

theorem switchTo_queues (linked : Linked now idle k) : Queues (k.switchTo i) := by
  refine queues_remove ?_ Stat.running_out.1
  split
  · next working =>
    apply queues_insert
    · refine linked.toQueues.of_same rfl rfl ?_ ?_
      · intro j
        simp only [thread_modify]
        split <;> rfl
      · intro j
        simp only [thread_modify]
        split <;> rfl
    · have running : (k.thread k.rtCurrentThread).stat = .running := working
      simp [running]
  · exact linked.toQueues.of_same rfl rfl (fun _ => .rfl) (fun _ => rfl)

theorem switchTo_processor (linked : Linked now idle k) (ready : (k.thread i).stat = .ready) :
    Processor idle (k.switchTo i) := by
  have other := linked.ready_other ready
  refine ⟨?_,?_,?_⟩
  · intro j running
    rw [switchTo_current]
    by_contra apart
    rw [thread_switchTo other,if_neg apart] at running
    split at running
    · contradiction
    · next not =>
      have same := linked.running j running
      exact not ⟨by rw [Working,← same]; exact running,same⟩
  · rw [switchTo_current,thread_switchTo other,if_pos rfl]
    exact Stat.running_out
  · rw [thread_switchTo other]
    split
    · exact .inr rfl
    · split
      · exact .inl rfl
      · exact linked.awake

theorem schedule_open {k : State} (unlocked : k.rtSchedulerLockNest = 0) : k.rtSchedule = k.dispatch := if_pos unlocked

theorem schedule_locked {k : State} (locked : k.rtSchedulerLockNest ≠ 0) : k.rtSchedule = k := if_neg locked

theorem dispatch_linked (linked : Linked now idle k) : Linked now idle k.dispatch ∧ Dispatched k k.dispatch := by
  cases dispatch_cases linked with
  | inl stays =>
    rw [stays.2.2]
    exact ⟨linked,.refl k⟩
  | inr switches =>
    obtain ⟨i,ready,_,_,result⟩ := switches
    have dispatched := switchTo_dispatched linked ready
    rw [result]
    exact ⟨⟨switchTo_queues linked,linked.toWaits.dispatch dispatched,linked.toTimers.dispatch dispatched,
      switchTo_processor linked ready⟩,dispatched⟩

theorem schedule_linked (linked : Linked now idle k) : Linked now idle k.rtSchedule := by
  by_cases unlocked : k.rtSchedulerLockNest = 0
  · rw [schedule_open unlocked]
    exact (dispatch_linked linked).1
  · rw [schedule_locked unlocked]
    exact linked

theorem schedule_dispatched (linked : Linked now idle k) : Dispatched k k.rtSchedule := by
  by_cases unlocked : k.rtSchedulerLockNest = 0
  · rw [schedule_open unlocked]
    exact (dispatch_linked linked).2
  · rw [schedule_locked unlocked]
    exact .refl k

-- The current thread runs, and no ready thread is more urgent.
def Settled (k : State) : Prop :=
  k.Working ∧ ∀ i, (k.thread i).stat = .ready → (k.thread k.rtCurrentThread).currentPriority ≤ (k.thread i).currentPriority

theorem schedule_settled (linked : Linked now idle k) (unlocked : k.rtSchedulerLockNest = 0) : k.rtSchedule.Settled := by
  rw [schedule_open unlocked]
  cases dispatch_cases linked with
  | inl stays =>
    obtain ⟨working,keeps,result⟩ := stays
    rw [result]
    refine ⟨working,fun i ready => ?_⟩
    cases keeps i ready with
    | inl less => exact le_of_lt less
    | inr equal => exact le_of_eq equal.1
  | inr switches =>
    obtain ⟨i,ready,foremost,loses,result⟩ := switches
    have other := linked.ready_other ready
    have dispatched := switchTo_dispatched linked ready
    rw [result]
    refine ⟨by rw [Working,switchTo_current,thread_switchTo other,if_pos rfl],fun j readyNow => ?_⟩
    rw [switchTo_current,(dispatched.thread i).priority,(dispatched.thread j).priority]
    rw [thread_switchTo other] at readyNow
    split at readyNow
    · contradiction
    · split at readyNow
      · next self =>
        rw [self.2]
        by_contra less
        exact loses ⟨self.1,.inl (lt_of_not_ge less)⟩
      · exact foremost.2 j readyNow

end State

end Kernel
