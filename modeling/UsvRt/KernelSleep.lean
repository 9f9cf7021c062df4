import UsvRt.KernelRuns
import UsvRt.MachineWord

-- How long a thread that has suspended itself stays so: until its timer expires or its turn in a
-- semaphore's queue comes, and not a tick longer.
namespace Kernel
open Runs State

-- The threads that an event takes off the lists they wait on.
def wakes (k : State) : Event → List Nat
  | .tick => k.expiring k.rtTick
  | .release sem => (k.suspendThread sem).take 1
  | .insert i => [i]
  | _ => []

structure Effect (gone : List Nat) (k k' : State) : Prop where
  timers : ∀ i ∉ gone, i ∈ k.rtTimerList → i ∈ k'.rtTimerList
  untimed : ∀ i ∉ k.rtTimerList, (k.thread i).stat = .suspend → i ∉ k'.rtTimerList
  queue : ∀ s, ∃ new, k'.suspendThread s = (k.suspendThread s).filter (· ∉ gone)++new ∧
    ∀ i ∈ new, (k.thread i).stat ≠ .suspend
  priority : ∀ i, (k'.thread i).currentPriority = (k.thread i).currentPriority
  others : ∀ i ∉ gone, (k.thread i).stat = .suspend →
    (k'.thread i).stat = .suspend ∧ (i ∈ k.rtTimerList → (k'.thread i).timer = (k.thread i).timer)
  woken : ∀ i ∈ gone, (k'.thread i).Awake

theorem filter_none (queue : List Nat) : queue = queue.filter (· ∉ ([] : List Nat)) := by simp

theorem resting {t t' : Thread} (same : t.Same t') (suspended : t.stat = .suspend) :
    t'.stat = .suspend ∧ (listed → t'.timer = t.timer) := ⟨same.suspended.mpr suspended,fun _ => same.timer⟩

theorem Effect.of_same (timerList : k'.rtTimerList = k.rtTimerList) (suspendThread : k'.suspendThread = k.suspendThread)
    (priority : ∀ i, (k'.thread i).currentPriority = (k.thread i).currentPriority)
    (thread : ∀ i, (k.thread i).stat = .suspend → (k.thread i).Same (k'.thread i)) : Effect [] k k' :=
  ⟨fun _ _ member => timerList ▸ member,fun _ out _ => timerList ▸ out,fun s => ⟨[],by simp [suspendThread],nofun⟩,priority,
    fun i _ suspended => resting (thread i suspended) suspended,nofun⟩

theorem Effect.of_expired (expired : Expired gone k k') : Effect gone k k' := by
  refine ⟨?_,?_,?_,expired.priority,fun i out => resting (expired.others i out),fun i member => (expired.woken i member).1⟩
  · intro i out member
    rw [expired.timerList,List.mem_filter]
    exact ⟨member,decide_eq_true out⟩
  · intro i out _ member
    rw [expired.timerList,List.mem_filter] at member
    exact out member.1
  · exact fun s => ⟨[],by simp [expired.suspendThread],nofun⟩

section Parts

theorem thread_unlink (k : State) (i j : Nat) :
    (k.unlink i).thread j =
      if j = i then {k.thread j with timer:={(k.thread j).timer with activated:=false}} else k.thread j := thread_timerStop _ _ _

theorem unlink_suspendThread (k : State) (i s : Nat) : (k.unlink i).suspendThread s = (k.suspendThread s).erase i :=
  congrFun (timerStop_suspendThread _ _) s

theorem unlink_timerList (linked : Linked now idle k) (suspended : (k.thread i).stat = .suspend) :
    (k.unlink i).rtTimerList = k.rtTimerList.erase i := timerStop_timerList (listRemove_linked linked suspended) i

theorem resume_suspended {k : State} (suspended : (k.thread i).stat = .suspend) :
    k.rtThreadResume i = (k.unlink i).rtScheduleInsertThread i := if_neg (not_not.mpr suspended)

theorem insert_awake (k : State) (i : Nat) : ((k.rtScheduleInsertThread i).thread i).Awake := by
  rw [thread_insert,if_pos rfl]
  show (if i = k.rtCurrentThread then Stat.running else .ready) = .ready ∨ _
  split
  · exact .inr rfl
  · exact .inl rfl

theorem resume_effect (linked : Linked now idle k) (suspended : (k.thread i).stat = .suspend) :
    Effect [i] k (k.rtThreadResume i) := by
  have others : ∀ j ≠ i, (((k.unlink i).rtScheduleInsertThread i).thread j) = k.thread j := by
    intro j apart
    rw [thread_insert,if_neg apart,thread_unlink,if_neg apart]
  rw [resume_suspended suspended]
  refine ⟨?_,?_,?_,?_,?_,?_⟩
  · intro j out member
    rw [insert_timerList,unlink_timerList linked suspended]
    exact (linked.listed.mem_erase_iff).mpr ⟨List.mem_singleton.not.mp out,member⟩
  · intro j out _ member
    rw [insert_timerList,unlink_timerList linked suspended] at member
    exact out (List.mem_of_mem_erase member)
  · intro s
    refine ⟨[],?_,nofun⟩
    rw [insert_suspendThread,unlink_suspendThread,List.append_nil,erase_filter (linked.queued s)]
  · intro j
    rw [thread_insert,thread_unlink]
    split <;> rfl
  · intro j out asleep
    rw [others j (List.mem_singleton.not.mp out)]
    exact resting (.refl _) asleep
  · intro j member
    obtain rfl := List.mem_singleton.mp member
    exact insert_awake _ _

theorem release_effect (linked : Linked now idle k) (sem : Nat) : Effect (wakes k (.release sem)) k (k.giveOrWake sem) := by
  show Effect ((k.suspendThread sem).take 1) k _
  unfold giveOrWake
  split
  · next queue =>
    rw [queue]
    exact .of_same rfl rfl (fun _ => rfl) fun _ _ => .refl _
  · next i rest queue =>
    rw [queue]
    exact resume_effect linked (linked.waiting sem i (queue ▸ List.mem_cons_self))

theorem prepare_effect (k : State) (init : (k.thread i).stat = .init) : Effect [] k (k.prepare i) := by
  refine .of_same rfl rfl ?_ ?_
  · intro j
    rw [prepare,thread_modify]
    split <;> rfl
  · intro j suspended
    have apart : j ≠ i := by
      rintro rfl
      exact (Thread.not_started init).1 suspended
    rw [prepare,thread_modify,if_neg apart]
    exact .refl _

theorem unlink_free_suspendThread {k : State} (free : k.Free i) : (k.unlink i).suspendThread = k.suspendThread :=
  funext fun s => (unlink_suspendThread k i s).trans (List.erase_of_not_mem (free.alone s))

theorem unlink_effect (linked : Linked now idle k) (free : k.Free i) : Effect [] k (k.unlink i) := by
  have list : (k.unlink i).rtTimerList = k.rtTimerList :=
    (unlink_timerList linked free.suspended).trans (List.erase_of_not_mem free.untimed)
  refine ⟨?_,?_,?_,?_,?_,nofun⟩
  · exact fun j _ member => list ▸ member
  · exact fun j out _ => list ▸ out
  · exact fun s => ⟨[],by simp [unlink_free_suspendThread free],nofun⟩
  · intro j
    rw [thread_unlink]
    split <;> rfl
  · intro j _ suspended
    rw [thread_unlink]
    split
    · next same => exact ⟨suspended,fun member => absurd (same ▸ member) free.untimed⟩
    · exact ⟨suspended,fun _ => rfl⟩

theorem insert_effect (k : State) (i : Nat) (free : k.Free i) : Effect [i] k (k.rtScheduleInsertThread i) := by
  refine ⟨?_,?_,?_,?_,?_,?_⟩
  · intro j _ member
    rwa [insert_timerList]
  · intro j out _
    rwa [insert_timerList]
  · intro s
    have stays : (k.suspendThread s).filter (· ∉ [i]) = k.suspendThread s := by
      refine List.filter_eq_self.mpr fun j member => decide_eq_true fun same => free.alone s ?_
      exact List.mem_singleton.mp same ▸ member
    exact ⟨[],by rw [insert_suspendThread,stays,List.append_nil],nofun⟩
  · intro j
    rw [thread_insert]
    split <;> rfl
  · intro j out suspended
    rw [thread_insert,if_neg (List.mem_singleton.not.mp out)]
    exact ⟨suspended,fun _ => rfl⟩
  · intro j member
    obtain rfl := List.mem_singleton.mp member
    exact insert_awake _ _

theorem suspend_effect (linked : Linked now idle k) (working : k.Working) :
    Effect [] k (k.rtThreadSuspend k.rtCurrentThread) := by
  refine .of_same (suspend_timerList linked working) (suspend_suspendThread linked working) (fun i => ?_) fun i suspended => ?_
  · rw [thread_suspend working]
    split <;> rfl
  have apart : i ≠ k.rtCurrentThread := by
    rintro rfl
    exact nomatch working.symm.trans suspended
  rw [thread_suspend working,if_neg apart]
  exact .refl _

theorem Effect.arm (effect : Effect [] k k') (linked : Linked now idle k') (untimed : i ∉ k'.rtTimerList)
    (awake : (k.thread i).stat ≠ .suspend) : Effect [] k ((k'.rtTimerControl i tick).rtTimerStart i) := by
  have ready : Linked now idle (k'.rtTimerControl i tick) :=
    modify_linked linked (fun _ => rfl) (fun _ => rfl) fun member => absurd member untimed
  refine ⟨fun j out member => ?_,fun j out suspended member => ?_,effect.queue,fun j => ?_,fun j out suspended => ?_,nofun⟩
  · exact (mem_timerStart ready i j).mpr (.inr (effect.timers j out member))
  · cases (mem_timerStart ready i j).mp member with
    | inl same => exact awake (same ▸ suspended)
    | inr old => exact effect.untimed j out suspended old
  · rw [← effect.priority j,thread_timerStart,rtTimerControl,thread_modify]
    split <;> rfl
  · have apart : j ≠ i := by
      rintro rfl
      exact awake suspended
    rw [thread_timerStart,if_neg apart,rtTimerControl,thread_modify,if_neg apart]
    exact effect.others j out suspended

theorem running_awake {k : State} (working : k.Working) : (k.thread k.rtCurrentThread).stat ≠ .suspend :=
  fun suspended => nomatch working.symm.trans suspended

theorem fallAsleep_effect (linked : Linked now idle k) (working : k.Working) (other : k.rtCurrentThread ≠ idle)
    (tick : UInt32) : Effect [] k (k.fallAsleep tick) :=
  (suspend_effect linked working).arm (suspend_linked linked working other) (suspend_free linked working).untimed
    (running_awake working)

theorem ipcListSuspend_effect (linked : Linked now idle k) (working : k.Working) (sem : Nat) :
    Effect [] k (k.rtIpcListSuspend sem k.rtCurrentThread) := by
  have suspended := suspend_effect linked working
  refine ⟨suspended.timers,suspended.untimed,fun s => ?_,suspended.priority,suspended.others,nofun⟩
  unfold rtIpcListSuspend
  dsimp only
  rw [suspend_suspendThread linked working,← filter_none]
  by_cases own : s = sem
  · subst own
    refine ⟨[k.rtCurrentThread],Function.update_self _ _ _,fun i member => ?_⟩
    rw [List.mem_singleton.mp member]
    exact running_awake working
  · exact ⟨[],by simp [own],nofun⟩

theorem Effect.of_cleared (awake : (k.thread i).stat ≠ .suspend)
    (effect : Effect [] (k.modify i fun t => {t with error:=error}) k') : Effect [] k k' := by
  refine ⟨effect.timers,fun j out suspended => effect.untimed j out ?_,fun s => ?_,fun j => ?_,fun j out suspended => ?_,nofun⟩
  · rw [thread_modify]
    split <;> exact suspended
  · obtain ⟨new,split,fresh⟩ := effect.queue s
    refine ⟨new,split,fun j member suspended => fresh j member ?_⟩
    rw [thread_modify]
    split <;> exact suspended
  · rw [effect.priority,thread_modify]
    split <;> rfl
  · have apart : j ≠ i := by
      rintro rfl
      exact awake suspended
    have same := effect.others j out
    rw [thread_modify,if_neg apart] at same
    exact same suspended

theorem waitFor_effect (linked : Linked now idle k) (working : k.Working) (other : k.rtCurrentThread ≠ idle)
    (none : k.value sem = 0) (time : Int32) : Effect [] k (k.waitFor sem time) := by
  have cleared := clearError_linked linked k.rtCurrentThread 0
  have still := clearError_working working 0
  have queued := ipcListSuspend_effect cleared still sem
  apply Effect.of_cleared (running_awake working)
  unfold waitFor
  dsimp only
  split
  · exact queued.arm (ipcListSuspend_linked cleared still other none) (suspend_free cleared still).untimed (running_awake still)
  · exact queued

theorem exit_suspendThread (linked : Linked now idle k) (working : k.Working) (other : k.rtCurrentThread ≠ idle) :
    k.rtThreadExit.suspendThread = k.suspendThread := by
  rw [(exit_dispatched linked working other).suspendThread,timerStop_suspendThread,setStat_suspendThread]
  exact funext fun s => (remove_suspendThread _ _ s).trans (List.erase_of_not_mem ((linked.running_unlisted working).1 s))

theorem exit_effect (linked : Linked now idle k) (working : k.Working) (other : k.rtCurrentThread ≠ idle) :
    Effect [] k k.rtThreadExit := by
  have untimed := (linked.running_unlisted working).2
  have left := leave_linked linked working other (.inr rfl : Stat.close = .suspend ∨ _)
  have same := exit_dispatched linked working other
  have thread : ∀ i ≠ k.rtCurrentThread, (((k.rtScheduleRemoveThread k.rtCurrentThread).setStat k.rtCurrentThread .close).rtTimerStop
      k.rtCurrentThread).thread i = k.thread i := by
    intro i apart
    rw [thread_timerStop,if_neg apart,thread_setStat,if_neg apart,remove_thread]
  refine .of_same ?_ ?_ (fun i => ?_) fun i suspended => ?_
  · rw [same.timerList,timerStop_timerList left,setStat_timerList,remove_timerList]
    exact List.erase_of_not_mem untimed
  · exact exit_suspendThread linked working other
  · rw [(same.thread i).priority,thread_timerStop,thread_setStat,remove_thread]
    split <;> rfl
  · have apart : i ≠ k.rtCurrentThread := by
      rintro rfl
      exact running_awake working suspended
    rw [← thread i apart]
    exact same.thread i

theorem step_effect (linked : Linked k.rtTick idle k) (safe : Safe idle k e) : Effect (wakes k e) k (step k e) := by
  have allowed := safe.allowed
  cases e with
  | tick =>
    have effect := Effect.of_expired (tick_spec linked).2
    exact ⟨effect.timers,effect.untimed,effect.queue,effect.priority,effect.others,effect.woken⟩
  | sleep tick => exact fallAsleep_effect linked allowed.1 allowed.2.1 tick
  | take sem time =>
    show Effect [] k (k.takeOrWait sem time)
    unfold takeOrWait
    split
    · exact .of_same rfl rfl (fun _ => rfl) fun _ _ => .refl _
    · next none =>
      split
      · exact .of_same rfl rfl (fun _ => rfl) fun _ _ => .refl _
      · exact waitFor_effect linked allowed.1 allowed.2.1 (Nat.eq_zero_of_not_pos none |> UInt16.toNat_inj.mp) time
  | release sem => exact release_effect linked sem
  | suspend => exact suspend_effect linked allowed.1
  | startup i => exact prepare_effect k allowed.2
  | unlink i => exact unlink_effect linked (safe.free i (.inl rfl))
  | insert i => exact insert_effect k i (safe.free i (.inr rfl))
  | exit => exact exit_effect linked allowed.1 allowed.2.1
  | lock => exact .of_same rfl rfl (fun _ => rfl) fun _ _ => .refl _
  | unlock => exact .of_same rfl rfl (fun _ => rfl) fun _ _ => .refl _
  | schedule =>
    have same := schedule_dispatched linked
    exact .of_same same.timerList same.suspendThread (fun i => (same.thread i).priority) fun i _ => same.thread i

end Parts

theorem step_free (linked : Linked k.rtTick idle k) (safe : Safe idle k e) (free : k.Free i) (other : e ≠ .insert i) :
    (step k e).Free i := by
  have out : i ∉ wakes k e := by
    intro member
    cases e with
    | tick => exact free.untimed (List.mem_filter.mp member).1
    | release sem => exact free.alone sem (List.mem_of_mem_take member)
    | insert j => exact other (List.mem_singleton.mp member ▸ rfl)
    | sleep | take | suspend | startup | unlink | exit | lock | unlock | schedule => exact nomatch member
  have effect := step_effect linked safe
  refine ⟨(effect.others i out free.suspended).1,fun s member => ?_,effect.untimed i free.untimed free.suspended⟩
  obtain ⟨new,split,fresh⟩ := effect.queue s
  rw [split] at member
  cases List.mem_append.mp member with
  | inl old => exact free.alone s (List.mem_filter.mp old).1
  | inr late => exact fresh i late free.suspended

-- Between the parts of its startup nothing touches the thread.
theorem step_starting (linked : Linked k.rtTick idle k) (safe : Safe idle k e) (nodup : begun.Nodup)
    (free : ∀ i ∈ begun, k.Free i) : (starting begun e).Nodup ∧ ∀ i ∈ starting begun e, (step k e).Free i := by
  have still : ∀ i ∈ begun, e ≠ .insert i → (step k e).Free i :=
    fun i member other => step_free linked safe (free i member) other
  cases e with
  | startup i =>
    have init := safe.allowed.2
    have fresh : i ∉ begun := fun member => (Thread.not_started init).1 (free i member).suspended
    refine ⟨List.nodup_cons.mpr ⟨fresh,nodup⟩,fun j member => ?_⟩
    cases List.mem_cons.mp member with
    | inl same =>
      subst same
      exact prepare_free linked init
    | inr old => exact still j old nofun
  | insert i =>
    refine ⟨nodup.erase i,fun j member => ?_⟩
    obtain ⟨other,old⟩ := nodup.mem_erase_iff.mp member
    exact still j old fun same => other (Event.insert.inj same).symm
  | tick | sleep | take | release | suspend | unlink | exit | lock | unlock | schedule =>
    exact ⟨nodup,fun j member => still j member nofun⟩

theorem continues_begun (continues : Continues begun e) (which : e = .unlink i ∨ e = .insert i) : i ∈ begun := by
  cases which with
  | inl unlink =>
    subst unlink
    exact continues
  | inr insert =>
    subst insert
    exact continues

theorem along_safe (linked : Linked k.rtTick idle k) (nodup : begun.Nodup) (free : ∀ i ∈ begun, k.Free i)
    (path : Along step (Allowed idle) k events) (order : Along starting Continues begun events) :
    Along step (Safe idle) k events := by
  induction events generalizing k begun with
  | nil => trivial
  | cons e rest ih =>
    have safe : Safe idle k e := ⟨path.1,fun i which => free i (continues_begun order.1 which)⟩
    obtain ⟨nodup,free⟩ := step_starting linked safe nodup free
    exact ⟨safe,ih (step_linked linked safe) nodup free path.2 order.2⟩

theorem path_safe (c : Config) (path : c.Path events) : Along step (Safe c.idle) c.boot events :=
  along_safe (boot_linked c) List.nodup_nil nofun path.1 path.2

theorem after_linked (c : Config) (path : Along step (Safe c.idle) c.boot events) :
    Linked (c.after events).rtTick c.idle (c.after events) := along_linked (boot_linked c) path

theorem along_priority (linked : Linked k.rtTick idle k) (path : Along step (Safe idle) k events) (i : Nat) :
    ((run step k events).thread i).currentPriority = (k.thread i).currentPriority := by
  induction events generalizing k with
  | nil => rfl
  | cons e rest ih => exact (ih (step_linked linked path.1) path.2).trans ((step_effect linked path.1).priority i)

theorem after_priority (c : Config) (path : Along step (Safe c.idle) c.boot events) (i : Nat) :
    ((c.after events).thread i).currentPriority = c.priority i :=
  (along_priority (boot_linked c) path i).trans (boot_priority c i)

-- On its timer for `n` more ticks, and waiting for nothing else.
structure Asleep (k : State) (i n : Nat) : Prop where
  timed : i ∈ k.rtTimerList
  alone : ∀ s, i ∉ k.suspendThread s
  left : k.left k.rtTick i = n

theorem fallAsleep_asleep (linked : Linked now idle k) (working : k.Working) (other : k.rtCurrentThread ≠ idle)
    (tick : UInt32) : Asleep (k.fallAsleep tick) k.rtCurrentThread tick.toNat := by
  have free := suspend_free linked working
  have ready : Linked now idle ((k.rtThreadSuspend k.rtCurrentThread).rtTimerControl k.rtCurrentThread tick) :=
    modify_linked (suspend_linked linked working other) (fun _ => rfl) (fun _ => rfl) fun member => absurd member free.untimed
  refine ⟨(mem_timerStart ready _ _).mpr (.inl rfl),free.alone,?_⟩
  rw [fallAsleep_tick]
  unfold fallAsleep State.left
  dsimp only
  rw [thread_timerStart,if_pos rfl,rtTimerControl,thread_modify,if_pos rfl,modify_tick,suspend_tick]
  exact Deadlines.left_start _

theorem step_asleep (linked : Linked k.rtTick idle k) (safe : Safe idle k e) (asleep : Asleep k i n)
    (early : e = .tick → 1 < n) : Asleep (step k e) i (if e = .tick then n-1 else n) := by
  have out : i ∉ wakes k e := by
    intro member
    cases e with
    | tick =>
      obtain ⟨_,soon⟩ := List.mem_filter.mp member
      rw [decide_eq_true_eq,asleep.left] at soon
      exact absurd (early rfl) (Nat.not_lt.mpr soon)
    | release sem => exact asleep.alone sem (List.mem_of_mem_take member)
    | insert j =>
      obtain rfl := List.mem_singleton.mp member
      exact (safe.free i (.inr rfl)).untimed asleep.timed
    | sleep | take | suspend | startup | unlink | exit | lock | unlock | schedule => exact nomatch member
  have effect := step_effect linked safe
  have suspended := linked.sleeping i asleep.timed
  refine ⟨effect.timers i out asleep.timed,fun s member => ?_,?_⟩
  · obtain ⟨new,split,fresh⟩ := effect.queue s
    rw [split] at member
    cases List.mem_append.mp member with
    | inl old => exact asleep.alone s (List.mem_filter.mp old).1
    | inr late => exact fresh i late suspended
  · rw [State.left,(effect.others i out suspended).2 asleep.timed,step_tick linked safe]
    split
    · next tick =>
      have later := early tick
      have ahead : 0 < Deadlines.left k.rtTick (k.thread i).timer.timeoutTick := by
        rw [← State.left,asleep.left]
        omega
      rw [Deadlines.left_next ahead]
      exact congrArg (· - 1) asleep.left
    · exact asleep.left

theorem along_asleep (linked : Linked k.rtTick idle k) (path : Along step (Safe idle) k events) (asleep : Asleep k i n)
    (early : events.count .tick < max n 1) : Asleep (run step k events) i (n-events.count .tick) := by
  induction events generalizing k n with
  | nil => exact asleep
  | cons e rest ih =>
    rw [List.count_cons] at early ⊢
    by_cases tick : e = .tick
    · subst tick
      rw [beq_self_eq_true,if_pos rfl] at early ⊢
      have next := step_asleep linked path.1 asleep fun _ => by omega
      rw [if_pos rfl] at next
      rw [show n-(rest.count .tick+1) = n-1-rest.count .tick by omega]
      exact ih (step_linked linked path.1) path.2 next (by omega)
    · have next := step_asleep linked path.1 asleep fun same => absurd same tick
      rw [if_neg tick] at next
      rw [if_neg (by simpa using tick),Nat.add_zero] at early ⊢
      exact ih (step_linked linked path.1) path.2 next early

theorem tick_wakes (asleep : Asleep k i n) (due : n ≤ 1) :
    i ∈ wakes k .tick := by
  refine List.mem_filter.mpr ⟨asleep.timed,decide_eq_true ?_⟩
  rw [asleep.left]
  exact due

theorem top_runs (linked : Linked k.rtTick idle k) (settled : k.Settled)
    (awake : (k.thread i).Awake)
    (top : ∀ j ≠ i, (k.thread i).currentPriority < (k.thread j).currentPriority) : i = k.rtCurrentThread := by
  cases awake with
  | inl ready =>
    by_contra other
    exact absurd (settled.2 i ready) (not_le_of_gt (top _ (Ne.symm other)))
  | inr running => exact linked.running i running

theorem sleeper_asleep (c : Config) {before after : List Event}
    (path : Along step (Safe c.idle) c.boot (before++.sleep tick::after)) (early : after.count .tick < max tick.toNat 1) :
    Asleep (c.after (before++.sleep tick::after)) (c.after before).rtCurrentThread (tick.toNat-after.count .tick) := by
  obtain ⟨path,safe,later⟩ := (along_append step (Safe c.idle)).mp path
  have linked := after_linked c path
  have start := fallAsleep_asleep linked safe.allowed.1 safe.allowed.2.1 tick
  rw [Config.after,run_append]
  show Asleep (run step (step (c.after before) (.sleep tick)) after) _ _
  exact along_asleep (step_linked linked safe) later start early

theorem sleep_exact (c : Config) {before after : List Event} (path : c.Path (before++.sleep tick::after)) :
    let i := (c.after before).rtCurrentThread
    (after.count .tick < max tick.toNat 1 → ((c.after (before++.sleep tick::after)).thread i).stat = .suspend) ∧
    (after.count .tick+1 = max tick.toNat 1 →
      let woken := c.after (before++.sleep tick::after++[.tick])
      (woken.thread i).Awake ∧
        (woken.rtSchedulerLockNest = 0 → (∀ j ≠ i, c.priority i < c.priority j) → woken.rtCurrentThread = i)) := by
  intro i
  have safe := path_safe c path
  have linked := after_linked c safe
  have still := sleeper_asleep c safe
  refine ⟨fun early => linked.sleeping i (still early).timed,fun last => ?_⟩
  have wakes := tick_wakes (still (by omega)) (by omega)
  have longer : Along step (Safe c.idle) c.boot (before++.sleep tick::after++[.tick]) :=
    (along_append step _).mpr ⟨safe,safe_tick _ _,trivial⟩
  have next : c.after (before++.sleep tick::after++[.tick]) = step (c.after (before++.sleep tick::after)) .tick := run_append step
  have awake := (step_effect linked (safe_tick _ _)).woken i wakes
  rw [← next] at awake
  refine ⟨awake,fun unlocked top => (top_runs (after_linked c longer) ?_ awake fun j other => ?_).symm⟩
  · rw [next] at unlocked ⊢
    exact tick_settles linked ((tick_lock linked).symm.trans unlocked) (List.ne_nil_of_mem wakes)
  · rw [after_priority c longer,after_priority c longer]
    exact top j other

-- A tick is a millisecond.
theorem tickFromMillisecond_exact (known : 0 ≤ ms) : (rtTickFromMillisecond ms).toNat = ms.toInt.toNat := by
  have low : (0 : Int32).toInt ≤ ms.toInt := Int32.le_iff_toInt_le.mp known
  have high := ms.toInt_lt
  rw [Int32.toInt_zero] at low
  unfold rtTickFromMillisecond
  rw [if_neg (Int32.not_lt.mpr known),Int.tdiv_eq_ediv_of_nonneg low,Int.tmod_eq_emod_of_nonneg low,rtTickPerSecond,
    Int.tdiv_eq_ediv_of_nonneg (by omega),UInt32.toNat_add]
  have seconds : ((UInt32.ofInt (1000*(ms.toInt/1000))).toNat : Int) = 1000*(ms.toInt/1000) :=
    MachineWord.ofInt_small (by omega) (by omega)
  have rest : ((UInt32.ofInt ((1000*(ms.toInt%1000)+999)/1000)).toNat : Int) = (1000*(ms.toInt%1000)+999)/1000 :=
    MachineWord.ofInt_small (by omega) (by omega)
  omega

end Kernel
