import Mathlib.Data.List.FinRange
import Mathlib.Logic.Function.Basic
import UsvRt.Runs

-- The part of the RT-Thread kernel that the threads of this program run on: the ready
-- queue, rt_schedule and its lock, the timers that threads sleep on, semaphores, and the tick.
namespace Kernel
open Runs

inductive Stat where
  | init
  | ready
  | suspend
  | running
  | close
  deriving DecidableEq

-- A thread's own timer: one-shot, on the hard timer list.
structure Timer where
  initTick : UInt32
  timeoutTick : UInt32
  activated : Bool
  deriving DecidableEq

-- `yielded` is RT_THREAD_STAT_YIELD; `error` is the code rt_sem_take returns with.
structure Thread where
  currentPriority : Fin 32
  stat : Stat
  yielded : Bool
  initTick : UInt32
  remainingTick : UInt32
  error : Int
  timer : Timer
  deriving DecidableEq

@[ext] structure State where
  thread : Nat → Thread
  rtThreadPriorityTable : Fin 32 → List Nat
  rtThreadReadyPriorityGroup : BitVec 32
  rtCurrentThread : Nat
  rtSchedulerLockNest : Int16
  rtTick : UInt32
  rtTimerList : List Nat
  value : Nat → UInt16
  suspendThread : Nat → List Nat

def rtTickMax : UInt32 := 0xffffffff
def eTimeout : Int := -2

def rtTickPerSecond : Int := 1000
def rtWaitingForever : UInt32 := 0xffffffff

def rtTickFromMillisecond (ms : Int32) : UInt32 :=
  if ms < 0 then rtWaitingForever
  else
    UInt32.ofInt (rtTickPerSecond*(ms.toInt.tdiv 1000))+
      UInt32.ofInt ((rtTickPerSecond*(ms.toInt.tmod 1000)+999).tdiv 1000)

namespace State

def modify (k : State) (i : Nat) (change : Thread → Thread) : State :=
  {k with thread:=Function.update k.thread i (change (k.thread i))}

def setStat (k : State) (i : Nat) (stat : Stat) : State := k.modify i fun t => {t with stat:=stat}

-- rt_list_remove of a thread's tlist, whichever list it stands in.
def listRemove (k : State) (i : Nat) : State :=
  {k with
    rtThreadPriorityTable:=fun p => (k.rtThreadPriorityTable p).erase i
    suspendThread:=fun s => (k.suspendThread s).erase i}

def numberMask (p : Fin 32) : BitVec 32 := BitVec.twoPow 32 p.val

def readyInsert (k : State) (i : Nat) : State :=
  let p := (k.thread i).currentPriority
  {k.setStat i .ready with
    rtThreadPriorityTable:=Function.update k.rtThreadPriorityTable p (k.rtThreadPriorityTable p++[i])
    rtThreadReadyPriorityGroup:=k.rtThreadReadyPriorityGroup ||| numberMask p}

def rtScheduleInsertThread (k : State) (i : Nat) : State :=
  if i = k.rtCurrentThread then k.setStat i .running else k.readyInsert i

def rtScheduleRemoveThread (k : State) (i : Nat) : State :=
  let k := k.listRemove i
  let p := (k.thread i).currentPriority
  if k.rtThreadPriorityTable p = [] then
    {k with rtThreadReadyPriorityGroup:=k.rtThreadReadyPriorityGroup &&& ~~~numberMask p}
  else k

end State

-- __rt_ffs(value)-1: the lowest bit set.
def lowestBit (value : BitVec 32) : Option (Fin 32) := (List.finRange 32).find? fun p => value.getLsbD p.val

namespace State

def getHighestPriorityThread (k : State) : Option (Fin 32×Nat) := do
  let p ← lowestBit k.rtThreadReadyPriorityGroup
  let i ← (k.rtThreadPriorityTable p).head?
  return (p,i)

def Working (k : State) : Prop := (k.thread k.rtCurrentThread).stat = .running

instance (k : State) : Decidable k.Working := inferInstanceAs (Decidable (_ = _))

-- The running thread keeps the processor against the highest ready priority.
def Keeps (k : State) (p : Fin 32) : Prop :=
  (k.thread k.rtCurrentThread).currentPriority < p ∨
    ((k.thread k.rtCurrentThread).currentPriority = p ∧ (k.thread k.rtCurrentThread).yielded = false)

instance (k : State) (p : Fin 32) : Decidable (k.Keeps p) := inferInstanceAs (Decidable (_ ∨ _ ∧ _))

-- What rt_schedule does when the scheduler is not locked.
def dispatch (k : State) : State :=
  match k.getHighestPriorityThread with
  | none => k
  | some (p,highest) =>
    let toThread := if k.Working ∧ k.Keeps p then k.rtCurrentThread else highest
    let needInsertFromThread := k.Working ∧ ¬k.Keeps p
    let k := if needInsertFromThread then k.modify k.rtCurrentThread fun t => {t with yielded:=false} else k
    if toThread ≠ k.rtCurrentThread then
      let fromThread := k.rtCurrentThread
      let k := {k with rtCurrentThread:=toThread}
      let k := if needInsertFromThread then k.rtScheduleInsertThread fromThread else k
      (k.rtScheduleRemoveThread toThread).setStat toThread .running
    else (k.rtScheduleRemoveThread k.rtCurrentThread).setStat k.rtCurrentThread .running

def rtSchedule (k : State) : State := if k.rtSchedulerLockNest = 0 then k.dispatch else k

-- rt_device_find, rt_object_init, rt_object_find, the idle thread's clean-up and the timer thread
-- lock the scheduler. What rt_schedule was asked for meanwhile is done when the last lock goes.
def rtEnterCritical (k : State) : State := {k with rtSchedulerLockNest:=k.rtSchedulerLockNest+1}

-- What rt_exit_critical does with interrupts disabled.
def leaveCritical (k : State) : State :=
  {k with rtSchedulerLockNest:=if k.rtSchedulerLockNest-1 ≤ 0 then 0 else k.rtSchedulerLockNest-1}

def rtExitCritical (k : State) : State :=
  if k.rtSchedulerLockNest-1 ≤ 0 then k.leaveCritical.rtSchedule else k.leaveCritical

-- timer.c, with one skip list level.
def rtTimerStop (k : State) (i : Nat) : State :=
  if (k.thread i).timer.activated then
    ({k with rtTimerList:=k.rtTimerList.erase i}).modify i fun t => {t with timer:={t.timer with activated:=false}}
  else k

-- Behind every timer that is due no later, as far as half the range of ticks tells.
def insertTimer (thread : Nat → Thread) (timeoutTick : UInt32) (i : Nat) : List Nat → List Nat
  | [] => [i]
  | j::rest =>
    let gap := (thread j).timer.timeoutTick-timeoutTick
    if gap = 0 then j::insertTimer thread timeoutTick i rest
    else if gap < rtTickMax/2 then i::j::rest
    else j::insertTimer thread timeoutTick i rest

def rtTimerStart (k : State) (i : Nat) : State :=
  let timeoutTick := k.rtTick+(k.thread i).timer.initTick
  ({k with rtTimerList:=insertTimer k.thread timeoutTick i (k.rtTimerList.erase i)}).modify i fun t =>
    {t with timer:={t.timer with timeoutTick:=timeoutTick,activated:=true}}

def rtThreadSuspend (k : State) (i : Nat) : State :=
  if (k.thread i).stat ≠ .ready ∧ (k.thread i).stat ≠ .running then k
  else ((k.rtScheduleRemoveThread i).setStat i .suspend).rtTimerStop i

-- What rt_thread_resume does with interrupts disabled, before it inserts the thread.
def unlink (k : State) (i : Nat) : State := (k.listRemove i).rtTimerStop i

def rtThreadResume (k : State) (i : Nat) : State :=
  if (k.thread i).stat ≠ .suspend then k else (k.unlink i).rtScheduleInsertThread i

def rtThreadTimeout (k : State) (i : Nat) : State :=
  (((k.modify i fun t => {t with error:=eTimeout}).listRemove i).rtScheduleInsertThread i).rtSchedule

-- What one turn of rt_timer_check's loop does with the timer at the head.
def expire (k : State) (i : Nat) : State :=
  (({k with rtTimerList:=k.rtTimerList.erase i}).rtThreadTimeout i).modify i fun t =>
    {t with timer:={t.timer with activated:=false}}

def Due (k : State) (i : Nat) : Prop := k.rtTick-(k.thread i).timer.timeoutTick < rtTickMax/2

instance (k : State) (i : Nat) : Decidable (k.Due i) := inferInstanceAs (Decidable (_ < _))

-- The loop takes a timer off the list each time, so it turns at most as often as the
-- list is long.
def checkTimers : Nat → State → State
  | 0,k => k
  | turns+1,k =>
    match k.rtTimerList with
    | [] => k
    | i::_ => if k.Due i then checkTimers turns (k.expire i) else k

def rtTimerCheck (k : State) : State := checkTimers k.rtTimerList.length k

def rtTickIncrease (k : State) : State :=
  let k := {k with rtTick:=k.rtTick+1}
  let self := k.rtCurrentThread
  let k := k.modify self fun t => {t with remainingTick:=t.remainingTick-1}
  let k :=
    if (k.thread self).remainingTick = 0 then
      (k.modify self fun t => {t with remainingTick:=t.initTick,yielded:=true}).rtSchedule
    else k
  k.rtTimerCheck

-- The idle thread frees what the thread held, later.
def rtThreadExit (k : State) : State :=
  let self := k.rtCurrentThread
  (((k.rtScheduleRemoveThread self).setStat self .close).rtTimerStop self).rtSchedule

-- What rt_thread_startup stores before it calls rt_thread_resume.
def prepare (k : State) (i : Nat) : State := k.modify i fun t => {t with stat:=.suspend,yielded:=false}

def rtThreadStartup (k : State) (i : Nat) : State := ((k.prepare i).rtThreadResume i).rtSchedule

def rtThreadYield (k : State) : State := k.rtSchedule

-- RT_TIMER_CTRL_SET_TIME.
def rtTimerControl (k : State) (i : Nat) (tick : UInt32) : State :=
  k.modify i fun t => {t with timer:={t.timer with initTick:=tick}}

-- What rt_thread_sleep does with interrupts disabled.
def fallAsleep (k : State) (tick : UInt32) : State :=
  let self := k.rtCurrentThread
  ((k.rtThreadSuspend self).rtTimerControl self tick).rtTimerStart self

def rtThreadSleep (k : State) (tick : UInt32) : State := (k.fallAsleep tick).rtSchedule

-- The semaphores are all RT_IPC_FLAG_FIFO.
def rtIpcListSuspend (k : State) (sem i : Nat) : State :=
  let k := k.rtThreadSuspend i
  {k with suspendThread:=Function.update k.suspendThread sem (k.suspendThread sem++[i])}

-- A negative time waits forever.
def waitFor (k : State) (sem : Nat) (time : Int32) : State :=
  let self := k.rtCurrentThread
  let k := (k.modify self fun t => {t with error:=0}).rtIpcListSuspend sem self
  if time > 0 then (k.rtTimerControl self time.toUInt32).rtTimerStart self else k

-- What rt_sem_take does with interrupts disabled.
def takeOrWait (k : State) (sem : Nat) (time : Int32) : State :=
  if k.value sem > 0 then {k with value:=Function.update k.value sem (k.value sem-1)}
  else if time = 0 then k
  else k.waitFor sem time

def rtSemTake (k : State) (sem : Nat) (time : Int32) : State :=
  if k.value sem > 0 ∨ time = 0 then k.takeOrWait sem time else (k.takeOrWait sem time).rtSchedule

-- What rt_sem_release does with interrupts disabled.
def giveOrWake (k : State) (sem : Nat) : State :=
  match k.suspendThread sem with
  | [] => {k with value:=Function.update k.value sem (k.value sem+1)}
  | i::_ => k.rtThreadResume i

def rtSemRelease (k : State) (sem : Nat) : State :=
  match k.suspendThread sem with
  | [] => k.giveOrWake sem
  | _::_ => (k.giveOrWake sem).rtSchedule

end State

-- What happens between two moments at which an interrupt may come. No interrupt is more urgent
-- than the clock's (drv_common.c), so a tick is one event. A thread or an interrupt that calls
-- rt_schedule last does so in an event of its own, and rt_thread_yield is that event alone.
-- Nobody calls rt_thread_resume with interrupts enabled but rt_thread_startup.
inductive Event where
  | tick
  | sleep (tick : UInt32)
  | take (sem : Nat) (time : Int32)
  | release (sem : Nat)
  | suspend
  | startup (i : Nat)
  | unlink (i : Nat)
  | insert (i : Nat)
  | exit
  | lock
  | unlock
  | schedule
  deriving DecidableEq

def step (k : State) : Event → State
  | .tick => k.rtTickIncrease
  | .sleep tick => k.fallAsleep tick
  | .take sem time => k.takeOrWait sem time
  | .release sem => k.giveOrWake sem
  | .suspend => k.rtThreadSuspend k.rtCurrentThread
  | .startup i => k.prepare i
  | .unlink i => k.unlink i
  | .insert i => k.rtScheduleInsertThread i
  | .exit => k.rtThreadExit
  | .lock => k.rtEnterCritical
  | .unlock => k.leaveCritical
  | .schedule => k.rtSchedule

section Calls
variable (k : State)

theorem sleep_events (tick : UInt32) : k.rtThreadSleep tick = run step k [.sleep tick,.schedule] := rfl

theorem startup_events (i : Nat) :
    k.rtThreadStartup i = run step k [.startup i,.unlink i,.insert i,.schedule] := by
  simp [State.rtThreadStartup,State.rtThreadResume,State.prepare,State.modify,step]

theorem take_events (sem : Nat) (time : Int32) :
    k.rtSemTake sem time =
      if k.value sem > 0 ∨ time = 0 then run step k [.take sem time] else run step k [.take sem time,.schedule] := rfl

theorem release_events (sem : Nat) :
    k.rtSemRelease sem =
      if k.suspendThread sem = [] then run step k [.release sem] else run step k [.release sem,.schedule] := by
  unfold State.rtSemRelease
  cases waiting : k.suspendThread sem <;> rfl

theorem exitCritical_events : k.rtExitCritical = run step k [.unlock,.schedule] := by
  unfold State.rtExitCritical
  split
  · rfl
  · next more =>
    have locked : k.leaveCritical.rtSchedulerLockNest ≠ 0 := by
      intro free
      rw [State.leaveCritical,if_neg more] at free
      exact more (free ▸ Int16.le_refl 0)
    exact (if_neg locked).symm

end Calls

-- A thread that has suspended itself goes on to rt_schedule and nothing else; a tick or a
-- release may come from an interrupt. The idle thread never blocks nor ends, and no thread blocks or
-- ends while it holds the scheduler's lock. The bounds are the assertions of timer.c and thread.c.
def Allowed (idle : Nat) (k : State) : Event → Prop
  | .sleep tick => k.Working ∧ k.rtCurrentThread ≠ idle ∧ k.rtSchedulerLockNest = 0 ∧ tick < rtTickMax/2
  | .take _ time => k.Working ∧ k.rtCurrentThread ≠ idle ∧ k.rtSchedulerLockNest = 0 ∧ time ≠ Int32.maxValue
  | .suspend | .exit => k.Working ∧ k.rtCurrentThread ≠ idle ∧ k.rtSchedulerLockNest = 0
  | .startup i => k.Working ∧ (k.thread i).stat = .init
  | .unlink _ | .insert _ | .lock | .unlock => k.Working
  | .tick | .release _ | .schedule => True

instance (idle : Nat) (k : State) (e : Event) : Decidable (Allowed idle k e) :=
  match e with
  | .sleep _ => inferInstanceAs (Decidable (_ ∧ _ ∧ _ ∧ _))
  | .take _ _ => inferInstanceAs (Decidable (_ ∧ _ ∧ _ ∧ _))
  | .suspend | .exit => inferInstanceAs (Decidable (_ ∧ _ ∧ _))
  | .startup _ => inferInstanceAs (Decidable (_ ∧ _))
  | .unlink _ | .insert _ | .lock | .unlock => inferInstanceAs (Decidable (_ = _))
  | .tick | .release _ | .schedule => inferInstanceAs (Decidable True)

-- The threads whose rt_thread_startup is under way, as the event leaves them.
def starting (begun : List Nat) : Event → List Nat
  | .startup i => i::begun
  | .insert i => begun.erase i
  | _ => begun

-- The later parts of rt_thread_startup come after the first.
def Continues (begun : List Nat) : Event → Prop
  | .unlink i | .insert i => i ∈ begun
  | _ => True

instance (begun : List Nat) (e : Event) : Decidable (Continues begun e) :=
  match e with
  | .unlink i | .insert i => inferInstanceAs (Decidable (i ∈ begun))
  | .tick | .sleep _ | .take _ _ | .release _ | .suspend | .startup _ | .exit | .lock | .unlock | .schedule =>
    inferInstanceAs (Decidable True)

-- _rt_thread_init.
def rtThreadInit (priority : Fin 32) (tick : UInt32) : Thread where
  currentPriority := priority
  stat := .init
  yielded := false
  initTick := tick
  remainingTick := tick
  error := 0
  timer := {initTick:=0,timeoutTick:=0,activated:=false}

def startWith (k : State) (toThread : Nat) : State :=
  (({k with rtCurrentThread:=toThread}).rtScheduleRemoveThread toThread).setStat toThread .running

-- rt_system_scheduler_start: whichever of the threads made ready so far comes first.
def schedulerStart (k : State) : State :=
  match k.getHighestPriorityThread with
  | none => k
  | some (_,toThread) => startWith k toThread

-- The threads by number, with the priorities and slices they are created with, and the values
-- the semaphores start at.
structure Config where
  priority : Nat → Fin 32
  slice : Nat → UInt32
  value : Nat → UInt16
  main : Nat
  timer : Nat
  idle : Nat
  apart : [main,timer,idle].Nodup

-- rtthread_startup makes the main, timer and idle threads ready while there is no current thread.
def Config.made (c : Config) : State :=
  let empty : State :=
    {thread:=fun i => rtThreadInit (c.priority i) (c.slice i),rtThreadPriorityTable:=fun _ => []
     rtThreadReadyPriorityGroup:=0,rtCurrentThread:=c.idle,rtSchedulerLockNest:=0,rtTick:=0,rtTimerList:=[],value:=c.value
     suspendThread:=fun _ => []}
  ((empty.readyInsert c.main).readyInsert c.timer).readyInsert c.idle

def Config.boot (c : Config) : State := schedulerStart c.made

def Config.after (c : Config) (events : List Event) : State := run step c.boot events

def Config.Path (c : Config) (events : List Event) : Prop :=
  Along step (Allowed c.idle) c.boot events ∧ Along starting Continues [] events

instance (c : Config) (events : List Event) : Decidable (c.Path events) :=
  inferInstanceAs (Decidable (Along step (Allowed c.idle) c.boot events ∧ Along starting Continues [] events))

-- This program's threads: idle, the timer thread and main, then those main starts, in its
-- order: the battery, the probe's two, the companion's two, radar, gps, radio, manager, motors, gears.
def usv : Config where
  priority := fun i => [31,4,10,10,5,5,2,2,4,5,3,3,1,7].getD i 31
  slice := fun i => [32,10,20,5,5,5,20,5,5,5,5,5,10,10].getD i 5
  value := fun _ => 0
  main := 2
  timer := 1
  idle := 0
  apart := by decide

end Kernel
