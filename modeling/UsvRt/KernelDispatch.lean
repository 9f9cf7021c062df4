import UsvRt.KernelSleep

-- Which thread has the processor.
namespace Kernel
open Runs State

-- Every function that readies a thread or stops one goes on to rt_schedule.
theorem after_settled (c : Config) {earlier later : List Event} (path : c.Path (earlier++.schedule::later))
    (ticks : ∀ e ∈ later, e = .tick) (unlocked : (c.after (earlier++.schedule::later)).rtSchedulerLockNest = 0) :
    (c.after (earlier++.schedule::later)).Settled := by
  have linked := after_linked c ((along_append step _).mp (path_safe c path)).1
  have next := step_linked linked (safe_schedule _ _)
  rw [Config.after,run_append] at unlocked ⊢
  show (run step (step (c.after earlier) .schedule) later).Settled
  have still := (ticks_lock next ticks).symm.trans unlocked
  have before := (schedule_dispatched linked).lock.symm.trans still
  exact ticks_settled next still (schedule_settled linked before) ticks

end Kernel
