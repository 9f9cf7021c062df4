import UsvRt.Runs

-- One consumer polls a queue and suspends itself on a counting semaphore when it finds the
-- queue empty. A producer may interrupt it anywhere, append items and release the semaphore.
namespace Wakeups
open Runs
variable {α : Type}

inductive Phase (α : Type) where
  | reading
  | missed
  | suspended
  | holding (item : α)
deriving DecidableEq

def Phase.held : Phase α → List α
  | .holding item => [item]
  | _ => []

inductive Event (α : Type) where
  | interrupt (items : List α)
  | turn

structure Line (α : Type) where
  queue : List α
  permits : Nat
  phase : Phase α
  handed : List α

namespace Line

def release (l : Line α) : Line α :=
  match l.phase with
  | .suspended => {l with phase:=.reading}
  | _ => {l with permits:=l.permits+1}

def interrupt (l : Line α) (items : List α) : Line α :=
  if (l.queue++items).isEmpty then l else release {l with queue:=l.queue++items}

def turn (l : Line α) : Line α :=
  match l.phase,l.queue,l.permits with
  | .reading,[],_ => {l with phase:=.missed}
  | .reading,item::rest,_ => {l with queue:=rest,phase:=.holding item}
  | .missed,_,0 => {l with phase:=.suspended}
  | .missed,_,permits+1 => {l with permits:=permits,phase:=.reading}
  | .suspended,_,_ => l
  | .holding item,_,_ => {l with handed:=l.handed++[item],phase:=.reading}

def step (l : Line α) : Event α → Line α
  | .interrupt items => l.interrupt items
  | .turn => l.turn

-- Permits may outnumber the items, for reading takes none. What counts is the window
-- between the read that found nothing and the suspension.
structure Watched (l : Line α) : Prop where
  missed : l.phase = .missed → l.queue ≠ [] → 0 < l.permits
  suspended : l.phase = .suspended → l.queue = []

def items (l : Line α) : List α := l.handed++(l.phase.held++l.queue)

@[simp] theorem release_items (l : Line α) : l.release.items = l.items := by
  unfold release
  split
  · next phase => simp only [items,phase,Phase.held]
  · rfl

theorem release_watched (l : Line α) : l.release.Watched := by
  unfold release
  split
  · exact ⟨nofun,nofun⟩
  · next awake => exact ⟨fun _ _ => Nat.succ_pos _,fun asleep => absurd asleep awake⟩

theorem interrupt_watched (watched : Watched l) (arrived : List α) : (l.interrupt arrived).Watched := by
  unfold interrupt
  split
  · exact watched
  · exact release_watched _

theorem turn_watched (watched : Watched l) : (turn l : Line α).Watched := by
  obtain ⟨queue,permits,phase,handed⟩ := l
  cases phase with
  | reading =>
    cases queue with
    | nil => exact ⟨fun _ some => absurd rfl some,nofun⟩
    | cons item rest => exact ⟨nofun,nofun⟩
  | missed =>
    cases permits with
    | zero =>
      refine ⟨nofun,fun _ => ?_⟩
      by_contra some
      exact Nat.not_lt_zero _ (watched.missed rfl some)
    | succ permits => exact ⟨nofun,nofun⟩
  | suspended => exact watched
  | holding item => exact ⟨nofun,nofun⟩

theorem step_watched (watched : Watched l) (e : Event α) : (l.step e).Watched := by
  cases e with
  | interrupt arrived => exact interrupt_watched watched arrived
  | turn => exact turn_watched watched

theorem interrupt_items (l : Line α) (arrived : List α) : (l.interrupt arrived).items = l.items++arrived := by
  unfold interrupt
  split
  · next none =>
    obtain ⟨_,empty⟩ := List.append_eq_nil_iff.mp (List.isEmpty_iff.mp none)
    rw [empty,List.append_nil]
  · rw [release_items]
    simp only [items,List.append_assoc]

theorem turn_items (l : Line α) : l.turn.items = l.items := by
  obtain ⟨queue,permits,phase,handed⟩ := l
  cases phase with
  | reading => cases queue <;> rfl
  | missed => cases permits <;> rfl
  | suspended => rfl
  | holding item => simp [turn,items,Phase.held]

end Line

def arrived : List (Event α) → List α
  | [] => []
  | .interrupt items::rest => items++arrived rest
  | .turn::rest => arrived rest

namespace Line

theorem run_watched (watched : Watched l) (events : List (Event α)) : (run step l events).Watched :=
  Reached.invariant (fun _ e kept => step_watched kept e) watched ⟨events,rfl⟩

theorem run_items (l : Line α) (events : List (Event α)) : (run step l events).items = l.items++arrived events := by
  induction events generalizing l with
  | nil => exact (List.append_nil _).symm
  | cons e rest ih =>
    rw [run_cons,ih]
    cases e with
    | interrupt items => rw [step,interrupt_items,List.append_assoc]; rfl
    | turn => rw [step,turn_items]; rfl

-- How many turns are left before the consumer sleeps, if nothing interrupts it.
def work (l : Line α) : Nat :=
  2*l.queue.length+2*l.permits+
    match l.phase with
    | .reading => 2
    | .missed => 1
    | .suspended => 0
    | .holding _ => 3

theorem turn_work (l : Line α) : l.phase = .suspended ∨ l.turn.work < l.work := by
  obtain ⟨queue,permits,phase,handed⟩ := l
  cases phase with
  | reading =>
    cases queue with
    | nil => simp [turn,work]
    | cons item rest => simp [turn,work]; omega
  | missed =>
    cases permits with
    | zero => simp [turn,work]
    | succ permits => simp [turn,work]; omega
  | suspended => exact .inl rfl
  | holding item => simp [turn,work]

theorem turns_suspended (suspended : l.phase = .suspended) (turns : Nat) :
    run step l (List.replicate turns (.turn : Event α)) = l := by
  have still : l.turn = l := by
    obtain ⟨queue,permits,phase,handed⟩ := l
    subst suspended
    rfl
  induction turns with
  | zero => rfl
  | succ turns ih => rw [List.replicate_succ,run_cons,step,still,ih]

theorem turns_suspend (l : Line α) (enough : l.work ≤ turns) :
    (run step l (List.replicate turns .turn)).phase = .suspended := by
  induction turns generalizing l with
  | zero =>
    rcases turn_work l with suspended | less
    · exact suspended
    · omega
  | succ turns ih =>
    rcases turn_work l with suspended | less
    · rw [turns_suspended suspended]
      exact suspended
    · exact ih l.turn (by omega)

theorem arrived_turns (turns : Nat) : arrived (List.replicate turns (.turn : Event α)) = [] := by
  induction turns with
  | zero => rfl
  | succ turns ih => exact ih

-- A sleeping consumer has been handed everything, and left alone it comes to sleep.
theorem suspended_handed (watched : Watched l) (suspended : l.phase = .suspended) :
    l.handed = (l : Line α).items := by
  rw [items,suspended,watched.suspended suspended]
  exact (List.append_nil _).symm

theorem turns_handed (watched : Watched l) (enough : (work l : Nat) ≤ turns) :
    (run step l (List.replicate turns (.turn : Event α))).handed = l.items := by
  rw [suspended_handed (run_watched watched _) (turns_suspend l enough),run_items,arrived_turns,List.append_nil]

end Line
end Wakeups
