import Mathlib.Data.List.Infix

namespace Runs
variable {σ ε τ κ γ : Type}

-- A deterministic machine consumes a finite list of occurrences from the left.
def run (step : σ → ε → σ) : σ → List ε → σ
  | s,[] => s
  | s,e::rest => run step (step s e) rest

@[simp] theorem run_nil (step : σ → ε → σ) : run step s [] = s := rfl
@[simp] theorem run_cons (step : σ → ε → σ) : run step s (e::rest) = run step (step s e) rest := rfl

theorem run_append (step : σ → ε → σ) :
    run step s (first++second) = run step (run step s first) second := by
  induction first generalizing s with
  | nil => rfl
  | cons e rest ih => exact ih

-- A condition on steps, judged in the state each step starts from.
def Along (step : σ → ε → σ) (allowed : σ → ε → Prop) : σ → List ε → Prop
  | _,[] => True
  | s,e::rest => allowed s e ∧ Along step allowed (step s e) rest

instance decidableAlong (step : σ → ε → σ) (allowed : σ → ε → Prop) [∀ s e, Decidable (allowed s e)] :
    (s : σ) → (events : List ε) → Decidable (Along step allowed s events)
  | _,[] => isTrue trivial
  | s,e::rest =>
    have := decidableAlong step allowed (step s e) rest
    inferInstanceAs (Decidable (allowed s e ∧ Along step allowed (step s e) rest))

theorem along_append (step : σ → ε → σ) (allowed : σ → ε → Prop) :
    Along step allowed s (first++second) ↔
      Along step allowed s first ∧ Along step allowed (run step s first) second := by
  induction first generalizing s with
  | nil => simp [Along]
  | cons e rest ih => simp only [List.cons_append,Along,run_cons,ih,and_assoc]

theorem along_exact (step : σ → ε → σ) (allowed : σ → ε → Prop) :
    Along step allowed s events ↔
      ∀ earlier e later, events = earlier++e::later → allowed (run step s earlier) e := by
  constructor
  · intro path earlier e later split
    subst split
    exact ((along_append step allowed).mp path).2.1
  · intro every
    induction events generalizing s with
    | nil => trivial
    | cons e rest ih =>
      refine ⟨every [] e rest rfl,ih ?_⟩
      intro earlier f later split
      exact every (e::earlier) f later (by rw [split,List.cons_append])

theorem Along.imp {step : σ → ε → σ} {weak strong : σ → ε → Prop}
    (implied : ∀ s e, strong s e → weak s e) (path : Along step strong s events) :
    Along step weak s events := by
  induction events generalizing s with
  | nil => trivial
  | cons e rest ih => exact ⟨implied s e path.1,ih path.2⟩

theorem Along.and {step : σ → ε → σ} {left right : σ → ε → Prop}
    (first : Along step left s events) (second : Along step right s events) :
    Along step (fun s e => left s e ∧ right s e) s events := by
  induction events generalizing s with
  | nil => trivial
  | cons e rest ih => exact ⟨⟨first.1,second.1⟩,ih first.2 second.2⟩

theorem along_every (step : σ → ε → σ) {allowed : ε → Prop} (every : ∀ e ∈ events, allowed e) :
    Along step (fun _ e => allowed e) s events := by
  induction events generalizing s with
  | nil => trivial
  | cons e rest ih =>
    exact ⟨every e List.mem_cons_self,ih fun f member => every f (List.mem_cons_of_mem _ member)⟩

theorem Along.congr {step : σ → ε → σ} {left right : σ → ε → Prop}
    (same : Along step (fun s e => left s e ↔ right s e) s events) :
    Along step left s events ↔ Along step right s events :=
  ⟨fun path => (path.and same).imp fun _ _ both => both.2.mp both.1,
    fun path => (path.and same).imp fun _ _ both => both.2.mpr both.1⟩

theorem along_congr {step : σ → ε → σ} {left right : σ → ε → Prop}
    (same : ∀ s e, left s e ↔ right s e) :
    Along step left s events ↔ Along step right s events :=
  ⟨Along.imp fun s e => (same s e).mp,Along.imp fun s e => (same s e).mpr⟩

theorem invariant_run {step : σ → ε → σ} {allowed : σ → ε → Prop} {invariant : σ → Prop}
    (preserved : ∀ s e, invariant s → allowed s e → invariant (step s e))
    (initial : invariant s) (path : Along step allowed s events) :
    invariant (run step s events) := by
  induction events generalizing s with
  | nil => exact initial
  | cons e rest ih => exact ih (preserved s e initial path.1) path.2

theorem invariant_along {step : σ → ε → σ} {allowed established : σ → ε → Prop} {invariant : σ → Prop}
    (preserved : ∀ s e, invariant s → allowed s e → invariant (step s e))
    (establishes : ∀ s e, invariant s → allowed s e → established s e)
    (initial : invariant s) (path : Along step allowed s events) :
    Along step established s events := by
  induction events generalizing s with
  | nil => trivial
  | cons e rest ih =>
    exact ⟨establishes s e initial path.1,ih (preserved s e initial path.1) path.2⟩

-- Two conditions that agree wherever the invariant holds, which the second one keeps.
theorem along_exchange {step : σ → ε → σ} {allowed left right : σ → ε → Prop} {invariant : σ → Prop}
    (same : ∀ s e, invariant s → allowed s e → (left s e ↔ right s e))
    (preserved : ∀ s e, invariant s → allowed s e → right s e → invariant (step s e))
    (initial : invariant s) (path : Along step allowed s events) :
    Along step left s events ↔ Along step right s events := by
  induction events generalizing s with
  | nil => exact Iff.rfl
  | cons e rest ih =>
    have here := same s e initial path.1
    constructor
    · intro before
      have next := preserved s e initial path.1 (here.mp before.1)
      exact ⟨here.mp before.1,(ih next path.2).mp before.2⟩
    · intro before
      have next := preserved s e initial path.1 before.1
      exact ⟨here.mpr before.1,(ih next path.2).mpr before.2⟩

def Reached (step : σ → ε → σ) (start s : σ) : Prop := ∃ events, run step start events = s

theorem Reached.invariant {step : σ → ε → σ} {invariant : σ → Prop}
    (preserved : ∀ s e, invariant s → invariant (step s e)) (initial : invariant start)
    (reached : Reached step start s) : invariant s := by
  obtain ⟨events,rfl⟩ := reached
  induction events generalizing start with
  | nil => exact initial
  | cons e rest ih => exact ih (preserved start e initial)

theorem Reached.run {step : σ → ε → σ} (reached : Reached step start s) (events : List ε) :
    Reached step start (run step s events) := by
  obtain ⟨earlier,rfl⟩ := reached
  exact ⟨earlier++events,run_append step⟩

-- Each concrete step is a finite run of the abstract machine, so is each run.
theorem run_refines {step : σ → ε → σ} {abstract : τ → κ → τ} (view : σ → τ)
    (matched : ∀ s e, Reached abstract (view s) (view (step s e))) (s : σ) (events : List ε) :
    Reached abstract (view s) (view (run step s events)) := by
  induction events generalizing s with
  | nil => exact ⟨[],rfl⟩
  | cons e rest ih =>
    obtain ⟨first,firstRun⟩ := matched s e
    obtain ⟨second,secondRun⟩ := ih (step s e)
    exact ⟨first++second,by rw [run_append,firstRun,secondRun,run_cons]⟩

-- An observer rides along: it sees every step and changes none of them.
def observed (step : σ → ε → σ) (observe : γ → σ → ε → γ) (s : σ×γ) (e : ε) : σ×γ :=
  (step s.1 e,observe s.2 s.1 e)

theorem Along.observed {step : σ → ε → σ} {allowed : σ → ε → Prop} (observe : γ → σ → ε → γ) (seen : γ)
    (path : Along step allowed s events) :
    Along (Runs.observed step observe) (fun p e => allowed p.1 e) (s,seen) events := by
  induction events generalizing s seen with
  | nil => trivial
  | cons e rest ih => exact ⟨path.1,ih (observe seen s e) path.2⟩

end Runs
