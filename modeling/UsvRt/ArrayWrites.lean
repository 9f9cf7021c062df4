import Mathlib.Logic.Function.Basic

-- A memory of named arrays and the writes a program makes to it, one cell each. A write
-- past the end changes nothing here, so whether one is made is a question of its own.
namespace ArrayWrites
variable {ι α : Type}

structure Write (ι α : Type) where
  into : ι
  index : Nat
  value : α
  deriving DecidableEq

def Inside (size : ι → Nat) (w : Write ι α) : Prop := w.index < size w.into

instance (size : ι → Nat) (w : Write ι α) : Decidable (Inside size w) := inferInstanceAs (Decidable (_ < _))

-- Every array has the cells it was declared with.
def Fits (size : ι → Nat) (memory : ι → List α) : Prop := ∀ i, (memory i).length = size i

def store (cells : List α) (w : Write ι α) : List α := cells.set w.index w.value

variable [DecidableEq ι]

def put (memory : ι → List α) (w : Write ι α) : ι → List α :=
  Function.update memory w.into (store (memory w.into) w)

def putAll (memory : ι → List α) (writes : List (Write ι α)) : ι → List α := writes.foldl put memory

theorem putAll_append (memory : ι → List α) (first second : List (Write ι α)) :
    putAll memory (first++second) = putAll (putAll memory first) second := List.foldl_append

theorem put_fits (fits : Fits size memory) (w : Write ι α) : Fits size (put memory w) := by
  intro i
  unfold put
  by_cases same : i = w.into
  · subst same
    rw [Function.update_self,store,List.length_set]
    exact fits w.into
  · rw [Function.update_of_ne same]
    exact fits i

theorem putAll_fits (fits : Fits size memory) (writes : List (Write ι α)) : Fits size (putAll memory writes) := by
  induction writes generalizing memory with
  | nil => exact fits
  | cons w rest ih => exact ih (put_fits fits w)

-- Writes to one array leave the others alone.
theorem putAll_array (i : ι) (memory : ι → List α) (writes : List (Write ι α)) (every : ∀ w ∈ writes, w.into = i) :
    putAll memory writes = Function.update memory i (writes.foldl store (memory i)) := by
  induction writes generalizing memory with
  | nil => exact (Function.update_eq_self i memory).symm
  | cons w rest ih =>
    have here := every w List.mem_cons_self
    subst here
    change putAll (put memory w) rest = _
    rw [ih (put memory w) fun later member => every later (List.mem_cons_of_mem _ member),put,Function.update_self,
      Function.update_idem]
    rfl

theorem putAll_exact (every : ∀ w ∈ writes, w.into = i) (here : next i = writes.foldl store (memory i))
    (others : ∀ j ≠ i, next j = memory j) : next = putAll memory (writes : List (Write ι α)) := by
  rw [putAll_array i memory writes every]
  exact Function.eq_update_iff.mpr ⟨here,others⟩

end ArrayWrites
