import Mathlib.Algebra.Order.Ring.Nat
import Mathlib.Data.Nat.Dist
import Mathlib.Logic.Function.Iterate
import Mathlib.Tactic.Ring

-- A value led towards a target by a fixed pace, as ramps in drives are.
namespace Ramp

def approach (pace target current : Nat) : Nat :=
  if current = target then current else if target < current then current - pace else current + pace

-- Range and alignment together: an aligned value inside aligned borders cannot
-- step over one of them, although a target between two values is never met.
structure Within (pace low high current : Nat) : Prop where
  above : low ≤ current
  below : current ≤ high
  aligned : pace ∣ current - low

instance (pace low high current : Nat) : Decidable (Within pace low high current) :=
  decidable_of_iff (low ≤ current ∧ current ≤ high ∧ pace ∣ current - low)
    ⟨fun ⟨above,below,aligned⟩ => ⟨above,below,aligned⟩,fun within => ⟨within.above,within.below,within.aligned⟩⟩

theorem Within.approach {pace low high current target : Nat} (within : Within pace low high current)
    (border : pace ∣ high - low) (above : low ≤ target) (below : target ≤ high) :
    Within pace low high (approach pace target current) := by
  obtain ⟨steps,aligned⟩ := within.aligned
  obtain ⟨limit,width⟩ := border
  have lower := within.above
  have upper := within.below
  have current_eq : current = low + pace*steps := by omega
  have high_eq : high = low + pace*limit := by omega
  unfold Ramp.approach
  split
  · exact within
  · split
    · rename_i apart down
      have positive : 0 < steps := by
        rcases Nat.eq_zero_or_pos steps with zero | positive
        · subst zero; omega
        · exact positive
      obtain ⟨fewer,rfl⟩ : ∃ fewer, steps = fewer+1 := ⟨steps-1,by omega⟩
      rw [Nat.mul_add,Nat.mul_one] at current_eq
      have lowered : current - pace = low + pace*fewer := by omega
      exact ⟨by omega,by omega,⟨fewer,by omega⟩⟩
    · rename_i apart down
      have room : pace*steps < pace*limit := by omega
      have next : steps+1 ≤ limit := Nat.lt_of_mul_lt_mul_left room
      have fits : pace*(steps+1) ≤ pace*limit := Nat.mul_le_mul_left pace next
      rw [Nat.mul_add,Nat.mul_one] at fits
      exact ⟨by omega,by omega,⟨steps+1,by rw [Nat.mul_add,Nat.mul_one]; omega⟩⟩

theorem approach_arrived (pace target : Nat) : approach pace target target = target := by
  simp [approach]

theorem dist_approach (target current : Nat) :
    Nat.dist (approach 1 target current) target = Nat.dist current target - 1 := by
  unfold approach Nat.dist
  split
  · omega
  · split <;> omega

theorem approach_near (pace target current : Nat) : Nat.dist (approach pace target current) current ≤ pace := by
  unfold approach Nat.dist
  split
  · omega
  · split <;> omega

-- A pace of two may step over a target one away from it and is then one away again.
theorem approach_closer {pace : Nat} (short : pace ≤ 2) (target current : Nat) :
    Nat.dist (approach pace target current) target ≤ Nat.dist current target := by
  unfold approach Nat.dist
  split
  · omega
  · split <;> omega

theorem iterate_arrived (pace target count : Nat) : (approach pace target)^[count] target = target := by
  induction count with
  | zero => rfl
  | succ count ih => rw [Function.iterate_succ_apply,approach_arrived,ih]

theorem iterate_down {pace : Nat} (positive : 0 < pace) (target steps count : Nat) (enough : steps ≤ count) :
    (approach pace target)^[count] (target + pace*steps) = target := by
  induction steps generalizing count with
  | zero => simpa using iterate_arrived pace target count
  | succ steps ih =>
    obtain ⟨rest,rfl⟩ : ∃ rest, count = rest+1 := ⟨count-1,by omega⟩
    have step : approach pace target (target + pace*(steps+1)) = target + pace*steps := by
      have grown : pace*(steps+1) = pace*steps + pace := by ring
      unfold approach
      rw [if_neg (by omega),if_pos (by omega)]
      omega
    rw [Function.iterate_succ_apply,step]
    exact ih rest (by omega)

theorem iterate_up {pace : Nat} (positive : 0 < pace) (current steps count : Nat) (enough : steps ≤ count) :
    (approach pace (current + pace*steps))^[count] current = current + pace*steps := by
  induction steps generalizing current count with
  | zero => simpa using iterate_arrived pace current count
  | succ steps ih =>
    obtain ⟨rest,rfl⟩ : ∃ rest, count = rest+1 := ⟨count-1,by omega⟩
    have target_eq : current + pace*(steps+1) = current + pace + pace*steps := by ring
    have step : approach pace (current + pace + pace*steps) current = current + pace := by
      unfold approach
      rw [if_neg (by omega),if_neg (by omega)]
    rw [Function.iterate_succ_apply,target_eq,step]
    exact ih (current+pace) rest (by omega)

-- Inside aligned borders every aligned target is met, as soon as the paces taken
-- cover the way to it.
theorem Within.arrives {pace low high current target count : Nat} (positive : 0 < pace)
    (within : Within pace low high current) (goal : Within pace low high target)
    (fromAbove : current ≤ target + pace*count) (fromBelow : target ≤ current + pace*count) :
    (Ramp.approach pace target)^[count] current = target := by
  obtain ⟨steps,aligned⟩ := within.aligned
  obtain ⟨wanted,goalAligned⟩ := goal.aligned
  have lower := within.above
  have goalLower := goal.above
  rcases Nat.le_total wanted steps with down | up
  · obtain ⟨extra,rfl⟩ := Nat.exists_eq_add_of_le down
    rw [Nat.mul_add] at aligned
    have current_eq : current = target + pace*extra := by omega
    have fits : extra ≤ count := Nat.le_of_mul_le_mul_left (by omega : pace*extra ≤ pace*count) positive
    rw [current_eq]
    exact iterate_down positive target extra count fits
  · obtain ⟨extra,rfl⟩ := Nat.exists_eq_add_of_le up
    rw [Nat.mul_add] at goalAligned
    have target_eq : target = current + pace*extra := by omega
    have fits : extra ≤ count := Nat.le_of_mul_le_mul_left (by omega : pace*extra ≤ pace*count) positive
    rw [target_eq]
    exact iterate_up positive current extra count fits

end Ramp
