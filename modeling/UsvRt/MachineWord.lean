import Mathlib.Tactic.NormNum
import Mathlib.Data.UInt
import Mathlib.RingTheory.Coprime.Lemmas

-- Two's complement conversions between 32-bit words and integers, and the
-- clock that stamps an unbounded count of ticks with its low 32 bits.
namespace MachineWord

def asInt (word : UInt32) : Int :=
  if word.toNat < 2^31 then (word.toNat : Int) else (word.toNat : Int) - 2^32

def wrap (value : Int) : Int := asInt (UInt32.ofInt value)

theorem ofInt_toNat (value : Int) : ((UInt32.ofInt value).toNat : Int) = value % 2^32 := by
  have positive : 0 ≤ value % 2^32 := Int.emod_nonneg _ (by decide)
  have bound : value % 2^32 < 2^32 := Int.emod_lt_of_pos _ (by decide)
  rw [UInt32.ofInt,UInt32.toNat_ofNat']
  omega

theorem ofInt_small {value : Int} (low : 0 ≤ value) (high : value < 2^32) :
    ((UInt32.ofInt value).toNat : Int) = value := by
  rw [ofInt_toNat]; omega

theorem wrap_range (value : Int) : -2^31 ≤ wrap value ∧ wrap value < 2^31 := by
  have word := ofInt_toNat value
  unfold wrap asInt
  split <;> omega

theorem wrap_exact {value : Int} (low : -2^31 ≤ value) (high : value < 2^31) : wrap value = value := by
  have word := ofInt_toNat value
  unfold wrap asInt
  split <;> omega

theorem wrap_congruent (value : Int) : wrap value % 2^32 = value % 2^32 := by
  have word := ofInt_toNat value
  unfold wrap asInt
  split <;> omega

-- A multiple of eight times an odd number is a whole number of turns only by the other factor.
theorem word_turns {odd : Int} (coprime : IsCoprime (2^29) odd) (x : Int) : 8*(odd*x) % 2^32 = 0 ↔ x % 2^29 = 0 := by
  have word : (2^32 : Int) = 8*2^29 := by decide
  rw [word,← Int.dvd_iff_emod_eq_zero,← Int.dvd_iff_emod_eq_zero,Int.mul_dvd_mul_iff_left (by decide)]
  exact ⟨coprime.dvd_of_dvd_mul_left,fun turns => turns.mul_left odd⟩

theorem asInt_congruent (word : UInt32) : asInt word % 2^32 = word.toNat := by
  have bound := word.toNat_lt
  unfold asInt
  split <;> omega

def stamp (ticks : Nat) : UInt32 := UInt32.ofNat ticks

theorem stamp_toNat (ticks : Nat) : (stamp ticks).toNat = ticks % 2^32 := UInt32.toNat_ofNat'

-- A difference of stamps is the true age reduced by whole turns of the counter.
theorem age_toNat {earlier later : Nat} (order : earlier ≤ later) :
    (stamp later - stamp earlier).toNat = (later - earlier) % 2^32 := by
  rw [UInt32.toNat_sub,stamp_toNat,stamp_toNat]
  omega

theorem age_exact {earlier later : Nat} (order : earlier ≤ later) (near : later - earlier < 2^32) :
    (stamp later - stamp earlier).toNat = later - earlier := by
  rw [age_toNat order]; omega

theorem age_le {earlier later : Nat} (order : earlier ≤ later) :
    (stamp later - stamp earlier).toNat ≤ later - earlier := by
  rw [age_toNat order]; exact Nat.mod_le _ _

end MachineWord
