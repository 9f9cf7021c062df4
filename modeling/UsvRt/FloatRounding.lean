import Mathlib.Algebra.Order.Floor.Ring
import Mathlib.Algebra.Ring.Int.Parity
import Mathlib.Data.Int.Log
import Mathlib.Data.Rat.Cast.Defs
import Mathlib.Tactic.Linarith
import Mathlib.Tactic.Positivity
import Mathlib.Tactic.Ring

-- Rounding to a binary floating-point format: to the nearest value, and at a midpoint
-- to the even one. The exponent has no limits, as wherever nothing over- or underflows.
namespace FloatRounding

variable {K : Type} [Field K] [LinearOrder K] [FloorRing K]

def Down (x : K) : Prop := Int.fract x+Int.fract x < 1 ∨ (Int.fract x+Int.fract x = 1 ∧ Even ⌊x⌋)

instance (x : K) : Decidable (Down x) := inferInstanceAs (Decidable (_ ∨ _ ∧ _))

def roundEven (x : K) : Int := if Down x then ⌊x⌋ else ⌊x⌋+1

-- The weight of the last of p significant binary digits.
def place (p : Nat) (x : K) : K := ((2 : Nat) : K)^(Int.log 2 |x| - p + 1)

def nearest (p : Nat) (x : K) : K := roundEven (x/place p x)*place p x

-- The two formats of C's float and double.
def single (x : K) : K := nearest 24 x
def double (x : K) : K := nearest 53 x

theorem place_two (p : Nat) (x : K) : place p x = 2^(Int.log 2 |x| - p + 1) := by rw [place,Nat.cast_ofNat]

theorem floor_le_roundEven (x : K) : ⌊x⌋ ≤ roundEven x := by
  unfold roundEven
  split <;> omega

theorem roundEven_le (x : K) : roundEven x ≤ ⌊x⌋+1 := by
  unfold roundEven
  split <;> omega

-- What is stored is a fraction, whatever was to be stored.
theorem nearest_rational (p : Nat) (x : K) : ∃ q : ℚ, nearest p x = q := by
  refine ⟨roundEven (x/place p x)*2^(Int.log 2 |x| - p + 1),?_⟩
  rw [nearest,place_two]
  push_cast
  rfl

variable [IsStrictOrderedRing K]

theorem roundEven_mono {x y : K} (below : x ≤ y) : roundEven x ≤ roundEven y := by
  rcases (Int.floor_mono below).lt_or_eq with apart | same
  · exact (roundEven_le x).trans ((Int.add_one_le_of_lt apart).trans (floor_le_roundEven y))
  by_cases down : Down y
  · have part : Int.fract x ≤ Int.fract y := by
      unfold Int.fract
      rw [same]
      linarith
    have lower : Down x := by
      rcases down with under | ⟨half,even⟩
      · exact .inl (by linarith)
      · rcases part.lt_or_eq with less | equal
        · exact .inl (by linarith)
        · exact .inr ⟨by rw [equal]; exact half,by rw [same]; exact even⟩
    unfold roundEven
    rw [if_pos down,if_pos lower,same]
  · have upper : roundEven y = ⌊y⌋+1 := if_neg down
    rw [upper,← same]
    exact roundEven_le x

theorem roundEven_intCast (n : Int) : roundEven (n : K) = n := by
  have down : Down (n : K) := by
    left
    rw [Int.fract_intCast]
    linarith
  unfold roundEven
  rw [if_pos down,Int.floor_intCast]

theorem roundEven_near (x : K) : |(roundEven x : K) - x| ≤ 1/2 := by
  have whole := Int.floor_add_fract x
  have low := Int.fract_nonneg x
  have high := Int.fract_lt_one x
  unfold roundEven
  rw [abs_le]
  split
  · rename_i down
    have half : Int.fract x+Int.fract x ≤ 1 := by
      rcases down with under | ⟨equal,_⟩
      · exact under.le
      · exact equal.le
    constructor <;> linarith
  · rename_i up
    have half : 1 ≤ Int.fract x+Int.fract x := not_lt.mp fun under => up (.inl under)
    push_cast
    constructor <;> linarith

theorem roundEven_neg (x : K) : roundEven (-x) = -roundEven x := by
  by_cases zero : Int.fract x = 0
  · have integer : x = (⌊x⌋ : K) := by
      have whole := Int.floor_add_fract x
      rw [zero,add_zero] at whole
      exact whole.symm
    rw [integer,← Int.cast_neg,roundEven_intCast,roundEven_intCast]
  have part := Int.fract_neg zero
  have floor : ⌊-x⌋ = -⌊x⌋-1 := by
    have whole := Int.floor_add_fract x
    rw [Int.floor_eq_iff]
    have low := Int.fract_nonneg x
    have positive : 0 < Int.fract x := low.lt_of_ne (Ne.symm zero)
    have high := Int.fract_lt_one x
    push_cast
    constructor <;> linarith
  -- A midpoint goes to the one even neighbour, on either side of zero.
  have parity : Even (-⌊x⌋-1) ↔ ¬Even ⌊x⌋ := by
    rw [Int.even_sub_one,even_neg]
  have turned : Down (-x) ↔ ¬Down x := by
    unfold Down
    rw [part,floor,parity]
    constructor
    · rintro (under | ⟨half,odd⟩) (beyond | ⟨_,even⟩)
      · linarith
      · linarith
      · linarith
      · exact odd even
    · intro up
      rw [not_or,not_and] at up
      obtain ⟨least,odd⟩ := up
      rcases (not_lt.mp least).lt_or_eq with above | half
      · exact .inl (by linarith)
      · exact .inr ⟨by linarith,odd half.symm⟩
  unfold roundEven
  rw [floor]
  by_cases down : Down x
  · rw [if_pos down,if_neg (fun other => turned.mp other down)]
    omega
  · rw [if_neg down,if_pos (turned.mpr down)]
    omega

theorem place_pos (p : Nat) (x : K) : 0 < place p x := by
  rw [place_two]
  exact zpow_pos two_pos _

@[simp] theorem nearest_zero (p : Nat) : nearest p (0 : K) = 0 := by
  have none : roundEven (0 : K) = 0 := by
    have fixed := roundEven_intCast (K:=K) 0
    rwa [Int.cast_zero] at fixed
  unfold nearest
  rw [zero_div,none,Int.cast_zero,zero_mul]

theorem nearest_neg (p : Nat) (x : K) : nearest p (-x) = -nearest p x := by
  have same : place p (-x) = place p x := by
    rw [place,place,abs_neg]
  unfold nearest
  rw [same,neg_div,roundEven_neg,Int.cast_neg,neg_mul]

theorem nearest_error (p : Nat) (x : K) : |nearest p x - x| ≤ |x|/2^p := by
  rcases eq_or_ne x 0 with rfl | filled
  · simp
  have positive := place_pos p x
  have below := Int.zpow_log_le_self (b:=2) (by decide) (abs_pos.mpr filled)
  have last : place p x/2 = (2 : K)^Int.log 2 |x|/2^p := by
    rw [place_two,zpow_add₀ two_ne_zero,zpow_sub₀ two_ne_zero,zpow_one,zpow_natCast]
    ring
  have scaled : nearest p x - x = ((roundEven (x/place p x) : K) - x/place p x)*place p x := by
    unfold nearest
    rw [sub_mul,div_mul_cancel₀ _ positive.ne']
  calc |nearest p x - x| = |(roundEven (x/place p x) : K) - x/place p x| * place p x := by
        rw [scaled,abs_mul,abs_of_pos positive]
    _ ≤ 1/2*place p x := mul_le_mul_of_nonneg_right (roundEven_near _) positive.le
    _ = (2 : K)^Int.log 2 |x|/2^p := by rw [← last]; ring
    _ ≤ |x|/2^p := by
      apply div_le_div_of_nonneg_right _ (by positivity)
      exact_mod_cast below

-- Rounding does not leave the powers of two around a positive number.
theorem nearest_between (p : Nat) (some : 0 < p) {x : K} (positive : 0 < x) :
    (2 : K)^Int.log 2 x ≤ nearest p x ∧ nearest p x ≤ (2 : K)^(Int.log 2 x+1) := by
  have unit := place_pos p x
  have least := Int.zpow_log_le_self (b:=2) (by decide) positive
  have most := Int.lt_zpow_succ_log_self (b:=2) (by decide) x
  rw [Nat.cast_ofNat] at least most
  have shape : place p x = 2^(Int.log 2 x - p + 1) := by
    rw [place_two,abs_of_pos positive]
  have lower : ((2^(p-1) : Int) : K)*place p x = 2^Int.log 2 x := by
    rw [shape,Int.cast_pow,Int.cast_ofNat,← zpow_natCast,← zpow_add₀ two_ne_zero]
    congr 1
    omega
  have upper : ((2^p : Int) : K)*place p x = 2^(Int.log 2 x+1) := by
    rw [shape,Int.cast_pow,Int.cast_ofNat,← zpow_natCast,← zpow_add₀ two_ne_zero]
    congr 1
    omega
  rw [← lower,← upper]
  constructor
  · refine mul_le_mul_of_nonneg_right (Int.cast_le.mpr ?_) unit.le
    rw [← roundEven_intCast (K:=K) (2^(p-1))]
    apply roundEven_mono
    rw [le_div_iff₀ unit,lower]
    exact least
  · refine mul_le_mul_of_nonneg_right (Int.cast_le.mpr ?_) unit.le
    rw [← roundEven_intCast (K:=K) (2^p)]
    apply roundEven_mono
    rw [div_le_iff₀ unit,upper]
    exact most.le

theorem nearest_positive (p : Nat) (some : 0 < p) {x : K} (positive : 0 < x) : 0 < nearest p x :=
  (zpow_pos two_pos _).trans_le (nearest_between p some positive).1

theorem nearest_ordered (p : Nat) (some : 0 < p) {x y : K} (positive : 0 < x) (below : x ≤ y) : nearest p x ≤ nearest p y := by
  rcases (Int.log_mono_right positive below : Int.log 2 x ≤ Int.log 2 y).lt_or_eq with apart | same
  · calc nearest p x ≤ 2^(Int.log 2 x+1) := (nearest_between p some positive).2
      _ ≤ 2^Int.log 2 y := zpow_le_zpow_right₀ one_le_two apart
      _ ≤ nearest p y := (nearest_between p some (positive.trans_le below)).1
  · have place : place p x = place p y := by
      rw [place,place,abs_of_pos positive,abs_of_pos (positive.trans_le below),same]
    unfold nearest
    rw [place]
    have unit := place_pos p y
    exact mul_le_mul_of_nonneg_right (Int.cast_le.mpr (roundEven_mono (div_le_div_of_nonneg_right below unit.le))) unit.le

theorem nearest_mono (p : Nat) (some : 0 < p) {x y : K} (below : x ≤ y) : nearest p x ≤ nearest p y := by
  rcases lt_trichotomy x 0 with negative | rfl | positive
  · have turned := nearest_neg p x
    rcases lt_or_ge y 0 with under | beyond
    · have mirrored := nearest_ordered p some (neg_pos.mpr under) (neg_le_neg below)
      rw [nearest_neg,nearest_neg] at mirrored
      exact neg_le_neg_iff.mp mirrored
    · have left := nearest_positive p some (neg_pos.mpr negative)
      have right : 0 ≤ nearest p y := by
        rcases beyond.eq_or_lt with rfl | positive
        · exact (nearest_zero p).ge
        · exact (nearest_positive p some positive).le
      rw [turned] at left
      linarith
  · rw [nearest_zero]
    rcases below.eq_or_lt with rfl | positive
    · exact (nearest_zero p).ge
    · exact (nearest_positive p some positive).le
  · exact nearest_ordered p some positive below

end FloatRounding
