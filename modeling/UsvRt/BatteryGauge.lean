import UsvRt.Runs
import UsvRt.FloatRounding
import Mathlib.Algebra.BigOperators.Fin
import Mathlib.Analysis.Real.Pi.Bounds
import UsvRt.Tangent

-- energy_adc.c: what the gauge shows of the battery voltage. float_t is a float, and
-- what a double constant touches is computed in double; only the tangent is exact.
namespace UsvRt.BatteryGauge
open Runs Tangent FloatRounding Real

-- rt_uint32_t value and vol, float_t Voltage, the local all_num, and manager.c's dump_energy.
structure Gauge (K : Type) where
  value : UInt32
  vol : UInt32
  voltage : K
  allNum : K
  dumpEnergy : K

def referVoltage : UInt32 := 327

section model
variable {K : Type} [Field K]

def Gauge.boot : Gauge K := ⟨0,0,0,0,0⟩

variable [LinearOrder K] [FloorRing K]

def Gauge.sample (g : Gauge K) (value : UInt32) : Gauge K :=
  let vol := value*referVoltage/4095
  let voltage := single (double (((vol*17).toNat : K)/(200 : ℚ)))
  {g with value:=value,vol:=vol,voltage:=voltage,allNum:=single (g.allNum + voltage)}

-- The percentage before its limits.
def reading (tangent : K) : K := single (double (double (tangent + 1)*(75 : ℚ)))

def limitEnergy (dumpEnergy : K) : K :=
  let dumpEnergy := if dumpEnergy < (10 : ℚ) then 1 else dumpEnergy
  if dumpEnergy > (99 : ℚ) then ((99 : ℚ) : K) else dumpEnergy

-- 0.42*(Voltage-23.75)
def angleOf (voltage : K) : K := double (double ((42/100 : ℚ) : K)*double (voltage - (2375/100 : ℚ)))

-- Voltage is compensated by 0.6.
def Gauge.convert (tan : K → K) (g : Gauge K) : Gauge K :=
  let voltage := single (double (single (g.allNum/(20 : ℚ)) + double ((6/10 : ℚ) : K)))
  {g with voltage:=voltage,allNum:=0,dumpEnergy:=limitEnergy (reading (tan (angleOf voltage)))}

-- One turn of check_dump_energy's loop. The twenty readings are a hundred milliseconds apart.
def Gauge.check (tan : K → K) (g : Gauge K) (readings : Fin 20 → UInt32) : Gauge K :=
  ((List.ofFn readings).foldl Gauge.sample g).convert tan

def Gauge.after (tan : K → K) (cycles : List (Fin 20 → UInt32)) : Gauge K := run (Gauge.check tan) .boot cycles

end model

-- One reading in volts at the battery, and what all_num makes of several.
noncomputable def volts (value : UInt32) : ℝ := single (double (((value*referVoltage/4095*17).toNat : ℝ)/(200 : ℚ)))

noncomputable def summed (sum : ℝ) (values : List UInt32) : ℝ := values.foldl (fun sum v => single (sum + volts v)) sum

noncomputable def batteryVoltage (readings : Fin 20 → UInt32) : ℝ :=
  single (double (single (summed 0 (List.ofFn readings)/(20 : ℚ)) + double ((6/10 : ℚ) : ℝ)))

noncomputable def angle (readings : Fin 20 → UInt32) : ℝ := angleOf (batteryVoltage readings)

-- The tangent repeats: what counts is the angle in its branch, where the limits cut it,
-- and that two angles close together can fall on one float.
inductive Rising (first second : Fin 20 → UInt32) : Prop where
  | ordered (rises : phase (angle first) ≤ phase (angle second))
  | emptied (low : reading (tan (angle first)) < 10)
  | filled (high : 99 ≤ reading (tan (angle second)))
  | merged (same : reading (tan (angle first)) = reading (tan (angle second)))

-- The same on the exact scale, from which the rounding strays by less than the slack.
def UpTo (slack : ℝ) (first second : Fin 20 → UInt32) : Prop :=
  phase (angle first) ≤ phase (angle second) + slack ∨ phase (angle first) < arctan (-13/15) + slack ∨
    arctan (8/25) ≤ phase (angle second) + slack

-- Hundredths of a volt at the pin, rounded down reading by reading and summed up.
def total (readings : Fin 20 → UInt32) : Nat := ∑ i, (readings i).toNat*327/4095

theorem vol_exact (value : UInt32) (bits : value.toNat ≤ 4095) :
    (value*referVoltage/4095*17).toNat = value.toNat*327/4095*17 := by
  have product : value.toNat*327 < 2^32 := by omega
  have quotient : value.toNat*327/4095*17 < 2^32 := by omega
  unfold referVoltage
  rw [UInt32.toNat_mul,UInt32.toNat_div,UInt32.toNat_mul]
  change value.toNat*327 % 2^32/4095*17 % 2^32 = _
  rw [Nat.mod_eq_of_lt product,Nat.mod_eq_of_lt quotient]

theorem single_mono {x y : ℝ} (below : x ≤ y) : single x ≤ single y := nearest_mono 24 (by decide) below
theorem double_mono {x y : ℝ} (below : x ≤ y) : double x ≤ double y := nearest_mono 53 (by decide) below

theorem reading_mono {t u : ℝ} (below : t ≤ u) : reading t ≤ reading u := by
  refine single_mono (double_mono ?_)
  push_cast
  have sum : double (t + 1) ≤ double (u + 1) := double_mono (by linarith)
  linarith

theorem between_cycles (tan : ℝ → ℝ) (cycles : List (Fin 20 → UInt32)) : (Gauge.after tan cycles).allNum = 0 := by
  have cleared : ∀ (g : Gauge ℝ) (readings : Fin 20 → UInt32), g.allNum = 0 → (g.check tan readings).allNum = 0 :=
    fun _ _ _ => rfl
  have reached : Reached (Gauge.check tan) .boot (Gauge.after tan cycles) := ⟨cycles,rfl⟩
  have every := reached.invariant cleared rfl
  exact every

theorem samples_summed (g : Gauge ℝ) (values : List UInt32) :
    (values.foldl Gauge.sample g).allNum = summed g.allNum values := by
  induction values generalizing g with
  | nil => rfl
  | cons v rest ih => exact ih (g.sample v)

noncomputable def shown (tangent : ℝ) : ℝ := limitEnergy (reading tangent)

theorem check_shows (earlier : List (Fin 20 → UInt32)) (readings : Fin 20 → UInt32) :
    ((Gauge.after tan earlier).check tan readings).dumpEnergy = shown (tan (angle readings)) := by
  have sum := samples_summed (Gauge.after tan earlier) (List.ofFn readings)
  rw [between_cycles] at sum
  unfold Gauge.check Gauge.convert shown angle batteryVoltage
  dsimp only
  rw [sum]

theorem limit_emptied {e : ℝ} (low : e < 10) : limitEnergy e = 1 := by
  unfold limitEnergy
  push_cast
  rw [if_pos low,if_neg (by norm_num)]

theorem limit_between {e : ℝ} (low : 10 ≤ e) (high : e ≤ 99) : limitEnergy e = e := by
  unfold limitEnergy
  push_cast
  rw [if_neg (not_lt.mpr low),if_neg (not_lt.mpr high)]

theorem limit_filled {e : ℝ} (high : 99 ≤ e) : limitEnergy e = 99 := by
  rcases high.eq_or_lt with edge | above
  · rw [← edge]
    exact limit_between (by norm_num) le_rfl
  · unfold limitEnergy
    push_cast
    have scale : ¬e < 10 := by linarith
    rw [if_neg scale,if_pos above]

theorem limit_range (e : ℝ) : 1 ≤ limitEnergy e ∧ limitEnergy e ≤ 99 := by
  rcases lt_or_ge e 10 with low | above
  · rw [limit_emptied low]
    norm_num
  rcases le_or_gt e 99 with below | high
  · rw [limit_between above below]
    exact ⟨by linarith,below⟩
  · rw [limit_filled high.le]
    norm_num

-- Off both limits the scale is read as it is, so only the limits and the last place of
-- a float hide a fall.
theorem shown_exact (t u : ℝ) :
    shown t ≤ shown u ↔ t ≤ u ∨ reading t < 10 ∨ 99 ≤ reading u ∨ reading t = reading u := by
  unfold shown
  rcases lt_or_ge (reading t) 10 with low | above
  · rw [limit_emptied low]
    exact ⟨fun _ => .inr (.inl low),fun _ => (limit_range _).1⟩
  rcases le_or_gt 99 (reading u) with high | below
  · rw [limit_filled high]
    exact ⟨fun _ => .inr (.inr (.inl high)),fun _ => (limit_range _).2⟩
  have falls : ¬reading t < 10 ∧ ¬99 ≤ reading u := ⟨not_lt.mpr above,not_le.mpr below⟩
  simp only [falls,false_or]
  rcases lt_or_ge (reading u) (reading t) with fallen | risen
  · have under : limitEnergy (reading u) < limitEnergy (reading t) := by
      have left : limitEnergy (reading u) ≤ max 1 (reading u) := by
        rcases lt_or_ge (reading u) 10 with empty | scale
        · rw [limit_emptied empty]
          exact le_max_left _ _
        · rw [limit_between scale below.le]
          exact le_max_right _ _
      have right : min 99 (reading t) ≤ limitEnergy (reading t) := by
        rcases le_or_gt (reading t) 99 with within | beyond
        · rw [limit_between above within]
          exact min_le_right _ _
        · rw [limit_filled beyond.le]
          exact min_le_left _ _
      have apart : max 1 (reading u) < min 99 (reading t) :=
        max_lt (lt_min (by norm_num) (by linarith)) (lt_min below fallen)
      linarith
    constructor
    · intro rises
      exact absurd rises (not_le.mpr under)
    · rintro (below | same)
      · exact absurd (reading_mono below) (not_le.mpr fallen)
      · exact absurd same fallen.ne'
  · have scale : limitEnergy (reading t) = reading t := limit_between above (by linarith)
    have other : limitEnergy (reading u) = reading u := limit_between (by linarith) below.le
    rw [scale,other]
    refine ⟨fun _ => ?_,fun _ => risen⟩
    rcases le_or_gt t u with under | beyond
    · exact .inl under
    · exact .inr (risen.antisymm (reading_mono beyond.le))

theorem angle_rational (readings : Fin 20 → UInt32) : ∃ q : ℚ, angle readings = q := nearest_rational 53 _

theorem tan_angles (first second : Fin 20 → UInt32) :
    tan (angle first) ≤ tan (angle second) ↔ phase (angle first) ≤ phase (angle second) := by
  obtain ⟨x,left⟩ := angle_rational first
  obtain ⟨y,right⟩ := angle_rational second
  rw [left,right]
  exact tan_le_tan x y

theorem arctan_angle (readings : Fin 20 → UInt32) : arctan (tan (angle readings)) = phase (angle readings) := by
  obtain ⟨q,same⟩ := angle_rational readings
  rw [same]
  exact arctan_tan_phase q

theorem rising_exact (first second : Fin 20 → UInt32) :
    shown (tan (angle first)) ≤ shown (tan (angle second)) ↔ Rising first second := by
  rw [shown_exact,tan_angles]
  constructor
  · rintro (rises | low | high | same)
    · exact .ordered rises
    · exact .emptied low
    · exact .filled high
    · exact .merged same
  · intro rising
    cases rising with
    | ordered rises => exact .inl rises
    | emptied low => exact .inr (.inl low)
    | filled high => exact .inr (.inr (.inl high))
    | merged same => exact .inr (.inr (.inr same))

theorem single_near (x bound : ℝ) (inside : |x| ≤ bound) : |single x - x| ≤ bound/2^24 :=
  (nearest_error 24 x).trans (div_le_div_of_nonneg_right inside (by norm_num))

theorem double_near (x bound : ℝ) (inside : |x| ≤ bound) : |double x - x| ≤ bound/2^53 :=
  (nearest_error 53 x).trans (div_le_div_of_nonneg_right inside (by norm_num))

-- Between the limits the scale is read to a hundred thousandth of a per cent.
theorem reading_near {t : ℝ} (low : -2 ≤ t) (high : t ≤ 1) : |reading t - (t + 1)*75| ≤ 1/10^5 := by
  have sum := abs_le.mp (double_near (t + 1) 2 (by rw [abs_le]; constructor <;> linarith))
  have product := abs_le.mp (double_near (double (t + 1)*75) 151 (by rw [abs_le]; constructor <;> linarith))
  have last := abs_le.mp (single_near (double (double (t + 1)*75)) 152 (by rw [abs_le]; constructor <;> linarith))
  unfold reading
  push_cast
  rw [abs_le]
  constructor <;> linarith

-- So a millionth of the tangent is seen on it.
theorem reading_above {t u : ℝ} (low : -2 ≤ u) (high : u + 1/10^6 ≤ 1) (above : u + 1/10^6 ≤ t) :
    (u + 1)*75 + 1/10^5 < reading t := by
  have near := abs_le.mp (reading_near (t:=u + 1/10^6) (by linarith) high)
  have grown := reading_mono above
  linarith

theorem reading_below {t u : ℝ} (low : -2 ≤ u - 1/10^6) (high : u ≤ 1) (below : t ≤ u - 1/10^6) :
    reading t < (u + 1)*75 - 1/10^5 := by
  have near := abs_le.mp (reading_near (t:=u - 1/10^6) low (by linarith))
  have grown := reading_mono below
  linarith

theorem clear_rising (first second : Fin 20 → UInt32) (clear : UpTo (-(1/10^6)) first second) : Rising first second := by
  rcases clear with rises | low | high
  · exact .ordered (by linarith)
  · rw [← arctan_angle] at low
    have below : tan (angle first) ≤ -13/15 := by
      rw [← arctan_le_arctan_iff]
      linarith
    have gap := arctan_gap below
    have fallen := reading_below (t:=tan (angle first)) (u:=-13/15) (by norm_num) (by norm_num) (by linarith)
    exact .emptied (by linarith)
  · rw [← arctan_angle] at high
    have above : 8/25 ≤ tan (angle second) := by
      rw [← arctan_le_arctan_iff]
      linarith
    have gap := arctan_gap above
    have risen := reading_above (t:=tan (angle second)) (u:=8/25) (by norm_num) (by norm_num) (by linarith)
    exact .filled (by linarith)

theorem rising_near (first second : Fin 20 → UInt32) (rising : Rising first second) : UpTo (1/10^6) first second := by
  by_contra falls
  unfold UpTo at falls
  rw [not_or,not_or,not_le,not_lt,not_le,← arctan_angle,← arctan_angle] at falls
  obtain ⟨fallen,scaled,below⟩ := falls
  have beyond : -13/15 ≤ tan (angle first) := by
    rw [← arctan_le_arctan_iff]
    linarith
  have under : tan (angle second) ≤ 8/25 := by
    rw [← arctan_le_arctan_iff]
    linarith
  have apart : tan (angle second) ≤ tan (angle first) := by
    rw [← arctan_le_arctan_iff]
    linarith
  have first_gap := arctan_gap beyond
  have second_gap := arctan_gap under
  have gap := arctan_gap apart
  have least := reading_above (t:=tan (angle first)) (u:=-13/15) (by norm_num) (by norm_num) (by linarith)
  have most := reading_below (t:=tan (angle second)) (u:=8/25) (by norm_num) (by norm_num) (by linarith)
  cases rising with
  | ordered rises =>
    rw [← arctan_angle,← arctan_angle] at rises
    linarith
  | emptied low => linarith
  | filled high => linarith
  | merged same =>
    rcases lt_or_ge (tan (angle second)) (-1) with deep | scale
    · have empty := reading_below (t:=tan (angle second)) (u:=-1 + 1/10^6) (by norm_num) (by norm_num) (by linarith)
      linarith
    · have other := reading_above (t:=tan (angle first)) (u:=tan (angle second)) (by linarith) (by linarith) (by linarith)
      have near := abs_le.mp (reading_near (t:=tan (angle second)) (by linarith) (by linarith))
      linarith

theorem single_nonneg {x : ℝ} (positive : 0 ≤ x) : 0 ≤ single x := by
  have grown := single_mono positive
  rwa [single,nearest_zero] at grown

theorem double_nonneg {x : ℝ} (positive : 0 ≤ x) : 0 ≤ double x := by
  have grown := double_mono positive
  rwa [double,nearest_zero] at grown

theorem volts_shape (value : UInt32) (bits : value.toNat ≤ 4095) :
    volts value = single (double (17/200*((value.toNat*327/4095 : Nat) : ℝ))) := by
  unfold volts
  rw [vol_exact value bits]
  push_cast
  congr 2
  ring

theorem volts_near (value : UInt32) (bits : value.toNat ≤ 4095) :
    0 ≤ volts value ∧ volts value ≤ 28-1/10^4 ∧ |volts value - 17/200*((value.toNat*327/4095 : Nat) : ℝ)| ≤ 1/10^5 := by
  have scale : value.toNat*327/4095 ≤ 327 := by omega
  have most : ((value.toNat*327/4095 : Nat) : ℝ) ≤ 327 := by exact_mod_cast scale
  have least : (0 : ℝ) ≤ ((value.toNat*327/4095 : Nat) : ℝ) := Nat.cast_nonneg _
  rw [volts_shape value bits]
  generalize ((value.toNat*327/4095 : Nat) : ℝ) = hundredths at most least
  have positive : 0 ≤ 17/200*hundredths := by linarith
  have first := abs_le.mp (double_near (17/200*hundredths) 28 (by rw [abs_le]; constructor <;> linarith))
  have second := abs_le.mp (single_near (double (17/200*hundredths)) 29 (by rw [abs_le]; constructor <;> linarith))
  refine ⟨single_nonneg (double_nonneg positive),by linarith,?_⟩
  rw [abs_le]
  constructor <;> linarith

-- Every addition to all_num strays by half a place of a float below 600.
theorem summed_near (values : List UInt32) (bits : ∀ v ∈ values, v.toNat ≤ 4095) (sum : ℝ) (low : 0 ≤ sum)
    (high : sum ≤ 28*(20 - values.length)) (short : values.length ≤ 20) :
    |summed sum values - (sum + 17/200*((values.map (fun v => v.toNat*327/4095)).sum : Nat))| ≤ values.length/20000 := by
  induction values generalizing sum with
  | nil => simp [summed]
  | cons v rest ih =>
    obtain ⟨positive,most,near⟩ := volts_near v (bits v List.mem_cons_self)
    rw [List.length_cons] at high short ⊢
    rw [Nat.cast_succ] at high ⊢
    have few : (0 : ℝ) ≤ rest.length := Nat.cast_nonneg _
    have added := abs_le.mp (single_near (sum + volts v) 600 (by rw [abs_le]; constructor <;> linarith))
    have next := ih (fun u member => bits u (List.mem_cons_of_mem _ member)) (single (sum + volts v))
      (single_nonneg (by linarith)) (by linarith) (by omega)
    change |summed (single (sum + volts v)) rest - _| ≤ _
    rw [List.map_cons,List.sum_cons,Nat.cast_add]
    rw [abs_le] at near next ⊢
    constructor <;> linarith

theorem total_bound (readings : Fin 20 → UInt32) (bits : ∀ i, (readings i).toNat ≤ 4095) : total readings ≤ 6540 := by
  have each : ∀ i ∈ Finset.univ, (readings i).toNat*327/4095 ≤ 327 := by
    intro i _
    have bound := bits i
    omega
  exact Finset.sum_le_card_nsmul Finset.univ _ 327 each

theorem voltage_near (readings : Fin 20 → UInt32) (bits : ∀ i, (readings i).toNat ≤ 4095) :
    |batteryVoltage readings - (17/4000*(total readings : ℝ) + 6/10)| ≤ 1/10^4 := by
  have sum := summed_near (List.ofFn readings)
    (fun v member => by obtain ⟨i,rfl⟩ := List.mem_ofFn.mp member; exact bits i) 0 le_rfl
    (by rw [List.length_ofFn]; norm_num) (by rw [List.length_ofFn])
  rw [List.length_ofFn,List.map_ofFn,List.sum_ofFn] at sum
  have whole : (∑ i, ((fun v : UInt32 => v.toNat*327/4095) ∘ readings) i) = total readings := rfl
  rw [whole] at sum
  have most : (total readings : ℝ) ≤ 6540 := by exact_mod_cast total_bound readings bits
  have least : (0 : ℝ) ≤ total readings := Nat.cast_nonneg _
  unfold batteryVoltage
  generalize summed 0 (List.ofFn readings) = all at sum
  push_cast at sum ⊢
  rw [abs_le] at sum
  have quotient := abs_le.mp (single_near (all/20) 28 (by rw [abs_le]; constructor <;> linarith))
  have offset := abs_le.mp (double_near (6/10) 1 (by rw [abs_le]; constructor <;> norm_num))
  have compensated := abs_le.mp (double_near (single (all/20) + double (6/10)) 30 (by rw [abs_le]; constructor <;> linarith))
  have stored := abs_le.mp (single_near (double (single (all/20) + double (6/10))) 31 (by rw [abs_le]; constructor <;> linarith))
  rw [abs_le]
  constructor <;> linarith

theorem angleOf_near (voltage : ℝ) (low : 0 ≤ voltage) (high : voltage ≤ 30) :
    |angleOf voltage - 42/100*(voltage - 2375/100)| ≤ 1/10^6 := by
  unfold angleOf
  push_cast
  have factor := double_near (42/100) 1 (by rw [abs_le]; constructor <;> norm_num)
  have offset := abs_le.mp (double_near (voltage - 2375/100) 24 (by rw [abs_le]; constructor <;> linarith))
  have inside : |double (voltage - 2375/100)| ≤ 25 := by
    rw [abs_le]
    constructor <;> linarith
  have turned := abs_le.mp ((abs_mul (double (42/100) - 42/100) (double (voltage - 2375/100))).le.trans
    (mul_le_mul factor inside (abs_nonneg _) (by norm_num)))
  have product := abs_le.mp (double_near (double (42/100)*double (voltage - 2375/100)) 25 (by rw [abs_le]; constructor <;> linarith))
  rw [abs_le]
  constructor <;> linarith

-- The angle as the decimal it would be, and how far the rounding can take it.
theorem angle_near (readings : Fin 20 → UInt32) (bits : ∀ i, (readings i).toNat ≤ 4095) :
    |angle readings - (357/200000*(total readings : ℝ) - 9723/1000)| ≤ 1/20000 := by
  have voltage := abs_le.mp (voltage_near readings bits)
  have most : (total readings : ℝ) ≤ 6540 := by exact_mod_cast total_bound readings bits
  have least : (0 : ℝ) ≤ total readings := Nat.cast_nonneg _
  have turned := abs_le.mp (angleOf_near (batteryVoltage readings) (by linarith) (by linarith))
  unfold angle
  rw [abs_le]
  constructor <;> linarith

theorem volts_mono {v w : UInt32} (below : v ≤ w) (bits : w.toNat ≤ 4095) : volts v ≤ volts w := by
  have reading : v.toNat ≤ w.toNat := below
  rw [volts_shape v (reading.trans bits),volts_shape w bits]
  refine single_mono (double_mono ?_)
  have scaled : v.toNat*327/4095 ≤ w.toNat*327/4095 := Nat.div_le_div_right (Nat.mul_le_mul_right _ reading)
  have cast : ((v.toNat*327/4095 : Nat) : ℝ) ≤ ((w.toNat*327/4095 : Nat) : ℝ) := by exact_mod_cast scaled
  linarith

theorem summed_mono (first second : List UInt32) (ordered : List.Forall₂ (· ≤ ·) first second)
    (bits : ∀ v ∈ second, v.toNat ≤ 4095) {s t : ℝ} (below : s ≤ t) : summed s first ≤ summed t second := by
  induction ordered generalizing s t with
  | nil => exact below
  | cons head _ ih =>
    have volts := volts_mono head (bits _ List.mem_cons_self)
    exact ih (fun v member => bits v (List.mem_cons_of_mem _ member)) (single_mono (by linarith))

theorem angle_mono (first second : Fin 20 → UInt32) (ordered : ∀ i, first i ≤ second i)
    (bits : ∀ i, (second i).toNat ≤ 4095) : angle first ≤ angle second := by
  have sum : summed 0 (List.ofFn first) ≤ summed 0 (List.ofFn second) := by
    refine summed_mono _ _ ?_ (fun v member => by obtain ⟨i,rfl⟩ := List.mem_ofFn.mp member; exact bits i) le_rfl
    refine List.forall₂_iff_get.mpr ⟨by simp,fun i inside _ => ?_⟩
    simp only [List.get_ofFn]
    exact ordered _
  have voltage : batteryVoltage first ≤ batteryVoltage second := by
    refine single_mono (double_mono ?_)
    push_cast
    have average : single (summed 0 (List.ofFn first)/20) ≤ single (summed 0 (List.ofFn second)/20) :=
      single_mono (by linarith)
    linarith
  refine double_mono (mul_le_mul_of_nonneg_left (double_mono (by linarith)) (double_nonneg ?_))
  norm_num

theorem branch_middle (readings : Fin 20 → UInt32) (bits : ∀ i, (readings i).toNat ≤ 4095) (low : 4568 ≤ total readings)
    (high : total readings ≤ 6327) : phase (angle readings) = angle readings := by
  have circle := pi_gt_d20
  have least : (4568 : ℝ) ≤ total readings := by exact_mod_cast low
  have most : (total readings : ℝ) ≤ 6327 := by exact_mod_cast high
  have near := abs_le.mp (angle_near readings bits)
  have middle := phase_branch (angle readings) 0
  push_cast at middle
  rw [middle (by linarith) (by linarith),zero_mul,sub_zero]

theorem total_mono (first second : Fin 20 → UInt32) (ordered : ∀ i, first i ≤ second i) : total first ≤ total second := by
  refine Finset.sum_le_sum (fun i _ => ?_)
  have reading : (first i).toNat ≤ (second i).toNat := ordered i
  exact Nat.div_le_div_right (Nat.mul_le_mul_right _ reading)

-- From 20.02 to 27.48 volts the tangent stays in one branch.
theorem middle_rising (first second : Fin 20 → UInt32) (ordered : ∀ i, first i ≤ second i)
    (narrow : ∀ i, (first i).toNat ≤ 4095) (bits : ∀ i, (second i).toNat ≤ 4095) (low : 4568 ≤ total first)
    (high : total second ≤ 6327) : Rising first second := by
  have grown := total_mono first second ordered
  refine .ordered ?_
  rw [branch_middle first narrow low (by omega),branch_middle second bits (by omega) high]
  exact angle_mono first second ordered bits

theorem gauge_exact (earlier later : List (Fin 20 → UInt32)) (first second : Fin 20 → UInt32)
    (bits : ∀ i, (second i).toNat ≤ 4095) (ordered : ∀ i, first i ≤ second i) :
    (((Gauge.after tan earlier).check tan first).dumpEnergy ≤
        ((Gauge.after tan later).check tan second).dumpEnergy ↔ Rising first second) ∧
      (UpTo (-(1/10^6)) first second → Rising first second) ∧ (Rising first second → UpTo (1/10^6) first second) ∧
      (4568 ≤ total first → total second ≤ 6327 → Rising first second) := by
  have narrow : ∀ i, (first i).toNat ≤ 4095 := fun i => (show (first i).toNat ≤ (second i).toNat from ordered i).trans (bits i)
  rw [check_shows earlier first,check_shows later second]
  exact ⟨rising_exact first second,clear_rising first second,rising_near first second,
    middle_rising first second ordered narrow bits⟩

-- From 22.02 to 26.44 volts.
theorem middle_gauge : ((Gauge.after tan []).check tan (fun _ => 3157)).dumpEnergy ≤
    ((Gauge.after tan []).check tan (fun _ => 3808)).dumpEnergy := by
  obtain ⟨exactly,_,_,middle⟩ := gauge_exact [] [] (fun _ => 3157) (fun _ => 3808) (fun _ => by decide) (fun _ => by decide)
  exact exactly.mpr (middle (by decide) (by decide))

-- 18.96 volts are shown as 99 per cent, 21.6 volts as one.
theorem gauge_falls : ∃ first second : Fin 20 → UInt32, (∀ i, first i ≤ second i) ∧ (∀ i, (second i).toNat ≤ 4095) ∧
    ¬((Gauge.after tan []).check tan first).dumpEnergy ≤ ((Gauge.after tan []).check tan second).dumpEnergy := by
  refine ⟨fun _ => 2705,fun _ => 3094,fun _ => (by decide : (2705 : UInt32) ≤ 3094),
    fun _ => (by decide : (3094 : UInt32).toNat ≤ 4095),?_⟩
  have above := pi_gt_d20
  have below := pi_lt_d20
  have low : total (fun _ => 2705) = 4320 := by decide
  have high : total (fun _ => 3094) = 4940 := by decide
  have first := abs_le.mp (angle_near (fun _ => 2705) (fun _ => by decide))
  have second := abs_le.mp (angle_near (fun _ => 3094) (fun _ => by decide))
  rw [low] at first
  rw [high] at second
  push_cast at first second
  have behind := phase_branch (angle fun _ => 2705) (-1)
  have front := phase_branch (angle fun _ => 3094) 0
  push_cast at behind front
  have full : (1 : ℝ) ≤ tan (angle fun _ => 2705) := by
    rw [← arctan_le_arctan_iff,arctan_angle,arctan_one,behind (by linarith) (by linarith)]
    linarith
  have empty : tan (angle fun _ => 3094) ≤ -1 := by
    rw [← arctan_le_arctan_iff,arctan_angle,arctan_neg,arctan_one,front (by linarith) (by linarith)]
    linarith
  have most := reading_above (t:=tan (angle fun _ => 2705)) (u:=1/2) (by norm_num) (by norm_num) (by linarith)
  have least := reading_below (t:=tan (angle fun _ => 3094)) (u:=-9/10) (by norm_num) (by norm_num) (by linarith)
  rw [check_shows [] (fun _ => 2705),check_shows [] (fun _ => 3094)]
  unfold shown
  rw [limit_filled (by linarith),limit_emptied (by linarith)]
  norm_num

end UsvRt.BatteryGauge
