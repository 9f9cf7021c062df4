import UsvRt.Decimal
import UsvRt.Position

-- Which coordinates of a position frame check_gps gets back.
namespace UsvRt.PositionRange
open TextScan Framing Position

-- A signed word as four bytes, the least significant one first.
def word (value : Int) : List UInt8 :=
  let bits := (value % 2^32).toNat
  [UInt8.ofNat bits,UInt8.ofNat (bits/2^8),UInt8.ofNat (bits/2^16),UInt8.ofNat (bits/2^24)]

def positionFrame (lon lat : Int) (trailing : UInt8) : GpsFrame := ⟨87,word lon++word lat,trailing,rfl⟩

-- The double that is converted to an int.
def sum (gpsBuffer : List UInt8) (cell : Nat) : Int :=
  let byte := fun key => ((gpsBuffer.getD key 0).toNat : Int)
  byte (cell+3)*2^24 + byte (cell+2)*2^16 + byte (cell+1)*2^8 + byte cell

-- Whole degrees and minutes, both cut toward zero from the same number.
def Degrees (value : Int) (degrees : ℚ) : Prop :=
  ∃ minutes : ℚ, (value : ℚ) = value.tdiv 10000000*10000000 + minutes*100000 ∧
    degrees = value.tdiv 10000000 + minutes/60

structure RoundTrip (c : Collector UInt8) (lon lat : Int) (trailing : UInt8) : Prop where
  lngRange : sum (positionFrame lon lat trailing).bytes 2 < 2^31
  latRange : sum (positionFrame lon lat trailing).bytes 6 < 2^31
  lng_ : quad (positionFrame lon lat trailing).bytes 2 = lon
  lat_ : quad (positionFrame lon lat trailing).bytes 6 = lat
  stored : ∃ lng lat', emitted receive c (positionFrame lon lat trailing).bytes = [.position lng lat'] ∧
    Degrees lon lng ∧ Degrees lat lat'

theorem quad_sum (gpsBuffer : List UInt8) (cell : Nat) : quad gpsBuffer cell = saturate (sum gpsBuffer cell) := by
  unfold quad sum
  push_cast
  rfl

theorem byte_toNat (n : Nat) : (UInt8.ofNat n).toNat = n % 256 := UInt8.toNat_ofNat'

theorem word_sum (value : Int) (low mid high top : Int)
    (bytes : [low,mid,high,top] = (word value).map (fun b => (b.toNat : Int))) :
    top*2^24 + high*2^16 + mid*2^8 + low = value % 2^32 := by
  simp only [word,List.map_cons,List.map_nil,byte_toNat,List.cons.injEq,and_true] at bytes
  obtain ⟨rfl,rfl,rfl,rfl⟩ := bytes
  omega

theorem lng_sum (lon lat : Int) (trailing : UInt8) : sum (positionFrame lon lat trailing).bytes 2 = lon % 2^32 :=
  word_sum lon _ _ _ _ rfl

theorem lat_sum (lon lat : Int) (trailing : UInt8) : sum (positionFrame lon lat trailing).bytes 6 = lat % 2^32 :=
  word_sum lat _ _ _ _ rfl

theorem degrees_split (value : Int) : Degrees value (degrees value) := by
  have whole : (value : ℚ) = 10000000*value.tdiv 10000000 + value.tmod 10000000 := by
    exact_mod_cast (Int.mul_tdiv_add_tmod value 10000000).symm
  refine ⟨(value.tmod 10000000 : ℚ)/100000,?_,rfl⟩
  rw [div_mul_cancel₀ _ (by norm_num)]
  linarith

theorem positive_word (value : Int) (low : -2^31 ≤ value) (high : value < 2^31) :
    value % 2^32 < 2^31 ↔ 0 ≤ value := by omega

theorem positive_back (value : Int) (positive : 0 ≤ value) (high : value < 2^31) :
    saturate (value % 2^32) = value := by
  rw [Int.emod_eq_of_lt positive (by omega)]
  exact saturate_exact (by omega) high

theorem range_exact (c : Collector UInt8) (sound : c.Sound 11) (aligned : c.index = 0) (trailing : UInt8) (lon lat : Int)
    (lonLow : -2^31 ≤ lon) (lonHigh : lon < 2^31) (latLow : -2^31 ≤ lat) (latHigh : lat < 2^31) :
    RoundTrip c lon lat trailing ↔ 0 ≤ lon ∧ 0 ≤ lat := by
  constructor
  · intro trip
    have lngRange := trip.lngRange
    have latRange := trip.latRange
    rw [lng_sum,positive_word lon lonLow lonHigh] at lngRange
    rw [lat_sum,positive_word lat latLow latHigh] at latRange
    exact ⟨lngRange,latRange⟩
  · rintro ⟨lonPositive,latPositive⟩
    have lng_ : quad (positionFrame lon lat trailing).bytes 2 = lon := by
      rw [quad_sum,lng_sum,positive_back lon lonPositive lonHigh]
    have lat_ : quad (positionFrame lon lat trailing).bytes 6 = lat := by
      rw [quad_sum,lat_sum,positive_back lat latPositive latHigh]
    have decoded : decode (positionFrame lon lat trailing).bytes = some (.position (degrees lon) (degrees lat)) := by
      rw [← congrArg degrees lng_,← congrArg degrees lat_]
      rfl
    refine ⟨?_,?_,lng_,lat_,degrees lon,degrees lat,?_,degrees_split lon,degrees_split lat⟩
    · rw [lng_sum,positive_word lon lonLow lonHigh]
      exact lonPositive
    · rw [lat_sum,positive_word lat latLow latHigh]
      exact latPositive
    · rw [(aligned_frame c sound _ aligned).1,decoded]
      rfl

theorem eastern_trip : RoundTrip boot 1200000000 300000000 0 :=
  (range_exact boot boot_sound rfl 0 1200000000 300000000 (by decide) (by decide) (by decide) (by decide)).mpr (by decide)

-- One step west of Greenwich the sum is 2^32-1.
theorem western_lost : ¬RoundTrip boot (-1) 300000000 0 := by
  intro trip
  have range := trip.lngRange
  rw [lng_sum] at range
  exact absurd range (by decide)

end UsvRt.PositionRange
