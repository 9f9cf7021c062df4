import UsvRt.AutoCruise
import UsvRt.Position

-- The two angle conventions of auto_cruise_pid: the bearing is turned into a compass
-- angle, and the error to the heading folded into the shorter turn.
namespace UsvRt.HeadingError
open Truncation Position

structure Converted (bearing targeTheta : Int) : Prop where
  range : 0 ≤ targeTheta ∧ targeTheta ≤ 359
  congruent : (targeTheta + bearing) % 360 = 0

theorem bearing_converted (bearing : Int) (low : -180 ≤ bearing) (high : bearing ≤ 180) :
    Converted bearing (convertTheta bearing) := by
  rcases lt_or_ge 0 bearing with right | left
  · have angle : convertTheta bearing = 360 - bearing := if_pos right
    constructor <;> rw [angle] <;> omega
  · have angle : convertTheta bearing = -bearing := (if_neg (not_lt.mpr left)).trans (abs_of_nonpos left)
    constructor <;> rw [angle] <;> omega

variable {K : Type} [Field K] [LinearOrder K]

structure Folded (targeTheta : Int) (currentTheta ek : K) : Prop where
  range : -180 ≤ ek ∧ ek ≤ 180
  congruent : ∃ turns : Int, ek = targeTheta - currentTheta + 360*turns

structure ShortestTurn (bearing : Int) (currentTheta : K) (targeTheta : Int) (ek : K) : Prop where
  converted : Converted bearing targeTheta
  folded : Folded targeTheta currentTheta ek

variable [FloorRing K]

-- Beyond a metre auto_cruise_pid leaves the converted bearing and the folded error in its globals.
theorem regulated (m : Analysis K) (c : Cruise K) (n : Navigation K) (away : 1 ≤ n.allDistance m) :
    (c.called m n).targeTheta = convertTheta (n.targeTheta m) ∧
      (c.called m n).ek = headingError (convertTheta (n.targeTheta m)) n.currentTheta := by
  rw [called_away m c n away]
  unfold Cruise.scale
  split <;> exact ⟨rfl,rfl⟩

theorem folded_by (targeTheta : Int) (currentTheta : K) (turns : Int)
    (shift : headingError targeTheta currentTheta = targeTheta - currentTheta + 360*turns)
    (low : -180 ≤ targeTheta - currentTheta + 360*turns) (high : targeTheta - currentTheta + 360*turns ≤ 180) :
    Folded targeTheta currentTheta (headingError targeTheta currentTheta) := by
  refine ⟨?_,turns,shift⟩
  rw [shift]
  exact ⟨low,high⟩

variable [IsStrictOrderedRing K]

-- Half a turn is a whole number of degrees, so the cut error is tested as the error itself.
theorem fold_tests (ek : K) : 180 ≤ (truncate ek).natAbs ↔ 180 ≤ |ek| := by
  simpa using le_natAbs_truncate 180 ek

theorem error_folded (targeTheta : Int) (currentTheta : K) (above : 0 ≤ targeTheta) (below : targeTheta ≤ 359)
    (low : 0 ≤ currentTheta) (high : currentTheta < 360) :
    Folded targeTheta currentTheta (headingError targeTheta currentTheta) := by
  have least : (0 : K) ≤ targeTheta := by exact_mod_cast above
  have most : (targeTheta : K) ≤ 359 := by exact_mod_cast below
  rcases lt_or_ge |(targeTheta : K) - currentTheta| 180 with narrow | wide
  · have kept : headingError targeTheta currentTheta = targeTheta - currentTheta :=
      if_neg (fun turned => not_le.mpr narrow ((fold_tests _).mp turned))
    obtain ⟨left,right⟩ := abs_lt.mp narrow
    apply folded_by targeTheta currentTheta 0 <;> simp only [Int.cast_zero,mul_zero,add_zero]
    · exact kept
    · exact left.le
    · exact right.le
  · have turned := (fold_tests _).mpr wide
    rcases lt_or_ge 0 ((targeTheta : K) - currentTheta) with positive | negative
    · have back : headingError targeTheta currentTheta = targeTheta - currentTheta - 360 :=
        (if_pos turned).trans (if_pos positive)
      rw [abs_of_pos positive] at wide
      apply folded_by targeTheta currentTheta (-1) <;> push_cast <;> linarith
    · have forth : headingError targeTheta currentTheta = targeTheta - currentTheta + 360 :=
        (if_pos turned).trans (if_neg (not_lt.mpr negative))
      rw [abs_of_nonpos negative] at wide
      apply folded_by targeTheta currentTheta 1 <;> push_cast <;> linarith

theorem turn_shortest (bearing : Int) (currentTheta : K) (low : -180 ≤ bearing) (high : bearing ≤ 180)
    (least : 0 ≤ currentTheta) (most : currentTheta < 360) :
    ShortestTurn bearing currentTheta (convertTheta bearing) (headingError (convertTheta bearing) currentTheta) := by
  have converted := bearing_converted bearing low high
  exact ⟨converted,error_folded _ _ converted.range.1 converted.range.2 least most⟩

-- Two data bytes never reach the full turn.
theorem heading_ranged (buffer : List UInt8) (currentTheta : ℚ) (stored : decode buffer = some (.heading currentTheta)) :
    0 ≤ currentTheta ∧ currentTheta < 360 := by
  simp only [decode] at stored
  split at stored
  · have word : (buffer.getD 7 0).toNat*256 + (buffer.getD 6 0).toNat ≤ 65535 := by
      have high := (buffer.getD 7 0).toNat_lt
      have low := (buffer.getD 6 0).toNat_lt
      omega
    have bound : (((buffer.getD 7 0).toNat*256 + (buffer.getD 6 0).toNat : Nat) : ℚ) ≤ 65535 := by exact_mod_cast word
    cases stored
    constructor
    · positivity
    · linarith
  · split at stored
    · cases stored
    · split at stored <;> cases stored

theorem shortest_turn (bearing : Int) (low : -180 ≤ bearing) (high : bearing ≤ 180) (currentTheta : K)
    (heading : (0 ≤ currentTheta ∧ currentTheta < 360) ∨
      ∃ (buffer : List UInt8) (stored : ℚ), decode buffer = some (.heading stored) ∧ currentTheta = stored) :
    ShortestTurn bearing currentTheta (convertTheta bearing) (headingError (convertTheta bearing) currentTheta) ∧
      ∀ (m : Analysis K) (c : Cruise K) (n : Navigation K), n.targeTheta m = bearing → n.currentTheta = currentTheta →
        1 ≤ n.allDistance m → ShortestTurn bearing currentTheta (c.called m n).targeTheta (c.called m n).ek := by
  have ranged : 0 ≤ currentTheta ∧ currentTheta < 360 := by
    rcases heading with ranged | ⟨buffer,stored,received,rfl⟩
    · exact ranged
    · obtain ⟨least,most⟩ := heading_ranged buffer stored received
      exact ⟨by exact_mod_cast least,by exact_mod_cast most⟩
  have shortest := turn_shortest bearing currentTheta low high ranged.1 ranged.2
  refine ⟨shortest,fun m c n aimed turned away => ?_⟩
  obtain ⟨converted,folded⟩ := regulated m c n away
  rw [converted,folded,aimed,turned]
  exact shortest

-- A waypoint just west of north, the heading just east of it.
theorem across_north : ShortestTurn (-1) (22995/64 : ℚ) 1 (109/64) := by
  have received : decode [85,83,0,0,0,0,128,255,0,0,0] = some (.heading (22995/64)) := by decide +kernel
  have turn := (shortest_turn (-1) (by decide) (by decide) (22995/64 : ℚ) (.inr ⟨_,_,received,rfl⟩)).1
  have ek : headingError (convertTheta (-1)) (22995/64 : ℚ) = 109/64 := by decide +kernel
  rw [ek] at turn
  exact turn

end UsvRt.HeadingError
