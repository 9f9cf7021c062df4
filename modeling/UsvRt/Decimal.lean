import Mathlib.Data.Nat.Digits.Defs
import UsvRt.TextScan

-- Decimal numerals: what atoi returns for their text.
namespace TextScan

def digitByte (digit : Fin 10) : UInt8 := UInt8.ofNat (48+digit.val)
def digitsText (digits : List (Fin 10)) : List UInt8 := digits.map digitByte
def number (digits : List (Fin 10)) : Nat := Nat.ofDigits 10 (digits.reverse.map Fin.val)

theorem digitByte_toNat (digit : Fin 10) : (digitByte digit).toNat = 48+digit.val := by
  revert digit
  decide

theorem digitByte_digit (digit : Fin 10) : isDigit (digitByte digit) = true := by
  revert digit
  decide

theorem digitsText_digits (digits : List (Fin 10)) : ∀ b ∈ digitsText digits, isDigit b = true := by
  intro b member
  obtain ⟨digit,_,rfl⟩ := List.mem_map.mp member
  exact digitByte_digit digit

@[simp] theorem digitsText_length (digits : List (Fin 10)) : (digitsText digits).length = digits.length :=
  List.length_map _

theorem digitsText_absent (digits : List (Fin 10)) (outside : isDigit b = false) : b ∉ digitsText digits := by
  intro member
  rw [digitsText_digits digits b member] at outside
  cases outside

theorem number_cons (digit : Fin 10) (digits : List (Fin 10)) :
    number (digit::digits) = digit.val*10^digits.length + number digits := by
  unfold number
  rw [List.reverse_cons,List.map_append,Nat.ofDigits_append,List.length_map,List.length_reverse]
  simp
  ring

theorem number_bound (digits : List (Fin 10)) : number digits < 10^digits.length := by
  induction digits with
  | nil => decide
  | cons digit digits ih =>
    have small := digit.isLt
    rw [number_cons,List.length_cons,Nat.pow_succ]
    have room : digit.val*10^digits.length ≤ 9*10^digits.length := Nat.mul_le_mul_right _ (by omega)
    omega

theorem magnitude_digits (digits : List (Fin 10)) : magnitude (digitsText digits) = number digits := by
  have folded : ∀ start : Nat, (digitsText digits).foldl (fun value byte => 10*value + (byte.toNat-48)) start =
      start*10^digits.length + number digits := by
    induction digits with
    | nil => simp [digitsText,number]
    | cons digit digits ih =>
      intro start
      have same : digitsText (digit::digits) = digitByte digit::digitsText digits := rfl
      rw [same,List.foldl_cons,ih,digitByte_toNat,Nat.add_sub_cancel_left,number_cons,List.length_cons,Nat.pow_succ]
      ring
  have whole : (digitsText digits).takeWhile isDigit = digitsText digits :=
    List.takeWhile_eq_self_iff.mpr (digitsText_digits digits)
  unfold magnitude
  rw [whole,folded 0,Nat.zero_mul,Nat.zero_add]

inductive Sign where
  | none
  | plus
  | minus
  deriving DecidableEq

structure Numeral where
  sign : Sign
  digits : List (Fin 10)
  filled : digits ≠ []

namespace Numeral

def text (n : Numeral) : List UInt8 :=
  match n.sign with
  | .none => digitsText n.digits
  | .plus => 43::digitsText n.digits
  | .minus => 45::digitsText n.digits

def value (n : Numeral) : Int :=
  match n.sign with
  | .none | .plus => number n.digits
  | .minus => -(number n.digits : Int)

-- A byte of a numeral is a sign or a digit.
theorem text_bytes (n : Numeral) (member : b ∈ n.text) : b = 43 ∨ b = 45 ∨ isDigit b = true := by
  unfold text at member
  cases sign : n.sign with
  | none =>
    rw [sign] at member
    exact .inr (.inr (digitsText_digits _ b member))
  | plus =>
    rw [sign] at member
    rcases List.mem_cons.mp member with rfl | inside
    · exact .inl rfl
    · exact .inr (.inr (digitsText_digits _ b inside))
  | minus =>
    rw [sign] at member
    rcases List.mem_cons.mp member with rfl | inside
    · exact .inr (.inl rfl)
    · exact .inr (.inr (digitsText_digits _ b inside))

theorem text_filled (n : Numeral) : n.text ≠ [] := by
  have filled := n.filled
  unfold text
  cases n.sign with
  | none => simpa [digitsText] using filled
  | plus | minus => simp

end Numeral

theorem saturate_exact {value : Int} (low : -2^31 ≤ value) (high : value < 2^31) : saturate value = value := by
  unfold saturate
  omega

theorem atoi_digits (digits : List (Fin 10)) (filled : digits ≠ []) (high : number digits < 2^31) :
    atoi (digitsText digits) = number digits := by
  have small : (number digits : Int) < 2^31 := by exact_mod_cast high
  have value := saturate_exact (by omega) small
  obtain ⟨digit,rest,rfl⟩ := List.exists_cons_of_ne_nil filled
  have apart : ∀ d : Fin 10, isSpace (digitByte d) = false ∧ digitByte d ≠ 45 ∧ digitByte d ≠ 43 := by decide
  obtain ⟨solid,minus,plus⟩ := apart digit
  have same : digitsText (digit::rest) = digitByte digit::digitsText rest := rfl
  rw [← magnitude_digits,same] at value
  unfold atoi
  rw [same,List.dropWhile_cons_of_neg (by rw [solid]; decide)]
  split
  · rename_i shape; exact absurd (List.cons.inj shape).1 minus
  · rename_i shape; exact absurd (List.cons.inj shape).1 plus
  · rw [value,← same,magnitude_digits]

theorem atoi_numeral (n : Numeral) (low : -2^31 ≤ n.value) (high : n.value < 2^31) : atoi n.text = n.value := by
  obtain ⟨sign,digits,filled⟩ := n
  cases sign with
  | none =>
    have small : (number digits : Int) < 2^31 := high
    exact atoi_digits digits filled (by exact_mod_cast small)
  | plus =>
    change saturate (magnitude (digitsText digits) : Int) = _
    rw [magnitude_digits]
    exact saturate_exact low high
  | minus =>
    change saturate (-(magnitude (digitsText digits) : Int)) = _
    rw [magnitude_digits]
    exact saturate_exact low high

end TextScan
