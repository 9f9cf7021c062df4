import Mathlib.Data.List.TakeWhile
import Mathlib.Data.UInt

-- The part of the C library's text scanning that a field protocol uses: formats
-- made of literal bytes and scan sets, and decimal conversion.
namespace TextScan

def cString (buffer : List UInt8) : List UInt8 := buffer.takeWhile (· != 0)

inductive Directive where
  | literal (byte : UInt8)
  | scanSet (accepts : UInt8 → Bool)

def Directive.until (stop : UInt8) : Directive := .scanSet (· != stop)
def isDigit (byte : UInt8) : Bool := decide (48 ≤ byte.toNat) && decide (byte.toNat ≤ 57)
def Directive.digits : Directive := .scanSet isDigit

-- Converted fields in order. A scan set takes its longest match and fails on an
-- empty one; the first directive that fails ends the scan.
def convert : List Directive → List UInt8 → List (List UInt8)
  | [],_ => []
  | .literal _::_,[] => []
  | .literal byte::rest,head::tail => if head = byte then convert rest tail else []
  | .scanSet accepts::rest,input =>
    let field := input.takeWhile accepts
    if field = [] then [] else field::convert rest (input.dropWhile accepts)

def fields : List Directive → Nat
  | [] => 0
  | .literal _::rest => fields rest
  | .scanSet _::rest => fields rest + 1

def assign (converted kept : List α) : List α := converted ++ kept.drop converted.length

theorem assign_getD (converted kept : List α) (key : Nat) (default : α) :
    (assign converted kept).getD key default =
      if key < converted.length then converted.getD key default else kept.getD key default := by
  unfold assign
  split
  · rename_i inside
    simp [List.getD,List.getElem?_append_left inside]
  · rename_i outside
    have shift : converted.length + (key - converted.length) = key := by omega
    simp [List.getD,List.getElem?_append_right (Nat.le_of_not_lt outside),shift]

@[simp] theorem convert_literal (byte : UInt8) (rest : List Directive) (input : List UInt8) :
    convert (.literal byte::rest) (byte::input) = convert rest input := by simp [convert]

-- A field that the set accepts throughout, followed by a byte it rejects.
theorem convert_scanSet (accepts : UInt8 → Bool) (rest : List Directive) {field : List UInt8}
    (stop : UInt8) (input : List UInt8) (filled : field ≠ []) (inside : ∀ b ∈ field, accepts b = true)
    (outside : accepts stop = false) :
    convert (.scanSet accepts::rest) (field++stop::input) = field::convert rest (stop::input) := by
  have taken : (field++stop::input).takeWhile accepts = field := by
    rw [List.takeWhile_append_of_pos inside,List.takeWhile_cons_of_neg (by simp [outside]),List.append_nil]
  have dropped : (field++stop::input).dropWhile accepts = stop::input := by
    rw [List.dropWhile_append_of_pos inside,List.dropWhile_cons_of_neg (by simp [outside])]
  simp only [convert,taken,dropped,if_neg filled]

def isSpace (byte : UInt8) : Bool :=
  byte == 32 || (decide (9 ≤ byte.toNat) && decide (byte.toNat ≤ 13))

def magnitude (text : List UInt8) : Nat :=
  (text.takeWhile isDigit).foldl (fun value byte => 10*value + (byte.toNat-48)) 0

-- Values beyond the int range stay at its ends, as strtol reports them.
def saturate (value : Int) : Int := max (-2^31) (min (2^31-1) value)

def atoi (text : List UInt8) : Int :=
  match text.dropWhile isSpace with
  | 45::rest => saturate (-(magnitude rest : Int))
  | 43::rest => saturate (magnitude rest : Int)
  | body => saturate (magnitude body : Int)

example : atoi [45,49,50] = -12 := by decide
example : convert [.literal 83,.until 44,.literal 44,.until 90] [83,49,44,53,90] = [[49],[53]] := by decide

end TextScan
