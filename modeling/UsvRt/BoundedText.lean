import Mathlib.Data.List.GetD
import Mathlib.Logic.Function.Basic

-- Programs that put out bytes one by one into a sink they know nothing else about,
-- and the sink that counts every byte and stores those below a limit.
namespace BoundedText
variable {σ β : Type}

-- A loop putting the same byte `count` times.
def fill (put : σ → β → σ) (b : β) : Nat → σ → σ
  | 0,str => str
  | count+1,str => fill put b count (put str b)

theorem fill_puts (put : σ → β → σ) (b : β) (count : Nat) (str : σ) :
    fill put b count str = (List.replicate count b).foldl put str := by
  induction count generalizing str with
  | zero => rfl
  | succ count ih => rw [fill,ih,List.replicate_succ,List.foldl_cons]

structure Cursor (β : Type) where
  cells : Nat → β
  str : Nat

def Cursor.put (limit : Nat) (c : Cursor β) (b : β) : Cursor β :=
  {cells:=if c.str < limit then Function.update c.cells c.str b else c.cells,str:=c.str+1}

theorem puts_str (limit : Nat) (c : Cursor β) (text : List β) :
    (text.foldl (Cursor.put limit) c).str = c.str+text.length := by
  induction text generalizing c with
  | nil => rfl
  | cons b text ih =>
    rw [List.foldl_cons,ih,List.length_cons]
    exact Nat.succ_add_eq_add_succ _ _

theorem put_cell (limit : Nat) (c : Cursor β) (b : β) (i : Nat) :
    (c.put limit b).cells i = if i = c.str ∧ i < limit then b else c.cells i := by
  unfold Cursor.put
  by_cases inside : c.str < limit
  · rw [if_pos inside]
    by_cases here : i = c.str
    · subst here
      simp [inside]
    · simp [here]
  · rw [if_neg inside]
    refine (if_neg ?_).symm
    rintro ⟨rfl,below⟩
    exact inside below

-- The text lands where the cursor stood, cut at the limit; no other cell changes.
theorem puts_cell (limit : Nat) (c : Cursor β) (text : List β) (i : Nat) (default : β) :
    (text.foldl (Cursor.put limit) c).cells i =
      if c.str ≤ i ∧ i < c.str+text.length ∧ i < limit then text.getD (i-c.str) default else c.cells i := by
  induction text generalizing c with
  | nil => exact (if_neg fun inside => absurd inside.2.1 (Nat.not_lt.mpr inside.1)).symm
  | cons b text ih =>
    have moved : (c.put limit b).str = c.str+1 := rfl
    rw [List.foldl_cons,ih,put_cell,moved,List.length_cons]
    by_cases here : i = c.str
    · subst here
      have first : c.str < c.str+(text.length+1) := by omega
      rw [if_neg (by omega)]
      simp [first]
    · by_cases inside : c.str+1 ≤ i ∧ i < c.str+1+text.length ∧ i < limit
      · have next : i-c.str = (i-(c.str+1))+1 := by omega
        rw [if_pos inside,if_pos (by omega),next,List.getD_cons_succ]
      · rw [if_neg inside,if_neg (fun both => here both.1),if_neg (by omega)]

end BoundedText
