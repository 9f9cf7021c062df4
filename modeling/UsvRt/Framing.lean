import Mathlib.Data.List.GetD
import Mathlib.Data.List.Infix
import UsvRt.Runs

-- Receivers that take a stream byte by byte, collect it in the cells of an array
-- and now and then put out what they decode from them.
namespace Framing
open Runs
variable {α β γ σ : Type}

section Receiver
variable (receive : σ → β → σ×Option γ)

def drive : σ → List β → σ := run fun s b => (receive s b).1

def emitted : σ → List β → List γ
  | _,[] => []
  | s,b::rest => (receive s b).2.toList ++ emitted (receive s b).1 rest

@[simp] theorem drive_nil : drive receive s [] = s := rfl
@[simp] theorem drive_cons : drive receive s (b::rest) = drive receive (receive s b).1 rest := rfl
@[simp] theorem emitted_nil : emitted receive s [] = [] := rfl
@[simp] theorem emitted_cons :
    emitted receive s (b::rest) = (receive s b).2.toList ++ emitted receive (receive s b).1 rest := rfl

theorem drive_append : drive receive s (first++second) = drive receive (drive receive s first) second :=
  run_append _

theorem emitted_append :
    emitted receive s (first++second) = emitted receive s first ++ emitted receive (drive receive s first) second := by
  induction first generalizing s with
  | nil => rfl
  | cons b rest ih => simp only [List.cons_append,emitted_cons,drive_cons,ih,List.append_assoc]

end Receiver

theorem take_getD (buffer : List α) (inside : key < size) (default : α) :
    (buffer.take size).getD key default = buffer.getD key default := by
  simp only [List.getD,List.getElem?_take_of_lt inside]

-- Filling an array from the front: what is pending is the part below the index.
theorem pending_append (buffer : List α) (b : α) (inside : index < buffer.length) :
    (buffer.set index b).take (index+1) = buffer.take index ++ [b] := by
  have longer : index < (buffer.set index b).length := by rw [List.length_set]; exact inside
  rw [List.take_succ_eq_append_getElem longer,List.take_set_of_le (Nat.le_refl _),List.getElem_set_self]

def write : List α → Nat → List α → List α
  | buffer,_,[] => buffer
  | buffer,index,b::text => write (buffer.set index b) (index+1) text

@[simp] theorem write_length (buffer : List α) (index : Nat) (text : List α) :
    (write buffer index text).length = buffer.length := by
  induction text generalizing buffer index with
  | nil => rfl
  | cons b text ih => rw [write,ih,List.length_set]

theorem write_pending (buffer : List α) (text : List α) (room : index+text.length ≤ buffer.length) :
    (write buffer index text).take (index+text.length) = buffer.take index ++ text := by
  induction text generalizing buffer index with
  | nil => rw [List.append_nil]; rfl
  | cons b text ih =>
    rw [List.length_cons] at room
    have later : (write (buffer.set index b) (index+1) text).take (index+1+text.length) = _ :=
      ih (buffer.set index b) (by rw [List.length_set]; omega)
    rw [pending_append buffer b (by omega),List.append_assoc,List.singleton_append] at later
    rw [write,← later,List.length_cons,Nat.add_right_comm,Nat.add_assoc]

theorem cell_set (buffer : List α) (b default : α) (inside : index < buffer.length) :
    (buffer.set index b).getD cell default = if cell = index then b else buffer.getD cell default := by
  simp only [List.getD,List.getElem?_set]
  by_cases same : cell = index
  · simp [same,inside]
  · have apart : index ≠ cell := Ne.symm same
    simp [same,apart]

theorem write_cell (buffer : List α) (index : Nat) (text : List α) (default : α)
    (room : index+text.length ≤ buffer.length) :
    (write buffer index text).getD cell default =
      if index ≤ cell ∧ cell < index+text.length then text.getD (cell-index) default
      else buffer.getD cell default := by
  induction text generalizing buffer index with
  | nil =>
    rw [if_neg (by rw [List.length_nil]; omega)]
    rfl
  | cons b text ih =>
    rw [List.length_cons] at room
    have inside : index < buffer.length := by omega
    rw [write,ih (buffer.set index b) (index+1) (by rw [List.length_set]; omega),cell_set buffer b default inside,
      List.length_cons]
    rcases Nat.lt_trichotomy cell index with below | rfl | above
    · rw [if_neg (by omega),if_neg (by omega),if_neg (by omega)]
    · rw [if_neg (by omega),if_pos rfl,if_pos (by omega),Nat.sub_self]
      rfl
    · obtain ⟨offset,rfl⟩ : ∃ offset, cell = index+1+offset := ⟨cell-(index+1),by omega⟩
      have shift : index+1+offset-index = offset+1 := by omega
      rw [if_neg (by omega : ¬ index+1+offset = index),Nat.add_sub_cancel_left,shift,List.getD_cons_succ]
      by_cases within : offset < text.length
      · rw [if_pos (by omega),if_pos (by omega)]
      · rw [if_neg (by omega),if_neg (by omega)]

section Marks
variable [DecidableEq α]

-- A text cut after every second of two marks in a row; `pre` is what stands
-- before the text.
def segments (mark : α) : α → List α → List (List α)
  | _,[] => []
  | pre,b::rest =>
    if b = mark ∧ pre = mark then [b]::segments mark b rest
    else match segments mark b rest with
      | [] => [[b]]
      | first::more => (b::first)::more

-- What follows the first two marks in a row.
def beyond (mark : α) : α → List α → Option (List α)
  | _,[] => none
  | pre,b::rest => if b = mark ∧ pre = mark then some rest else beyond mark b rest

-- The text ends with two marks in a row and has none before.
def Ends (mark : α) : α → List α → Prop
  | _,[] => False
  | pre,b::rest => if b = mark ∧ pre = mark then rest = [] else Ends mark b rest

inductive Chain (mark : α) : α → List (List α) → Prop where
  | nil (pre : α) : Chain mark pre []
  | cons (ends : Ends mark pre first) (later : Chain mark mark more) : Chain mark pre (first::more)

theorem segments_chain (mark : α) (text : List α) (pre : α) :
    Chain mark pre (segments mark pre (text++[mark,mark])) ∧
      (segments mark pre (text++[mark,mark])).flatten = text++[mark,mark] := by
  induction text generalizing pre with
  | nil =>
    by_cases pair : pre = mark
    · subst pair
      simp only [List.nil_append,segments,and_self,if_true]
      exact ⟨.cons (by simp [Ends]) (.cons (by simp [Ends]) (.nil _)),rfl⟩
    · simp only [List.nil_append,segments,pair,and_false,and_self,if_true,if_false]
      exact ⟨.cons (by simp [Ends,pair]) (.nil _),rfl⟩
  | cons b text ih =>
    obtain ⟨chain,whole⟩ := ih b
    rw [List.cons_append,segments]
    by_cases pair : b = mark ∧ pre = mark
    · obtain ⟨rfl,rfl⟩ := pair
      rw [if_pos ⟨rfl,rfl⟩]
      exact ⟨.cons (by simp [Ends]) chain,by rw [List.flatten_cons,whole]; rfl⟩
    · rw [if_neg pair]
      cases cut : segments mark b (text++[mark,mark]) with
      | nil =>
        rw [cut] at whole
        simp at whole
      | cons first more =>
        rw [cut] at chain whole
        cases chain with
        | cons ends later =>
          exact ⟨.cons (by rw [Ends,if_neg pair]; exact ends) later,by
            rw [List.flatten_cons] at whole ⊢
            rw [List.cons_append,whole]⟩

theorem ends_pair {mark pre : α} (ends : Ends mark pre (b::rest)) (pair : b = mark ∧ pre = mark) : rest = [] := by
  rwa [Ends,if_pos pair] at ends

theorem ends_inner {mark pre : α} (ends : Ends mark pre (b::rest)) (inner : ¬ (b = mark ∧ pre = mark)) :
    Ends mark b rest := by
  rwa [Ends,if_neg inner] at ends

-- After a byte that is no mark, the two marks both belong to the text.
theorem ends_length {mark pre : α} (apart : pre ≠ mark) (ends : Ends mark pre text) : 2 ≤ text.length := by
  cases text with
  | nil => exact absurd ends id
  | cons b rest =>
    have later := ends_inner ends fun pair => apart pair.2
    cases rest with
    | nil => exact absurd later id
    | cons c rest => simp

theorem beyond_ends {mark other pre : α} (apart : other ≠ mark) (ends : Ends mark pre text)
    (found : beyond other pre text = some rest) : Ends mark other rest ∧ rest.length < text.length := by
  induction text generalizing pre with
  | nil => exact absurd ends id
  | cons b text ih =>
    rw [beyond] at found
    by_cases opening : b = other ∧ pre = other
    · rw [if_pos opening,Option.some.injEq] at found
      subst found
      have later := ends_inner ends fun pair => apart (opening.1.symm.trans pair.1)
      rw [opening.1] at later
      exact ⟨later,by simp⟩
    · rw [if_neg opening] at found
      by_cases pair : b = mark ∧ pre = mark
      · rw [ends_pair ends pair] at found
        cases found
      · obtain ⟨last,shorter⟩ := ih (ends_inner ends pair) found
        exact ⟨last,by rw [List.length_cons]; omega⟩

end Marks
end Framing
