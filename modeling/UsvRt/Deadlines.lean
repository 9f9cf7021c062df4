import Mathlib.Data.List.Basic
import Mathlib.Data.UInt

-- A list of items kept in the order of their deadlines, on a clock of 32 bits that wraps.
-- Deadlines lie less than half the clock's range ahead.
namespace Deadlines
variable {α : Type}

def half : UInt32 := 0x7fffffff

def left (now deadline : UInt32) : Nat := (deadline-now).toNat

-- In front of the first item that the new one goes before.
def place (before : α → Prop) [DecidablePred before] (a : α) : List α → List α
  | [] => [a]
  | b::rest => if before b then a::b::rest else b::place before a rest

section Order
variable (before : α → Prop) [DecidablePred before]

theorem place_perm (a : α) (items : List α) : (place before a items).Perm (a::items) := by
  induction items with
  | nil => exact .refl _
  | cons b rest ih =>
    unfold place
    split
    · exact .refl _
    · exact (ih.cons b).trans (.swap a b rest)

theorem mem_place : c ∈ place before a items ↔ c = a ∨ c ∈ items := by
  rw [(place_perm before a items).mem_iff,List.mem_cons]

theorem place_nodup (fresh : a ∉ items) (nodup : items.Nodup) : (place before a items).Nodup :=
  (place_perm before a items).nodup_iff.mpr (List.nodup_cons.mpr ⟨fresh,nodup⟩)

theorem place_ordered (key : α → Nat) (exact : ∀ b ∈ items, before b ↔ key a < key b)
    (ordered : items.Pairwise fun b c => key b ≤ key c) :
    (place before a items).Pairwise fun b c => key b ≤ key c := by
  induction items with
  | nil => exact List.pairwise_singleton _ _
  | cons b rest ih =>
    obtain ⟨least,ordered⟩ := List.pairwise_cons.mp ordered
    have first := exact b List.mem_cons_self
    unfold place
    split
    · next goes =>
      have earlier := first.mp goes
      refine List.pairwise_cons.mpr ⟨?_,List.pairwise_cons.mpr ⟨least,ordered⟩⟩
      intro c member
      cases List.mem_cons.mp member with
      | inl same => exact same ▸ Nat.le_of_lt earlier
      | inr later => exact Nat.le_trans (Nat.le_of_lt earlier) (least c later)
    · next stays =>
      have later : key b ≤ key a := Nat.le_of_not_lt fun less => stays (first.mpr less)
      refine List.pairwise_cons.mpr ⟨?_,ih (fun c member => exact c (List.mem_cons_of_mem _ member)) ordered⟩
      intro c member
      cases (mem_place before).mp member with
      | inl same => exact same ▸ later
      | inr old => exact least c old

end Order

section Clock
variable {now deadline other : UInt32}

theorem left_start (wait : UInt32) : left now (now+wait) = wait.toNat := by
  rw [left,UInt32.add_comm now wait,UInt32.add_sub_cancel]

-- The test that orders two deadlines by their difference tells which is the later one.
theorem later_exact (soon : left now deadline < half.toNat) (otherSoon : left now other < half.toNat) :
    (other-deadline ≠ 0 ∧ other-deadline < half) ↔ left now deadline < left now other := by
  simp only [left,half,UInt32.toNat_sub,ne_eq,← UInt32.toNat_inj,UInt32.lt_iff_toNat_lt] at *
  have := now.toNat_lt
  have := deadline.toNat_lt
  have := other.toNat_lt
  simp only [UInt32.reduceToNat] at *
  omega

theorem due_exact (soon : left now deadline < half.toNat) : now+1-deadline < half ↔ left now deadline ≤ 1 := by
  simp only [left,half,UInt32.toNat_sub,UInt32.toNat_add,UInt32.lt_iff_toNat_lt] at *
  have := now.toNat_lt
  have := deadline.toNat_lt
  simp only [UInt32.reduceToNat] at *
  omega

theorem left_next (ahead : 0 < left now deadline) : left (now+1) deadline = left now deadline-1 := by
  simp only [left,UInt32.toNat_sub,UInt32.toNat_add] at *
  have := now.toNat_lt
  have := deadline.toNat_lt
  simp only [UInt32.reduceToNat] at *
  omega

end Clock

end Deadlines
