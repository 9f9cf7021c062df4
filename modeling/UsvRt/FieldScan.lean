import UsvRt.TextScan

-- What a format of scan sets stores: each conversion writes its match and a
-- terminator to the cells of its destination.
namespace TextScan

structure Destination where
  accepts : UInt8 → Bool
  stop : UInt8
  cells : Nat

-- Each conversion is followed by the literal byte that ends its field.
def scanning (destinations : List Destination) (tail : List Directive) : List Directive :=
  destinations.flatMap (fun d => [.scanSet d.accepts,.literal d.stop]) ++ tail

-- The text of some fields that are complete, with the bytes that end them.
inductive Filled : List Destination → List UInt8 → Prop where
  | nil : Filled [] []
  | cons {d : Destination} {done : List Destination} {field before : List UInt8} (some : field ≠ []) (inside : ∀ b ∈ field, d.accepts b = true)
      (later : Filled done before) : Filled (d::done) (field++d.stop::before)

-- Wherever the complete fields before a destination end, fewer accepted bytes
-- follow than it has cells.
def Fits (destinations : List Destination) (text : List UInt8) : Prop :=
  ∀ done d rest before gap after, destinations = done++d::rest → Filled done before →
    text = before++(gap++after) → (∀ b ∈ gap, d.accepts b = true) → gap.length < d.cells

def Stored (destinations : List Destination) (texts : List (List UInt8)) : Prop :=
  ∀ write ∈ texts.zip destinations, write.1.length+1 ≤ write.2.cells

theorem gap_taken (accepts : UInt8 → Bool) (gap after : List UInt8) (inside : ∀ b ∈ gap, accepts b = true) :
    gap.length ≤ ((gap++after).takeWhile accepts).length := by
  rw [List.takeWhile_append_of_pos inside,List.length_append]
  exact Nat.le_add_right _ _

theorem stored_cons :
    Stored (d::destinations) (field::texts) ↔ field.length+1 ≤ d.cells ∧ Stored destinations texts := by
  unfold Stored
  rw [List.zip_cons_cons,List.forall_mem_cons]

-- The complete fields before a destination are the first field, cut where its match
-- ends, and complete fields of what follows its end.
theorem fits_cons (outside : d.accepts d.stop = false) :
    Fits (d::destinations) text ↔ (text.takeWhile d.accepts).length < d.cells ∧
      ∀ rest, text.takeWhile d.accepts ≠ [] → text.dropWhile d.accepts = d.stop::rest → Fits destinations rest := by
  constructor
  · intro fits
    have accepted : ∀ b ∈ text.takeWhile d.accepts, d.accepts b = true := fun b member => List.mem_takeWhile_imp member
    refine ⟨fits [] d destinations [] _ _ rfl .nil List.takeWhile_append_dropWhile.symm accepted,?_⟩
    intro rest some dropped done e more before gap after split filled shape inside
    refine fits (d::done) e more (text.takeWhile d.accepts++d.stop::before) gap after (by rw [split]; rfl)
      (.cons some accepted filled) ?_ inside
    rw [List.append_assoc,List.cons_append,← shape,← dropped,List.takeWhile_append_dropWhile]
  · rintro ⟨first,later⟩ done e more before gap after split filled shape inside
    cases filled with
    | nil =>
      obtain ⟨rfl,rfl⟩ := List.cons.inj split
      rw [List.nil_append] at shape
      have taken := gap_taken d.accepts gap after inside
      rw [← shape] at taken
      exact Nat.lt_of_le_of_lt taken first
    | @cons _ done field before some accepted filled =>
      obtain ⟨rfl,rfl⟩ := List.cons.inj split
      rw [List.append_assoc,List.cons_append] at shape
      have taken : text.takeWhile d.accepts = field := by
        rw [shape,List.takeWhile_append_of_pos accepted,List.takeWhile_cons_of_neg (by simp [outside]),List.append_nil]
      have dropped : text.dropWhile d.accepts = d.stop::(before++(gap++after)) := by
        rw [shape,List.dropWhile_append_of_pos accepted,List.dropWhile_cons_of_neg (by simp [outside])]
      exact later _ (taken ▸ some) dropped done e more before gap after rfl filled rfl inside

-- A conversion that matches nothing, or whose literal does not follow, is the last.
theorem stored_scanning (d : Destination) (destinations : List Destination) (tail : List Directive) (text : List UInt8)
    (positive : 0 < d.cells) :
    Stored (d::destinations) (convert (scanning (d::destinations) tail) text) ↔
      (text.takeWhile d.accepts).length < d.cells ∧ ∀ rest, text.takeWhile d.accepts ≠ [] →
        text.dropWhile d.accepts = d.stop::rest → Stored destinations (convert (scanning destinations tail) rest) := by
  have scanned : convert (scanning (d::destinations) tail) text =
      if text.takeWhile d.accepts = [] then []
      else text.takeWhile d.accepts::convert (.literal d.stop::scanning destinations tail) (text.dropWhile d.accepts) := rfl
  rw [scanned]
  by_cases empty : text.takeWhile d.accepts = []
  · rw [if_pos empty,empty]
    exact iff_of_true (by simp [Stored]) ⟨positive,fun _ some => absurd rfl some⟩
  · rw [if_neg empty,stored_cons]
    refine and_congr Nat.succ_le_iff ?_
    cases dropped : text.dropWhile d.accepts with
    | nil => exact iff_of_true (by simp [convert,Stored]) fun _ _ => nofun
    | cons head rest =>
      by_cases stop : head = d.stop
      · subst stop
        rw [convert_literal]
        refine ⟨fun stored more _ same => ?_,fun every => every rest empty rfl⟩
        exact (List.cons.inj same).2 ▸ stored
      · have failed : convert (.literal d.stop::scanning destinations tail) (head::rest) = [] := if_neg stop
        rw [failed]
        exact iff_of_true (by simp [Stored]) fun more _ same => absurd (List.cons.inj same).1 stop

theorem stored_fits (destinations : List Destination) (tail : List Directive) (text : List UInt8)
    (positive : ∀ d ∈ destinations, 0 < d.cells) (outside : ∀ d ∈ destinations, d.accepts d.stop = false) :
    Stored destinations (convert (scanning destinations tail) text) ↔ Fits destinations text := by
  induction destinations generalizing text with
  | nil =>
    refine iff_of_true (by simp [Stored]) ?_
    intro done d rest before gap after split
    simp at split
  | cons d destinations ih =>
    have later := fun text => ih text (fun e member => positive e (List.mem_cons_of_mem _ member))
      fun e member => outside e (List.mem_cons_of_mem _ member)
    rw [stored_scanning d destinations tail text (positive d List.mem_cons_self),fits_cons (outside d List.mem_cons_self)]
    simp only [later]

end TextScan
