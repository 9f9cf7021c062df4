import Mathlib.Data.List.Basic
import Mathlib.Data.List.Chain
import Mathlib.Data.List.Nodup
import Mathlib.Data.List.Pairwise

-- Blocks that tile a stretch of memory and are linked both ways. What it takes for a block
-- to be in place, behind the block that starts at a given address, is a parameter.
namespace LinkedBlocks

@[ext] structure Block where
  start : Nat
  stop : Nat
  used : Bool
  deriving DecidableEq,Repr

inductive Segment (held : Block → Nat → Prop) (room : Nat) : Nat → Nat → List Block → Nat → Nat → Prop where
  | nil : Segment held room p a [] p a
  | cons : b.start+room ≤ b.stop → held b p → Segment held room b.start b.stop rest q z →
      Segment held room p b.start (b::rest) q z

variable {held held' : Block → Nat → Prop} {room : Nat}

theorem Segment.le (tiles : Segment held room p a blocks q z) : a ≤ z := by
  induction tiles with
  | nil => exact Nat.le_refl _
  | cons wide _ _ ih => omega

theorem Segment.empty (tiles : Segment held room p a blocks q z) (positive : 0 < room) (same : a = z) : blocks = [] := by
  cases tiles with
  | nil => rfl
  | cons wide _ rest =>
    have bound := rest.le
    omega

theorem Segment.uncons (tiles : Segment held room p a (b::rest) q z) :
    a = b.start ∧ b.start+room ≤ b.stop ∧ held b p ∧ Segment held room b.start b.stop rest q z := by
  cases tiles with
  | cons wide here rest => exact ⟨rfl,wide,here,rest⟩

theorem Segment.append (front : Segment held room p a xs q y) (back : Segment held room q y ys r z) :
    Segment held room p a (xs ++ ys) r z := by
  induction front with
  | nil => exact back
  | cons wide here _ ih => exact .cons wide here (ih back)

theorem Segment.split {xs ys : List Block} (tiles : Segment held room p a (xs ++ ys) r z) :
    ∃ q y, Segment held room p a xs q y ∧ Segment held room q y ys r z := by
  induction xs generalizing p a with
  | nil => exact ⟨p,a,.nil,tiles⟩
  | cons b xs ih =>
    cases tiles with
    | cons wide here rest =>
      obtain ⟨q,y,front,back⟩ := ih rest
      exact ⟨q,y,.cons wide here front,back⟩

-- A block in the midst of others, with the address that it names as the one behind it.
theorem Segment.middle {xs ys : List Block} (tiles : Segment held room p a (xs ++ b::ys) r z) :
    ∃ q, Segment held room p a xs q b.start ∧ held b q ∧ b.start+room ≤ b.stop ∧
      Segment held room b.start b.stop ys r z := by
  obtain ⟨q,y,front,back⟩ := tiles.split
  cases back with
  | cons wide here rest => exact ⟨q,front,here,wide,rest⟩

theorem Segment.ends (tiles : Segment held room p a [] q z) : q = p ∧ z = a := by
  cases tiles with
  | nil => exact ⟨rfl,rfl⟩

theorem Segment.last {xs : List Block} (tiles : Segment held room p a (xs ++ [b]) q z) : q = b.start ∧ z = b.stop := by
  obtain ⟨_,_,_,_,rest⟩ := tiles.middle
  exact rest.ends

theorem Segment.inside (tiles : Segment held room p a blocks q z) (member : b ∈ blocks) :
    a ≤ b.start ∧ b.start+room ≤ b.stop ∧ b.stop ≤ z := by
  obtain ⟨xs,ys,rfl⟩ := List.append_of_mem member
  obtain ⟨q,front,_,wide,rest⟩ := tiles.middle
  exact ⟨front.le,wide,rest.le⟩

theorem Segment.before {xs ys : List Block} (tiles : Segment held room p a (xs ++ b::ys) r z)
    (member : c ∈ xs) : c.stop ≤ b.start := by
  obtain ⟨q,front,_⟩ := tiles.middle
  exact (front.inside member).2.2

theorem Segment.after {xs ys : List Block} (tiles : Segment held room p a (xs ++ b::ys) r z)
    (member : c ∈ ys) : b.stop ≤ c.start := by
  obtain ⟨q,_,_,_,rest⟩ := tiles.middle
  exact (rest.inside member).1

theorem Segment.length_le (tiles : Segment held room p a blocks q z) : blocks.length*room+a ≤ z := by
  induction tiles with
  | nil => simp
  | cons wide _ _ ih =>
    rw [List.length_cons,Nat.succ_mul]
    omega

theorem Segment.apart (tiles : Segment held room p a blocks q z) :
    blocks.Pairwise fun b c => b.stop ≤ c.start := by
  induction tiles with
  | nil => exact .nil
  | cons wide here rest ih => exact .cons (fun c member => (rest.inside member).1) ih

theorem Segment.beside (tiles : Segment held room p a blocks q z) (first : b ∈ blocks) (second : c ∈ blocks)
    (apart : b ≠ c) : b.stop ≤ c.start ∨ c.stop ≤ b.start := by
  have either : blocks.Pairwise fun b c => b.stop ≤ c.start ∨ c.stop ≤ b.start := tiles.apart.imp .inl
  have symmetric : Std.Symm fun b c : Block => b.stop ≤ c.start ∨ c.stop ≤ b.start := ⟨fun _ _ => Or.symm⟩
  exact either.forall first second apart

theorem Segment.nodup (tiles : Segment held room p a blocks q z) (positive : 0 < room) :
    (blocks.map (·.start)).Nodup := by
  induction tiles with
  | nil => exact .nil
  | cons wide here rest ih =>
    refine List.nodup_cons.mpr ⟨?_,ih⟩
    intro present
    obtain ⟨c,member,same⟩ := List.mem_map.mp present
    have later := (rest.inside member).1
    dsimp only at same
    omega

theorem Segment.unique (tiles : Segment held room p a blocks q z) (positive : 0 < room)
    (first : b ∈ blocks) (second : c ∈ blocks) (same : b.start = c.start) : b = c :=
  List.inj_on_of_nodup_map (tiles.nodup positive) first second same

theorem Segment.frame (tiles : Segment held room p a blocks q z)
    (kept : ∀ b ∈ blocks, ∀ p, held b p → held' b p) : Segment held' room p a blocks q z := by
  induction tiles with
  | nil => exact .nil
  | cons wide here _ ih =>
    exact .cons wide (kept _ List.mem_cons_self _ here)
      (ih fun b member => kept b (List.mem_cons_of_mem _ member))

-- The first of the blocks is put behind another one; what the last one leaves is not needed.
theorem Segment.relink (tiles : Segment held room p a blocks q z)
    (first : ∀ b, blocks.head? = some b → held b p → held' b p')
    (kept : ∀ b ∈ blocks.tail, ∀ p, held b p → held' b p) :
    ∃ q', Segment held' room p' a blocks q' z := by
  cases tiles with
  | nil => exact ⟨p',.nil⟩
  | cons wide here rest => exact ⟨q,.cons wide (first _ rfl here) (rest.frame kept)⟩

-- Some blocks give way to others over the same stretch.
theorem Segment.replace {xs new ys : List Block}
    (front : Segment held room p a xs q lo) (back : Segment held room q' hi ys r z)
    (middle : Segment held' room q lo new q'' hi)
    (below : ∀ b ∈ xs, ∀ p, held b p → held' b p)
    (first : ∀ b, ys.head? = some b → held b q' → held' b q'')
    (above : ∀ b ∈ ys.tail, ∀ p, held b p → held' b p) :
    ∃ r', Segment held' room p a (xs ++ (new ++ ys)) r' z := by
  obtain ⟨r',last⟩ := back.relink first above
  exact ⟨r',(front.frame below).append (middle.append last)⟩

section Accounts

def inUse (blocks : List Block) : List Block := blocks.filter (·.used)

def spent (blocks : List Block) : Nat := (inUse blocks).foldr (fun b rest => b.stop-b.start+rest) 0

theorem inUse_append (xs ys : List Block) : inUse (xs ++ ys) = inUse xs ++ inUse ys := List.filter_append ..

theorem inUse_free {b : Block} (free : b.used = false) (ys : List Block) : inUse (b::ys) = inUse ys := by
  simp [inUse,free]

theorem inUse_used {b : Block} (used : b.used = true) (ys : List Block) : inUse (b::ys) = b::inUse ys := by
  simp [inUse,used]

theorem mem_inUse {blocks : List Block} : b ∈ inUse blocks ↔ b ∈ blocks ∧ b.used = true := List.mem_filter

theorem spent_free {b : Block} (free : b.used = false) (ys : List Block) : spent (b::ys) = spent ys := by
  simp [spent,inUse_free free]

theorem spent_used {b : Block} (used : b.used = true) (ys : List Block) : spent (b::ys) = b.stop-b.start+spent ys := by
  simp [spent,inUse_used used]

theorem spent_append (xs ys : List Block) : spent (xs ++ ys) = spent xs+spent ys := by
  induction xs with
  | nil => simp [spent,inUse]
  | cons b xs ih =>
    cases used : b.used with
    | true => rw [List.cons_append,spent_used used,spent_used used,ih,Nat.add_assoc]
    | false => rw [List.cons_append,spent_free used,spent_free used,ih]

theorem Segment.spent_le (tiles : Segment held room p a blocks q z) : spent blocks+a ≤ z := by
  induction tiles with
  | nil => simp [spent,inUse]
  | @cons b p rest q z wide _ tiles ih =>
    cases used : b.used with
    | true =>
      rw [spent_used used]
      omega
    | false =>
      rw [spent_free used]
      omega

theorem mem_around (xs ys : List Block) (used : b.used = true) (c : Block) :
    c ∈ inUse (xs ++ b::ys) ↔ c = b ∨ c ∈ inUse xs ++ inUse ys := by
  rw [inUse_append,inUse_used used,List.mem_append,List.mem_cons,List.mem_append]
  constructor
  · rintro (front | same | back)
    · exact .inr (.inl front)
    · exact .inl same
    · exact .inr (.inr back)
  · rintro (same | front | back)
    · exact .inr (.inl same)
    · exact .inl front
    · exact .inr (.inr back)

theorem Segment.others {xs ys : List Block} (tiles : Segment held room p a (xs ++ b::ys) r z) (positive : 0 < room) :
    ∀ c ∈ inUse xs ++ inUse ys, c.start ≠ b.start := by
  intro c member
  have bounds := tiles.inside (b := b) (by simp)
  cases List.mem_append.mp member with
  | inl front =>
    have inXs := (mem_inUse.mp front).1
    have order := tiles.before inXs
    have wide := (tiles.inside (List.mem_append_left _ inXs)).2.1
    omega
  | inr back =>
    have order := tiles.after (mem_inUse.mp back).1
    omega

theorem Segment.mem_others {xs ys : List Block} (tiles : Segment held room p a (xs ++ b::ys) r z) (positive : 0 < room)
    (used : b.used = true) (c : Block) :
    c ∈ inUse xs ++ inUse ys ↔ c ∈ inUse (xs ++ b::ys) ∧ c.start ≠ b.start := by
  rw [mem_around xs ys used]
  constructor
  · intro member
    exact ⟨.inr member,tiles.others positive c member⟩
  · intro ⟨member,apart⟩
    exact member.resolve_left fun same => apart (same ▸ rfl)

end Accounts

-- No two free blocks lie side by side.
def Merged (blocks : List Block) : Prop := blocks.IsChain fun b c => b.used = true ∨ c.used = true

theorem merged_around {xs ys : List Block} : Merged (xs ++ b::ys) ↔
    Merged xs ∧ (∀ a, xs.getLast? = some a → a.used = true ∨ b.used = true) ∧
      (∀ c, ys.head? = some c → b.used = true ∨ c.used = true) ∧ Merged ys := by
  unfold Merged
  rw [List.isChain_append,List.isChain_cons]
  constructor
  · rintro ⟨front,⟨first,back⟩,touch⟩
    exact ⟨front,fun a last => touch a last b rfl,first,back⟩
  · rintro ⟨front,last,first,back⟩
    refine ⟨front,⟨first,back⟩,?_⟩
    intro a member c here
    cases here
    exact last a member

theorem merged_single {blocks : List Block} (merged : Merged blocks) (free : ∀ b ∈ blocks, b.used = false) :
    blocks.length ≤ 1 := by
  cases blocks with
  | nil => exact Nat.zero_le _
  | cons b rest =>
    cases rest with
    | nil => exact Nat.le_refl _
    | cons c rest =>
      have touch := (List.isChain_cons_cons.mp merged).1
      simp [free b,free c] at touch

end LinkedBlocks
