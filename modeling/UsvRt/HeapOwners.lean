import Mathlib.Logic.Function.Basic
import UsvRt.HeapReleases

-- What the callers of the allocator hold: arrays of bytes, each under its address.
namespace Kernel.Heap
open ByteMemory LinkedBlocks

abbrev Owned := UInt32 → Option (List UInt8)

-- Every block in use is held by somebody, and keeps the bytes that are held.
structure Backed (h : Heap) (blocks : List Block) (owned : Owned) : Prop where
  known : ∀ b ∈ blocks, ∃ bytes, owned (h.address b) = some bytes
  kept : ∀ a bytes, owned a = some bytes → ∃ b ∈ blocks, h.address b = a ∧ bytes.length ≤ b.stop-(b.start+12) ∧
    load h.memory (b.start+12) bytes.length = bytes

section Addresses
variable {h : Heap} {b c : Block}

theorem address_inj (low : b.start < 2^32) (high : c.start < 2^32) (same : h.address b = h.address c) :
    b.start = c.start := by
  have equal : UInt32.ofNat b.start = .ofNat c.start := by
    rw [← address_ptr h b,same,address_ptr h c]
  rw [← ofNat_toNat low,equal,ofNat_toNat high]

theorem address_fixed (fixed : Fixed h h') (b : Block) : h'.address b = h.address b := by
  unfold address
  rw [fixed.heapPtr]

end Addresses

section Backed
variable {h h' : Heap} {old new others blocks : List Block} {owned : Owned} {u : Block}

theorem Spares.load (spares : Spares h h' blocks) (member : b ∈ blocks) {count : Nat} (short : count ≤ b.stop-(b.start+12)) :
    load h'.memory (b.start+12) count = load h.memory (b.start+12) count :=
  load_congr fun i low high => spares b member i ⟨low,by omega⟩

theorem Backed.spare (backed : Backed h blocks owned) (spares : Spares h h' blocks) (fixed : Fixed h h') :
    Backed h' blocks owned := by
  constructor
  · intro b member
    rw [address_fixed fixed]
    exact backed.known b member
  · intro a bytes held
    obtain ⟨b,member,at_,short,stored⟩ := backed.kept a bytes held
    refine ⟨b,member,(address_fixed fixed b).trans at_,short,?_⟩
    rw [spares.load member short,stored]

theorem Backed.remove (backed : Backed h old owned) (small : ∀ c ∈ old, c.start < 2^32) (here : u ∈ old)
    (member : ∀ c, c ∈ others ↔ c ∈ old ∧ c.start ≠ u.start) :
    Backed h others (Function.update owned (h.address u) none) := by
  constructor
  · intro b inside
    obtain ⟨inOld,apart⟩ := (member b).mp inside
    have other : h.address b ≠ h.address u := fun same => apart (address_inj (small b inOld) (small u here) same)
    rw [Function.update_of_ne other]
    exact backed.known b inOld
  · intro a bytes held
    have other : a ≠ h.address u := by
      intro same
      rw [same,Function.update_self] at held
      cases held
    rw [Function.update_of_ne other] at held
    obtain ⟨b,inOld,at_,rest⟩ := backed.kept a bytes held
    refine ⟨b,(member b).mpr ⟨inOld,?_⟩,at_,rest⟩
    intro same
    apply other
    rw [← at_]
    unfold address
    rw [same]

theorem Backed.add (backed : Backed h others owned) (member : ∀ c, c ∈ new ↔ c = u ∨ c ∈ others) (bytes : List UInt8)
    (short : bytes.length ≤ u.stop-(u.start+12)) (stored : load h.memory (u.start+12) bytes.length = bytes) :
    Backed h new (Function.update owned (h.address u) (some bytes)) := by
  have here := (member u).mpr (.inl rfl)
  constructor
  · intro b inside
    by_cases same : h.address b = h.address u
    · exact ⟨bytes,by rw [same,Function.update_self]⟩
    · rw [Function.update_of_ne same]
      cases (member b).mp inside with
      | inl equal => exact absurd (congrArg h.address equal) same
      | inr inOthers => exact backed.known b inOthers
  · intro a held atA
    by_cases same : a = h.address u
    · rw [same,Function.update_self] at atA
      cases atA
      exact ⟨u,here,same.symm,short,stored⟩
    · rw [Function.update_of_ne same] at atA
      obtain ⟨b,inOthers,rest⟩ := backed.kept a held atA
      exact ⟨b,(member b).mpr (.inr inOthers),rest⟩

-- A free block's address is nobody's.
theorem Backed.fresh (backed : Backed h old owned) (small : ∀ c ∈ old, c.start < 2^32) (low : u.start < 2^32)
    (apart : ∀ c ∈ old, c.start ≠ u.start) : owned (h.address u) = none := by
  cases held : owned (h.address u) with
  | none => rfl
  | some bytes =>
    obtain ⟨b,inOld,at_,_⟩ := backed.kept _ bytes held
    exact absurd (address_inj (small b inOld) low at_) (apart b inOld)

end Backed

-- max_mem keeps up with used_mem.
def Charged (h h' : Heap) : Prop :=
  h.usedMem.toNat ≤ h.maxMem.toNat → h.maxMem.toNat ≤ h'.maxMem.toNat ∧ h'.usedMem.toNat ≤ h'.maxMem.toNat

theorem Charged.refl (h : Heap) : Charged h h := fun bound => ⟨Nat.le_refl _,bound⟩

theorem Charged.trans (first : Charged h h') (second : Charged h' h'') : Charged h h'' := by
  intro bound
  obtain ⟨grown,between⟩ := first bound
  obtain ⟨grownAgain,after⟩ := second between
  exact ⟨Nat.le_trans grown grownAgain,after⟩

theorem charged_peak {h h' : Heap} (peak : h'.maxMem.toNat = max h.maxMem.toNat h'.usedMem.toNat) : Charged h h' := by
  intro _
  rw [peak]
  exact ⟨Nat.le_max_left _ _,Nat.le_max_right _ _⟩

theorem charged_less {h h' : Heap} (same : h'.maxMem = h.maxMem) (less : h'.usedMem.toNat ≤ h.usedMem.toNat) :
    Charged h h' := by
  intro bound
  rw [same]
  exact ⟨Nat.le_refl _,Nat.le_trans less bound⟩

def Good (h : Heap) (owned : Owned) : Prop := ∃ blocks, Formed h blocks ∧ Backed h (inUse blocks) owned

section Good
variable {h : Heap} {owned : Owned} {blocks : List Block} {b : Block} {bytes : List UInt8}

theorem Formed.small (formed : Formed h blocks) : ∀ b ∈ inUse blocks, b.start < 2^32 := by
  obtain ⟨r,tiles⟩ := formed.laid
  intro b member
  have bounds := tiles.inside (mem_inUse.mp member).1
  have small := h.heapEnd.toNat_lt
  omega

-- The bytes behind an address.
def data (h : Heap) (a : UInt32) (count : Nat) : List UInt8 := load h.memory (a-h.heapPtr).toNat count

theorem address_offset (formed : Formed h blocks) (member : b ∈ blocks) :
    (h.address b-h.heapPtr).toNat = b.start+12 := by
  obtain ⟨r,tiles⟩ := formed.laid
  have bounds := tiles.inside member
  have at_ := (address_toNat (b := b) formed.toSized (by omega)).2
  rw [sub_toNat (by omega),at_]
  omega

-- A held address is that of a block in use.
theorem held_block (backed : Backed h (inUse blocks) owned) (held : owned a = some bytes) :
    ∃ xs b ys, blocks = xs ++ b::ys ∧ b.used = true ∧ h.address b = a ∧ bytes.length ≤ b.stop-(b.start+12) ∧
      load h.memory (b.start+12) bytes.length = bytes := by
  obtain ⟨b,member,at_,short,stored⟩ := backed.kept a bytes held
  obtain ⟨inside,used⟩ := mem_inUse.mp member
  obtain ⟨xs,ys,parts⟩ := List.append_of_mem inside
  exact ⟨xs,b,ys,parts,used,at_,short,stored⟩

-- A block that has been handed out, and whatever its holder takes it to contain.
structure Handed (h h' : Heap) (old : List Block) (owned : Owned) (size : Nat) (u : Block) (blocks : List Block) : Prop where
  formed : Formed h' blocks
  fixed : Fixed h h'
  spares : Spares h h' (inUse old)
  member : u ∈ inUse blocks
  room : size ≤ u.stop-(u.start+12)
  tight : u.stop-(u.start+12) < size+24
  peak : h'.maxMem.toNat = max h.maxMem.toNat h'.usedMem.toNat
  fresh : owned (h.address u) = none
  some_ : h.address u ≠ 0
  found : ∀ limit, Found limit h → Found limit h'
  backed : ∀ bytes : List UInt8, bytes.length ≤ u.stop-(u.start+12) → load h'.memory (u.start+12) bytes.length = bytes →
    Backed h' (inUse blocks) (Function.update owned (h.address u) (some bytes))

theorem malloc_good (formed : Formed h blocks) (backed : Backed h (inUse blocks) owned) (size : UInt32) :
    h.rtMalloc size = some (0,h) ∨
      ∃ h' blocks' u, h.rtMalloc size = some (h.address u,h') ∧ Handed h h' blocks owned (need size).toNat u blocks' := by
  by_cases asked : h.asked size
  · cases hit : blocks.find? (h.offers size) with
    | none =>
      refine .inl (malloc_refused formed fun _ b member => ?_)
      simpa using List.find?_eq_none.mp hit b member
    | some b =>
      obtain ⟨taken,xs,ys,rfl,passed⟩ := List.find?_eq_some_iff_append.mp hit
      obtain ⟨h',granted,formed',fixed,within,peak,lowest⟩ := malloc_granted formed asked (by simpa using passed) taken
      obtain ⟨r,tiles⟩ := formed.laid
      have bounds := tiles.inside (b := b) (by simp)
      have limit := h.heapEnd.toNat_lt
      simp only [offers,fits,Bool.and_eq_true,Bool.not_eq_true',decide_eq_true_eq] at taken
      obtain ⟨_,⟨free,_⟩,room⟩ := taken
      obtain ⟨stop,rest,shape,more,less,loose,tight⟩ := pieces_first room
      have old : inUse (xs ++ b::ys) = inUse xs ++ inUse ys := by
        rw [inUse_append,inUse_free free]
      have new : inUse (xs ++ (pieces (need size).toNat b ++ ys)) = inUse (xs ++ ⟨b.start,stop,true⟩::ys) := by
        rw [shape,List.cons_append,inUse_append,inUse_append,inUse_used rfl,inUse_used rfl,inUse_append,loose]
        rfl
      have others := tiles.others (by decide)
      have spares : Spares h h' (inUse (xs ++ b::ys)) := by
        rw [old]
        exact spares_beside (fun c member => tiles.before (mem_inUse.mp member).1)
          (fun c member => tiles.after (mem_inUse.mp member).1) within
      have asserts := address_asserts (b := b) formed.toSized (formed.regular b (by simp)).1
        (by have regular := (formed.regular b (by simp)).2.2; omega)
      have member := mem_around (b := ⟨b.start,stop,true⟩) xs ys rfl
      refine .inr ⟨h',_,⟨b.start,stop,true⟩,granted,formed',fixed,spares,?_,by dsimp only; omega,
        by dsimp only; omega,peak,?_,asserts.1,
        fun limit found => formed'.found.mpr (lowest limit (formed.found.mp found)),?_⟩
      · rw [new]
        exact (member _).mpr (.inl rfl)
      · exact backed.fresh (u := ⟨b.start,stop,true⟩) formed.small (by dsimp only; omega) (old ▸ others)
      · intro bytes short stored
        rw [new,← address_fixed fixed]
        exact (old ▸ backed.spare spares fixed).add member bytes short stored
  · exact .inl (malloc_refused formed fun yes => absurd yes asked)

-- Bytes are stored in a block's data.
def poke (h : Heap) (a : Nat) (stored : List UInt8) : Heap := {h with memory := store h.memory a stored}

theorem poke_formed {xs ys : List Block} (formed : Formed h (xs ++ b::ys)) {stored : List UInt8} (low : b.start+12 ≤ a)
    (high : a+stored.length ≤ b.stop) :
    Formed (h.poke a stored) (xs ++ b::ys) ∧ Spares h (h.poke a stored) (inUse xs ++ inUse ys) ∧
      ∀ limit, Found limit (h.poke a stored) ↔ Found limit h := by
  obtain ⟨r,tiles⟩ := id formed.laid
  have outside : ∀ i, i < a ∨ a+stored.length ≤ i → (h.poke a stored).memory i = h.memory i :=
    fun i apart => store_outside apart
  have bounds := (tiles.inside (b := b) (by simp)).2.1
  have inside : Inside b.start b.stop h (h.poke a stored) := fun i apart => outside i (by omega)
  have laid : Laid (h.poke a stored).memory (xs ++ b::ys) h.heapEnd.toNat := by
    refine ⟨r,tiles.frame ?_⟩
    intro c member p here
    simp only [List.mem_append,List.mem_cons] at member
    rcases member with below | rfl | above
    · have order := tiles.before below
      have wide := (tiles.inside (List.mem_append_left _ below)).2.1
      exact inside.held wide (.inl order) here
    · exact held_congr (fun i from_ until_ => outside i (by omega)) here
    · have order := tiles.after above
      have wide := (tiles.inside (b := c) (by simp [above])).2.1
      exact inside.held wide (.inr order) here
  have formed' : Formed (h.poke a stored) (xs ++ b::ys) :=
    ⟨⟨formed.toSized.kept ⟨rfl,rfl,rfl⟩,laid,formed.regular,formed.account⟩,formed.low,formed.merged⟩
  refine ⟨formed',?_,fun limit => formed'.found.trans formed.found.symm⟩
  have within : Within b.start b.stop h (h.poke a stored) := inside.widen (Nat.le_refl _) (Nat.le_add_right _ _)
  exact spares_beside (fun c member => tiles.before (mem_inUse.mp member).1)
    (fun c member => tiles.after (mem_inUse.mp member).1) within

theorem poke_backed {xs ys : List Block} (formed : Formed h (xs ++ b::ys)) (backed : Backed h (inUse (xs ++ b::ys)) owned)
    (used : b.used = true) (fixed : Fixed h h') (spares : Spares h h' (inUse xs ++ inUse ys)) (bytes : List UInt8)
    (short : bytes.length ≤ b.stop-(b.start+12)) (loaded : load h'.memory (b.start+12) bytes.length = bytes) :
    Backed h' (inUse (xs ++ b::ys)) (Function.update owned (h.address b) (some bytes)) := by
  obtain ⟨r,tiles⟩ := id formed.laid
  have around := mem_around xs ys used
  have here := (around b).mpr (.inl rfl)
  have rest := tiles.mem_others (by decide) used
  have alone := (backed.remove formed.small here rest).spare spares fixed
  have again := alone.add around bytes short loaded
  rwa [address_fixed fixed,Function.update_idem] at again

theorem free_good {a : UInt32} (formed : Formed h blocks) (backed : Backed h (inUse blocks) owned)
    (held : owned a = some bytes) :
    ∃ h' blocks', h.rtFree a = some h' ∧ Formed h' blocks' ∧ Fixed h h' ∧ h'.maxMem = h.maxMem ∧
      h'.usedMem.toNat ≤ h.usedMem.toNat ∧
      Backed h' (inUse blocks') (Function.update owned a none) ∧ ∀ limit, Found limit h → Found limit h' := by
  obtain ⟨xs,b,ys,rfl,used,rfl,_,_⟩ := held_block backed held
  obtain ⟨r,tiles⟩ := id formed.laid
  have around := mem_around xs ys used
  have rest := tiles.mem_others (by decide) used
  obtain ⟨h',blocks',freed,formed',fixed,maxMem,left,spares,lowest⟩ := free_exact formed used
  have less : h'.usedMem.toNat ≤ h.usedMem.toNat := by
    rw [formed'.account,formed.account,spent_append,spent_used used,spent,left,← inUse_append]
    change spent (xs ++ ys) ≤ _
    rw [spent_append]
    omega
  refine ⟨h',blocks',freed,formed',fixed,maxMem,less,?_,fun limit found => formed'.found.mpr (lowest limit (formed.found.mp found))⟩
  rw [left]
  exact (backed.remove formed.small ((around b).mpr (.inl rfl)) rest).spare spares fixed

end Good

end Kernel.Heap
