import Mathlib.Data.List.Find
import UsvRt.HeapLayout

open ByteMemory LinkedBlocks

namespace Kernel.Heap

theorem rtAlignDown_toNat (size : UInt32) : (rtAlignDown size).toNat = size.toNat/4*4 := by
  have small := size.toNat_lt
  have mask : (~~~3 : UInt32).toNat = (2^30-1) <<< 2 := by decide
  have shifted : size.toNat/4*4 = size.toNat >>> 2 <<< 2 := by
    rw [Nat.shiftLeft_eq,Nat.shiftRight_eq_div_pow]
  rw [rtAlignDown,UInt32.toNat_and,mask,shifted]
  apply Nat.eq_of_testBit_eq
  intro i
  rw [Nat.testBit_and,Nat.testBit_shiftLeft,Nat.testBit_shiftLeft,Nat.testBit_two_pow_sub_one,Nat.testBit_shiftRight]
  by_cases low : i < 2
  · simp [Nat.not_le_of_lt low]
  · have high : 2 ≤ i := Nat.le_of_not_lt low
    by_cases inside : i < 32
    · simp [high,show i-2 < 30 by omega,Nat.add_sub_cancel' high]
    · have big : 2^32 ≤ 2^i := Nat.pow_le_pow_right (by decide) (Nat.le_of_not_lt inside)
      have zero : size.toNat.testBit i = false := Nat.testBit_lt_two_pow (by omega)
      simp [zero,show ¬i-2 < 30 by omega,Nat.add_sub_cancel' high]

theorem rtAlign_toNat (size : UInt32) : (rtAlign size).toNat = (size.toNat+3) % 2^32/4*4 := by
  have down := rtAlignDown_toNat (size+3)
  rwa [UInt32.toNat_add] at down

section Search
variable {h : Heap} {size : UInt32}

-- The blocks that the loop of rt_malloc would take.
def fits (h : Heap) (size : UInt32) (b : Block) : Bool :=
  !b.used && decide (b.start < h.memSizeAligned.toNat-size.toNat) && decide (b.start+12+size.toNat ≤ b.stop)

theorem next_toNat (here : h.mem ptr = head b p) (small : b.stop < 2^32) : (h.mem ptr).next.toNat = b.stop := by
  rw [here]
  exact ofNat_toNat small

theorem used_zero (here : h.mem ptr = head b p) : (h.mem ptr).used = 0 ↔ b.used = false := by
  rw [here,head]
  cases b.used with
  | false => simp
  | true => simp

theorem search_exact (sized : Sized h) (le : size.toNat ≤ h.memSizeAligned.toNat)
    (tiles : Segment (Held h.memory) 12 p a blocks r h.heapEnd.toNat) {ptr : UInt32} (at_ : ptr.toNat = a)
    (enough : blocks.length < turns) :
    h.search size turns ptr = some ((blocks.find? (h.fits size)).map fun b => .ofNat b.start) := by
  have limit : (h.memSizeAligned-size).toNat = h.memSizeAligned.toNat-size.toNat := sub_toNat le
  have end_ := sized.end_
  have small := h.heapEnd.toNat_lt
  induction blocks generalizing p a ptr turns with
  | nil =>
    obtain ⟨turns,rfl⟩ := Nat.exists_eq_add_one_of_ne_zero (Nat.ne_of_gt enough)
    have last := tiles.le
    have stop : ¬ptr < h.memSizeAligned-size := by
      have wall : a = h.heapEnd.toNat := by
        cases tiles
        rfl
      rw [UInt32.lt_iff_toNat_lt,limit]
      omega
    rw [search,if_neg stop]
    rfl
  | cons b rest ih =>
    obtain ⟨turns,rfl⟩ := Nat.exists_eq_add_one_of_ne_zero (Nat.ne_of_gt (Nat.zero_lt_of_lt enough))
    obtain ⟨start,wide,here,tiles⟩ := tiles.uncons
    have stop := tiles.le
    have block := (held_mem (at_.trans start)).mp here
    have next := next_toNat block (by omega)
    rw [search]
    split
    · next inside =>
      rw [UInt32.lt_iff_toNat_lt,limit] at inside
      have ahead : (ptr+sizeofStructMem).toNat = b.start+12 := by
        rw [add_toNat (by change ptr.toNat+12 < 2^32; omega),at_,start]
        rfl
      have width : ((h.mem ptr).next-(ptr+sizeofStructMem)).toNat = b.stop-(b.start+12) := by
        rw [sub_toNat (by omega),next,ahead]
      have exact : ((h.mem ptr).used = 0 ∧ size ≤ (h.mem ptr).next-(ptr+sizeofStructMem)) ↔ h.fits size b = true := by
        rw [used_zero block,UInt32.le_iff_toNat_le,width]
        simp only [fits,Bool.and_eq_true,decide_eq_true_eq,Bool.not_eq_true']
        constructor
        · intro ⟨free,room⟩
          exact ⟨⟨free,by omega⟩,by omega⟩
        · intro ⟨⟨free,_⟩,room⟩
          exact ⟨free,by omega⟩
      dsimp only
      split
      · next taken =>
        rw [List.find?_cons_of_pos (exact.mp taken),Option.map_some,← start,← at_]
        simp
      · next passed =>
        rw [List.find?_cons_of_neg (fun taken => passed (exact.mpr taken))]
        exact ih tiles next (Nat.lt_of_succ_lt_succ enough)
    · next outside =>
      rw [UInt32.lt_iff_toNat_lt,limit] at outside
      have none : (b::rest).find? (h.fits size) = none := by
        apply List.find?_eq_none.mpr
        intro c member
        have bound : b.start ≤ c.start := by
          cases List.mem_cons.mp member with
          | inl same => exact same ▸ Nat.le_refl _
          | inr later =>
            have beyond := (tiles.inside later).1
            omega
        simp only [fits,Bool.and_eq_true,decide_eq_true_eq]
        omega
      rw [none]
      rfl

theorem nextFree_exact (tiles : Segment (Held h.memory) 12 p a blocks r h.heapEnd.toNat) {ptr : UInt32}
    (at_ : ptr.toNat = a) (enough : blocks.length < turns) :
    h.nextFree turns ptr = some (((blocks.find? (!·.used)).map fun b => .ofNat b.start).getD h.heapEnd) := by
  have small := h.heapEnd.toNat_lt
  induction blocks generalizing p a ptr turns with
  | nil =>
    obtain ⟨turns,rfl⟩ := Nat.exists_eq_add_one_of_ne_zero (Nat.ne_of_gt enough)
    have wall : ptr = h.heapEnd := by
      apply UInt32.toNat_inj.mp
      cases tiles
      exact at_
    rw [nextFree,if_neg (fun more => more.2 wall),wall]
    rfl
  | cons b rest ih =>
    obtain ⟨turns,rfl⟩ := Nat.exists_eq_add_one_of_ne_zero (Nat.ne_of_gt (Nat.zero_lt_of_lt enough))
    obtain ⟨start,wide,here,tiles⟩ := tiles.uncons
    have stop := tiles.le
    have block := (held_mem (at_.trans start)).mp here
    have next := next_toNat block (by omega)
    have inner : ptr ≠ h.heapEnd := by
      intro same
      rw [same] at at_
      omega
    rw [nextFree]
    cases used : b.used with
    | false =>
      have free := (used_zero block).mpr used
      rw [if_neg (fun more => more.1 free),List.find?_cons_of_pos (by simp [used]),Option.map_some,← start,← at_]
      simp
    | true =>
      have taken : (h.mem ptr).used ≠ 0 := by
        rw [ne_eq,used_zero block,used]
        decide
      rw [if_pos ⟨taken,inner⟩,List.find?_cons_of_neg (by simp [used])]
      exact ih tiles next (Nat.lt_of_succ_lt_succ enough)

end Search

section Grant
variable {h : Heap} {size ptr : UInt32} {b : Block} {xs ys : List Block}

-- What becomes of a free block that is taken.
def pieces (size : Nat) (b : Block) : List Block :=
  if size+24 ≤ b.stop-(b.start+12) then [⟨b.start,b.start+12+size,true⟩,⟨b.start+12+size,b.stop,false⟩]
  else [{b with used := true}]

theorem pieces_first {size : Nat} (room : b.start+12+size ≤ b.stop) :
    ∃ stop rest, pieces size b = ⟨b.start,stop,true⟩::rest ∧ b.start+12+size ≤ stop ∧ stop ≤ b.stop ∧
      inUse rest = [] ∧ stop < b.start+12+size+24 := by
  unfold pieces
  split
  · exact ⟨_,_,rfl,Nat.le_refl _,room,rfl,by omega⟩
  · exact ⟨_,_,rfl,room,Nat.le_refl _,rfl,by omega⟩

-- The tests and sums of carve on the block's own numbers.
theorem carve_numbers (sized : Sized h) (laid : Laid h.memory (xs ++ b::ys) h.heapEnd.toNat) (at_ : ptr.toNat = b.start)
    (room : b.start+12+size.toNat ≤ b.stop) :
    (h.mem ptr).next.toNat = b.stop ∧ b.stop ≤ h.heapEnd.toNat ∧ (size+sizeofStructMem).toNat = size.toNat+12 ∧
      (ptr+sizeofStructMem+size).toNat = b.start+12+size.toNat ∧
      (size+sizeofStructMem+minSizeAligned ≤ (h.mem ptr).next-(ptr+sizeofStructMem) ↔
        size.toNat+24 ≤ b.stop-(b.start+12)) := by
  have small := sized.high
  obtain ⟨r,tiles⟩ := laid
  obtain ⟨q,_,here,wide,rest⟩ := tiles.middle
  have stop := rest.le
  have next := next_toNat ((held_mem at_).mp here) (by omega)
  have ahead : (ptr+sizeofStructMem).toNat = b.start+12 := by
    rw [add_toNat (by change ptr.toNat+12 < 2^32; omega),at_]
    rfl
  have behind : (ptr+sizeofStructMem+size).toNat = b.start+12+size.toNat := by
    rw [add_toNat (by omega),ahead]
  have width : ((h.mem ptr).next-(ptr+sizeofStructMem)).toNat = b.stop-(b.start+12) := by
    rw [sub_toNat (by omega),next,ahead]
  have first : (size+sizeofStructMem).toNat = size.toNat+12 := add_toNat (by change size.toNat+12 < 2^32; omega)
  have both : (size+sizeofStructMem+minSizeAligned).toNat = size.toNat+12+12 := by
    rw [add_toNat (by change (size+sizeofStructMem).toNat+12 < 2^32; omega),first]
    rfl
  refine ⟨next,stop,first,behind,?_⟩
  rw [UInt32.le_iff_toNat_le,both,width]

theorem carve_laid (sized : Sized h) (laid : Laid h.memory (xs ++ b::ys) h.heapEnd.toNat) (at_ : ptr.toNat = b.start)
    (room : b.start+12+size.toNat ≤ b.stop) :
    Laid (h.carve ptr size).memory (xs ++ (pieces size.toNat b ++ ys)) h.heapEnd.toNat ∧
      Within b.start b.stop h (h.carve ptr size) := by
  obtain ⟨next,stop,_,behind,spare⟩ := carve_numbers sized laid at_ room
  have flag : (1 : UInt16) = if true then 1 else 0 := rfl
  unfold carve pieces
  dsimp only
  by_cases more : size.toNat+24 ≤ b.stop-(b.start+12)
  · rw [if_pos (spare.mpr more),if_pos more]
    obtain ⟨inserted,within⟩ := insertAfter_laid laid sized.wall at_
      (show b.start+12 ≤ (ptr+sizeofStructMem+size).toNat by omega) (by omega)
    rw [behind] at inserted
    have stored : Within b.start b.stop (h.insertAfter ptr (ptr+sizeofStructMem+size))
        ((h.insertAfter ptr (ptr+sizeofStructMem+size)).setUsed ptr 1) :=
      Inside.put _ _ (by omega) (by omega)
    rw [Within,Inside,charge_memory]
    exact ⟨setUsed_laid inserted at_ flag,within.trans stored⟩
  · rw [if_neg (fun roomy => more (spare.mp roomy)),if_neg more]
    have stored : Within b.start b.stop h (h.setUsed ptr 1) := Inside.put h _ (by omega) (by omega)
    rw [Within,Inside,charge_memory]
    exact ⟨setUsed_laid laid at_ flag,stored⟩

-- What carve charges is the length of the first piece.
theorem carve_charge (sized : Sized h) (laid : Laid h.memory (xs ++ b::ys) h.heapEnd.toNat) (at_ : ptr.toNat = b.start)
    (room : b.start+12+size.toNat ≤ b.stop) :
    ∃ (h' : Heap) (cost : UInt32), h.carve ptr size = h'.charge cost ∧ h'.usedMem = h.usedMem ∧ h'.maxMem = h.maxMem ∧
      cost.toNat = if size.toNat+24 ≤ b.stop-(b.start+12) then size.toNat+12 else b.stop-b.start := by
  obtain ⟨next,stop,cost,_,spare⟩ := carve_numbers sized laid at_ room
  unfold carve
  dsimp only
  by_cases more : size.toNat+24 ≤ b.stop-(b.start+12)
  · rw [if_pos (spare.mpr more),if_pos more]
    have inserted := insertAfter_fixed h ptr (ptr+sizeofStructMem+size)
    exact ⟨_,_,rfl,inserted.2.2.1,inserted.2.2.2,cost⟩
  · rw [if_neg (fun roomy => more (spare.mp roomy)),if_neg more]
    refine ⟨_,_,rfl,put_usedMem _ _ _,put_maxMem _ _ _,?_⟩
    rw [sub_toNat (by omega),next,at_]

theorem pieces_spent {size : Nat} (b : Block) (ys : List Block) :
    spent (pieces size b ++ ys) = (if size+24 ≤ b.stop-(b.start+12) then size+12 else b.stop-b.start)+spent ys := by
  unfold pieces
  split
  · rw [List.cons_append,List.cons_append,List.nil_append,spent_used rfl,spent_free rfl]
    dsimp only
    omega
  · rw [List.cons_append,List.nil_append,spent_used rfl]

theorem pieces_regular {size : Nat} (aligned : size % 4 = 0 ∧ 0 < size) (room : b.start+12+size ≤ b.stop)
    (regular : Regular b) : ∀ c ∈ pieces size b, Regular c := by
  obtain ⟨start,stop,_⟩ := regular
  unfold pieces
  split
  · intro c member
    simp only [List.mem_cons,List.not_mem_nil,or_false] at member
    rcases member with rfl | rfl
    · exact ⟨start,by dsimp only; omega,by dsimp only; omega⟩
    · exact ⟨by dsimp only; omega,stop,by dsimp only; omega⟩
  · intro c member
    rw [List.mem_singleton.mp member]
    exact ⟨start,stop,by dsimp only; omega⟩

theorem charge_usedMem (h : Heap) {size : UInt32} (small : h.usedMem.toNat+size.toNat < 2^32) :
    (h.charge size).usedMem.toNat = h.usedMem.toNat+size.toNat := add_toNat small

theorem charge_maxMem (h : Heap) (size : UInt32) :
    (h.charge size).maxMem.toNat = max h.maxMem.toNat (h.charge size).usedMem.toNat := by
  unfold charge
  dsimp only
  split
  · next more =>
    rw [UInt32.lt_iff_toNat_lt] at more
    omega
  · next less =>
    rw [UInt32.lt_iff_toNat_lt] at less
    omega

theorem carve_shaped (shaped : Shaped h (xs ++ b::ys)) (free : b.used = false) (at_ : ptr.toNat = b.start)
    (aligned : size.toNat % 4 = 0 ∧ 0 < size.toNat) (room : b.start+12+size.toNat ≤ b.stop) :
    Shaped (h.carve ptr size) (xs ++ (pieces size.toNat b ++ ys)) ∧
      (h.carve ptr size).maxMem.toNat = max h.maxMem.toNat (h.carve ptr size).usedMem.toNat := by
  have fixed := (carve_fixed h ptr size).1
  have sized := shaped.toSized.kept fixed
  have laid := (carve_laid shaped.toSized shaped.laid at_ room).1
  rw [← fixed.heapEnd] at laid
  obtain ⟨h',cost,result,usedMem,maxMem,paid⟩ := carve_charge shaped.toSized shaped.laid at_ room
  have total : spent (xs ++ (pieces size.toNat b ++ ys)) = h.usedMem.toNat+cost.toNat := by
    rw [shaped.account,spent_append xs (b::ys),spent_append xs,pieces_spent,spent_free free,paid]
    omega
  have bound : h.usedMem.toNat+cost.toNat < 2^32 := by
    obtain ⟨r,tiles⟩ := laid
    have most := tiles.spent_le
    have small := sized.high
    omega
  have account : (h.carve ptr size).usedMem.toNat = h.usedMem.toNat+cost.toNat := by
    rw [result,charge_usedMem h' (by rwa [usedMem]),usedMem]
  refine ⟨⟨sized,laid,?_,account.trans total.symm⟩,?_⟩
  · intro c member
    simp only [List.mem_append] at member
    rcases member with below | inner | above
    · exact shaped.regular c (List.mem_append_left _ below)
    · exact pieces_regular aligned room (shaped.regular b (by simp)) c inner
    · exact shaped.regular c (by simp [above])
  · rw [result,charge_maxMem,maxMem]

theorem Shaped.setMagic (shaped : Shaped h (xs ++ b::ys)) (at_ : ptr.toNat = b.start) :
    Shaped (h.setMagic ptr) (xs ++ b::ys) :=
  ⟨shaped.toSized.kept (put_fixed _ _ _),setMagic_laid shaped.laid at_,shaped.regular,shaped.account⟩

-- The loop over lfree ends at the first free block from there on.
theorem raiseFree_exact (laid : Laid h.memory (xs ++ b::ys) h.heapEnd.toNat) (at_ : h.lfree.toNat = b.start) :
    ∃ lfree, h.raiseFree = some {h with lfree} ∧
      (lfree = h.heapEnd ∧ (∀ c ∈ b::ys, c.used = true) ∨
        ∃ c ∈ b::ys, c.used = false ∧ c.start = lfree.toNat ∧ ∀ d ∈ b::ys, d.used = false → c.start ≤ d.start) := by
  obtain ⟨r,tiles⟩ := laid
  have small := h.heapEnd.toNat_lt
  obtain ⟨q,y,front,tiles⟩ := tiles.split
  have start := tiles.uncons.1
  have count := tiles.length_le
  have found := nextFree_exact tiles (at_.trans start.symm) (show (b::ys).length < h.fuel by unfold fuel; omega)
  unfold raiseFree
  rw [found]
  cases hit : (b::ys).find? (!·.used) with
  | none =>
    refine ⟨h.heapEnd,by simp,.inl ⟨rfl,?_⟩⟩
    intro c member
    simpa using List.find?_eq_none.mp hit c member
  | some c =>
    obtain ⟨free,as,bs,parts,passed⟩ := List.find?_eq_some_iff_append.mp hit
    have free : c.used = false := by simpa using free
    rw [parts] at tiles
    obtain ⟨q,_,here,wide,rest⟩ := tiles.middle
    have stop := rest.le
    have lfree : (UInt32.ofNat c.start).toNat = c.start := ofNat_toNat (by omega)
    have unused : (h.mem (.ofNat c.start)).used = 0 := (used_zero ((held_mem lfree).mp here)).mpr free
    refine ⟨.ofNat c.start,by simp [unused],.inr ⟨c,by simp [parts],free,lfree.symm,?_⟩⟩
    intro d member unusedToo
    rw [parts] at member
    rcases List.mem_append.mp member with below | above
    · have used := passed d below
      simp [unusedToo] at used
    · cases List.mem_cons.mp above with
      | inl same => exact same ▸ Nat.le_refl _
      | inr later =>
        have order := tiles.after later
        omega

theorem pieces_merged {size : Nat} (merged : Merged (xs ++ b::ys)) (free : b.used = false) :
    Merged (xs ++ (pieces size b ++ ys)) := by
  obtain ⟨front,_,first,back⟩ := merged_around.mp merged
  have behind : ∀ c, ys.head? = some c → c.used = true := by
    intro c here
    simpa [free] using first c here
  unfold pieces
  split
  · refine merged_around.mpr ⟨front,fun _ _ => .inr rfl,fun _ _ => .inl rfl,?_⟩
    exact List.isChain_cons.mpr ⟨fun c here => .inr (behind c here),back⟩
  · exact merged_around.mpr ⟨front,fun _ _ => .inr rfl,fun c here => .inr (behind c here),back⟩

theorem and_three (a : UInt32) : a &&& 3 = 0 ↔ a.toNat % 4 = 0 := by
  rw [← UInt32.toNat_inj,UInt32.toNat_and]
  have low := Nat.and_two_pow_sub_one_eq_mod a.toNat 2
  exact low ▸ Iff.rfl

-- What rt_malloc hands out for a block.
def address (h : Heap) (b : Block) : UInt32 := h.heapPtr+.ofNat b.start+sizeofStructMem

theorem address_toNat (sized : Sized h) (inside : b.start+12 ≤ h.heapEnd.toNat) :
    (h.heapPtr+.ofNat b.start).toNat = h.heapPtr.toNat+b.start ∧ (h.address b).toNat = h.heapPtr.toNat+b.start+12 := by
  have small := sized.high
  have start : (UInt32.ofNat b.start).toNat = b.start := ofNat_toNat (by omega)
  have first : (h.heapPtr+.ofNat b.start).toNat = h.heapPtr.toNat+b.start := by
    rw [add_toNat (by omega),start]
  refine ⟨first,?_⟩
  rw [address,add_toNat (by change (h.heapPtr+.ofNat b.start).toNat+12 < 2^32; omega),first]
  rfl

theorem grant_asserts (sized : Sized h) (even : b.start % 4 = 0) (room : b.start+12+size.toNat ≤ h.heapEnd.toNat) :
    h.heapPtr+.ofNat b.start+sizeofStructMem+size ≤ h.heapPtr+h.heapEnd ∧
      (h.heapPtr+.ofNat b.start+sizeofStructMem) % 4 = 0 ∧ (h.heapPtr+.ofNat b.start) &&& 3 = 0 := by
  have small := sized.high
  have base := sized.base
  obtain ⟨first,data⟩ := address_toNat (b := b) sized (by omega)
  refine ⟨?_,?_,?_⟩
  · have top : (h.heapPtr+h.heapEnd).toNat = h.heapPtr.toNat+h.heapEnd.toNat := add_toNat (by omega)
    have last : (h.address b+size).toNat = h.heapPtr.toNat+b.start+12+size.toNat := by
      rw [add_toNat (by omega),data]
    rw [UInt32.le_iff_toNat_le,top]
    change (h.address b+size).toNat ≤ _
    omega
  · apply UInt32.toNat_inj.mp
    rw [UInt32.toNat_mod]
    change (h.address b).toNat % 4 = 0
    omega
  · rw [and_three,first]
    omega

-- A free block other than the one that gives way is still there.
theorem low_beside (low : Low h (xs ++ b::ys)) (other : h.lfree.toNat ≠ b.start) (same : h'.lfree = h.lfree)
    (end_ : h'.heapEnd = h.heapEnd) (new : List Block) : Low h' (xs ++ (new ++ ys)) := by
  unfold Low
  rw [same,end_]
  refine low.imp_right ?_
  intro ⟨c,member,free,start⟩
  refine ⟨c,?_,free,start⟩
  simp only [List.mem_append,List.mem_cons] at member ⊢
  rcases member with below | here | above
  · exact .inl below
  · exact absurd (start.symm.trans (here ▸ rfl)) other
  · exact .inr (.inr above)

theorem lfree_settles {g : Heap} {rest : List Block} (formed : Formed h (xs ++ b::ys)) (free : b.used = false)
    (at_ : ptr.toNat = b.start) (fixed : Fixed h g) (same : g.lfree = h.lfree)
    (laid : Laid g.memory (xs ++ (⟨b.start,stop,true⟩::rest ++ ys)) g.heapEnd.toNat) :
    ∃ lfree, (if ptr = g.lfree then g.raiseFree else some g) = some {g with lfree} ∧
      Low {g with lfree} (xs ++ (⟨b.start,stop,true⟩::rest ++ ys)) ∧
      (∀ limit, Lowest limit h (xs ++ b::ys) → Lowest limit {g with lfree} (xs ++ (⟨b.start,stop,true⟩::rest ++ ys))) := by
  obtain ⟨r,tiles⟩ := formed.laid
  by_cases taken : ptr = g.lfree
  · have start : g.lfree.toNat = (⟨b.start,stop,true⟩ : Block).start := taken ▸ at_
    obtain ⟨lfree,raised,found⟩ := raiseFree_exact laid start
    refine ⟨lfree,by rw [if_pos taken,raised],?_,?_⟩
    · refine found.imp (fun past => past.1) ?_
      intro ⟨c,member,unused,here,_⟩
      exact ⟨c,List.mem_append_right _ member,unused,here⟩
    · intro limit lowest c member unused near
      cases List.mem_append.mp member with
      | inl below =>
        have least := lowest c (List.mem_append_left _ below) unused near
        have order := tiles.before below
        have wide := (tiles.inside (List.mem_append_left _ below)).2.1
        rw [← same,start] at least
        dsimp only at least
        omega
      | inr above =>
        rcases found with ⟨_,full⟩ | ⟨d,_,_,here,least⟩
        · exact absurd (full c above) (by simp [unused])
        · exact here ▸ least c above unused
  · refine ⟨g.lfree,if_neg taken,?_,?_⟩
    · have other : h.lfree.toNat ≠ b.start := by
        intro equal
        apply taken
        rw [same]
        exact UInt32.toNat_inj.mp (at_.trans equal.symm)
      exact low_beside formed.low other same fixed.heapEnd _
    · intro limit lowest c member unused near
      change g.lfree.toNat ≤ c.start
      rw [same]
      simp only [List.mem_append] at member
      rcases member with below | inner | above
      · exact lowest c (List.mem_append_left _ below) unused near
      · cases List.mem_cons.mp inner with
        | inl head =>
          rw [head] at unused
          cases unused
        | inr later =>
          obtain ⟨r',tiles'⟩ := laid
          have order := tiles'.after (List.mem_append_left ys later)
          have wide := (tiles'.inside (b := ⟨b.start,stop,true⟩) (by simp)).2.1
          dsimp only at order wide
          have first := lowest b (by simp) free (by omega)
          omega
      · exact lowest c (by simp [above]) unused near

theorem grant_exact (formed : Formed h (xs ++ b::ys)) (free : b.used = false) (at_ : ptr.toNat = b.start)
    (aligned : size.toNat % 4 = 0 ∧ 0 < size.toNat) (room : b.start+12+size.toNat ≤ b.stop) :
    ∃ h', h.grant ptr size = some (h.address b,h') ∧ Formed h' (xs ++ (pieces size.toNat b ++ ys)) ∧ Fixed h h' ∧
      Within b.start b.stop h h' ∧ h'.maxMem.toNat = max h.maxMem.toNat h'.usedMem.toNat ∧
      (∀ limit, Lowest limit h (xs ++ b::ys) → Lowest limit h' (xs ++ (pieces size.toNat b ++ ys))) := by
  have name : ptr = .ofNat b.start := by
    rw [← at_]
    simp
  obtain ⟨shaped,peak⟩ := carve_shaped formed.toShaped free at_ aligned room
  obtain ⟨fixed,lfree⟩ := carve_fixed h ptr size
  have within := (carve_laid formed.toSized formed.laid at_ room).2
  have merged : Merged (xs ++ (pieces size.toNat b ++ ys)) := pieces_merged formed.merged free
  obtain ⟨stop,rest,shape,more,less,_⟩ := pieces_first room
  have fixed := fixed.trans (setMagic_fixed (h.carve ptr size) ptr)
  have within : Within b.start b.stop h ((h.carve ptr size).setMagic ptr) :=
    within.trans (Inside.put _ _ (by omega) (by omega))
  rw [shape] at shaped merged ⊢
  have shaped := Shaped.setMagic shaped at_
  obtain ⟨lfree,settled,low,lowest⟩ := lfree_settles formed free at_ fixed lfree shaped.laid
  obtain ⟨r,tiles⟩ := formed.laid
  have top := (tiles.inside (b := b) (by simp)).2.2
  have asserts := grant_asserts (b := b) formed.toSized (formed.regular b (by simp)).1
    (show b.start+12+size.toNat ≤ h.heapEnd.toNat by omega)
  have peak : ((h.carve ptr size).setMagic ptr).maxMem.toNat =
      max h.maxMem.toNat ((h.carve ptr size).setMagic ptr).usedMem.toNat := by
    rw [setMagic,put_maxMem,put_usedMem]
    exact peak
  unfold grant
  dsimp only
  generalize (h.carve ptr size).setMagic ptr = g at *
  refine ⟨{g with lfree},?_,?_,?_,within,peak,lowest⟩
  · rw [settled]
    dsimp only
    rw [fixed.heapPtr,fixed.heapEnd,name,if_pos asserts]
    rfl
  · exact ⟨⟨shaped.toSized.kept ⟨rfl,rfl,rfl⟩,shaped.laid,shaped.regular,shaped.account⟩,low,merged⟩
  · exact fixed.trans ⟨rfl,rfl,rfl⟩

end Grant

section Malloc
variable {h : Heap} {blocks : List Block} {size : UInt32}

-- The length that rt_malloc looks for.
def need (size : UInt32) : UInt32 := if rtAlign size < minSizeAligned then minSizeAligned else rtAlign size

theorem need_toNat (size : UInt32) : (need size).toNat = max (rtAlign size).toNat 12 := by
  have least : minSizeAligned.toNat = 12 := rfl
  unfold need
  split
  · next less =>
    rw [UInt32.lt_iff_toNat_lt,least] at less
    rw [least]
    omega
  · next more =>
    rw [UInt32.lt_iff_toNat_lt,least] at more
    omega

theorem need_aligned (size : UInt32) : (need size).toNat % 4 = 0 ∧ 0 < (need size).toNat := by
  rw [need_toNat,rtAlign_toNat]
  omega

def offers (h : Heap) (size : UInt32) (b : Block) : Bool := decide (h.lfree.toNat ≤ b.start) && h.fits (need size) b

theorem search_offers (formed : Formed h blocks) (le : (need size).toNat ≤ h.memSizeAligned.toNat) :
    h.search (need size) h.fuel h.lfree = some ((blocks.find? (h.offers size)).map fun b => .ofNat b.start) := by
  obtain ⟨r,tiles⟩ := formed.laid
  rcases formed.low with past | ⟨c,member,_,start⟩
  · have none : blocks.find? (h.offers size) = none := by
      apply List.find?_eq_none.mpr
      intro b member
      have inside := tiles.inside member
      simp only [offers,past,Bool.and_eq_true,decide_eq_true_eq]
      omega
    rw [none]
    exact search_exact formed.toSized le (.nil (p := 0)) (congrArg _ past) (Nat.succ_pos _)
  · obtain ⟨as,bs,rfl⟩ := List.append_of_mem member
    have skipped : as.find? (h.offers size) = none := by
      apply List.find?_eq_none.mpr
      intro b below
      have order := tiles.before below
      have wide := (tiles.inside (List.mem_append_left _ below)).2.1
      simp only [offers,Bool.and_eq_true,decide_eq_true_eq]
      omega
    have same : (c::bs).find? (h.offers size) = (c::bs).find? (h.fits (need size)) := by
      apply List.find?_congr
      intro b member
      have above : h.lfree.toNat ≤ b.start := by
        cases List.mem_cons.mp member with
        | inl same => exact same ▸ Nat.le_of_eq start.symm
        | inr later =>
          have order := tiles.after later
          have wide := (tiles.inside (b := c) (by simp)).2.1
          omega
      simp [offers,above]
    rw [List.find?_append,skipped,Option.none_or,same]
    obtain ⟨q,y,front,tiles⟩ := tiles.split
    have count := tiles.length_le
    have here := tiles.uncons.1
    exact search_exact formed.toSized le tiles (start.symm.trans here.symm) (by unfold fuel; omega)

-- Only a request within the heap's size is looked for.
def asked (h : Heap) (size : UInt32) : Prop := size ≠ 0 ∧ (rtAlign size).toNat ≤ h.memSizeAligned.toNat

instance (h : Heap) (size : UInt32) : Decidable (h.asked size) := inferInstanceAs (Decidable (_ ∧ _))

theorem malloc_search (formed : Formed h blocks) (asked : h.asked size) :
    h.rtMalloc size = match blocks.find? (h.offers size) with
      | none => some (0,h)
      | some b => h.grant (.ofNat b.start) (need size) := by
  obtain ⟨some_,within⟩ := asked
  have room := formed.room
  have limit : (need size).toNat ≤ h.memSizeAligned.toNat := by
    rw [need_toNat]
    omega
  unfold rtMalloc
  dsimp only
  rw [if_neg some_,if_neg (by rw [UInt32.lt_iff_toNat_lt]; omega)]
  rw [show (if rtAlign size < minSizeAligned then minSizeAligned else rtAlign size) = need size from rfl,
    search_offers formed limit]
  cases blocks.find? (h.offers size) with
  | none => rfl
  | some b => rfl

theorem malloc_refused (formed : Formed h blocks) (none : h.asked size → ∀ b ∈ blocks, h.offers size b = false) :
    h.rtMalloc size = some (0,h) := by
  by_cases asked : h.asked size
  · rw [malloc_search formed asked,List.find?_eq_none.mpr (by simpa using none asked)]
  · unfold rtMalloc
    dsimp only
    by_cases zero : size = 0
    · rw [if_pos zero]
    · have beyond : h.memSizeAligned < rtAlign size := by
        rw [UInt32.lt_iff_toNat_lt]
        exact Nat.lt_of_not_le fun within => asked ⟨zero,within⟩
      rw [if_neg zero,if_pos beyond]

-- The first of the blocks on offer is taken.
theorem malloc_granted {xs ys : List Block} (formed : Formed h (xs ++ b::ys)) (asked : h.asked size)
    (passed : ∀ c ∈ xs, h.offers size c = false) (taken : h.offers size b = true) :
    ∃ h', h.rtMalloc size = some (h.address b,h') ∧ Formed h' (xs ++ (pieces (need size).toNat b ++ ys)) ∧ Fixed h h' ∧
      Within b.start b.stop h h' ∧ h'.maxMem.toNat = max h.maxMem.toNat h'.usedMem.toNat ∧
      (∀ limit, Lowest limit h (xs ++ b::ys) → Lowest limit h' (xs ++ (pieces (need size).toNat b ++ ys))) := by
  have found : (xs ++ b::ys).find? (h.offers size) = some b := by
    rw [List.find?_append,List.find?_eq_none.mpr (by simpa using passed),Option.none_or,List.find?_cons_of_pos taken]
  obtain ⟨r,tiles⟩ := id formed.laid
  have inside := tiles.inside (b := b) (by simp)
  have small := h.heapEnd.toNat_lt
  simp only [offers,fits,Bool.and_eq_true,Bool.not_eq_true',decide_eq_true_eq] at taken
  obtain ⟨_,⟨free,_⟩,room⟩ := taken
  rw [malloc_search formed asked,found]
  exact grant_exact formed free (ofNat_toNat (by omega)) (need_aligned size) room

end Malloc

end Kernel.Heap
