import UsvRt.HeapOwners

namespace Kernel.Heap
open ByteMemory LinkedBlocks

-- What rt_realloc leaves to the holder of an array: another one of the size asked for, with
-- as much of the old bytes as there is room for.
structure Resized (h' : Heap) (owned : Owned) (rmem a : UInt32) (size : Nat) (old : List UInt8) : Prop where
  good : Good h' (Function.update (Function.update owned rmem none) a (some (h'.data a size)))
  kept : (h'.data a size).take old.length = old.take size
  some_ : a ≠ 0
  fresh : a = rmem ∨ owned a = none

-- A block shrinks in place, and its remainder lies below lfree with nothing behind it to join.
def Stranding (limit : Nat) (h : Heap) (rmem newsize : UInt32) : Prop :=
  let ptr := rmem-sizeofStructMem-h.heapPtr
  let next := (h.mem ptr).next
  let start := ptr.toNat+12+(rtAlign newsize).toNat
  rmem ≠ 0 ∧ rtAlign newsize ≠ 0 ∧ start+24 < next.toNat ∧ start ≤ limit ∧ start < h.lfree.toNat ∧
    (next = h.heapEnd ∨ (h.mem next).used ≠ 0)

section Resize
variable {h : Heap} {owned : Owned} {b : Block} {xs ys : List Block} {old : List UInt8} {newsize : UInt32}

theorem data_load (formed : Formed h blocks) (member : b ∈ blocks) (count : Nat) :
    h.data (h.address b) count = load h.memory (b.start+12) count := by
  unfold data
  rw [address_offset formed member]

theorem address_some (formed : Formed h blocks) (member : b ∈ blocks) : h.address b ≠ 0 := by
  obtain ⟨r,tiles⟩ := formed.laid
  have bounds := tiles.inside member
  have regular := formed.regular b member
  exact (address_asserts (b := b) formed.toSized regular.1 (by have room := regular.2.2; omega)).1

theorem resize_same (formed : Formed h (xs ++ b::ys)) (backed : Backed h (inUse (xs ++ b::ys)) owned)
    (used : b.used = true) (stored : load h.memory (b.start+12) old.length = old) (short : size ≤ b.stop-(b.start+12)) :
    Resized h owned (h.address b) (h.address b) size old := by
  have here : b ∈ xs ++ b::ys := by simp
  refine ⟨⟨_,formed,?_⟩,?_,address_some formed here,.inl rfl⟩
  · rw [Function.update_idem,data_load formed here]
    exact poke_backed formed backed used ⟨rfl,rfl,rfl⟩ (fun _ _ _ _ => rfl) _ (by simpa using short) (by simp)
  · rw [data_load formed here,load_take,← stored,load_take,load_length,Nat.min_comm]

theorem behind_used (formed : Formed h (xs ++ b::ys)) :
    (∀ c, ys.head? = some c → c.used = true) ↔
      (h.mem (.ofNat b.start)).next = h.heapEnd ∨ (h.mem (h.mem (.ofNat b.start)).next).used ≠ 0 := by
  have small := h.heapEnd.toNat_lt
  obtain ⟨r,tiles⟩ := formed.laid
  obtain ⟨q,_,here,wide,rest⟩ := tiles.middle
  have stop := rest.le
  have at_ : (UInt32.ofNat b.start).toNat = b.start := ofNat_toNat (by omega)
  have next := next_toNat ((held_mem at_).mp here) (by omega)
  cases ys with
  | nil =>
    have last : (h.mem (.ofNat b.start)).next = h.heapEnd := by
      apply UInt32.toNat_inj.mp
      rw [next,rest.ends.2]
    exact iff_of_true (fun c first => by cases first) (.inl last)
  | cons c ys =>
    obtain ⟨touch,wideNext,hereNext,rest⟩ := rest.uncons
    have top := rest.le
    have used := used_zero ((held_mem (next.trans touch)).mp hereNext)
    have inner : (h.mem (.ofNat b.start)).next ≠ h.heapEnd := by
      intro same
      have equal := congrArg UInt32.toNat same
      omega
    rw [or_iff_right inner,ne_eq,used]
    simp

theorem stranding_exact (formed : Formed h (xs ++ b::ys)) (limit : Nat) (some_ : rtAlign newsize ≠ 0) :
    Stranding limit h (h.address b) newsize ↔
      b.start+12+(rtAlign newsize).toNat+24 < b.stop ∧ Strands limit h (b.start+12+(rtAlign newsize).toNat) ys := by
  have small := h.heapEnd.toNat_lt
  obtain ⟨r,tiles⟩ := id formed.laid
  obtain ⟨q,_,here,wide,rest⟩ := tiles.middle
  have stop := rest.le
  have at_ : (UInt32.ofNat b.start).toNat = b.start := ofNat_toNat (by omega)
  have next := next_toNat ((held_mem at_).mp here) (by omega)
  unfold Stranding Strands
  dsimp only
  rw [address_ptr,at_,next,behind_used formed]
  constructor
  · intro ⟨_,_,less,near,below,taken⟩
    exact ⟨less,near,below,taken⟩
  · intro ⟨less,near,below,taken⟩
    exact ⟨address_some formed (by simp),some_,less,near,below,taken⟩

theorem resize_shrunk (formed : Formed h (xs ++ b::ys)) (backed : Backed h (inUse (xs ++ b::ys)) owned)
    (used : b.used = true) (stored : load h.memory (b.start+12) old.length = old)
    (aligned : newsize.toNat % 4 = 0 ∧ 0 < newsize.toNat) (less : b.start+12+newsize.toNat+24 < b.stop) :
    ∃ h', h.shrink (.ofNat b.start) newsize = some h' ∧ Fixed h h' ∧ Charged h h' ∧
      Resized h' owned (h.address b) (h.address b) newsize.toNat old ∧
      ∀ limit, limit = 0 ∨ h.heapEnd.toNat ≤ limit → Found limit h →
        (Found limit h' ↔ ¬Strands limit h (b.start+12+newsize.toNat) ys) := by
  obtain ⟨r,tiles⟩ := id formed.laid
  have at_ : (UInt32.ofNat b.start).toNat = b.start := ofNat_toNat (formed.small b ((mem_around xs ys used _).mpr (.inl rfl)))
  obtain ⟨h',blocks,shrunk,formed',fixed,peak,left,spares,lowest⟩ := shrink_exact formed used at_ aligned less
  have lighter : h'.usedMem.toNat ≤ h.usedMem.toNat := by
    rw [formed'.account,formed.account,spent_append,spent_used used,spent,left,← inUse_used (b := ⟨b.start,b.start+12+newsize.toNat,true⟩) rfl,
      ← inUse_append]
    change spent (xs ++ _::ys) ≤ _
    rw [spent_append,spent_used rfl]
    dsimp only
    omega
  have around := mem_around (b := ⟨b.start,b.start+12+newsize.toNat,true⟩) xs ys rfl
  have same : inUse (xs ++ ⟨b.start,b.start+12+newsize.toNat,true⟩::ys) = inUse blocks := by
    rw [left,inUse_append,inUse_used rfl]
  have here : (⟨b.start,b.start+12+newsize.toNat,true⟩ : Block) ∈ inUse blocks := by
    rw [← same]
    exact (around _).mpr (.inl rfl)
  have address' : h'.address ⟨b.start,b.start+12+newsize.toNat,true⟩ = h.address b := address_fixed fixed _
  have loaded := data_load formed' (mem_inUse.mp here).1 newsize.toNat
  rw [address'] at loaded
  have others : Backed h' (inUse xs ++ inUse ys) (Function.update owned (h.address b) none) :=
    (backed.remove formed.small ((mem_around xs ys used _).mpr (.inl rfl)) (tiles.mem_others (by decide) used)).spare
      (spares.mono fun c member => by
        simp only [List.mem_append,List.mem_cons] at member ⊢
        exact member.imp_right .inr) fixed
  refine ⟨h',shrunk,fixed,charged_less peak lighter,⟨⟨blocks,formed',?_⟩,?_,?_,.inl rfl⟩,
    fun limit whole found => formed'.found.trans (lowest limit whole (formed.found.mp found))⟩
  · have again := others.add around (load h'.memory (b.start+12) newsize.toNat) (by simp) (by simp)
    rw [address',same] at again
    rw [loaded]
    exact again
  · rw [loaded,load_take,← stored,load_take,load_length,Nat.min_comm]
    apply spares.load (b := ⟨b.start,b.start+12+newsize.toNat,true⟩) (by simp)
    dsimp only
    omega
  · rw [← address']
    exact address_some formed' (mem_inUse.mp here).1

theorem memcpy_poke (h : Heap) (dst src count : UInt32) :
    h.memcpy dst src count = h.poke (dst-h.heapPtr).toNat (h.data src count.toNat) := rfl

-- The bytes go over to the new block before the old one is given back.
theorem resize_moved (formed : Formed h (xs ++ b::ys)) (used : b.used = true)
    (held : owned (h.address b) = some old) (short : old.length ≤ b.stop-(b.start+12)) (stored : load h.memory (b.start+12) old.length = old)
    (handed : Handed h h1 (xs ++ b::ys) owned size u blocks) {count : UInt32} (less : count.toNat ≤ newsize.toNat)
    (enough : min old.length newsize.toNat ≤ count.toNat) (room : newsize.toNat ≤ size) :
    ∃ h', (h1.memcpy (h.address u) (h.address b) count).rtFree (h.address b) = some h' ∧ Fixed h h' ∧ Charged h h' ∧
      Resized h' owned (h.address b) (h.address u) newsize.toNat old ∧ ∀ limit, Found limit h → Found limit h' := by
  obtain ⟨formed1,fixed1,spares1,member,wide,_,peak1,fresh,some_,found1,backed1⟩ := handed
  obtain ⟨inside,usedNew⟩ := mem_inUse.mp member
  obtain ⟨xs1,ys1,rfl⟩ := List.append_of_mem inside
  have bounds := (formed1.regular u (by simp)).2.2
  have newAddress : h1.address u = h.address u := address_fixed fixed1 u
  have dst : (h.address u-h1.heapPtr).toNat = u.start+12 := newAddress ▸ address_offset formed1 inside
  have src : h1.data (h.address b) count.toNat = load h1.memory (b.start+12) count.toNat := by
    unfold data
    rw [fixed1.heapPtr,address_offset formed (show b ∈ xs ++ b::ys by simp)]
  rw [memcpy_poke,dst,src]
  obtain ⟨formed2,spares2,found2⟩ := poke_formed formed1 (Nat.le_refl _)
    (show u.start+12+(load h1.memory (b.start+12) count.toNat).length ≤ u.stop by rw [load_length]; omega)
  have fixed2 : Fixed h1 (h1.poke (u.start+12) (load h1.memory (b.start+12) count.toNat)) := ⟨rfl,rfl,rfl⟩
  have charged2 : Charged h (h1.poke (u.start+12) (load h1.memory (b.start+12) count.toNat)) := charged_peak peak1
  have copied : ∀ k ≤ count.toNat, load (h1.poke (u.start+12) (load h1.memory (b.start+12) count.toNat)).memory (u.start+12) k =
      load h1.memory (b.start+12) k := by
    intro k le
    have all := load_store h1.memory (u.start+12) (load h1.memory (b.start+12) count.toNat)
    have part := congrArg (List.take k) all
    rw [load_length,load_take,load_take,Nat.min_eq_left le] at part
    exact part
  have backed2 := poke_backed formed1 (backed1 [] (Nat.zero_le _) rfl) usedNew fixed2 spares2
    (load (h1.poke (u.start+12) (load h1.memory (b.start+12) count.toNat)).memory (u.start+12) newsize.toNat)
    (by rw [load_length]; omega) (by rw [load_length])
  rw [newAddress,Function.update_idem] at backed2
  generalize h1.poke (u.start+12) (load h1.memory (b.start+12) count.toNat) = h2 at *
  have apart : h.address b ≠ h.address u := by
    intro same
    rw [same,fresh] at held
    cases held
  obtain ⟨h3,blocks3,freed,formed3,fixed3,peak3,less3,backed3,found3⟩ := free_good formed2 backed2
    (by rw [Function.update_of_ne apart]; exact held)
  rw [Function.update_comm (Ne.symm apart)] at backed3
  obtain ⟨c,memberC,at_,_,kept⟩ := backed3.kept (h.address u) _ (Function.update_self _ _ _)
  have now : h3.data (h.address u) newsize.toNat = load h2.memory (u.start+12) newsize.toNat := by
    rw [← at_,data_load formed3 (mem_inUse.mp memberC).1]
    rwa [load_length] at kept
  refine ⟨h3,freed,(fixed1.trans fixed2).trans fixed3,charged2.trans (charged_less peak3 less3),⟨⟨blocks3,formed3,?_⟩,?_,some_,.inr fresh⟩,
    fun limit found => found3 limit ((found2 limit).mpr (found1 limit found))⟩
  · rw [now]
    exact backed3
  · rw [now,load_take,copied _ enough,← stored,load_take,load_length,Nat.min_comm]
    exact spares1.load ((mem_around xs ys used _).mpr (.inl rfl)) (by omega)

end Resize

section Realloc
variable {h : Heap} {owned : Owned} {blocks : List Block}

theorem Handed.good (handed : Handed h h' old owned size u blocks) (fits : k ≤ size) :
    Good h' (Function.update owned (h.address u) (some (h'.data (h.address u) k))) := by
  refine ⟨blocks,handed.formed,?_⟩
  have loaded := data_load handed.formed (mem_inUse.mp handed.member).1 k
  rw [address_fixed handed.fixed] at loaded
  rw [loaded]
  exact handed.backed _ (by rw [load_length]; exact Nat.le_trans fits handed.room) (by rw [load_length])

theorem owned_zero (formed : Formed h blocks) (backed : Backed h (inUse blocks) owned) : owned 0 = none := by
  cases held : owned 0 with
  | none => rfl
  | some bytes =>
    obtain ⟨b,member,at_,_⟩ := backed.kept 0 bytes held
    exact absurd at_ (address_some formed (mem_inUse.mp member).1)

theorem rtAlign_again {size : UInt32} (small : (rtAlign size).toNat+3 < 2^32) : rtAlign (rtAlign size) = rtAlign size := by
  apply UInt32.toNat_inj.mp
  rw [rtAlign_toNat (rtAlign size),Nat.mod_eq_of_lt small,rtAlign_toNat]
  omega

-- rt_realloc ends with nothing done or with the block given back, or it resizes the block.
def Reallocated (h' : Heap) (owned : Owned) (rmem newsize a : UInt32) : Prop :=
  (a = 0 ∧ Good h' (if rtAlign newsize = 0 then Function.update owned rmem none else owned)) ∨
    Resized h' owned rmem a (rtAlign newsize).toNat ((owned rmem).getD [])

theorem handed_resized (handed : Handed h h' blocks owned size u blocks') (nobody : owned rmem = none) (fits : k ≤ size) :
    Resized h' owned rmem (h.address u) k [] := by
  have same : Function.update owned rmem none = owned := Function.update_eq_self_iff.mpr nobody.symm
  refine ⟨?_,by simp,handed.some_,.inr handed.fresh⟩
  rw [same]
  exact handed.good fits

theorem need_covers {size : UInt32} (small : (rtAlign size).toNat+3 < 2^32) :
    (rtAlign size).toNat ≤ (need (rtAlign size)).toNat := by
  rw [need_toNat,rtAlign_again small]
  exact Nat.le_max_left _ _

-- A block that is held, and a new size within the heap's.
theorem realloc_held (formed : Formed h blocks) (backed : Backed h (inUse blocks) owned) (held : owned rmem = some old)
    {newsize : UInt32} (within : (rtAlign newsize).toNat ≤ h.memSizeAligned.toNat) (some_ : rtAlign newsize ≠ 0) :
    ∃ a h', h.rtRealloc rmem newsize = some (a,h') ∧ Fixed h h' ∧ Charged h h' ∧
      (a = 0 ∧ Good h' owned ∨ Resized h' owned rmem a (rtAlign newsize).toNat old) ∧
      ∀ limit, limit = 0 ∨ h.heapEnd.toNat ≤ limit → Found limit h →
        (Found limit h' ↔ ¬Stranding limit h rmem newsize) := by
  have end_ := formed.end_
  have high := formed.high
  have aligned : (rtAlign newsize).toNat % 4 = 0 ∧ 0 < (rtAlign newsize).toNat := by
    refine ⟨by rw [rtAlign_toNat]; omega,?_⟩
    apply Nat.pos_of_ne_zero
    exact fun zero => some_ (UInt32.toNat_inj.mp zero)
  obtain ⟨xs,b,ys,rfl,used,rfl,short,stored⟩ := held_block backed held
  obtain ⟨r,tiles⟩ := id formed.laid
  have bounds := tiles.inside (b := b) (by simp)
  have regular := formed.regular b (by simp)
  obtain ⟨nonzero,_,low,above⟩ := address_asserts (b := b) formed.toSized regular.1 (by have room := regular.2.2; omega)
  have at_ : (UInt32.ofNat b.start).toNat = b.start := ofNat_toNat (by omega)
  have size := payload_toNat formed.toSized formed.laid at_
  have outside : ¬(h.address b < h.heapPtr ∨ h.heapPtr+h.heapEnd ≤ h.address b) := by
    rw [UInt32.lt_iff_toNat_lt,UInt32.le_iff_toNat_le]
    rw [UInt32.le_iff_toNat_le] at low
    rw [UInt32.lt_iff_toNat_lt] at above
    omega
  have grown : (rtAlign newsize+sizeofStructMem+minSize).toNat = (rtAlign newsize).toNat+24 := by
    have first : (rtAlign newsize+sizeofStructMem).toNat = (rtAlign newsize).toNat+12 :=
      add_toNat (by change (rtAlign newsize).toNat+12 < 2^32; omega)
    rw [add_toNat (by rw [first]; change (rtAlign newsize).toNat+12+12 < 2^32; omega),first]
    rfl
  unfold rtRealloc
  dsimp only
  rw [if_neg (by rw [UInt32.lt_iff_toNat_lt]; omega),if_neg some_,if_neg nonzero,if_neg outside,address_ptr]
  split
  · next equal =>
    refine ⟨_,h,rfl,⟨rfl,rfl,rfl⟩,.refl h,.inr (resize_same formed backed used stored ?_),?_⟩
    · rw [← equal,size]
      omega
    · intro limit _ found
      rw [stranding_exact formed limit some_,← equal,size]
      exact iff_of_true found fun less => by omega
  · split
    · next less =>
      rw [UInt32.lt_iff_toNat_lt,grown,size] at less
      have room : b.start+12+(rtAlign newsize).toNat+24 < b.stop := by omega
      obtain ⟨h',shrunk,fixed,charged,resized,found⟩ := resize_shrunk formed backed used stored aligned room
      refine ⟨_,h',by rw [shrunk]; rfl,fixed,charged,.inr resized,?_⟩
      intro limit whole before
      rw [stranding_exact formed limit some_,and_iff_right room]
      exact found limit whole before
    · next more =>
      rw [UInt32.lt_iff_toNat_lt,grown,size] at more
      have moves : ∀ limit, ¬Stranding limit h (h.address b) newsize := by
        intro limit stranded
        have less := ((stranding_exact formed limit some_).mp stranded).1
        omega
      rcases malloc_good formed backed (rtAlign newsize) with refused | ⟨h1,blocks1,u,granted,handed⟩
      · rw [refused]
        exact ⟨0,h,rfl,⟨rfl,rfl,rfl⟩,.refl h,.inl ⟨rfl,_,formed,backed⟩,fun limit _ found => iff_of_true found (moves limit)⟩
      · rw [granted]
        dsimp only
        rw [if_neg handed.some_]
        generalize counted : (if (h.mem (.ofNat b.start)).next-.ofNat b.start-sizeofStructMem < rtAlign newsize then
          (h.mem (.ofNat b.start)).next-.ofNat b.start-sizeofStructMem else rtAlign newsize) = count
        have exact_ : count.toNat = min (b.stop-b.start-12) (rtAlign newsize).toNat := by
          rw [← counted]
          split
          · next less =>
            rw [UInt32.lt_iff_toNat_lt,size] at less
            omega
          · next more =>
            rw [UInt32.lt_iff_toNat_lt,size] at more
            omega
        obtain ⟨h',freed,fixed,charged,resized,found⟩ := resize_moved formed used held short stored handed
          (show count.toNat ≤ (rtAlign newsize).toNat by omega)
          (show min old.length (rtAlign newsize).toNat ≤ count.toNat by omega) (need_covers (by omega))
        exact ⟨_,h',by rw [freed]; rfl,fixed,charged,.inr resized,
          fun limit _ before => iff_of_true (found limit before) (moves limit)⟩

theorem realloc_good (formed : Formed h blocks) (backed : Backed h (inUse blocks) owned) {rmem : UInt32}
    (held : rmem = 0 ∨ ∃ old, owned rmem = some old) (newsize : UInt32) :
    ∃ a h', h.rtRealloc rmem newsize = some (a,h') ∧ Fixed h h' ∧ Charged h h' ∧ Reallocated h' owned rmem newsize a ∧
      ∀ limit, limit = 0 ∨ h.heapEnd.toNat ≤ limit → Found limit h →
        (Found limit h' ↔ ¬Stranding limit h rmem newsize) := by
  have end_ := formed.end_
  have high := formed.high
  have zero := owned_zero formed backed
  by_cases large : h.memSizeAligned < rtAlign newsize
  · refine ⟨0,h,?_,⟨rfl,rfl,rfl⟩,.refl h,.inl ⟨rfl,blocks,formed,?_⟩,?_⟩
    · unfold rtRealloc
      dsimp only
      rw [if_pos large]
    · rw [if_neg (fun nothing => by rw [nothing] at large; exact absurd large (by simp))]
      exact backed
    · intro limit _ found
      refine iff_of_true found fun stranded => ?_
      rw [UInt32.lt_iff_toNat_lt] at large
      rcases held with none | ⟨old,held⟩
      · exact stranded.1 none
      · obtain ⟨xs,b,ys,rfl,_,rfl,_,_⟩ := held_block backed held
        obtain ⟨r,tiles⟩ := id formed.laid
        have top := (tiles.inside (b := b) (by simp)).2.2
        have less := ((stranding_exact formed limit stranded.2.1).mp stranded).1
        omega
  · have within : (rtAlign newsize).toNat ≤ h.memSizeAligned.toNat := by
      rw [UInt32.lt_iff_toNat_lt] at large
      omega
    by_cases nothing : rtAlign newsize = 0
    · have rests : ∀ limit, ¬Stranding limit h rmem newsize := fun limit stranded => stranded.2.1 nothing
      unfold rtRealloc Reallocated
      dsimp only
      rw [if_neg large,if_pos nothing,if_pos nothing]
      rcases held with rfl | ⟨old,held⟩
      · refine ⟨0,h,rfl,⟨rfl,rfl,rfl⟩,.refl h,.inl ⟨rfl,blocks,formed,?_⟩,
          fun limit _ found => iff_of_true found (rests limit)⟩
        have same : Function.update owned 0 none = owned := Function.update_eq_self_iff.mpr zero.symm
        rw [same]
        exact backed
      · obtain ⟨h',blocks',freed,formed',fixed,peak,less,backed',found⟩ := free_good formed backed held
        exact ⟨0,h',by rw [freed]; rfl,fixed,charged_less peak less,.inl ⟨rfl,blocks',formed',backed'⟩,
          fun limit _ before => iff_of_true (found limit before) (rests limit)⟩
    · unfold Reallocated
      rw [if_neg nothing]
      rcases held with rfl | ⟨old,held⟩
      · have rests : ∀ limit, ¬Stranding limit h 0 newsize := fun limit stranded => stranded.1 rfl
        rw [zero]
        have result : h.rtRealloc 0 newsize = h.rtMalloc (rtAlign newsize) := by
          unfold rtRealloc
          dsimp only
          rw [if_neg large,if_neg nothing,if_pos rfl]
        rw [result]
        rcases malloc_good formed backed (rtAlign newsize) with refused | ⟨h1,blocks1,u,granted,handed⟩
        · exact ⟨0,h,refused,⟨rfl,rfl,rfl⟩,.refl h,.inl ⟨rfl,blocks,formed,backed⟩,
            fun limit _ found => iff_of_true found (rests limit)⟩
        · exact ⟨_,h1,granted,handed.fixed,charged_peak handed.peak,.inr (handed_resized handed zero (need_covers (by omega))),
            fun limit _ found => iff_of_true (handed.found limit found) (rests limit)⟩
      · rw [held]
        exact realloc_held formed backed held within nothing

end Realloc

end Kernel.Heap
