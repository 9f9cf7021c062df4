import UsvRt.HeapGrants

open ByteMemory LinkedBlocks

namespace Kernel.Heap

-- The heap after free blocks of one list have become one block of another.
structure Joined (h h' : Heap) (old new : List Block) : Prop where
  shaped : Shaped h' new
  fixed : Fixed h h'
  peak : h'.maxMem = h.maxMem
  same : inUse new = inUse old
  spares : Spares h h' (inUse old)
  low : Low h old → Low h' new
  lowest : ∀ limit, Lowest limit h old → Lowest limit h' new

theorem Joined.refl (shaped : Shaped h blocks) : Joined h h blocks blocks :=
  ⟨shaped,⟨rfl,rfl,rfl⟩,rfl,rfl,fun _ _ _ _ => rfl,id,fun _ => id⟩

theorem Joined.trans (first : Joined h h' old middle) (second : Joined h' h'' middle new) : Joined h h'' old new :=
  ⟨second.shaped,first.fixed.trans second.fixed,second.peak.trans first.peak,second.same.trans first.same,
    first.spares.trans (first.same ▸ second.spares),second.low ∘ first.low,
    fun limit => second.lowest limit ∘ first.lowest limit⟩

theorem spares_beside {xs ys : List Block} (below : ∀ c ∈ xs, c.stop ≤ lo) (above : ∀ c ∈ ys, hi ≤ c.start)
    (within : Within lo hi h h') : Spares h h' (xs ++ ys) := by
  intro c member i inside
  obtain ⟨from_,until_⟩ := inside
  apply within
  cases List.mem_append.mp member with
  | inl front =>
    have order := below c front
    omega
  | inr back =>
    have order := above c back
    omega

section Combine
variable {h : Heap} {low high ptr : UInt32} {b c : Block} {xs ys : List Block}

theorem combine_joined (shaped : Shaped h (xs ++ b::c::ys)) (freeLow : b.used = false) (freeHigh : c.used = false)
    (lowAt : low.toNat = b.start) (highAt : high.toNat = c.start) :
    Joined h (h.combine low high) (xs ++ b::c::ys) (xs ++ ⟨b.start,c.stop,false⟩::ys) := by
  have small := h.heapEnd.toNat_lt
  obtain ⟨fixed,usedMem,maxMem,lfree⟩ := combine_fixed h low high
  obtain ⟨laid,within⟩ := combine_laid shaped.laid small lowAt highAt
  rw [freeLow] at laid
  obtain ⟨r,tiles⟩ := id shaped.laid
  have order : b.start < c.start := by
    have wide := (tiles.inside (b := b) (by simp)).2.1
    have later := tiles.after (c := c) (by simp)
    omega
  have old : inUse (xs ++ b::c::ys) = inUse xs ++ inUse ys := by
    rw [inUse_append,inUse_free freeLow,inUse_free freeHigh]
  have new : inUse (xs ++ ⟨b.start,c.stop,false⟩::ys) = inUse xs ++ inUse ys := by
    rw [inUse_append,inUse_free rfl]
  have account : spent (xs ++ ⟨b.start,c.stop,false⟩::ys) = spent (xs ++ b::c::ys) := by
    rw [spent,spent,old,new]
  refine ⟨⟨shaped.toSized.kept fixed,?_,?_,?_⟩,fixed,maxMem,new.trans old.symm,?_,?_,?_⟩
  · rw [fixed.heapEnd]
    exact laid
  · intro d member
    simp only [List.mem_append,List.mem_cons] at member
    rcases member with below | here | above
    · exact shaped.regular d (by simp [below])
    · rw [here]
      obtain ⟨_,stop,roomy⟩ := shaped.regular c (by simp)
      exact ⟨(shaped.regular b (by simp)).1,stop,by dsimp only; omega⟩
    · exact shaped.regular d (by simp [above])
  · rw [usedMem,account,shaped.account]
  · rw [old]
    refine spares_beside ?_ ?_ within
    · intro d member
      exact tiles.before (mem_inUse.mp member).1
    · intro d member
      have tail : xs ++ b::c::ys = (xs ++ [b]) ++ c::ys := by simp
      rw [tail] at tiles
      exact tiles.after (mem_inUse.mp member).1
  · intro settled
    unfold Low
    rw [lfree,fixed.heapEnd]
    split
    · exact .inr ⟨⟨b.start,c.stop,false⟩,by simp,rfl,lowAt.symm⟩
    · next other =>
      refine settled.imp_right ?_
      intro present
      obtain ⟨d,member,free,start⟩ := present
      simp only [List.mem_append,List.mem_cons] at member
      rcases member with below | here | here | above
      · exact ⟨d,by simp [below],free,start⟩
      · exact ⟨⟨b.start,c.stop,false⟩,by simp,rfl,here ▸ start⟩
      · exact absurd (UInt32.toNat_inj.mp (start.symm.trans (here ▸ highAt.symm))) other
      · exact ⟨d,by simp [above],free,start⟩
  · intro limit lowest d member free near
    rw [lfree]
    simp only [List.mem_append,List.mem_cons] at member
    have least : h.lfree.toNat ≤ d.start := by
      rcases member with below | here | above
      · exact lowest d (by simp [below]) free near
      · rw [here] at near ⊢
        exact lowest b (by simp) freeLow near
      · exact lowest d (by simp [above]) free near
    split
    · next moved =>
      rw [moved] at least
      omega
    · exact least

theorem plugForward_cases (shaped : Shaped h (xs ++ b::ys)) (at_ : ptr.toNat = b.start) :
    (∃ c rest high, ys = c::rest ∧ c.used = false ∧ UInt32.toNat high = c.start ∧ h.plugForward ptr = h.combine ptr high) ∨
      ((∀ c, ys.head? = some c → c.used = true) ∧ h.plugForward ptr = h) := by
  have small := h.heapEnd.toNat_lt
  obtain ⟨r,tiles⟩ := shaped.laid
  obtain ⟨q,front,here,wide,back⟩ := tiles.middle
  have next := next_toNat ((held_mem at_).mp here) (by have stop := back.le; omega)
  unfold plugForward
  dsimp only
  cases ys with
  | nil =>
    have last : (h.mem ptr).next = h.heapEnd := by
      apply UInt32.toNat_inj.mp
      rw [next,back.ends.2]
    exact .inr ⟨fun c first => (by cases first),if_neg fun more => more.2.2 last⟩
  | cons c ys =>
    obtain ⟨touch,wideNext,hereNext,rest⟩ := back.uncons
    have stop := rest.le
    have nextAt := next.trans touch
    have used := used_zero ((held_mem nextAt).mp hereNext)
    have apart : ptr ≠ (h.mem ptr).next := by
      intro same
      have equal := congrArg UInt32.toNat same
      omega
    have inner : (h.mem ptr).next ≠ h.heapEnd := by
      intro same
      have equal := congrArg UInt32.toNat same
      omega
    cases taken : c.used with
    | false => exact .inl ⟨c,ys,_,rfl,taken,nextAt,if_pos ⟨apart,used.mpr taken,inner⟩⟩
    | true =>
      have kept : ¬(h.mem (h.mem ptr).next).used = 0 := by
        rw [used,taken]
        decide
      refine .inr ⟨?_,if_neg fun more => kept more.2.1⟩
      intro d first
      cases first
      exact taken

theorem plugBackward_cases (shaped : Shaped h (xs ++ b::ys)) (at_ : ptr.toNat = b.start) :
    (∃ as a low, xs = as ++ [a] ∧ a.used = false ∧ UInt32.toNat low = a.start ∧ h.plugBackward ptr = h.combine low ptr) ∨
      ((∀ a, xs.getLast? = some a → a.used = true) ∧ h.plugBackward ptr = h) := by
  have small := h.heapEnd.toNat_lt
  obtain ⟨r,tiles⟩ := shaped.laid
  obtain ⟨q,front,here,wide,back⟩ := tiles.middle
  have stop := back.le
  have low := front.le
  unfold plugBackward
  dsimp only
  rcases List.eq_nil_or_concat' xs with rfl | ⟨as,a,rfl⟩
  · have alone : (h.mem ptr).prev = ptr := by
      rw [(held_mem at_).mp here]
      apply UInt32.toNat_inj.mp
      rw [at_,front.ends.2,front.ends.1]
      rfl
    exact .inr ⟨fun a last => (by cases last),if_neg fun more => more.1 alone⟩
  · obtain ⟨behind,touch⟩ := front.last
    obtain ⟨q',_,hereBack,wideBack,_⟩ := front.middle
    have named : (h.mem ptr).prev.toNat = a.start := by
      rw [(held_mem at_).mp here,head]
      exact (ofNat_toNat (by omega)).trans behind
    have used := used_zero ((held_mem named).mp hereBack)
    have apart : (h.mem ptr).prev ≠ ptr := by
      intro same
      have equal := congrArg UInt32.toNat same
      omega
    cases taken : a.used with
    | false => exact .inl ⟨as,a,_,rfl,taken,named,if_pos ⟨apart,used.mpr taken⟩⟩
    | true =>
      have kept : ¬(h.mem (h.mem ptr).prev).used = 0 := by
        rw [used,taken]
        decide
      refine .inr ⟨?_,if_neg fun more => kept more.2⟩
      intro d last
      rw [List.getLast?_concat] at last
      cases last
      exact taken

theorem plugForward_joined (shaped : Shaped h (xs ++ b::ys)) (free : b.used = false) (at_ : ptr.toNat = b.start) :
    ∃ stop rest, Joined h (h.plugForward ptr) (xs ++ b::ys) (xs ++ ⟨b.start,stop,false⟩::rest) ∧
      (Merged ys → Merged rest ∧ ∀ c, rest.head? = some c → c.used = true) ∧
      ((∃ c high, ys = c::rest ∧ c.used = false ∧ UInt32.toNat high = c.start ∧ stop = c.stop ∧
          h.plugForward ptr = h.combine ptr high) ∨
        (∀ c, ys.head? = some c → c.used = true) ∧ stop = b.stop ∧ rest = ys ∧ h.plugForward ptr = h) := by
  rcases plugForward_cases shaped at_ with ⟨c,rest,high,rfl,freeNext,highAt,result⟩ | ⟨above,result⟩
  · refine ⟨c.stop,rest,result ▸ combine_joined shaped free freeNext at_ highAt,?_,
      .inl ⟨c,high,rfl,freeNext,highAt,rfl,result⟩⟩
    intro merged
    obtain ⟨first,merged⟩ := List.isChain_cons.mp merged
    refine ⟨merged,?_⟩
    intro d here
    simpa [freeNext] using first d here
  · have stays : b = ⟨b.start,b.stop,false⟩ := by rw [← free]
    refine ⟨b.stop,ys,?_,fun merged => ⟨merged,above⟩,.inr ⟨above,rfl,rfl,result⟩⟩
    rw [result,← stays]
    exact Joined.refl shaped

theorem plugBackward_joined (shaped : Shaped h (xs ++ b::ys)) (free : b.used = false) (at_ : ptr.toNat = b.start) :
    ∃ below start, Joined h (h.plugBackward ptr) (xs ++ b::ys) (below ++ ⟨start,b.stop,false⟩::ys) ∧
      (Merged xs → Merged below ∧ ∀ a, below.getLast? = some a → a.used = true) := by
  rcases plugBackward_cases shaped at_ with ⟨as,a,low,rfl,freeBack,lowAt,result⟩ | ⟨below,result⟩
  · rw [List.append_assoc,List.singleton_append] at shaped ⊢
    rw [result]
    refine ⟨as,a.start,combine_joined shaped freeBack free lowAt at_,?_⟩
    intro merged
    obtain ⟨merged,last,_⟩ := merged_around.mp merged
    refine ⟨merged,?_⟩
    intro d end_
    simpa [freeBack] using last d end_
  · have stays : b = ⟨b.start,b.stop,false⟩ := by rw [← free]
    rw [result]
    exact ⟨xs,b.start,stays ▸ Joined.refl shaped,fun merged => ⟨merged,below⟩⟩

-- Joined with what follows, a free block is found from lfree on, or it strands below it.
theorem plugForward_lowest {limit : Nat} (shaped : Shaped h (xs ++ b::ys)) (free : b.used = false) (at_ : ptr.toNat = b.start)
    (low : Low h (xs ++ b::ys)) (whole : limit = 0 ∨ h.heapEnd.toNat ≤ limit) (positive : 0 < b.start)
    (others : ∀ d ∈ xs ++ ys, d.used = false → d.start ≤ limit → h.lfree.toNat ≤ d.start)
    (forward : (∃ c high, ys = c::rest ∧ c.used = false ∧ UInt32.toNat high = c.start ∧ stop = c.stop ∧
        h.plugForward ptr = h.combine ptr high) ∨
      (∀ c, ys.head? = some c → c.used = true) ∧ stop = b.stop ∧ rest = ys ∧ h.plugForward ptr = h) :
    Lowest limit (h.plugForward ptr) (xs ++ ⟨b.start,stop,false⟩::rest) ↔
      ¬(b.start ≤ limit ∧ b.start < h.lfree.toNat ∧ ∀ c, ys.head? = some c → c.used = true) := by
  obtain ⟨r,tiles⟩ := shaped.laid
  rcases forward with ⟨c,high,rfl,freeNext,highAt,rfl,result⟩ | ⟨above,rfl,rfl,result⟩
  · refine iff_of_true ?_ (fun stranded => by simpa [freeNext] using stranded.2.2 c rfl)
    have order := tiles.after (c := c) (by simp)
    have wide := (tiles.inside (b := b) (by simp)).2.1
    have top := (tiles.inside (b := c) (by simp)).2
    have found : h.lfree ≠ high → b.start ≤ limit → h.lfree.toNat ≤ b.start := by
      intro other near
      have most : h.lfree.toNat ≤ c.start := others c (by simp) freeNext (by omega)
      have less : h.lfree.toNat < c.start := by
        refine Nat.lt_of_le_of_ne most fun same => other ?_
        exact UInt32.toNat_inj.mp (same.trans highAt.symm)
      rcases low with past | ⟨d,member,_,start⟩
      · rw [past] at less
        omega
      · simp only [List.mem_append,List.mem_cons] at member
        rcases member with below | here | here | beyond
        · have before := tiles.before below
          have wideBelow := (tiles.inside (List.mem_append_left _ below)).2.1
          omega
        · rw [← start,here]
        · rw [here] at start
          omega
        · have parts : xs ++ b::c::rest = (xs ++ [b]) ++ c::rest := by simp
          rw [parts] at tiles
          have after := tiles.after beyond
          omega
    intro d member unused near
    rw [result,(combine_fixed h ptr high).2.2.2]
    simp only [List.mem_append,List.mem_cons] at member
    split
    · next moved =>
      rw [at_]
      rw [moved] at others
      rcases member with below | here | beyond
      · have least := others d (by simp [below]) unused near
        omega
      · rw [here]
      · have least := others d (by simp [beyond]) unused near
        omega
    · next other =>
      rcases member with below | here | beyond
      · exact others d (by simp [below]) unused near
      · rw [here] at near ⊢
        exact found other near
      · exact others d (by simp [beyond]) unused near
  · have stays : b = ⟨b.start,b.stop,false⟩ := by rw [← free]
    rw [result,← stays]
    constructor
    · intro lowest ⟨near,stranded,_⟩
      have least := lowest b (by simp) free near
      omega
    · intro kept d member unused near
      simp only [List.mem_append,List.mem_cons] at member
      rcases member with below | here | beyond
      · exact others d (by simp [below]) unused near
      · rw [here] at near ⊢
        exact Nat.le_of_not_lt fun less => kept ⟨near,less,above⟩
      · exact others d (by simp [beyond]) unused near

theorem plugHoles_asserts (shaped : Shaped h (xs ++ b::ys)) (free : b.used = false) (at_ : ptr.toNat = b.start) :
    ptr < h.heapEnd ∧ (h.mem ptr).used = 0 := by
  obtain ⟨r,tiles⟩ := shaped.laid
  obtain ⟨q,_,here,wide,rest⟩ := tiles.middle
  have stop := rest.le
  refine ⟨?_,(used_zero ((held_mem at_).mp here)).mpr free⟩
  rw [UInt32.lt_iff_toNat_lt]
  omega

theorem plugHoles_joined (shaped : Shaped h (xs ++ b::ys)) (free : b.used = false) (at_ : ptr.toNat = b.start)
    (front : Merged xs) (back : Merged ys) :
    ∃ h' blocks, h.plugHoles ptr = some h' ∧ Joined h h' (xs ++ b::ys) blocks ∧ Merged blocks := by
  obtain ⟨stop,ys',forward,above,_⟩ := plugForward_joined shaped free at_
  obtain ⟨xs',start,backward,below⟩ := plugBackward_joined forward.shaped rfl at_
  refine ⟨_,_,if_pos (plugHoles_asserts shaped free at_),forward.trans backward,?_⟩
  exact merged_around.mpr ⟨(below front).1,fun a last => .inl ((below front).2 a last),
    fun c first => .inr ((above back).2 c first),(above back).1⟩

-- Behind a block in use there is nothing to join.
theorem plugHoles_behind (shaped : Shaped h ((xs ++ [u]) ++ b::ys)) (taken : u.used = true) (free : b.used = false)
    (at_ : ptr.toNat = b.start) : h.plugHoles ptr = some (h.plugForward ptr) := by
  obtain ⟨stop,ys',forward,_⟩ := plugForward_joined shaped free at_
  rw [plugHoles,if_pos (plugHoles_asserts shaped free at_)]
  rcases plugBackward_cases forward.shaped at_ with ⟨as,a,low,same,freeBack,_⟩ | ⟨_,result⟩
  · have equal := (List.append_inj' same rfl).2
    cases equal
    rw [taken] at freeBack
    cases freeBack
  · rw [result]

end Combine

section Release
variable {h : Heap} {ptr : UInt32} {b : Block} {xs ys : List Block}

theorem address_ptr (h : Heap) (b : Block) : h.address b-sizeofStructMem-h.heapPtr = .ofNat b.start := by
  unfold address
  grind

-- The caller's pointer passes the assertions of rt_free.
theorem address_asserts (sized : Sized h) (aligned : b.start % 4 = 0) (inside : b.start+12 < h.heapEnd.toNat) :
    h.address b ≠ 0 ∧ h.address b &&& 3 = 0 ∧ h.heapPtr ≤ h.address b ∧ h.address b < h.heapPtr+h.heapEnd := by
  have small := sized.high
  have base := sized.base
  have here := (address_toNat (b := b) sized (by omega)).2
  have top : (h.heapPtr+h.heapEnd).toNat = h.heapPtr.toNat+h.heapEnd.toNat := add_toNat (by omega)
  refine ⟨?_,?_,?_,?_⟩
  · intro zero
    rw [zero] at here
    change 0 = _ at here
    omega
  · rw [and_three,here]
    omega
  · rw [UInt32.le_iff_toNat_le,here]
    omega
  · rw [UInt32.lt_iff_toNat_lt,here,top]
    omega

theorem setFree_fields (h : Heap) (ptr : UInt32) :
    ∃ h' : Heap, h' = (h.setUsed ptr 0).setMagic ptr ∧ (h.setFree ptr).memory = h'.memory ∧ Fixed h (h.setFree ptr) ∧
      (h.setFree ptr).maxMem = h.maxMem ∧ (h.setFree ptr).lfree = (if ptr < h.lfree then ptr else h.lfree) ∧
      (h.setFree ptr).usedMem = h.usedMem-((h'.mem ptr).next-ptr) := by
  have fixed : Fixed h ((h.setUsed ptr 0).setMagic ptr) := (put_fixed _ _ _).trans (setMagic_fixed _ _)
  have lfree : ((h.setUsed ptr 0).setMagic ptr).lfree = h.lfree := by simp [setUsed,setMagic]
  have usedMem : ((h.setUsed ptr 0).setMagic ptr).usedMem = h.usedMem := by simp [setUsed,setMagic]
  have maxMem : ((h.setUsed ptr 0).setMagic ptr).maxMem = h.maxMem := by simp [setUsed,setMagic]
  refine ⟨_,rfl,?_⟩
  unfold setFree
  dsimp only
  generalize (h.setUsed ptr 0).setMagic ptr = h' at *
  rw [lfree]
  split
  · exact ⟨rfl,fixed.trans ⟨rfl,rfl,rfl⟩,maxMem,rfl,by rw [← usedMem]; rfl⟩
  · exact ⟨rfl,fixed.trans ⟨rfl,rfl,rfl⟩,maxMem,lfree,by rw [← usedMem]; rfl⟩

theorem setFree_shaped (formed : Formed h (xs ++ b::ys)) (used : b.used = true) (at_ : ptr.toNat = b.start) :
    Shaped (h.setFree ptr) (xs ++ {b with used := false}::ys) ∧ Inside b.start (b.start+12) h (h.setFree ptr) := by
  have small := h.heapEnd.toNat_lt
  obtain ⟨h',made,memory,fixed,_,_,usedMem⟩ := setFree_fields h ptr
  have flag : (0 : UInt16) = if false then 1 else 0 := rfl
  have laid : Laid h'.memory (xs ++ {b with used := false}::ys) h.heapEnd.toNat := by
    rw [made]
    exact setMagic_laid (setUsed_laid formed.laid at_ flag) at_
  have inside : Inside b.start (b.start+12) h h' := by
    rw [made]
    exact (Inside.put h _ (by omega) (by omega)).trans (Inside.put _ _ (by omega) (by omega))
  obtain ⟨r,tiles⟩ := id laid
  obtain ⟨q,_,here,wide,rest⟩ := tiles.middle
  have stop := rest.le
  dsimp only at wide stop
  have block : h'.mem ptr = head {b with used := false} q := (held_mem (b := {b with used := false}) at_).mp here
  have next : (h'.mem ptr).next.toNat = b.stop := next_toNat (b := {b with used := false}) block (by dsimp only; omega)
  have length : ((h'.mem ptr).next-ptr).toNat = b.stop-b.start := by
    rw [sub_toNat (by omega),next,at_]
  have account := formed.account
  rw [spent_append,spent_used used] at account
  refine ⟨⟨formed.toSized.kept fixed,?_,?_,?_⟩,fun i outside => (congrFun memory i).trans (inside i outside)⟩
  · rw [memory,fixed.heapEnd]
    exact laid
  · intro c member
    simp only [List.mem_append,List.mem_cons] at member
    rcases member with below | here | above
    · exact formed.regular c (by simp [below])
    · rw [here]
      exact formed.regular b (by simp)
    · exact formed.regular c (by simp [above])
  · rw [usedMem,sub_toNat (by omega),length,spent_append,spent_free rfl]
    omega

theorem setFree_low (formed : Formed h (xs ++ b::ys)) (used : b.used = true) (at_ : ptr.toNat = b.start) :
    Low (h.setFree ptr) (xs ++ {b with used := false}::ys) ∧
      (∀ limit, Lowest limit h (xs ++ b::ys) → Lowest limit (h.setFree ptr) (xs ++ {b with used := false}::ys)) := by
  obtain ⟨h',_,_,fixed,_,lfree,_⟩ := setFree_fields h ptr
  constructor
  · unfold Low
    rw [lfree,fixed.heapEnd]
    split
    · exact .inr ⟨{b with used := false},by simp,rfl,at_.symm⟩
    · refine formed.low.imp_right ?_
      intro ⟨c,member,free,start⟩
      simp only [List.mem_append,List.mem_cons] at member
      rcases member with below | here | above
      · exact ⟨c,by simp [below],free,start⟩
      · rw [here,used] at free
        cases free
      · exact ⟨c,by simp [above],free,start⟩
  · intro limit lowest c member free near
    rw [lfree]
    simp only [List.mem_append,List.mem_cons] at member
    rcases member with below | here | above
    · have least := lowest c (by simp [below]) free near
      split
      · next less =>
        rw [UInt32.lt_iff_toNat_lt] at less
        omega
      · exact least
    · rw [here]
      dsimp only
      split
      · exact Nat.le_of_eq at_
      · next more =>
        rw [UInt32.lt_iff_toNat_lt] at more
        omega
    · have least := lowest c (by simp [above]) free near
      split
      · next less =>
        rw [UInt32.lt_iff_toNat_lt] at less
        omega
      · exact least

theorem free_exact (formed : Formed h (xs ++ b::ys)) (used : b.used = true) :
    ∃ h' blocks, h.rtFree (h.address b) = some h' ∧ Formed h' blocks ∧ Fixed h h' ∧ h'.maxMem = h.maxMem ∧
      inUse blocks = inUse xs ++ inUse ys ∧ Spares h h' (inUse xs ++ inUse ys) ∧
      (∀ limit, Lowest limit h (xs ++ b::ys) → Lowest limit h' blocks) := by
  obtain ⟨r,tiles⟩ := id formed.laid
  have bounds := tiles.inside (b := b) (by simp)
  have small := h.heapEnd.toNat_lt
  have regular := formed.regular b (by simp)
  have at_ : (UInt32.ofNat b.start).toNat = b.start := ofNat_toNat (by omega)
  obtain ⟨q,_,here,_,_⟩ := tiles.middle
  have block := (held_mem at_).mp here
  obtain ⟨some_,low,from_,until_⟩ := address_asserts (b := b) formed.toSized regular.1 (by have room := regular.2.2; omega)
  have held : (h.mem (.ofNat b.start)).used ≠ 0 ∧ (h.mem (.ofNat b.start)).magic = heapMagic := by
    rw [block]
    exact ⟨by simp [head,used],rfl⟩
  obtain ⟨h',_,_,fixed,maxMem,_,_⟩ := setFree_fields h (.ofNat b.start)
  obtain ⟨shaped,inside⟩ := setFree_shaped formed used at_
  obtain ⟨low',lowest⟩ := setFree_low formed used at_
  obtain ⟨front,_,_,back⟩ := merged_around.mp formed.merged
  obtain ⟨g,blocks,plugged,joined,merged⟩ := plugHoles_joined shaped rfl at_ front back
  have old : inUse (xs ++ {b with used := false}::ys) = inUse xs ++ inUse ys := by
    rw [inUse_append,inUse_free rfl]
  have spares : Spares h (h.setFree (.ofNat b.start)) (inUse xs ++ inUse ys) := by
    have within : Within b.start b.start h (h.setFree (.ofNat b.start)) := inside
    refine spares_beside ?_ ?_ within
    · intro c member
      exact tiles.before (mem_inUse.mp member).1
    · intro c member
      have order := tiles.after (mem_inUse.mp member).1
      omega
  refine ⟨g,blocks,?_,⟨joined.shaped,joined.low low',merged⟩,fixed.trans joined.fixed,joined.peak.trans maxMem,
    joined.same.trans old,spares.trans (old ▸ joined.spares),
    fun limit => joined.lowest limit ∘ lowest limit⟩
  unfold rtFree
  rw [if_neg some_,if_pos ⟨low,from_,until_⟩]
  dsimp only
  rw [address_ptr,if_pos held,plugged]

end Release

section Shrink
variable {h : Heap} {ptr newsize : UInt32} {b : Block} {xs ys : List Block}

theorem insertAfter_front {ptr2 : UInt32} (next : ptr2.toNat ≤ (h.mem ptr).next.toNat)
    {i : Nat} (low : ptr.toNat+12 ≤ i) (high : i < ptr2.toNat) : (h.insertAfter ptr ptr2).memory i = h.memory i := by
  have cut : (h.cutOff ptr ptr2).memory i = h.memory i := by
    unfold cutOff setNext
    rw [put_outside _ _ _ (.inr low),put_outside _ _ _ (.inl high)]
  unfold insertAfter
  dsimp only
  split
  · unfold setPrev
    rw [put_outside _ _ _ (.inl (by omega)),cut]
  · exact cut

-- The block and its remainder, before the remainder is joined with what follows.
theorem cut_shaped (formed : Formed h (xs ++ b::ys)) (at_ : ptr.toNat = b.start) (used : b.used = true)
    (aligned : newsize.toNat % 4 = 0 ∧ 0 < newsize.toNat) (less : b.start+12+newsize.toNat+24 < b.stop) {cost : UInt32}
    (paid : cost.toNat = b.stop-(b.start+12+newsize.toNat)) :
    Shaped ((h.refund cost).insertAfter ptr (ptr+sizeofStructMem+newsize))
        (xs ++ ([⟨b.start,b.start+12+newsize.toNat,true⟩,⟨b.start+12+newsize.toNat,b.stop,false⟩] ++ ys)) ∧
      Spares h ((h.refund cost).insertAfter ptr (ptr+sizeofStructMem+newsize))
        (inUse xs ++ ⟨b.start,b.start+12+newsize.toNat,true⟩::inUse ys) := by
  obtain ⟨next,stop,_,behind,_⟩ := carve_numbers formed.toSized formed.laid at_
    (show b.start+12+newsize.toNat ≤ b.stop by omega)
  have charged : Fixed h (h.refund cost) := ⟨rfl,rfl,rfl⟩
  have memory : ∀ i, (h.refund cost).memory i = h.memory i := fun _ => rfl
  have header : (h.refund cost).mem ptr = h.mem ptr := rfl
  have debt : (h.refund cost).usedMem = h.usedMem-cost := rfl
  have laid : Laid (h.refund cost).memory (xs ++ b::ys) (h.refund cost).heapEnd.toNat := formed.laid
  have sized : Sized (h.refund cost) := formed.toSized.kept charged
  generalize h.refund cost = g at *
  obtain ⟨inserted,within⟩ := insertAfter_laid laid sized.wall at_
    (show b.start+12 ≤ (ptr+sizeofStructMem+newsize).toNat by omega) (by omega)
  obtain ⟨fixed,_,usedMem,_⟩ := insertAfter_fixed g ptr (ptr+sizeofStructMem+newsize)
  have front : ∀ i, b.start+12 ≤ i → i < b.start+12+newsize.toNat →
      (g.insertAfter ptr (ptr+sizeofStructMem+newsize)).memory i = h.memory i := by
    intro i low high
    rw [insertAfter_front (by rw [header]; omega) (by omega) (by omega),memory]
  generalize g.insertAfter ptr (ptr+sizeofStructMem+newsize) = g' at *
  rw [used,behind] at inserted
  obtain ⟨start,stop_,_⟩ := formed.regular b (by simp)
  refine ⟨⟨sized.kept fixed,?_,?_,?_⟩,?_⟩
  · rw [fixed.heapEnd]
    exact inserted
  · intro c member
    simp only [List.mem_append,List.mem_cons,List.not_mem_nil,or_false] at member
    rcases member with below | (rfl | rfl) | above
    · exact formed.regular c (by simp [below])
    · exact ⟨start,by dsimp only; omega,by dsimp only; omega⟩
    · exact ⟨by dsimp only; omega,stop_,by dsimp only; omega⟩
    · exact formed.regular c (by simp [above])
  · have account := formed.account
    rw [spent_append,spent_used used] at account
    rw [usedMem,debt,sub_toNat (by omega),spent_append,List.cons_append,List.cons_append,List.nil_append,spent_used rfl,
      spent_free rfl]
    dsimp only
    omega
  · obtain ⟨r,tiles⟩ := formed.laid
    intro c member i inside
    have outer : Within b.start b.stop h g' := fun i outside => (within i outside).trans (memory i)
    simp only [List.mem_append,List.mem_cons] at member
    rcases member with below | rfl | above
    · exact spares_beside (fun _ => tiles.before) (fun _ => tiles.after) outer c
        (List.mem_append_left _ (mem_inUse.mp below).1) i inside
    · exact front i inside.1 inside.2
    · exact spares_beside (fun _ => tiles.before) (fun _ => tiles.after) outer c
        (List.mem_append_right _ (mem_inUse.mp above).1) i inside

theorem lfree_elsewhere (formed : Formed h (xs ++ b::ys)) (used : b.used = true) : h.lfree.toNat ≠ b.start := by
  obtain ⟨r,tiles⟩ := formed.laid
  intro same
  rcases formed.low with past | ⟨c,member,free,start⟩
  · have bounds := tiles.inside (b := b) (by simp)
    rw [past] at same
    omega
  · have equal := tiles.unique (by decide) member (c := b) (by simp) (start.trans same)
    rw [equal,used] at free
    cases free

theorem payload_toNat (sized : Sized h) (laid : Laid h.memory (xs ++ b::ys) h.heapEnd.toNat) (at_ : ptr.toNat = b.start) :
    ((h.mem ptr).next-ptr-sizeofStructMem).toNat = b.stop-b.start-12 := by
  have small := sized.high
  obtain ⟨r,tiles⟩ := laid
  obtain ⟨q,_,here,wide,rest⟩ := tiles.middle
  have stop := rest.le
  have next := next_toNat ((held_mem at_).mp here) (by omega)
  have first : ((h.mem ptr).next-ptr).toNat = b.stop-b.start := by
    rw [sub_toNat (by omega),next,at_]
  rw [sub_toNat (by change 12 ≤ _; omega),first]
  rfl

-- The remainder of a block that is cut lies where lfree will not come by.
def Strands (limit : Nat) (h : Heap) (start : Nat) (ys : List Block) : Prop :=
  start ≤ limit ∧ start < h.lfree.toNat ∧ ∀ c, ys.head? = some c → c.used = true

theorem shrink_exact (formed : Formed h (xs ++ b::ys)) (used : b.used = true) (at_ : ptr.toNat = b.start)
    (aligned : newsize.toNat % 4 = 0 ∧ 0 < newsize.toNat) (less : b.start+12+newsize.toNat+24 < b.stop) :
    ∃ h' blocks, h.shrink ptr newsize = some h' ∧ Formed h' blocks ∧ Fixed h h' ∧ h'.maxMem = h.maxMem ∧
      inUse blocks = inUse xs ++ ⟨b.start,b.start+12+newsize.toNat,true⟩::inUse ys ∧
      Spares h h' (inUse xs ++ ⟨b.start,b.start+12+newsize.toNat,true⟩::inUse ys) ∧
      ∀ limit, limit = 0 ∨ h.heapEnd.toNat ≤ limit → Lowest limit h (xs ++ b::ys) →
        (Lowest limit h' blocks ↔ ¬Strands limit h (b.start+12+newsize.toNat) ys) := by
  obtain ⟨_,_,_,behind,_⟩ := carve_numbers formed.toSized formed.laid at_
    (show b.start+12+newsize.toNat ≤ b.stop by omega)
  have ahead := payload_toNat formed.toSized formed.laid at_
  have paid : ((h.mem ptr).next-ptr-sizeofStructMem-newsize).toNat = b.stop-(b.start+12+newsize.toNat) := by
    rw [sub_toNat (by omega),ahead]
    omega
  obtain ⟨shaped,spares⟩ := cut_shaped formed at_ used aligned less paid
  have charged : Fixed h (h.refund ((h.mem ptr).next-ptr-sizeofStructMem-newsize)) := ⟨rfl,rfl,rfl⟩
  obtain ⟨fixed,lfree,_,maxMem⟩ := insertAfter_fixed (h.refund ((h.mem ptr).next-ptr-sizeofStructMem-newsize)) ptr
    (ptr+sizeofStructMem+newsize)
  have fixed := charged.trans fixed
  have lfree : _ = h.lfree := lfree
  have maxMem : _ = h.maxMem := maxMem
  have low := low_beside formed.low (lfree_elsewhere formed used) lfree fixed.heapEnd
    [⟨b.start,b.start+12+newsize.toNat,true⟩,⟨b.start+12+newsize.toNat,b.stop,false⟩]
  obtain ⟨front,_,_,back⟩ := merged_around.mp formed.merged
  have parts : xs ++ ([⟨b.start,b.start+12+newsize.toNat,true⟩,⟨b.start+12+newsize.toNat,b.stop,false⟩] ++ ys) =
      (xs ++ [⟨b.start,b.start+12+newsize.toNat,true⟩]) ++ ⟨b.start+12+newsize.toNat,b.stop,false⟩::ys := by simp
  rw [parts] at shaped low
  have below : Merged (xs ++ [⟨b.start,b.start+12+newsize.toNat,true⟩]) :=
    merged_around.mpr ⟨front,fun _ _ => .inr rfl,fun _ none => (by cases none),.nil⟩
  unfold shrink
  dsimp only
  generalize (h.refund ((h.mem ptr).next-ptr-sizeofStructMem-newsize)).insertAfter ptr (ptr+sizeofStructMem+newsize) = g at *
  obtain ⟨stop,rest,joined,above,forward⟩ := plugForward_joined shaped rfl behind
  have plugged : g.plugHoles (ptr+sizeofStructMem+newsize) = some (g.plugForward (ptr+sizeofStructMem+newsize)) :=
    plugHoles_behind shaped rfl rfl behind
  have old : inUse ((xs ++ [⟨b.start,b.start+12+newsize.toNat,true⟩]) ++ ⟨b.start+12+newsize.toNat,b.stop,false⟩::ys) =
      inUse xs ++ ⟨b.start,b.start+12+newsize.toNat,true⟩::inUse ys := by
    simp [inUse]
  have merged : Merged ((xs ++ [⟨b.start,b.start+12+newsize.toNat,true⟩]) ++ ⟨b.start+12+newsize.toNat,stop,false⟩::rest) := by
    refine merged_around.mpr ⟨below,?_,fun c first => .inr ((above back).2 c first),(above back).1⟩
    intro a last
    rw [List.getLast?_concat] at last
    cases last
    exact .inl rfl
  refine ⟨_,_,plugged,⟨joined.shaped,joined.low low,merged⟩,fixed.trans joined.fixed,joined.peak.trans maxMem,
    joined.same.trans old,spares.trans (old ▸ joined.spares),?_⟩
  intro limit whole lowest
  have others : ∀ d ∈ (xs ++ [⟨b.start,b.start+12+newsize.toNat,true⟩]) ++ ys, d.used = false → d.start ≤ limit →
      g.lfree.toNat ≤ d.start := by
    intro d member free near
    rw [lfree]
    simp only [List.mem_append,List.mem_cons,List.not_mem_nil,or_false] at member
    rcases member with (below | rfl) | above
    · exact lowest d (by simp [below]) free near
    · cases free
    · exact lowest d (by simp [above]) free near
  have exact_ := plugForward_lowest shaped rfl behind low (by rwa [fixed.heapEnd]) (by dsimp only; omega) others forward
  rw [lfree] at exact_
  exact exact_

end Shrink

end Kernel.Heap
