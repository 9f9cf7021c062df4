import UsvRt.HeapResizing
import UsvRt.Runs

-- The allocator as its callers see it: private arrays that are made, resized, written and
-- given back.
namespace Kernel.Heap
open ByteMemory LinkedBlocks

inductive Call where
  | malloc (size : UInt32)
  | calloc (count size : UInt32)
  | realloc (rmem newsize : UInt32)
  | free (rmem : UInt32)
  | write (rmem : UInt32) (i : Nat) (byte : UInt8)
  deriving DecidableEq

def call (h : Heap) : Call → Option (UInt32 × Heap)
  | .malloc size => h.rtMalloc size
  | .calloc count size => h.rtCalloc count size
  | .realloc rmem newsize => h.rtRealloc rmem newsize
  | .free rmem => (h.rtFree rmem).map fun h => (0,h)
  | .write rmem i byte => some (0,h.poke ((rmem-h.heapPtr).toNat+i) [byte])

-- Callers give back and resize what they hold, and write inside it. A calloc's product stays
-- clear of the sizes that RT_ALIGN wraps to 0.
def Allowed (owned : Owned) : Call → Prop
  | .malloc _ => True
  | .calloc count size => (count*size).toNat+3 < 2^32
  | .realloc rmem _ => rmem = 0 ∨ (owned rmem).isSome = true
  | .free rmem => rmem = 0 ∨ (owned rmem).isSome = true
  | .write rmem i _ => i < ((owned rmem).getD []).length

instance (owned : Owned) (c : Call) : Decidable (Allowed owned c) :=
  match c with
  | .malloc _ => inferInstanceAs (Decidable True)
  | .calloc count size => inferInstanceAs (Decidable ((count*size).toNat+3 < 2^32))
  | .realloc rmem _ => inferInstanceAs (Decidable (rmem = 0 ∨ (owned rmem).isSome = true))
  | .free rmem => inferInstanceAs (Decidable (rmem = 0 ∨ (owned rmem).isSome = true))
  | .write rmem i _ => inferInstanceAs (Decidable (i < ((owned rmem).getD []).length))

-- Who holds what after the answer: new bytes are as the memory has them.
def own (owned : Owned) (h : Heap) (a : UInt32) : Call → Owned
  | .malloc size => if a = 0 then owned else Function.update owned a (some (h.data a (rtAlign size).toNat))
  | .calloc count size => if a = 0 then owned else Function.update owned a (some (h.data a (count*size).toNat))
  | .realloc rmem newsize =>
    if a = 0 then if rtAlign newsize = 0 then Function.update owned rmem none else owned
    else Function.update (Function.update owned rmem none) a (some (h.data a (rtAlign newsize).toNat))
  | .free rmem => Function.update owned rmem none
  | .write rmem i byte => Function.update owned rmem ((owned rmem).map (·.set i byte))

-- What the calls are for, whatever the heap looks like.
def Serves (owned : Owned) (a : UInt32) (owned' : Owned) : Call → Prop
  | .malloc size =>
    a = 0 ∧ owned' = owned ∨
      owned a = none ∧ ∃ bytes, bytes.length = (rtAlign size).toNat ∧ owned' = Function.update owned a (some bytes)
  | .calloc count size =>
    a = 0 ∧ owned' = owned ∨
      owned a = none ∧ owned' = Function.update owned a (some (List.replicate (count*size).toNat 0))
  | .realloc rmem newsize =>
    a = 0 ∧ owned' = (if rtAlign newsize = 0 then Function.update owned rmem none else owned) ∨
      (a = rmem ∨ owned a = none) ∧ ∃ bytes, bytes.length = (rtAlign newsize).toNat ∧
        bytes.take ((owned rmem).getD []).length = ((owned rmem).getD []).take bytes.length ∧
        owned' = Function.update (Function.update owned rmem none) a (some bytes)
  | .free rmem => owned' = Function.update owned rmem none
  | .write rmem i byte => owned' = Function.update owned rmem ((owned rmem).map (·.set i byte))

-- The call leaves a free block where the search of rt_malloc does not come by.
def Strand (limit : Nat) (h : Heap) : Call → Prop
  | .realloc rmem newsize => Stranding limit h rmem newsize
  | .malloc _ | .calloc _ _ | .free _ | .write _ _ _ => False

instance (limit : Nat) (h : Heap) (c : Call) : Decidable (Strand limit h c) :=
  match c with
  | .realloc _ _ => inferInstanceAs (Decidable (_ ∧ _))
  | .malloc _ | .calloc _ _ | .free _ | .write _ _ _ => inferInstanceAs (Decidable False)

def Call.moves : Call → Bool
  | .realloc _ _ => true
  | .malloc _ | .calloc _ _ | .free _ | .write _ _ _ => false

-- An answered call: who holds what is as served, and lfree is as low as before.
structure Answered (h h' : Heap) (owned : Owned) (a : UInt32) (c : Call) : Prop where
  fixed : Fixed h h'
  good : Good h' (own owned h' a c)
  serves : Serves owned a (own owned h' a c) c
  found : ∀ limit, limit = 0 ∨ h.heapEnd.toNat ≤ limit → Found limit h → (Found limit h' ↔ ¬Strand limit h c)
  charged : Charged h h'
  peak : c.moves = false → h.usedMem.toNat ≤ h.maxMem.toNat → h'.maxMem.toNat = max h.maxMem.toNat h'.usedMem.toNat

section Calls
variable {h : Heap} {owned : Owned} {blocks : List Block}

theorem data_length (h : Heap) (a : UInt32) (count : Nat) : (h.data a count).length = count := load_length ..

theorem answered_same (good : Good h owned) (same : own owned h 0 c = owned) (serves : Serves owned 0 owned c)
    (rests : ∀ limit, ¬Strand limit h c) : Answered h h owned 0 c := by
  constructor
  · exact ⟨rfl,rfl,rfl⟩
  · rwa [same]
  · rwa [same]
  · exact fun limit _ found => iff_of_true found (rests limit)
  · exact .refl h
  · exact fun _ bound => (Nat.max_eq_left bound).symm

theorem malloc_served (formed : Formed h blocks) (backed : Backed h (inUse blocks) owned) (size : UInt32) :
    ∃ a h', h.rtMalloc size = some (a,h') ∧ Answered h h' owned a (.malloc size) := by
  rcases malloc_good formed backed size with refused | ⟨h',blocks',u,granted,handed⟩
  · exact ⟨0,h,refused,answered_same ⟨blocks,formed,backed⟩ (by rw [own,if_pos rfl]) (.inl ⟨rfl,rfl⟩) fun _ => id⟩
  · have covers : (rtAlign size).toNat ≤ (need size).toNat := by
      rw [need_toNat]
      exact Nat.le_max_left _ _
    refine ⟨_,h',granted,handed.fixed,?_,.inr ⟨handed.fresh,_,data_length h' (h.address u) _,if_neg handed.some_⟩,
      fun limit _ found => iff_of_true (handed.found limit found) id,charged_peak handed.peak,fun _ _ => handed.peak⟩
    rw [own,if_neg handed.some_]
    exact handed.good covers

theorem memset_poke (h : Heap) (dst : UInt32) (value : UInt8) (count : UInt32) :
    h.memset dst value count = h.poke (dst-h.heapPtr).toNat (List.replicate count.toNat value) := rfl

theorem calloc_served (formed : Formed h blocks) (backed : Backed h (inUse blocks) owned) {count size : UInt32}
    (small : (count*size).toNat+3 < 2^32) :
    ∃ a h', h.rtCalloc count size = some (a,h') ∧ Answered h h' owned a (.calloc count size) := by
  rcases malloc_good formed backed (count*size) with refused | ⟨h1,blocks1,u,granted,handed⟩
  · exact ⟨0,h,by rw [rtCalloc,refused]; rfl,
      answered_same ⟨blocks,formed,backed⟩ (by rw [own,if_pos rfl]) (.inl ⟨rfl,rfl⟩) fun _ => id⟩
  · generalize shape : count*size = total at small granted handed
    obtain ⟨formed1,fixed1,_,member,wide,_,peak,fresh,some_,found1,backed1⟩ := handed
    obtain ⟨inside,used⟩ := mem_inUse.mp member
    obtain ⟨xs,ys,rfl⟩ := List.append_of_mem inside
    have newAddress : h1.address u = h.address u := address_fixed fixed1 u
    have dst : (h.address u-h1.heapPtr).toNat = u.start+12 := newAddress ▸ address_offset formed1 inside
    have covers : total.toNat ≤ (need total).toNat := by
      rw [need_toNat,rtAlign_toNat]
      omega
    have bounds := (formed1.regular u (by simp)).2.2
    have room : u.start+12+(List.replicate total.toNat (0 : UInt8)).length ≤ u.stop := by
      rw [List.length_replicate]
      omega
    obtain ⟨formed2,spares2,found2⟩ := poke_formed formed1 (Nat.le_refl _) room
    have zeros : load (h1.poke (u.start+12) (List.replicate total.toNat 0)).memory (u.start+12)
        (List.replicate total.toNat (0 : UInt8)).length = List.replicate total.toNat 0 := load_store ..
    have fixed2 : Fixed h1 (h1.poke (u.start+12) (List.replicate total.toNat 0)) := ⟨rfl,rfl,rfl⟩
    have backed2 := poke_backed formed1 (backed1 [] (Nat.zero_le _) rfl) used fixed2 spares2
      (List.replicate total.toNat 0) (by rw [List.length_replicate]; omega) zeros
    have read := data_load formed2 inside total.toNat
    rw [List.length_replicate] at zeros
    rw [address_fixed fixed2,newAddress] at read
    rw [newAddress,Function.update_idem] at backed2
    have done : h.rtCalloc count size = some (h.address u,h1.poke (u.start+12) (List.replicate total.toNat 0)) := by
      rw [rtCalloc,shape,granted]
      dsimp only
      rw [if_neg some_,memset_poke,dst]
    have result : own owned (h1.poke (u.start+12) (List.replicate total.toNat 0)) (h.address u) (.calloc count size) =
        Function.update owned (h.address u) (some (List.replicate total.toNat 0)) := by
      rw [own,if_neg some_,shape,read,zeros]
    refine ⟨_,_,done,fixed1.trans fixed2,?_,.inr ⟨fresh,?_⟩,
      fun limit _ found => iff_of_true ((found2 limit).mpr (found1 limit found)) id,charged_peak peak,fun _ _ => peak⟩
    · rw [result]
      exact ⟨_,formed2,backed2⟩
    · rw [result,shape]

theorem realloc_served (formed : Formed h blocks) (backed : Backed h (inUse blocks) owned) {rmem : UInt32}
    (held : rmem = 0 ∨ ∃ old, owned rmem = some old) (newsize : UInt32) :
    ∃ a h', h.rtRealloc rmem newsize = some (a,h') ∧ Answered h h' owned a (.realloc rmem newsize) := by
  obtain ⟨a,h',done,fixed,charged,outcome,found⟩ := realloc_good formed backed held newsize
  rcases outcome with ⟨rfl,good⟩ | ⟨good,kept,some_,fresh⟩
  · refine ⟨0,h',done,fixed,?_,.inl ⟨rfl,by rw [own,if_pos rfl]⟩,found,charged,fun moves => by cases moves⟩
    rw [own,if_pos rfl]
    exact good
  · have length := data_length h' a (rtAlign newsize).toNat
    refine ⟨a,h',done,fixed,?_,.inr ⟨fresh,_,length,by rw [length]; exact kept,if_neg some_⟩,found,charged,fun moves => by cases moves⟩
    rw [own,if_neg some_]
    exact good

theorem free_served (formed : Formed h blocks) (backed : Backed h (inUse blocks) owned) {rmem : UInt32}
    (held : rmem = 0 ∨ ∃ old, owned rmem = some old) :
    ∃ h', h.rtFree rmem = some h' ∧ Answered h h' owned 0 (.free rmem) := by
  rcases held with rfl | ⟨old,held⟩
  · have same : Function.update owned 0 none = owned := Function.update_eq_self_iff.mpr (owned_zero formed backed).symm
    exact ⟨h,rfl,answered_same ⟨blocks,formed,backed⟩ same same.symm fun _ => id⟩
  · obtain ⟨h',blocks',freed,formed',fixed,peak,less,backed',found⟩ := free_good formed backed held
    refine ⟨h',freed,fixed,⟨blocks',formed',backed'⟩,rfl,fun limit _ before => iff_of_true (found limit before) id,
      charged_less peak less,?_⟩
    intro _ bound
    rw [peak,Nat.max_eq_left (Nat.le_trans less bound)]

theorem write_served (formed : Formed h blocks) (backed : Backed h (inUse blocks) owned) (held : owned rmem = some old)
    (inside : i < old.length) (byte : UInt8) :
    Answered h (h.poke ((rmem-h.heapPtr).toNat+i) [byte]) owned 0 (.write rmem i byte) := by
  obtain ⟨xs,b,ys,rfl,used,rfl,short,stored⟩ := held_block backed held
  rw [address_offset formed (by simp)]
  obtain ⟨formed',spares,found⟩ := poke_formed formed (show b.start+12 ≤ b.start+12+i by omega)
    (show b.start+12+i+[byte].length ≤ b.stop by rw [List.length_singleton]; omega)
  have fixed : Fixed h (h.poke (b.start+12+i) [byte]) := ⟨rfl,rfl,rfl⟩
  have loaded : load (h.poke (b.start+12+i) [byte]).memory (b.start+12) (old.set i byte).length = old.set i byte := by
    rw [List.length_set]
    exact (load_set ..).trans (by rw [stored])
  refine ⟨fixed,⟨_,formed',?_⟩,rfl,fun limit _ before => iff_of_true ((found limit).mpr before) id,
    .refl h,fun _ bound => (Nat.max_eq_left bound).symm⟩
  rw [own,held]
  exact poke_backed formed backed used fixed spares _ (by rwa [List.length_set]) loaded

-- Every call that callers may make is answered: no assertion fails, and no loop runs on.
theorem call_answered (good : Good h owned) (allowed : Allowed owned c) :
    ∃ a h', h.call c = some (a,h') ∧ Answered h h' owned a c := by
  obtain ⟨blocks,formed,backed⟩ := good
  cases c with
  | malloc size => exact malloc_served formed backed size
  | calloc count size => exact calloc_served formed backed allowed
  | realloc rmem newsize => exact realloc_served formed backed (allowed.imp_right Option.isSome_iff_exists.mp) newsize
  | free rmem =>
    obtain ⟨h',freed,answered⟩ := free_served formed backed (allowed.imp_right Option.isSome_iff_exists.mp)
    exact ⟨0,h',by rw [call,freed]; rfl,answered⟩
  | write rmem i byte =>
    have inside : i < ((owned rmem).getD []).length := allowed
    cases held : owned rmem with
    | none =>
      rw [held] at inside
      exact absurd inside (Nat.not_lt_zero i)
    | some old =>
      rw [held] at inside
      exact ⟨0,_,rfl,write_served formed backed held inside byte⟩

end Calls

end Kernel.Heap
