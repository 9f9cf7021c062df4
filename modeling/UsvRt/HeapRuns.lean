import UsvRt.HeapService

-- Every run of calls on a heap, from rt_system_heap_init on.
namespace Kernel.Heap
open ByteMemory LinkedBlocks Runs

section Start
variable {m : Memory} {h : Heap}

theorem init_sized (made : rtSystemHeapInit m beginAddr endAddr = some h) (room : 12 ≤ h.memSizeAligned.toNat) :
    Sized h := by
  have base : (rtAlign beginAddr).toNat % 4 = 0 := by
    rw [rtAlign_toNat]
    omega
  have top : (rtAlignDown endAddr).toNat % 4 = 0 := by
    rw [rtAlignDown_toNat]
    omega
  have high := (rtAlignDown endAddr).toNat_lt
  have headers : (2*sizeofStructMem).toNat = 24 := rfl
  have header : sizeofStructMem.toNat = 12 := rfl
  unfold rtSystemHeapInit at made
  dsimp only at made
  generalize rtAlign beginAddr = beginAlign at *
  generalize rtAlignDown endAddr = endAlign at *
  split at made
  case isFalse => cases made
  case isTrue within =>
    rw [UInt32.lt_iff_toNat_lt,UInt32.le_iff_toNat_le,headers] at within
    have below : (endAlign-2*sizeofStructMem).toNat = endAlign.toNat-24 :=
      sub_toNat (by rw [headers]; exact Nat.le_of_lt within.1)
    rw [below] at within
    have span : (endAlign-beginAlign).toNat = endAlign.toNat-beginAlign.toNat :=
      sub_toNat (Nat.le_trans within.2 (Nat.sub_le _ _))
    have size : (endAlign-beginAlign-2*sizeofStructMem).toNat = endAlign.toNat-beginAlign.toNat-24 := by
      rw [sub_toNat (by rw [headers,span]; omega),span,headers]
    have end_ : (endAlign-beginAlign-2*sizeofStructMem+sizeofStructMem).toNat = endAlign.toNat-beginAlign.toNat-12 := by
      rw [add_toNat (by rw [header]; omega),size,header]
      omega
    cases Option.some.inj made
    simp only [Heap.put] at room
    constructor
    · rfl
    · simp only [Heap.put]
      omega
    · exact room
    · simp only [Heap.put]
      omega
    · exact base
    · simp only [Heap.put]
      omega

theorem init_first (made : rtSystemHeapInit m beginAddr endAddr = some h) (apart : 12 ≤ h.heapEnd.toNat) :
    h.mem 0 = head ⟨0,h.heapEnd.toNat,false⟩ 0 ∧ h.lfree = 0 ∧ h.usedMem = 0 ∧ h.maxMem = 0 := by
  unfold rtSystemHeapInit at made
  dsimp only at made
  split at made
  case isFalse => cases made
  case isTrue =>
    generalize rtAlignDown endAddr-rtAlign beginAddr-2*sizeofStructMem = memSizeAligned at made
    cases Option.some.inj made
    refine ⟨?_,rfl,rfl,rfl⟩
    rw [mem_apart _ _ (.inl ((Nat.zero_add 12).symm ▸ apart)),mem_put]
    simp [head,Heap.put,-UInt32.toNat_add]

-- A heap as rt_system_heap_init leaves it, with room for the least block.
structure Opened (h : Heap) : Prop where
  made : ∃ memory beginAddr endAddr, rtSystemHeapInit memory beginAddr endAddr = some h
  room : 12 ≤ h.memSizeAligned.toNat

theorem Opened.sized (opened : Opened h) : Sized h := by
  obtain ⟨⟨memory,beginAddr,endAddr,made⟩,room⟩ := opened
  exact init_sized made room

theorem Opened.first (opened : Opened h) :
    h.mem 0 = head ⟨0,h.heapEnd.toNat,false⟩ 0 ∧ h.lfree = 0 ∧ h.usedMem = 0 ∧ h.maxMem = 0 := by
  have end_ := opened.sized.end_
  obtain ⟨memory,beginAddr,endAddr,made⟩ := opened.made
  exact init_first made (by omega)

theorem Opened.formed (opened : Opened h) : Formed h [⟨0,h.heapEnd.toNat,false⟩] := by
  have sized := opened.sized
  have end_ := sized.end_
  have room := sized.room
  have even := sized.size
  obtain ⟨first,lfree,usedMem,_⟩ := opened.first
  have regular : Regular ⟨0,h.heapEnd.toNat,false⟩ := ⟨rfl,by dsimp only; omega,by dsimp only; omega⟩
  refine ⟨⟨sized,⟨0,?_⟩,?_,?_⟩,.inr ⟨_,List.mem_singleton_self _,rfl,?_⟩,.singleton _⟩
  · refine .cons (b := ⟨0,h.heapEnd.toNat,false⟩) ?_ ((held_mem rfl).mpr first) .nil
    exact Nat.le_of_lt regular.2.2
  · intro b member
    cases List.mem_singleton.mp member
    exact regular
  · rw [usedMem]
    rfl
  · rw [lfree]
    rfl

theorem Opened.found (opened : Opened h) (limit : Nat) : Found limit h := by
  apply opened.formed.found.mpr
  intro b member _ _
  cases List.mem_singleton.mp member
  rw [opened.first.2.1]
  exact Nat.le_refl 0

theorem init_last (made : rtSystemHeapInit m beginAddr endAddr = some h) :
    h.heapEnd = h.memSizeAligned+sizeofStructMem ∧
      h.mem h.heapEnd = { magic := heapMagic, used := 1, next := h.heapEnd, prev := h.heapEnd } := by
  unfold rtSystemHeapInit at made
  dsimp only at made
  split at made
  case isFalse => cases made
  case isTrue =>
    cases Option.some.inj made
    exact ⟨rfl,mem_put _ _ _⟩

theorem search_hangs {ptr : UInt32} (used : (h.mem ptr).used ≠ 0) (again : (h.mem ptr).next = ptr)
    (below : ptr < h.memSizeAligned-size) : ∀ turns, h.search size turns ptr = none := by
  intro turns
  induction turns with
  | zero => rfl
  | succ turns ih =>
    rw [search,if_pos below]
    dsimp only
    rw [if_neg fun free => used free.1,again]
    exact ih

-- The bound of the search wraps, and the last header leads back to itself.
theorem init_hangs (made : rtSystemHeapInit m beginAddr endAddr = some h) (tiny : h.memSizeAligned.toNat < 12) :
    ∀ turns, h.search minSizeAligned turns h.lfree = none := by
  obtain ⟨wall,last⟩ := init_last made
  have header : sizeofStructMem.toNat = 12 := rfl
  have least : minSizeAligned.toNat = 12 := rfl
  have end_ : h.heapEnd.toNat = h.memSizeAligned.toNat+12 := by
    rw [wall,add_toNat (by rw [header]; omega),header]
  obtain ⟨first,lfree,_,_⟩ := init_first made (by omega)
  have wraps : (h.memSizeAligned-minSizeAligned).toNat = h.memSizeAligned.toNat+2^32-12 := by
    rw [UInt32.toNat_sub,least]
    omega
  have inside : h.heapEnd < h.memSizeAligned-minSizeAligned := by
    rw [UInt32.lt_iff_toNat_lt,wraps]
    omega
  have front : (0 : UInt32) < h.memSizeAligned-minSizeAligned := by
    rw [UInt32.lt_iff_toNat_lt,wraps]
    change 0 < _
    omega
  have next : (h.mem 0).next = h.heapEnd := by
    rw [first]
    exact UInt32.ofNat_toNat
  have short : ¬minSizeAligned ≤ (h.mem 0).next-(0+sizeofStructMem) := by
    rw [next,UInt32.le_iff_toNat_le,least,sub_toNat (by rw [end_]; change 12 ≤ _; omega),end_]
    change ¬12 ≤ _-12
    omega
  have used : (h.mem h.heapEnd).used = 1 := by rw [last]
  have again := search_hangs (h := h) (by rw [used]; decide) (show (h.mem h.heapEnd).next = _ by rw [last]) inside
  intro turns
  cases turns with
  | zero => rfl
  | succ turns =>
    rw [lfree,search,if_pos front]
    dsimp only
    rw [if_neg fun fit => short fit.2,next]
    exact again turns

-- RT_ALIGN makes 0 of this size, so every heap is large enough for it.
theorem tiny_unanswered (hangs : ∀ turns, h.search minSizeAligned turns h.lfree = none) : h.rtMalloc 0xffffffff = none := by
  have long : ¬h.memSizeAligned < rtAlign 0xffffffff := by
    rw [UInt32.lt_iff_toNat_lt]
    exact Nat.not_lt_zero _
  unfold rtMalloc
  dsimp only
  rw [if_neg (by decide),if_neg long,show rtAlign 0xffffffff = 0 by decide,if_pos (by decide),hangs]

end Start

section Holdings
variable {h : Heap} {owned : Owned} {blocks : List Block} {bytes : List UInt8}

theorem held_placed (formed : Formed h blocks) (backed : Backed h (inUse blocks) owned) (held : owned a = some bytes) :
    ∃ b ∈ inUse blocks, h.address b = a ∧ a.toNat = h.heapPtr.toNat+b.start+12 ∧
      b.start+12+bytes.length ≤ b.stop ∧ load h.memory (b.start+12) bytes.length = bytes := by
  obtain ⟨b,member,at_,short,stored⟩ := backed.kept a bytes held
  obtain ⟨r,tiles⟩ := formed.laid
  have bounds := tiles.inside (mem_inUse.mp member).1
  refine ⟨b,member,at_,?_,by omega,stored⟩
  rw [← at_]
  exact (address_toNat formed.toSized (by omega)).2

theorem Formed.single (formed : Formed h blocks) (none : spent blocks = 0) : blocks = [⟨0,h.heapEnd.toNat,false⟩] := by
  obtain ⟨r,tiles⟩ := formed.laid
  have free : ∀ b ∈ blocks, b.used = false := by
    intro b member
    cases used : b.used with
    | false => rfl
    | true =>
      have wide := (tiles.inside member).2.1
      obtain ⟨xs,ys,rfl⟩ := List.append_of_mem member
      rw [spent_append,spent_used used] at none
      omega
  have few := merged_single formed.merged free
  have end_ := formed.end_
  cases blocks with
  | nil =>
    have last := tiles.ends.2
    omega
  | cons b rest =>
    have alone : rest = [] := List.length_eq_zero_iff.mp (Nat.le_zero.mp (Nat.le_of_succ_le_succ few))
    subst alone
    obtain ⟨start,_,_,rest⟩ := tiles.uncons
    have stop := rest.ends.2
    rw [List.cons.injEq]
    exact ⟨Block.ext start.symm stop.symm (free b (by simp)),rfl⟩

-- The blocks that rt_malloc is content with.
def Takes (h : Heap) (size : Nat) (b : Block) : Prop :=
  b.used = false ∧ h.lfree.toNat ≤ b.start ∧ b.start+12+size ≤ b.stop ∧
    (b.stop = h.heapEnd.toNat → b.start+12+size < b.stop)

instance (h : Heap) (size : Nat) (b : Block) : Decidable (h.Takes size b) := inferInstanceAs (Decidable (_ ∧ _))

theorem takes_exact (formed : Formed h blocks) (asked : h.asked size) (member : b ∈ blocks) :
    h.offers size b = decide (h.Takes (need size).toNat b) := by
  obtain ⟨r,tiles⟩ := formed.laid
  have top := (tiles.inside member).2.2
  have end_ := formed.end_
  have within := asked.2
  rw [Bool.eq_iff_iff,decide_eq_true_eq]
  simp only [offers,fits,Bool.and_eq_true,Bool.not_eq_true',decide_eq_true_eq,Takes]
  constructor
  · rintro ⟨above,⟨free,below⟩,long⟩
    exact ⟨free,above,long,fun last => by omega⟩
  · rintro ⟨free,above,long,last⟩
    refine ⟨above,⟨free,?_⟩,long⟩
    by_cases same : b.stop = h.heapEnd.toNat
    · have less := last same
      omega
    · omega

end Holdings

-- A heap, and what its users hold.
structure System where
  heap : Heap
  owned : Owned

namespace System

def start (h : Heap) : System := ⟨h,fun _ => none⟩

-- A call that is not answered would leave its caller waiting for ever.
def step (s : System) (c : Call) : System :=
  match s.heap.call c with
  | none => s
  | some (a,h) => ⟨h,own s.owned h a c⟩

def Permitted (s : System) (c : Call) : Prop := Allowed s.owned c

instance (s : System) (c : Call) : Decidable (s.Permitted c) := inferInstanceAs (Decidable (Allowed s.owned c))

-- What a run keeps: the layout, and no free block at the very start of the heap is missed.
structure Sound (h : Heap) (s : System) : Prop where
  good : Good s.heap s.owned
  fixed : Fixed h s.heap
  found : Found 0 s.heap

theorem step_answered (sound : Sound h s) (allowed : s.Permitted c) :
    ∃ a, s.heap.call c = some (a,(s.step c).heap) ∧ Answered s.heap (s.step c).heap s.owned a c ∧
      (s.step c).owned = own s.owned (s.step c).heap a c := by
  obtain ⟨a,h',done,answered⟩ := call_answered sound.good allowed
  have result : s.step c = ⟨h',own s.owned h' a c⟩ := by
    unfold step
    rw [done]
  rw [result]
  exact ⟨a,done,answered,rfl⟩

theorem strand_above {h : Heap} {c : Call} : ¬Strand 0 h c := by
  cases c with
  | realloc rmem newsize =>
    intro stranded
    have below := stranded.2.2.2.1
    omega
  | malloc | calloc | free | write => exact id

theorem step_sound (sound : Sound h s) (allowed : s.Permitted c) : Sound h (s.step c) := by
  obtain ⟨a,_,answered,owned⟩ := step_answered sound allowed
  constructor
  · rw [owned]
    exact answered.good
  · exact sound.fixed.trans answered.fixed
  · exact (answered.found 0 (.inl rfl) sound.found).mpr strand_above

theorem start_sound (opened : Opened h) : Sound h (start h) := by
  refine ⟨⟨_,opened.formed,?_⟩,⟨rfl,rfl,rfl⟩,opened.found 0⟩
  constructor
  · intro b member
    cases member
  · intro a bytes held
    cases held

theorem run_sound (opened : Opened h) (path : Along step Permitted (start h) calls) : Sound h (run step (start h) calls) :=
  invariant_run (fun _ _ => step_sound) (start_sound opened) path

-- The memory that the board has for its heap, and some calls that resize arrays in the midst
-- of others.
def sram : Heap := (rtSystemHeapInit (fun _ => 0) 0x20001003 0x20005000).get (by decide +kernel)

theorem sram_made : rtSystemHeapInit (fun _ => 0) 0x20001003 0x20005000 = some sram := (Option.some_get _).symm

theorem sram_opened : Opened sram := ⟨⟨_,_,_,sram_made⟩,by decide +kernel⟩

def errands : List Call :=
  [.malloc 8,.calloc 3 7,.malloc 100,.write 0x20001010 3 0xab,.realloc 0x20001010 40,.realloc 0x2000104c 20,.free 0x20001028]

theorem errands_permitted : Along step Permitted (start sram) errands := by decide +kernel

section Runs
variable {m : Memory} {h : Heap} {calls : List Call}

-- A heap with no room for the least block leaves callers waiting for ever: the search
-- finds neither a block nor its end, however many turns it takes.
theorem init_exact (made : rtSystemHeapInit m beginAddr endAddr = some h) :
    ((∀ size, (h.rtMalloc size).isSome = true) ↔ 12 ≤ h.memSizeAligned.toNat) ∧
      (h.memSizeAligned.toNat < 12 → ∀ turns, h.search minSizeAligned turns h.lfree = none) := by
  refine ⟨?_,init_hangs made⟩
  constructor
  · intro answered
    by_contra tiny
    have answer := answered 0xffffffff
    rw [tiny_unanswered (init_hangs made (Nat.lt_of_not_le tiny))] at answer
    cases answer
  · intro room size
    have opened : Opened h := ⟨⟨_,_,_,made⟩,room⟩
    have good : Good h fun _ => none := (start_sound opened).good
    obtain ⟨blocks,formed,backed⟩ := good
    rcases malloc_good formed backed size with refused | ⟨h',_,u,granted,_⟩
    · rw [refused]
      rfl
    · rw [granted]
      rfl

theorem sram_serves : (sram.rtMalloc 0xffffffff).isSome = true := (init_exact sram_made).1.mpr sram_opened.room _

theorem holdings_kept (opened : Opened h) (path : Along step Permitted (start h) calls) :
    (∀ a bytes, (run step (start h) calls).owned a = some bytes →
      (run step (start h) calls).heap.data a bytes.length = bytes ∧ a.toNat % 4 = 0 ∧
        h.heapPtr.toNat+12 ≤ a.toNat ∧ a.toNat+bytes.length ≤ h.heapPtr.toNat+h.heapEnd.toNat) ∧
      ∀ a bytes a' bytes', (run step (start h) calls).owned a = some bytes →
        (run step (start h) calls).owned a' = some bytes' → a ≠ a' →
        a.toNat+bytes.length+12 ≤ a'.toNat ∨ a'.toNat+bytes'.length+12 ≤ a.toNat := by
  obtain ⟨⟨blocks,formed,backed⟩,fixed,_⟩ := run_sound opened path
  generalize run step (start h) calls = s at *
  obtain ⟨r,tiles⟩ := id formed.laid
  rw [← fixed.heapPtr,← fixed.heapEnd]
  constructor
  · intro a bytes held
    obtain ⟨b,member,at_,place,short,stored⟩ := held_placed formed backed held
    have bounds := tiles.inside (mem_inUse.mp member).1
    have even := (formed.regular b (mem_inUse.mp member).1).1
    have base := formed.base
    refine ⟨?_,by omega,by omega,by omega⟩
    rw [← at_,data_load formed (mem_inUse.mp member).1]
    exact stored
  · intro a bytes a' bytes' held held' apart
    obtain ⟨b,member,at_,place,short,_⟩ := held_placed formed backed held
    obtain ⟨c,member',at',place',short',_⟩ := held_placed formed backed held'
    have other : b ≠ c := fun same => apart (at_.symm.trans (same ▸ at'))
    have wide := (tiles.inside (mem_inUse.mp member).1).2.1
    have wide' := (tiles.inside (mem_inUse.mp member').1).2.1
    rcases tiles.beside (mem_inUse.mp member).1 (mem_inUse.mp member').1 other with order | order
    · left
      omega
    · right
      omega

theorem errands_kept : (run step (start sram) errands).heap.data 0x200010bc
    (((run step (start sram) errands).owned 0x200010bc).getD []).length =
      ((run step (start sram) errands).owned 0x200010bc).getD [] := by
  have held : (run step (start sram) errands).owned 0x200010bc =
      some (((run step (start sram) errands).owned 0x200010bc).getD []) := by decide +kernel
  exact ((holdings_kept sram_opened errands_permitted).1 _ _ held).1

-- The linked blocks fill the heap, used_mem is what those in use take up, and each of them is
-- somebody's: no block is lost and none is given out twice.
theorem blocks_accounted (opened : Opened h) (path : Along step Permitted (start h) calls) :
    ∃ blocks, Formed (run step (start h) calls).heap blocks ∧
      ((inUse blocks).map (run step (start h) calls).heap.address).Nodup ∧
      ∀ a, ((run step (start h) calls).owned a).isSome ↔
        a ∈ (inUse blocks).map (run step (start h) calls).heap.address := by
  obtain ⟨⟨blocks,formed,backed⟩,_,_⟩ := run_sound opened path
  generalize run step (start h) calls = s at *
  obtain ⟨r,tiles⟩ := id formed.laid
  refine ⟨blocks,formed,?_,?_⟩
  · apply List.pairwise_map.mpr
    refine (tiles.apart.sublist List.filter_sublist).imp_of_mem ?_
    intro b c first second order same
    have wide := (tiles.inside (mem_inUse.mp first).1).2.1
    have equal := address_inj (formed.small b first) (formed.small c second) same
    omega
  · intro a
    rw [Option.isSome_iff_exists,List.mem_map]
    constructor
    · intro ⟨bytes,held⟩
      obtain ⟨b,member,at_,_⟩ := backed.kept a bytes held
      exact ⟨b,member,at_⟩
    · rintro ⟨b,member,rfl⟩
      exact backed.known b member

theorem errands_accounted : ∃ blocks, Formed (run step (start sram) errands).heap blocks ∧
    ((inUse blocks).map (run step (start sram) errands).heap.address).Nodup ∧
    ∀ a, ((run step (start sram) errands).owned a).isSome ↔
      a ∈ (inUse blocks).map (run step (start sram) errands).heap.address :=
  blocks_accounted sram_opened errands_permitted

-- rt_malloc takes the first block from lfree on that is long enough, save that it never
-- uses up the last block of the heap.
theorem malloc_first_fit (opened : Opened h) (path : Along step Permitted (start h) calls) (size : UInt32) :
    ∃ blocks, Formed (run step (start h) calls).heap blocks ∧
      ((run step (start h) calls).heap.rtMalloc size).map (·.1) =
        some (if (run step (start h) calls).heap.asked size then
          ((blocks.find? ((run step (start h) calls).heap.Takes (need size).toNat ·)).map
            (run step (start h) calls).heap.address).getD 0 else 0) := by
  obtain ⟨⟨blocks,formed,_⟩,_,_⟩ := run_sound opened path
  generalize run step (start h) calls = s at *
  refine ⟨blocks,formed,?_⟩
  by_cases asked : s.heap.asked size
  · have same := List.find?_congr fun b member => takes_exact formed asked member
    rw [if_pos asked,← same]
    cases hit : blocks.find? (s.heap.offers size) with
    | none =>
      rw [malloc_search formed asked,hit]
      rfl
    | some b =>
      obtain ⟨taken,xs,ys,rfl,passed⟩ := List.find?_eq_some_iff_append.mp hit
      obtain ⟨h',granted,_⟩ := malloc_granted formed asked (by simpa using passed) taken
      rw [granted]
      rfl
  · rw [if_neg asked,malloc_refused formed fun yes => absurd yes asked]
    rfl

theorem errands_fit : ∃ blocks, Formed (run step (start sram) errands).heap blocks ∧
    ((run step (start sram) errands).heap.rtMalloc 16).map (·.1) =
      some (if (run step (start sram) errands).heap.asked 16 then
        ((blocks.find? ((run step (start sram) errands).heap.Takes (need 16).toNat ·)).map
          (run step (start sram) errands).heap.address).getD 0 else 0) :=
  malloc_first_fit sram_opened errands_permitted 16

-- A caller gets what it asks for, and less than two headers more, unless RT_ALIGN wraps.
theorem granted_room (opened : Opened h) (path : Along step Permitted (start h) calls)
    (granted : (run step (start h) calls).heap.rtMalloc size = some (a,h')) (some_ : a ≠ 0) :
    ∃ blocks b, Formed h' blocks ∧ b ∈ inUse blocks ∧ h'.address b = a ∧
      (run step (start h) calls).owned a = none ∧ b.stop-(b.start+12) < (need size).toNat+24 ∧
      (size.toNat ≤ b.stop-(b.start+12) ↔ size.toNat+3 < 2^32) := by
  obtain ⟨⟨blocks,formed,backed⟩,_,_⟩ := run_sound opened path
  generalize run step (start h) calls = s at *
  rcases malloc_good formed backed size with refused | ⟨h1,blocks1,u,done,handed⟩
  · rw [refused] at granted
    cases granted
    exact absurd rfl some_
  · rw [done] at granted
    cases granted
    refine ⟨blocks1,u,handed.formed,handed.member,address_fixed handed.fixed u,handed.fresh,handed.tight,?_⟩
    have enough := handed.room
    have tight := handed.tight
    have small := size.toNat_lt
    rw [need_toNat,rtAlign_toNat] at enough tight
    omega

theorem errands_room : ∃ h' blocks b, Formed h' blocks ∧ b ∈ inUse blocks ∧ h'.address b = 0x20001010 ∧
    (run step (start sram) errands).owned 0x20001010 = none ∧ b.stop-(b.start+12) < (need 0xffffffff).toNat+24 ∧
    ((0xffffffff : UInt32).toNat ≤ b.stop-(b.start+12) ↔ (0xffffffff : UInt32).toNat+3 < 2^32) := by
  have granted : ((run step (start sram) errands).heap.rtMalloc 0xffffffff).map (·.1) = some 0x20001010 := by decide +kernel
  obtain ⟨⟨a,h'⟩,granted,rfl⟩ := Option.map_eq_some_iff.mp granted
  exact ⟨h',granted_room sram_opened errands_permitted granted (by decide)⟩

-- When everything has been given back the heap is as it was at first, whatever came before.
theorem all_returned (opened : Opened h) (path : Along step Permitted (start h) calls)
    (returned : (run step (start h) calls).heap.usedMem = 0) :
    (∀ a, (run step (start h) calls).owned a = none) ∧
      Formed (run step (start h) calls).heap [⟨0,h.heapEnd.toNat,false⟩] ∧ (run step (start h) calls).heap.lfree = 0 ∧
      ∀ size, (∃ h', (run step (start h) calls).heap.rtMalloc size = some (h.heapPtr+12,h')) ↔
        h.asked size ∧ (need size).toNat < h.memSizeAligned.toNat := by
  obtain ⟨⟨blocks,formed,backed⟩,fixed,found⟩ := run_sound opened path
  generalize run step (start h) calls = s at *
  have single : blocks = [⟨0,h.heapEnd.toNat,false⟩] := by
    rw [← fixed.heapEnd]
    exact formed.single (by rw [← formed.account,returned]; rfl)
  subst single
  have lfree : s.heap.lfree = 0 := by
    apply UInt32.toNat_inj.mp
    exact Nat.le_zero.mp (found _ formed _ (List.mem_singleton_self _) rfl (Nat.le_refl 0))
  have base : s.heap.address ⟨0,h.heapEnd.toNat,false⟩ = h.heapPtr+12 := by
    unfold address
    rw [fixed.heapPtr]
    exact congrArg (·+12) (UInt32.add_zero _)
  refine ⟨?_,formed,lfree,fun size => ?_⟩
  · intro a
    cases held : s.owned a with
    | none => rfl
    | some bytes =>
      obtain ⟨b,member,_⟩ := backed.kept a bytes held
      cases member
  · have sizes : h.asked size ↔ s.heap.asked size := by
      unfold asked
      rw [fixed.memSizeAligned]
    have offered : s.heap.offers size ⟨0,h.heapEnd.toNat,false⟩ = true ↔ (need size).toNat < h.memSizeAligned.toNat := by
      have end_ := formed.end_
      simp only [offers,fits,lfree,Bool.and_eq_true,Bool.not_eq_true',decide_eq_true_eq,← fixed.memSizeAligned,
        ← fixed.heapEnd]
      constructor
      · rintro ⟨_,⟨_,below⟩,_⟩
        omega
      · intro below
        exact ⟨Nat.le_refl 0,⟨trivial,by omega⟩,by omega⟩
    rw [sizes,← offered]
    constructor
    · rintro ⟨h',granted⟩
      have nonzero := address_some formed (List.mem_singleton_self _)
      rw [base] at nonzero
      by_contra no
      rw [malloc_refused formed] at granted
      · exact nonzero (congrArg Prod.fst (Option.some.inj granted)).symm
      · intro asked b member
        cases List.mem_singleton.mp member
        exact Bool.eq_false_iff.mpr fun yes => no ⟨asked,yes⟩
    · rintro ⟨asked,yes⟩
      obtain ⟨h',granted,_⟩ := malloc_granted (show Formed s.heap ([] ++ ⟨0,h.heapEnd.toNat,false⟩::[]) from formed)
        asked (fun b none => by cases none) yes
      exact ⟨h',base ▸ granted⟩

theorem errands_returned :
    (∀ a, (run step (start sram) (errands ++ [.free 0x200010bc,.free 0x2000104c])).owned a = none) ∧
      (run step (start sram) (errands ++ [.free 0x200010bc,.free 0x2000104c])).heap.lfree = 0 := by
  have path : Along step Permitted (start sram) (errands ++ [.free 0x200010bc,.free 0x2000104c]) := by decide +kernel
  obtain ⟨nobody,_,lfree,_⟩ := all_returned sram_opened path (by decide +kernel)
  exact ⟨nobody,lfree⟩

-- lfree misses a free block as soon as a call of rt_realloc strands one, and not before.
theorem lowest_exact (opened : Opened h) (path : Along step Permitted (start h) calls) :
    Along step (fun s c => Found h.heapEnd.toNat (s.step c).heap) (start h) calls ↔
      Along step (fun s c => ¬Strand h.heapEnd.toNat s.heap c) (start h) calls := by
  have exact_ : ∀ s c, Sound h s ∧ Found h.heapEnd.toNat s.heap → s.Permitted c →
      (Found h.heapEnd.toNat (s.step c).heap ↔ ¬Strand h.heapEnd.toNat s.heap c) := by
    intro s c ⟨sound,found⟩ allowed
    obtain ⟨a,_,answered,_⟩ := step_answered sound allowed
    exact answered.found _ (.inr (Nat.le_of_eq (congrArg _ sound.fixed.heapEnd))) found
  refine along_exchange exact_ ?_ ⟨start_sound opened,opened.found h.heapEnd.toNat⟩ path
  intro s c before allowed rests
  exact ⟨step_sound before.1 allowed,(exact_ s c before allowed).mpr rests⟩

theorem errands_stranded : ¬Along step (fun s c => Found sram.heapEnd.toNat (s.step c).heap) (start sram)
    [.malloc 100,.malloc 8,.realloc 0x20001010 20] :=
  fun lowest => absurd ((lowest_exact sram_opened (by decide +kernel)).mp lowest) (by decide +kernel)

-- max_mem is never less than what has been in use at a time, and no more unless blocks move.
theorem peak_exact (opened : Opened h) (path : Along step Permitted (start h) calls) :
    (∀ earlier, earlier <+: calls →
      (run step (start h) earlier).heap.usedMem.toNat ≤ (run step (start h) calls).heap.maxMem.toNat) ∧
      ((∀ c ∈ calls, c.moves = false) → ∃ earlier, earlier <+: calls ∧
        (run step (start h) earlier).heap.usedMem.toNat = (run step (start h) calls).heap.maxMem.toNat) := by
  induction calls using List.reverseRecOn with
  | nil =>
    obtain ⟨_,_,usedMem,maxMem⟩ := opened.first
    have same : h.usedMem.toNat = h.maxMem.toNat := by rw [usedMem,maxMem]
    refine ⟨fun earlier before => ?_,fun _ => ⟨[],List.nil_prefix,same⟩⟩
    rw [List.prefix_nil.mp before]
    exact Nat.le_of_eq same
  | append_singleton calls c ih =>
    obtain ⟨before,allowed,_⟩ := (along_append ..).mp path
    obtain ⟨bound,attained⟩ := ih before
    obtain ⟨a,_,answered,_⟩ := step_answered (run_sound opened before) allowed
    have now := bound calls (List.prefix_refl _)
    have last : run step (start h) (calls ++ [c]) = (run step (start h) calls).step c := run_append step
    rw [last]
    constructor
    · intro earlier inside
      rcases List.prefix_concat_iff.mp inside with rfl | shorter
      · rw [last]
        exact (answered.charged now).2
      · exact Nat.le_trans (bound earlier shorter) (answered.charged now).1
    · intro still
      obtain ⟨earlier,inside,most⟩ := attained fun d member => still d (List.mem_append_left _ member)
      rw [answered.peak (still c (by simp)) now]
      rcases Nat.le_total (run step (start h) calls).heap.maxMem.toNat ((run step (start h) calls).step c).heap.usedMem.toNat
        with grown | enough
      · exact ⟨calls ++ [c],List.prefix_refl _,by rw [last,Nat.max_eq_right grown]⟩
      · exact ⟨earlier,inside.trans (List.prefix_append _ _),by rw [most,Nat.max_eq_left enough]⟩

theorem errands_peak :
    (∀ earlier, earlier <+: errands → (run step (start sram) earlier).heap.usedMem.toNat ≤
      (run step (start sram) errands).heap.maxMem.toNat) ∧
      ∃ earlier, earlier <+: errands.take 4 ∧ (run step (start sram) earlier).heap.usedMem.toNat =
        (run step (start sram) (errands.take 4)).heap.maxMem.toNat :=
  ⟨(peak_exact sram_opened errands_permitted).1,
    (peak_exact sram_opened (by decide +kernel)).2 (by decide)⟩

end Runs

end System

end Kernel.Heap
