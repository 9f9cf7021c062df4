import Mathlib.Data.UInt
import UsvRt.Heap
import UsvRt.LinkedBlocks

open ByteMemory LinkedBlocks

namespace Kernel.Heap

theorem ofNat_toNat {n : Nat} (small : n < 2^32) : (UInt32.ofNat n).toNat = n :=
  UInt32.toNat_ofNat_of_lt small

theorem add_toNat {a b : UInt32} (small : a.toNat+b.toNat < 2^32) : (a+b).toNat = a.toNat+b.toNat := by
  rw [UInt32.toNat_add,Nat.mod_eq_of_lt small]

theorem sub_toNat {a b : UInt32} (le : b.toNat ≤ a.toNat) : (a-b).toNat = a.toNat-b.toNat :=
  UInt32.toNat_sub_of_le a b (UInt32.le_iff_toNat_le.mpr le)

theorem ofBytes_bytes (mem : HeapMem) : HeapMem.ofBytes mem.bytes = mem := by
  have magic : word (ByteMemory.bytes 2 mem.magic.toNat) = mem.magic.toNat := word_bytes mem.magic.toNat_lt
  have used : word (ByteMemory.bytes 2 mem.used.toNat) = mem.used.toNat := word_bytes mem.used.toNat_lt
  have next : word (ByteMemory.bytes 4 mem.next.toNat) = mem.next.toNat := word_bytes mem.next.toNat_lt
  have prev : word (ByteMemory.bytes 4 mem.prev.toNat) = mem.prev.toNat := word_bytes mem.prev.toNat_lt
  have passed : ∀ {count skipped : Nat} (n : Nat), count ≤ skipped → (ByteMemory.bytes count n).drop skipped = [] := by
    intro count skipped n le
    exact List.drop_eq_nil_of_le (by simpa using le)
  simp [HeapMem.ofBytes,HeapMem.bytes,List.drop_append,passed,magic,used,next,prev]

@[simp] theorem bytes_size (mem : HeapMem) : mem.bytes.length = 12 := by
  simp [HeapMem.bytes]

theorem put_outside (h : Heap) (ptr : UInt32) (mem : HeapMem) {i : Nat}
    (outside : i < ptr.toNat ∨ ptr.toNat+12 ≤ i) : (h.put ptr mem).memory i = h.memory i := by
  apply store_outside
  rwa [bytes_size]

@[simp] theorem mem_put (h : Heap) (ptr : UInt32) (mem : HeapMem) : (h.put ptr mem).mem ptr = mem := by
  have loaded := load_store h.memory ptr.toNat mem.bytes
  rw [bytes_size] at loaded
  exact (congrArg HeapMem.ofBytes loaded).trans (ofBytes_bytes mem)

theorem mem_apart (h : Heap) (mem : HeapMem) {ptr other : UInt32}
    (apart : other.toNat+12 ≤ ptr.toNat ∨ ptr.toNat+12 ≤ other.toNat) :
    (h.put ptr mem).mem other = h.mem other := by
  apply congrArg HeapMem.ofBytes
  apply load_apart
  rwa [bytes_size]

def head (b : Block) (p : Nat) : HeapMem :=
  { magic := heapMagic, used := if b.used then 1 else 0, next := .ofNat b.stop, prev := .ofNat p }

def Held (m : Memory) (b : Block) (p : Nat) : Prop := HeapMem.ofBytes (load m b.start 12) = head b p

def Laid (m : Memory) (blocks : List Block) (z : Nat) : Prop := ∃ r, Segment (Held m) 12 0 0 blocks r z

theorem held_mem {h : Heap} {ptr : UInt32} (at_ : ptr.toNat = b.start) : Held h.memory b p ↔ h.mem ptr = head b p := by
  unfold Held mem
  rw [at_]

theorem held_congr {m m' : Memory} (same : ∀ i, b.start ≤ i → i < b.start+12 → m' i = m i) (here : Held m b p) :
    Held m' b p :=
  (congrArg HeapMem.ofBytes (load_congr same)).trans here

-- Nothing is stored but between two addresses, or there and in the header at the upper one.
def Inside (lo hi : Nat) (h h' : Heap) : Prop := ∀ i, i < lo ∨ hi ≤ i → h'.memory i = h.memory i
def Within (lo hi : Nat) (h h' : Heap) : Prop := Inside lo (hi+12) h h'

theorem Inside.trans (first : Inside lo hi h h') (second : Inside lo hi h' h'') : Inside lo hi h h'' :=
  fun i outside => (second i outside).trans (first i outside)

theorem Inside.widen (inside : Inside lo hi h h') (below : lo' ≤ lo) (above : hi ≤ hi') : Inside lo' hi' h h' :=
  fun i outside => inside i (by omega)

theorem Inside.put (h : Heap) (mem : HeapMem) {ptr : UInt32} (below : lo ≤ ptr.toNat) (above : ptr.toNat+12 ≤ hi) :
    Inside lo hi h (h.put ptr mem) :=
  fun i outside => put_outside h ptr mem (by omega)

theorem Inside.held (inside : Inside lo hi h h') (wide : b.start+12 ≤ b.stop) (outside : b.stop ≤ lo ∨ hi ≤ b.start)
    (here : Held h.memory b p) : Held h'.memory b p :=
  held_congr (fun i above below => inside i (by omega)) here

theorem setPrev_held {h : Heap} {ptr prev : UInt32} (at_ : ptr.toNat = c.start) (here : Held h.memory c p) :
    Held (h.setPrev ptr prev).memory c prev.toNat := by
  rw [held_mem at_] at here ⊢
  rw [setPrev,mem_put,here]
  simp [head]

section Replace
variable {h h' : Heap} {xs new ys : List Block}
variable (front : Segment (Held h.memory) 12 0 0 xs q lo) (back : Segment (Held h.memory) 12 q' hi ys r z)
variable (middle : Segment (Held h'.memory) 12 q lo new q'' hi) (inside : Inside lo hi h h')
include front back middle inside

-- Blocks in the middle give way to others that end with the same one, or with the last of all.
theorem laid_inside (behind : ys = [] ∨ q'' = q') : Laid h'.memory (xs ++ (new ++ ys)) z := by
  refine front.replace back middle ?_ ?_ ?_
  · intro b member p here
    have bounds := front.inside member
    exact inside.held bounds.2.1 (.inl bounds.2.2) here
  · intro b first here
    have bounds := back.inside (List.mem_of_mem_head? first)
    rcases behind with none | same
    · rw [none] at first
      cases first
    · exact same ▸ inside.held bounds.2.1 (.inr bounds.1) here
  · intro b member p here
    have bounds := back.inside (List.mem_of_mem_tail member)
    exact inside.held bounds.2.1 (.inr bounds.1) here

-- The block behind them is told which one is the last now.
theorem laid_setPrev {next prev : UInt32} (at_ : next.toNat = hi) (behind : prev.toNat = q'') :
    Laid (h'.setPrev next prev).memory (xs ++ (new ++ ys)) z := by
  have stored : Inside hi (hi+12) h' (h'.setPrev next prev) := Inside.put h' _ (by omega) (by omega)
  have middle : Segment (Held (h'.setPrev next prev).memory) 12 q lo new q'' hi := by
    apply middle.frame
    intro b member p here
    have bounds := middle.inside member
    exact stored.held bounds.2.1 (.inl bounds.2.2) here
  refine front.replace back middle ?_ ?_ ?_
  · intro b member p here
    have bounds := front.inside member
    have low := middle.le
    exact stored.held bounds.2.1 (.inl (by omega)) (inside.held bounds.2.1 (.inl bounds.2.2) here)
  · intro b first here
    have bounds := back.inside (List.mem_of_mem_head? first)
    cases back with
    | nil => cases first
    | cons wide _ rest =>
      cases first
      exact behind ▸ setPrev_held at_ (inside.held wide (.inr (Nat.le_refl _)) here)
  · intro b member p here
    cases back with
    | nil => cases member
    | cons wide _ rest =>
      have bounds := rest.inside member
      exact stored.held bounds.2.1 (.inr (by omega)) (inside.held bounds.2.1 (.inr (by omega)) here)

end Replace

section Operations
variable {h : Heap} {ptr : UInt32} {xs ys : List Block} {z : Nat}

-- A header is written again with another flag.
theorem put_laid (laid : Laid h.memory (xs ++ b::ys) z) (at_ : ptr.toNat = b.start) (used : Bool) {mem : HeapMem}
    (value : ∀ p, h.mem ptr = head b p → mem = head {b with used} p) :
    Laid (h.put ptr mem).memory (xs ++ ([{b with used}] ++ ys)) z := by
  obtain ⟨r,tiles⟩ := laid
  obtain ⟨q,front,here,wide,rest⟩ := tiles.middle
  have inside : Inside b.start b.stop h (h.put ptr mem) := Inside.put h mem (by omega) (by omega)
  have written : Held (h.put ptr mem).memory {b with used} q := by
    refine (held_mem (b := {b with used}) at_).mpr ?_
    rw [mem_put]
    exact value q ((held_mem at_).mp here)
  have middle : Segment (Held (h.put ptr mem).memory) 12 q b.start [{b with used}] b.start b.stop :=
    .cons (b := {b with used}) wide written .nil
  exact laid_inside front rest middle inside (.inr rfl)

theorem setUsed_laid (laid : Laid h.memory (xs ++ b::ys) z) (at_ : ptr.toNat = b.start) {used : Bool} {value : UInt16}
    (flag : value = if used then 1 else 0) : Laid (h.setUsed ptr value).memory (xs ++ ([{b with used}] ++ ys)) z := by
  apply put_laid laid at_
  intro p here
  rw [here,flag]
  rfl

theorem setMagic_laid (laid : Laid h.memory (xs ++ b::ys) z) (at_ : ptr.toNat = b.start) :
    Laid (h.setMagic ptr).memory (xs ++ b::ys) z := by
  apply put_laid laid at_ b.used
  intro p here
  rw [here]
  rfl

theorem cutOff_middle {ptr2 : UInt32} (here : Held h.memory b q) (at_ : ptr.toNat = b.start)
    (above : b.start+12 ≤ ptr2.toNat) (below : ptr2.toNat+12 ≤ b.stop) :
    Segment (Held (h.cutOff ptr ptr2).memory) 12 q b.start [⟨b.start,ptr2.toNat,b.used⟩,⟨ptr2.toNat,b.stop,false⟩]
        ptr2.toNat b.stop ∧
      Inside b.start b.stop h (h.cutOff ptr ptr2) := by
  have block := (held_mem at_).mp here
  unfold cutOff
  generalize made : h.put ptr2 { magic := heapMagic, used := 0, next := (h.mem ptr).next, prev := ptr } = h'
  have first : h'.mem ptr = head b q := by
    rw [← made,mem_apart h _ (by omega),block]
  have second : h'.mem ptr2 = { magic := heapMagic, used := 0, next := (h.mem ptr).next, prev := ptr } := by
    rw [← made,mem_put]
  have firstHeld : Held (h'.setNext ptr ptr2).memory ⟨b.start,ptr2.toNat,b.used⟩ q := by
    refine (held_mem (b := ⟨b.start,ptr2.toNat,b.used⟩) at_).mpr ?_
    rw [setNext,mem_put,first]
    simp [head]
  have secondHeld : Held (h'.setNext ptr ptr2).memory ⟨ptr2.toNat,b.stop,false⟩ b.start := by
    refine (held_mem (b := ⟨ptr2.toNat,b.stop,false⟩) rfl).mpr ?_
    rw [setNext,mem_apart _ _ (by omega),second,block,← at_]
    simp [head]
  refine ⟨.cons (b := ⟨b.start,ptr2.toNat,b.used⟩) above firstHeld
    (.cons (b := ⟨ptr2.toNat,b.stop,false⟩) below secondHeld .nil),?_⟩
  exact (made ▸ Inside.put h _ (by omega) (by omega)).trans (Inside.put h' _ (by omega) (by omega))

theorem insertAfter_laid {ptr2 : UInt32} (laid : Laid h.memory (xs ++ b::ys) h.heapEnd.toNat)
    (wall : h.heapEnd = h.memSizeAligned+sizeofStructMem) (at_ : ptr.toNat = b.start)
    (above : b.start+12 ≤ ptr2.toNat) (below : ptr2.toNat+12 ≤ b.stop) :
    Laid (h.insertAfter ptr ptr2).memory (xs ++ ([⟨b.start,ptr2.toNat,b.used⟩,⟨ptr2.toNat,b.stop,false⟩] ++ ys))
        h.heapEnd.toNat ∧
      Within b.start b.stop h (h.insertAfter ptr ptr2) := by
  obtain ⟨r,tiles⟩ := laid
  obtain ⟨q,front,here,wide,rest⟩ := tiles.middle
  obtain ⟨middle,inside⟩ := cutOff_middle here at_ above below
  have small := h.heapEnd.toNat_lt
  have stop := rest.le
  have next : (h.mem ptr).next.toNat = b.stop := by
    rw [(held_mem at_).mp here]
    exact ofNat_toNat (by omega)
  have result : h.insertAfter ptr ptr2 = if (h.mem ptr).next ≠ h.heapEnd then
      (h.cutOff ptr ptr2).setPrev (h.mem ptr).next ptr2 else h.cutOff ptr ptr2 := by
    rw [wall]
    rfl
  rw [result]
  split
  · refine ⟨laid_setPrev front rest middle inside next rfl,?_⟩
    exact (inside.widen (Nat.le_refl _) (Nat.le_add_right _ _)).trans (Inside.put _ _ (by omega) (by omega))
  · next last =>
    have end_ : b.stop = h.heapEnd.toNat := by
      rw [← next,not_not.mp last]
    have none : ys = [] := rest.empty (by decide) end_
    exact ⟨laid_inside front rest middle inside (.inl none),inside.widen (Nat.le_refl _) (Nat.le_add_right _ _)⟩

theorem combine_laid {low high : UInt32} (laid : Laid h.memory (xs ++ b::c::ys) z) (small : z < 2^32)
    (lowAt : low.toNat = b.start) (highAt : high.toNat = c.start) :
    Laid (h.combine low high).memory (xs ++ ([⟨b.start,c.stop,b.used⟩] ++ ys)) z ∧
      Within b.start c.stop h (h.combine low high) := by
  obtain ⟨r,tiles⟩ := laid
  obtain ⟨q,front,here,wide,rest⟩ := tiles.middle
  obtain ⟨touch,wideNext,hereNext,rest⟩ := rest.uncons
  have stop := rest.le
  have next : (h.mem high).next = .ofNat c.stop := by
    rw [(held_mem highAt).mp hereNext]
    rfl
  have at_ : (UInt32.ofNat c.stop).toNat = c.stop := ofNat_toNat (by omega)
  have result : (h.combine low high).memory = ((h.setNext low (.ofNat c.stop)).setPrev (.ofNat c.stop) low).memory := by
    rw [← next]
    unfold combine
    split <;> rfl
  have inside : Inside b.start c.stop h (h.setNext low (.ofNat c.stop)) := Inside.put h _ (by omega) (by omega)
  have written : Held (h.setNext low (.ofNat c.stop)).memory ⟨b.start,c.stop,b.used⟩ q := by
    refine (held_mem (b := ⟨b.start,c.stop,b.used⟩) lowAt).mpr ?_
    rw [setNext,mem_put,(held_mem lowAt).mp here]
    rfl
  have middle : Segment (Held (h.setNext low (.ofNat c.stop)).memory) 12 q b.start [⟨b.start,c.stop,b.used⟩] b.start c.stop :=
    .cons (b := ⟨b.start,c.stop,b.used⟩) (by dsimp only; omega) written .nil
  have within : Within b.start c.stop h ((h.setNext low (.ofNat c.stop)).setPrev (.ofNat c.stop) low) :=
    (inside.widen (Nat.le_refl _) (Nat.le_add_right _ _)).trans (Inside.put _ _ (by omega) (by omega))
  refine ⟨?_,fun i outside => (congrFun result i).trans (within i outside)⟩
  rw [result]
  exact laid_setPrev front rest middle inside at_ lowAt

end Operations

-- What rt_system_heap_init fixes for good.
structure Sized (h : Heap) : Prop where
  wall : h.heapEnd = h.memSizeAligned+sizeofStructMem
  end_ : h.heapEnd.toNat = h.memSizeAligned.toNat+12
  room : 12 ≤ h.memSizeAligned.toNat
  high : h.heapPtr.toNat+h.heapEnd.toNat+12 < 2^32
  base : h.heapPtr.toNat % 4 = 0
  size : h.memSizeAligned.toNat % 4 = 0

-- Addresses are aligned, and there is room for data behind the header.
def Regular (b : Block) : Prop := b.start % 4 = 0 ∧ b.stop % 4 = 0 ∧ b.start+12 < b.stop

-- The blocks lie in the memory as listed, and the bytes in use are those of the used ones.
structure Shaped (h : Heap) (blocks : List Block) : Prop extends Sized h where
  laid : Laid h.memory blocks h.heapEnd.toNat
  regular : ∀ b ∈ blocks, Regular b
  account : h.usedMem.toNat = spent blocks

-- The lowest-free pointer is at a free block, or past them all.
def Low (h : Heap) (blocks : List Block) : Prop :=
  h.lfree = h.heapEnd ∨ ∃ b ∈ blocks, b.used = false ∧ b.start = h.lfree.toNat

structure Formed (h : Heap) (blocks : List Block) : Prop extends Shaped h blocks where
  low : Low h blocks
  merged : Merged blocks

-- It misses no free block up to a limit.
def Lowest (limit : Nat) (h : Heap) (blocks : List Block) : Prop :=
  ∀ b ∈ blocks, b.used = false → b.start ≤ limit → h.lfree.toNat ≤ b.start

theorem head_inj (same : head b p = head c p) (low : b.stop < 2^32) (high : c.stop < 2^32) :
    b.used = c.used ∧ b.stop = c.stop := by
  have stops := congrArg (fun mem => mem.next.toNat) same
  have flags := congrArg HeapMem.used same
  simp only [head] at stops flags
  rw [ofNat_toNat low,ofNat_toNat high] at stops
  refine ⟨?_,stops⟩
  revert flags
  cases b.used <;> cases c.used <;> simp

-- The memory is laid out in one way only.
theorem segment_unique (first : Segment (Held m) 12 p a xs q z) (second : Segment (Held m) 12 p a ys r z) (small : z < 2^32) :
    xs = ys := by
  induction xs generalizing p a ys with
  | nil => exact (second.empty (by decide) first.ends.2.symm).symm
  | cons b xs ih =>
    obtain ⟨start,wide,here,rest⟩ := first.uncons
    cases ys with
    | nil =>
      have last := second.ends.2
      have bound := rest.le
      omega
    | cons c ys =>
      obtain ⟨start',wide',here',rest'⟩ := second.uncons
      have low := rest.le
      have high := rest'.le
      have both : b.start = c.start := start.symm.trans start'
      unfold Held at here here'
      rw [both] at here
      obtain ⟨used,stop⟩ := head_inj (here.symm.trans here') (by omega) (by omega)
      have same : b = c := Block.ext both stop used
      subst same
      rw [ih rest rest']

theorem Formed.unique (first : Formed h xs) (second : Formed h ys) : xs = ys := by
  obtain ⟨_,tiles⟩ := first.laid
  obtain ⟨_,tiles'⟩ := second.laid
  exact segment_unique tiles tiles' h.heapEnd.toNat_lt

def Found (limit : Nat) (h : Heap) : Prop := ∀ blocks, Formed h blocks → Lowest limit h blocks

theorem Formed.found (formed : Formed h blocks) : Found limit h ↔ Lowest limit h blocks :=
  ⟨fun found => found blocks formed,fun lowest _ other => formed.unique other ▸ lowest⟩

-- What the caller of a block owns.
def Payload (b : Block) (i : Nat) : Prop := b.start+12 ≤ i ∧ i < b.stop

def Spares (h h' : Heap) (blocks : List Block) : Prop := ∀ b ∈ blocks, ∀ i, Payload b i → h'.memory i = h.memory i

theorem Spares.trans (first : Spares h h' blocks) (second : Spares h' h'' blocks) : Spares h h'' blocks :=
  fun b member i inside => (second b member i inside).trans (first b member i inside)

theorem Spares.mono (spares : Spares h h' blocks) (fewer : ∀ b ∈ some_, b ∈ blocks) : Spares h h' some_ :=
  fun b member => spares b (fewer b member)

structure Fixed (h h' : Heap) : Prop where
  heapPtr : h'.heapPtr = h.heapPtr
  heapEnd : h'.heapEnd = h.heapEnd
  memSizeAligned : h'.memSizeAligned = h.memSizeAligned

theorem Fixed.trans (first : Fixed h h') (second : Fixed h' h'') : Fixed h h'' :=
  ⟨second.heapPtr.trans first.heapPtr,second.heapEnd.trans first.heapEnd,
    second.memSizeAligned.trans first.memSizeAligned⟩

theorem Sized.kept (sized : Sized h) (fixed : Fixed h h') : Sized h' := by
  obtain ⟨heapPtr,heapEnd,memSizeAligned⟩ := fixed
  constructor
  · rw [heapEnd,memSizeAligned,sized.wall]
  · rw [heapEnd,memSizeAligned,sized.end_]
  · rw [memSizeAligned]
    exact sized.room
  · rw [heapPtr,heapEnd]
    exact sized.high
  · rw [heapPtr]
    exact sized.base
  · rw [memSizeAligned]
    exact sized.size

theorem put_fixed (h : Heap) (ptr : UInt32) (mem : HeapMem) : Fixed h (h.put ptr mem) := ⟨rfl,rfl,rfl⟩

theorem setMagic_fixed (h : Heap) (ptr : UInt32) : Fixed h (h.setMagic ptr) := put_fixed _ _ _

theorem charge_fixed (h : Heap) (size : UInt32) : Fixed h (h.charge size) := ⟨rfl,rfl,rfl⟩

@[simp] theorem put_lfree (h : Heap) (ptr : UInt32) (mem : HeapMem) : (h.put ptr mem).lfree = h.lfree := rfl
@[simp] theorem put_usedMem (h : Heap) (ptr : UInt32) (mem : HeapMem) : (h.put ptr mem).usedMem = h.usedMem := rfl
@[simp] theorem put_maxMem (h : Heap) (ptr : UInt32) (mem : HeapMem) : (h.put ptr mem).maxMem = h.maxMem := rfl
@[simp] theorem charge_memory (h : Heap) (size : UInt32) : (h.charge size).memory = h.memory := rfl
@[simp] theorem charge_lfree (h : Heap) (size : UInt32) : (h.charge size).lfree = h.lfree := rfl

theorem cutOff_fixed (h : Heap) (ptr ptr2 : UInt32) : Fixed h (h.cutOff ptr ptr2) := by
  unfold cutOff setNext
  exact (put_fixed _ _ _).trans (put_fixed _ _ _)

theorem insertAfter_fixed (h : Heap) (ptr ptr2 : UInt32) :
    Fixed h (h.insertAfter ptr ptr2) ∧ (h.insertAfter ptr ptr2).lfree = h.lfree ∧
      (h.insertAfter ptr ptr2).usedMem = h.usedMem ∧ (h.insertAfter ptr ptr2).maxMem = h.maxMem := by
  have cut := cutOff_fixed h ptr ptr2
  unfold insertAfter
  dsimp only
  split
  · unfold setPrev
    refine ⟨cut.trans (put_fixed _ _ _),?_⟩
    simp [cutOff,setNext]
  · refine ⟨cut,?_⟩
    simp [cutOff,setNext]

theorem carve_fixed (h : Heap) (ptr size : UInt32) : Fixed h (h.carve ptr size) ∧ (h.carve ptr size).lfree = h.lfree := by
  unfold carve setUsed
  dsimp only
  split
  · have inserted := insertAfter_fixed h ptr (ptr+sizeofStructMem+size)
    refine ⟨(inserted.1.trans (put_fixed _ _ _)).trans (charge_fixed _ _),?_⟩
    simp [inserted.2.1]
  · refine ⟨(put_fixed _ _ _).trans (charge_fixed _ _),?_⟩
    simp

theorem combine_fixed (h : Heap) (low high : UInt32) :
    Fixed h (h.combine low high) ∧ (h.combine low high).usedMem = h.usedMem ∧ (h.combine low high).maxMem = h.maxMem ∧
      (h.combine low high).lfree = if h.lfree = high then low else h.lfree := by
  have twice : ∀ h' : Heap, Fixed h' ((h'.setNext low (h'.mem high).next).setPrev (h'.mem high).next low) := by
    intro h'
    unfold setNext setPrev
    exact (put_fixed _ _ _).trans (put_fixed _ _ _)
  unfold combine
  dsimp only
  split
  · have lowered : Fixed h {h with lfree := low} := ⟨rfl,rfl,rfl⟩
    refine ⟨lowered.trans (twice {h with lfree := low}),?_⟩
    simp [setNext,setPrev]
  · refine ⟨twice _,?_⟩
    simp [setNext,setPrev]

end Kernel.Heap
