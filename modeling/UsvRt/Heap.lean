import UsvRt.ByteMemory

open ByteMemory

namespace Kernel

structure HeapMem where
  magic : UInt16
  used : UInt16
  next : UInt32
  prev : UInt32
  deriving DecidableEq,Repr

def heapMagic : UInt16 := 0x1ea0
def sizeofStructMem : UInt32 := 12
def minSize : UInt32 := 12
def minSizeAligned : UInt32 := 12

def rtAlign (size : UInt32) : UInt32 := (size+3) &&& ~~~3
def rtAlignDown (size : UInt32) : UInt32 := size &&& ~~~3

def HeapMem.bytes (mem : HeapMem) : List UInt8 :=
  ByteMemory.bytes 2 mem.magic.toNat ++ (ByteMemory.bytes 2 mem.used.toNat ++
    (ByteMemory.bytes 4 mem.next.toNat ++ ByteMemory.bytes 4 mem.prev.toNat))

def HeapMem.ofBytes (bytes : List UInt8) : HeapMem :=
  { magic := .ofNat (word (bytes.take 2))
    used := .ofNat (word ((bytes.drop 2).take 2))
    next := .ofNat (word ((bytes.drop 4).take 4))
    prev := .ofNat (word (bytes.drop 8)) }

-- The memory is indexed from heap_ptr, and so are the pointers to a heap_mem. The addresses
-- that the callers see are absolute, and RT_NULL is 0.
structure Heap where
  memory : Memory
  heapPtr : UInt32
  heapEnd : UInt32
  lfree : UInt32
  memSizeAligned : UInt32
  usedMem : UInt32
  maxMem : UInt32

namespace Heap

def mem (h : Heap) (ptr : UInt32) : HeapMem := .ofBytes (load h.memory ptr.toNat 12)

def put (h : Heap) (ptr : UInt32) (mem : HeapMem) : Heap :=
  {h with memory := store h.memory ptr.toNat mem.bytes}

-- One store to each field that changes; the others are written back as they are.
def setUsed (h : Heap) (ptr : UInt32) (used : UInt16) : Heap := h.put ptr {h.mem ptr with used}
def setNext (h : Heap) (ptr next : UInt32) : Heap := h.put ptr {h.mem ptr with next}
def setPrev (h : Heap) (ptr prev : UInt32) : Heap := h.put ptr {h.mem ptr with prev}
def setMagic (h : Heap) (ptr : UInt32) : Heap := h.put ptr {h.mem ptr with magic := heapMagic}

-- Both halves of plug_holes do this with two neighbours.
def combine (h : Heap) (low high : UInt32) : Heap :=
  let h := if h.lfree = high then {h with lfree := low} else h
  let next := (h.mem high).next
  (h.setNext low next).setPrev next low

def plugForward (h : Heap) (ptr : UInt32) : Heap :=
  let nmem := (h.mem ptr).next
  if ptr ≠ nmem ∧ (h.mem nmem).used = 0 ∧ nmem ≠ h.heapEnd then h.combine ptr nmem else h

def plugBackward (h : Heap) (ptr : UInt32) : Heap :=
  let pmem := (h.mem ptr).prev
  if pmem ≠ ptr ∧ (h.mem pmem).used = 0 then h.combine pmem ptr else h

-- An assertion that fails stops the caller for good: the answer is none.
def plugHoles (h : Heap) (ptr : UInt32) : Option Heap :=
  if ptr < h.heapEnd ∧ (h.mem ptr).used = 0 then some ((h.plugForward ptr).plugBackward ptr) else none

def rtSystemHeapInit (memory : Memory) (beginAddr endAddr : UInt32) : Option Heap :=
  let beginAlign := rtAlign beginAddr
  let endAlign := rtAlignDown endAddr
  if 2*sizeofStructMem < endAlign ∧ beginAlign ≤ endAlign-2*sizeofStructMem then
    let memSizeAligned := endAlign-beginAlign-2*sizeofStructMem
    let heapEnd := memSizeAligned+sizeofStructMem
    let h : Heap := { memory, heapPtr := beginAlign, heapEnd, lfree := 0, memSizeAligned, usedMem := 0, maxMem := 0 }
    let h := h.put 0 { magic := heapMagic, used := 0, next := heapEnd, prev := 0 }
    some (h.put heapEnd { magic := heapMagic, used := 1, next := heapEnd, prev := heapEnd })
  else none

-- The loops run on until their condition fails: none is a loop that has used up its fuel.
def search (h : Heap) (size : UInt32) : Nat → UInt32 → Option (Option UInt32)
  | 0,_ => none
  | fuel+1,ptr =>
    if ptr < h.memSizeAligned-size then
      let mem := h.mem ptr
      if mem.used = 0 ∧ size ≤ mem.next-(ptr+sizeofStructMem) then some (some ptr)
      else h.search size fuel mem.next
    else some none

def nextFree (h : Heap) : Nat → UInt32 → Option UInt32
  | 0,_ => none
  | fuel+1,ptr =>
    if (h.mem ptr).used ≠ 0 ∧ ptr ≠ h.heapEnd then h.nextFree fuel (h.mem ptr).next else some ptr

def fuel (h : Heap) : Nat := h.heapEnd.toNat+1

-- The second block is cut off the end of the first one.
def cutOff (h : Heap) (ptr ptr2 : UInt32) : Heap :=
  (h.put ptr2 { magic := heapMagic, used := 0, next := (h.mem ptr).next, prev := ptr }).setNext ptr ptr2

def insertAfter (h : Heap) (ptr ptr2 : UInt32) : Heap :=
  let next := (h.mem ptr).next
  let h := h.cutOff ptr ptr2
  if next ≠ h.memSizeAligned+sizeofStructMem then h.setPrev next ptr2 else h

def charge (h : Heap) (size : UInt32) : Heap :=
  let usedMem := h.usedMem+size
  {h with usedMem, maxMem := if h.maxMem < usedMem then usedMem else h.maxMem}

def refund (h : Heap) (size : UInt32) : Heap := {h with usedMem := h.usedMem-size}

def carve (h : Heap) (ptr size : UInt32) : Heap :=
  let next := (h.mem ptr).next
  if size+sizeofStructMem+minSizeAligned ≤ next-(ptr+sizeofStructMem) then
    ((h.insertAfter ptr (ptr+sizeofStructMem+size)).setUsed ptr 1).charge (size+sizeofStructMem)
  else (h.setUsed ptr 1).charge (next-ptr)

def raiseFree (h : Heap) : Option Heap :=
  match h.nextFree h.fuel h.lfree with
  | none => none
  | some lfree =>
    if lfree = h.heapEnd ∨ (h.mem lfree).used = 0 then some {h with lfree} else none

def grant (h : Heap) (ptr size : UInt32) : Option (UInt32 × Heap) :=
  let h := (h.carve ptr size).setMagic ptr
  match if ptr = h.lfree then h.raiseFree else some h with
  | none => none
  | some h =>
    let mem := h.heapPtr+ptr
    if mem+sizeofStructMem+size ≤ h.heapPtr+h.heapEnd ∧ (mem+sizeofStructMem) % 4 = 0 ∧ mem &&& 3 = 0 then
      some (mem+sizeofStructMem,h)
    else none

def rtMalloc (h : Heap) (size : UInt32) : Option (UInt32 × Heap) :=
  if size = 0 then some (0,h)
  else
    let size := rtAlign size
    if h.memSizeAligned < size then some (0,h)
    else
      let size := if size < minSizeAligned then minSizeAligned else size
      match h.search size h.fuel h.lfree with
      | none => none
      | some none => some (0,h)
      | some (some ptr) => h.grant ptr size

-- The block is marked free before its neighbours are looked at.
def setFree (h : Heap) (ptr : UInt32) : Heap :=
  let h := (h.setUsed ptr 0).setMagic ptr
  let h := if ptr < h.lfree then {h with lfree := ptr} else h
  h.refund ((h.mem ptr).next-ptr)

def rtFree (h : Heap) (rmem : UInt32) : Option Heap :=
  if rmem = 0 then some h
  else if rmem &&& 3 = 0 ∧ h.heapPtr ≤ rmem ∧ rmem < h.heapPtr+h.heapEnd then
    let ptr := rmem-sizeofStructMem-h.heapPtr
    if (h.mem ptr).used ≠ 0 ∧ (h.mem ptr).magic = heapMagic then (h.setFree ptr).plugHoles ptr else none
  else none

def shrink (h : Heap) (ptr newsize : UInt32) : Option Heap :=
  let size := (h.mem ptr).next-ptr-sizeofStructMem
  let ptr2 := ptr+sizeofStructMem+newsize
  ((h.refund (size-newsize)).insertAfter ptr ptr2).plugHoles ptr2

def memcpy (h : Heap) (dst src count : UInt32) : Heap :=
  {h with memory := store h.memory (dst-h.heapPtr).toNat (load h.memory (src-h.heapPtr).toNat count.toNat)}

def memset (h : Heap) (dst : UInt32) (value : UInt8) (count : UInt32) : Heap :=
  {h with memory := store h.memory (dst-h.heapPtr).toNat (List.replicate count.toNat value)}

def rtRealloc (h : Heap) (rmem newsize : UInt32) : Option (UInt32 × Heap) :=
  let newsize := rtAlign newsize
  if h.memSizeAligned < newsize then some (0,h)
  else if newsize = 0 then (h.rtFree rmem).map fun h => (0,h)
  else if rmem = 0 then h.rtMalloc newsize
  else if rmem < h.heapPtr ∨ h.heapPtr+h.heapEnd ≤ rmem then some (rmem,h)
  else
    let ptr := rmem-sizeofStructMem-h.heapPtr
    let size := (h.mem ptr).next-ptr-sizeofStructMem
    if size = newsize then some (rmem,h)
    else if newsize+sizeofStructMem+minSize < size then (h.shrink ptr newsize).map fun h => (rmem,h)
    else
      match h.rtMalloc newsize with
      | none => none
      | some (nmem,h) =>
        if nmem = 0 then some (0,h)
        else ((h.memcpy nmem rmem (if size < newsize then size else newsize)).rtFree rmem).map fun h => (nmem,h)

def rtCalloc (h : Heap) (count size : UInt32) : Option (UInt32 × Heap) :=
  match h.rtMalloc (count*size) with
  | none => none
  | some (p,h) => some (p,if p = 0 then h else h.memset p 0 (count*size))

end Heap
end Kernel
