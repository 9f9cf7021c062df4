import Mathlib.Data.List.Range
import Mathlib.Data.Nat.ModEq
import UsvRt.Runs

namespace UsvRt
open Runs

-- The receive FIFO of the serial driver. After a lost byte it is marked full, but never while
-- the two indices meet, so that a mark at equal indices needs no case of its own.
structure RxFifo where
  bufsz : Nat
  buffer : Nat → UInt8
  putIndex : Nat
  getIndex : Nat
  isFull : Bool
  several : 1 < bufsz
  putBelow : putIndex < bufsz
  getBelow : getIndex < bufsz
  apart : isFull = true → getIndex ≠ putIndex

namespace RxFifo

variable {size : Nat}

def next (bufsz index : Nat) : Nat := if index+1 ≥ bufsz then 0 else index+1

theorem next_below (several : 1 < size) (index : Nat) : next size index < size := by
  unfold next
  split <;> omega

theorem next_moves (several : 1 < size) (index : Nat) : next size index ≠ index := by
  unfold next
  split <;> omega

def empty (bufsz : Nat) (several : 1 < bufsz) : RxFifo :=
  ⟨bufsz,fun _ => 0,0,0,false,several,by omega,by omega,nofun⟩

def put (f : RxFifo) (ch : UInt8) : RxFifo :=
  let buffer := fun cell => if cell = f.putIndex then ch else f.buffer cell
  let putIndex := next f.bufsz f.putIndex
  have putBelow := next_below f.several f.putIndex
  if met : putIndex = f.getIndex then
    {f with
      buffer:=buffer,putIndex:=putIndex,getIndex:=next f.bufsz f.getIndex,isFull:=true
      putBelow:=putBelow,getBelow:=next_below f.several _
      apart:=fun _ => met ▸ next_moves f.several _}
  else {f with buffer:=buffer,putIndex:=putIndex,putBelow:=putBelow,apart:=fun _ => Ne.symm met}

def rxLength (f : RxFifo) : Nat :=
  if f.putIndex ≥ f.getIndex then f.putIndex-f.getIndex else f.bufsz-(f.getIndex-f.putIndex)

def read (f : RxFifo) : Option (UInt8×RxFifo) :=
  if f.getIndex = f.putIndex ∧ f.isFull = false then none
  else some (f.buffer f.getIndex,
    {f with getIndex:=next f.bufsz f.getIndex,isFull:=false,getBelow:=next_below f.several _,apart:=nofun})

def contents (f : RxFifo) : List UInt8 :=
  (List.range f.rxLength).map fun k => f.buffer ((f.getIndex+k)%f.bufsz)

@[simp] theorem contents_length (f : RxFifo) : f.contents.length = f.rxLength := by
  rw [contents,List.length_map,List.length_range]

theorem next_mod (below : index < size) : next size index = (index+1)%size := by
  unfold next
  split
  · have last : index+1 = size := by omega
    rw [last,Nat.mod_self]
  · exact (Nat.mod_eq_of_lt (by omega)).symm

theorem next_shift (below : index < size) (k : Nat) : (next size index+k)%size = (index+(k+1))%size := by
  rw [next_mod below,Nat.mod_add_mod,Nat.add_assoc,Nat.add_comm 1]

-- The put index lies as far behind the get index as there are bytes to read.
theorem put_ahead (f : RxFifo) : (f.getIndex+f.rxLength)%f.bufsz = f.putIndex := by
  have putBelow := f.putBelow
  have getBelow := f.getBelow
  unfold rxLength
  split
  · rw [Nat.add_sub_cancel' ‹_›,Nat.mod_eq_of_lt putBelow]
  · have wrapped : f.getIndex+(f.bufsz-(f.getIndex-f.putIndex)) = f.putIndex+f.bufsz := by omega
    rw [wrapped,Nat.add_mod_right,Nat.mod_eq_of_lt putBelow]

theorem rxLength_below (f : RxFifo) : f.rxLength < f.bufsz := by
  have putBelow := f.putBelow
  have getBelow := f.getBelow
  unfold rxLength
  split <;> omega

theorem cell_distinct (first : i < size) (second : j < size) (index : Nat) (differ : i ≠ j) :
    (index+i)%size ≠ (index+j)%size := by
  intro same
  have congruent : i ≡ j [MOD size] := Nat.ModEq.add_left_cancel' index same
  exact differ (congruent.eq_of_lt_of_lt first second)

theorem contents_exact (f : RxFifo) (size : Nat) (below : size < f.bufsz) (ahead : (f.getIndex+size)%f.bufsz = f.putIndex) :
    f.contents = (List.range size).map fun k => f.buffer ((f.getIndex+k)%f.bufsz) := by
  have exact : f.rxLength = size := by
    by_contra differ
    exact cell_distinct f.rxLength_below below f.getIndex differ (f.put_ahead.trans ahead.symm)
  rw [contents,exact]

theorem read_none (f : RxFifo) : f.read = none ↔ f.contents = [] := by
  have getBelow := f.getBelow
  have putBelow := f.putBelow
  have apart := f.apart
  rw [← List.length_eq_zero_iff,contents_length]
  unfold read rxLength
  constructor
  · intro nothing
    split at nothing
    · next equal => rw [equal.1,if_pos (Nat.le_refl _),Nat.sub_self]
    · contradiction
  · intro zero
    have equal : f.getIndex = f.putIndex := by split at zero <;> omega
    refine if_pos ⟨equal,?_⟩
    cases full : f.isFull with
    | false => rfl
    | true => exact absurd equal (apart full)

theorem read_some (f : RxFifo) (received : f.read = some (b,g)) : f.contents = b::g.contents := by
  have getBelow := f.getBelow
  have below := f.rxLength_below
  have some : f.rxLength ≠ 0 := by
    rw [← contents_length,Ne,List.length_eq_zero_iff,← read_none,received]
    exact nofun
  obtain ⟨left,more⟩ := Nat.exists_eq_succ_of_ne_zero some
  unfold read at received
  split at received
  · contradiction
  · obtain ⟨rfl,rfl⟩ := Prod.mk.inj (Option.some.inj received)
    have ahead : (next f.bufsz f.getIndex+left)%f.bufsz = f.putIndex := by
      rw [next_shift getBelow,← Nat.succ_eq_add_one left,← more,f.put_ahead]
    rw [contents,more,List.range_succ_eq_map,List.map_cons,List.map_map,Nat.add_zero,Nat.mod_eq_of_lt getBelow]
    refine congrArg (f.buffer f.getIndex::·) (Eq.trans ?_ (contents_exact _ left (Nat.lt_of_succ_lt (more ▸ below)) ahead).symm)
    refine List.map_congr_left fun k _ => ?_
    exact congrArg f.buffer (next_shift getBelow k).symm

theorem next_put (f : RxFifo) : next f.bufsz f.putIndex = (f.getIndex+(f.rxLength+1))%f.bufsz := by
  rw [next_mod f.putBelow,← f.put_ahead,Nat.mod_add_mod,Nat.add_assoc]

-- The cell written lies behind those that hold the bytes to read.
theorem older_kept (f : RxFifo) (ch : UInt8) (older : k < f.rxLength) :
    (if (f.getIndex+k)%f.bufsz = f.putIndex then ch else f.buffer ((f.getIndex+k)%f.bufsz)) =
      f.buffer ((f.getIndex+k)%f.bufsz) := by
  have kept := cell_distinct (Nat.lt_trans older f.rxLength_below) f.rxLength_below f.getIndex (Nat.ne_of_lt older)
  rw [f.put_ahead] at kept
  exact if_neg kept

theorem put_contents (f : RxFifo) (ch : UInt8) (room : f.rxLength+1 < f.bufsz) :
    (f.put ch).contents = f.contents++[ch] ∧ (f.put ch).bufsz = f.bufsz := by
  have getBelow := f.getBelow
  have free : next f.bufsz f.putIndex ≠ f.getIndex := by
    rw [next_put]
    intro met
    refine cell_distinct room (Nat.zero_lt_of_lt room) f.getIndex (Nat.succ_ne_zero _) ?_
    rw [met,Nat.add_zero,Nat.mod_eq_of_lt getBelow]
  unfold put
  rw [dif_neg free]
  refine ⟨?_,rfl⟩
  refine (contents_exact _ (f.rxLength+1) ?_ ?_).trans ?_
  · exact room
  · exact f.next_put.symm
  rw [contents,List.range_succ,List.map_append]
  congr 1
  · exact List.map_congr_left fun k member => f.older_kept ch (List.mem_range.mp member)
  · exact congrArg (fun b => [b]) (if_pos f.put_ahead)

-- A byte too many costs the oldest one.
theorem put_full (f : RxFifo) (ch : UInt8) (full : f.rxLength+1 = f.bufsz) :
    (f.put ch).contents = f.contents.tail++[ch] := by
  have getBelow := f.getBelow
  have several := f.several
  have met : next f.bufsz f.putIndex = f.getIndex := by
    rw [next_put,full,Nat.add_mod_right,Nat.mod_eq_of_lt getBelow]
  obtain ⟨left,more⟩ : ∃ left, f.rxLength = left+1 := ⟨f.rxLength-1,by omega⟩
  have tail : f.contents.tail = (List.range left).map fun k => f.buffer ((f.getIndex+(k+1))%f.bufsz) := by
    rw [contents,more,List.range_succ_eq_map,List.map_cons,List.tail_cons,List.map_map]
    rfl
  unfold put
  rw [dif_pos met]
  refine (contents_exact _ f.rxLength ?_ ?_).trans ?_
  · exact f.rxLength_below
  · exact (next_shift getBelow f.rxLength).trans f.next_put.symm
  rw [tail,more,List.range_succ,List.map_append]
  congr 1
  · refine List.map_congr_left fun k member => ?_
    have older : k+1 < f.rxLength := by
      have below := List.mem_range.mp member
      omega
    dsimp only
    rw [next_shift getBelow k]
    exact f.older_kept ch older
  · refine congrArg (fun b => [b]) (if_pos ?_)
    dsimp only
    rw [next_shift getBelow left,← more,f.put_ahead]

theorem puts_contents (f : RxFifo) (bytes : List UInt8) (room : f.rxLength+bytes.length < f.bufsz) :
    (run put f bytes).contents = f.contents++bytes := by
  induction bytes generalizing f with
  | nil => exact (List.append_nil _).symm
  | cons ch rest ih =>
    rw [List.length_cons] at room
    obtain ⟨appended,same⟩ := put_contents f ch (by omega)
    have longer : (f.put ch).rxLength = f.rxLength+1 := by
      rw [← contents_length,appended,List.length_append,contents_length]
      rfl
    rw [run_cons,ih _ (by omega),appended,List.append_assoc]
    rfl

end RxFifo
end UsvRt
