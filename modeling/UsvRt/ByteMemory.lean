import Mathlib.Data.List.Basic
import Mathlib.Tactic.Ring

namespace ByteMemory

abbrev Memory := Nat → UInt8

def store (m : Memory) (a : Nat) (bytes : List UInt8) : Memory :=
  fun i => if a ≤ i then bytes.getD (i-a) (m i) else m i

def load (m : Memory) (a count : Nat) : List UInt8 := (List.range count).map fun i => m (a+i)

-- Words lie in memory with their low byte first.
def word : List UInt8 → Nat
  | [] => 0
  | byte :: rest => byte.toNat+256*word rest

def bytes : Nat → Nat → List UInt8
  | 0,_ => []
  | count+1,n => UInt8.ofNat n :: bytes count (n/256)

@[simp] theorem bytes_length (count n : Nat) : (bytes count n).length = count := by
  induction count generalizing n with
  | zero => rfl
  | succ count ih => simp [bytes,ih]

theorem word_bytes {count n : Nat} (small : n < 256^count) : word (bytes count n) = n := by
  induction count generalizing n with
  | zero =>
      have zero : n = 0 := by simpa using small
      subst n
      rfl
  | succ count ih =>
      have rest : n/256 < 256^count := by
        apply Nat.div_lt_of_lt_mul
        rwa [pow_succ,Nat.mul_comm] at small
      have low : (UInt8.ofNat n).toNat = n%256 := by simp
      rw [bytes,word,ih rest,low]
      exact Nat.mod_add_div n 256

@[simp] theorem load_length (m : Memory) (a count : Nat) : (load m a count).length = count := by
  simp [load]

theorem load_get (m : Memory) (a : Nat) {count i : Nat} (inside : i < (load m a count).length) :
    (load m a count)[i] = m (a+i) := by
  simp [load]

theorem load_congr {m m' : Memory} {a count : Nat}
    (same : ∀ i, a ≤ i → i < a+count → m' i = m i) : load m' a count = load m a count := by
  apply List.map_congr_left
  intro i present
  have inside := List.mem_range.mp present
  exact same (a+i) (Nat.le_add_right _ _) (Nat.add_lt_add_left inside a)

theorem load_append (m : Memory) (a first second : Nat) :
    load m a (first+second) = load m a first ++ load m (a+first) second := by
  apply List.ext_getElem
  · simp
  · intro i left right
    rw [load_get]
    by_cases early : i < first
    · rw [List.getElem_append_left (by simpa using early),load_get]
    · have late : first ≤ i := Nat.le_of_not_lt early
      rw [List.getElem_append_right (by simpa using late),load_get,load_length]
      congr 1
      omega

theorem load_take (m : Memory) (a count fewer : Nat) : (load m a count).take fewer = load m a (min fewer count) := by
  by_cases le : fewer ≤ count
  · obtain ⟨rest,rfl⟩ := Nat.exists_eq_add_of_le le
    rw [load_append,List.take_append_of_le_length (by simp),List.take_of_length_le (by simp),Nat.min_eq_left le]
  · have ge : count ≤ fewer := Nat.le_of_not_le le
    rw [List.take_of_length_le (by simpa using ge),Nat.min_eq_right ge]

theorem store_outside {m : Memory} {a i : Nat} {bytes : List UInt8}
    (outside : i < a ∨ a+bytes.length ≤ i) : store m a bytes i = m i := by
  unfold store
  rcases outside with below | above
  · rw [if_neg (Nat.not_le_of_lt below)]
  · rw [if_pos (by omega)]
    simp [List.getD,List.getElem?_eq_none (show bytes.length ≤ i-a by omega)]

theorem store_inside (m : Memory) (a : Nat) {i : Nat} {bytes : List UInt8} (inside : i < bytes.length) :
    store m a bytes (a+i) = bytes[i] := by
  unfold store
  rw [if_pos (Nat.le_add_right _ _),Nat.add_sub_cancel_left]
  simp [List.getD,List.getElem?_eq_getElem inside]

theorem load_store (m : Memory) (a : Nat) (bytes : List UInt8) :
    load (store m a bytes) a bytes.length = bytes := by
  apply List.ext_getElem
  · simp
  · intro i left right
    rw [load_get,store_inside m a right]

theorem load_apart {m : Memory} {a b count : Nat} {bytes : List UInt8}
    (apart : b+count ≤ a ∨ a+bytes.length ≤ b) :
    load (store m a bytes) b count = load m b count := by
  apply load_congr
  intro i from_ until_
  apply store_outside
  omega

theorem load_set (m : Memory) (a count i : Nat) (byte : UInt8) :
    load (store m (a+i) [byte]) a count = (load m a count).set i byte := by
  apply List.ext_getElem
  · simp
  · intro j left right
    rw [load_get,List.getElem_set]
    by_cases same : i = j
    · rw [if_pos same,← same]
      have first := store_inside m (a+i) (show 0 < [byte].length by simp)
      exact first
    · rw [if_neg same,load_get]
      apply store_outside
      rw [List.length_singleton]
      omega

end ByteMemory
