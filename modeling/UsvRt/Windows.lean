import UsvRt.Framing

-- Frames of fixed size without an end mark: from an opening byte on, a receiver
-- takes as many bytes as a frame has, whatever they are.
namespace Framing
variable {α γ : Type}

def grown (opens : α → Bool) (pending : List α) (b : α) : List α :=
  if opens b = true ∨ pending ≠ [] then pending++[b] else pending

-- The abstract receiver: the bytes taken so far, and each window it completes.
def window (opens : α → Bool) (size : Nat) (pending : List α) (b : α) : List α×Option (List α) :=
  if (grown opens pending b).length = size then ([],some (grown opens pending b))
  else (grown opens pending b,none)

-- The receiver with an array and an index, which decodes the array when it is full.
structure Collector (α : Type) where
  index : Nat
  buffer : List α
  deriving DecidableEq

namespace Collector

def append (c : Collector α) (b : α) : Collector α := {c with buffer:=c.buffer.set c.index b,index:=c.index+1}

def store (opens : α → Bool) (c : Collector α) (b : α) : Collector α :=
  if opens b = true then c.append b else if c.index ≠ 0 then c.append b else c

def limit (size : Nat) (c : Collector α) : Collector α := if c.index > size then {c with index:=0} else c

def collect (opens : α → Bool) (size : Nat) (decode : List α → Option γ) (c : Collector α) (b : α) :
    Collector α×Option γ :=
  let stored := c.store opens b
  if stored.index = size then ({stored with index:=0},decode stored.buffer) else (stored.limit size,none)

def pending (c : Collector α) : List α := c.buffer.take c.index

structure Sound (size : Nat) (c : Collector α) : Prop where
  room : c.index < size
  fits : size ≤ c.buffer.length

theorem pending_length (sound : Sound size c) : c.pending.length = c.index := by
  have room := sound.room
  have fits := sound.fits
  exact List.length_take_of_le (by omega)

theorem pending_nil (sound : Sound size c) : c.pending ≠ [] ↔ c.index ≠ 0 := by
  rw [← pending_length sound]
  exact not_congr List.length_eq_zero_iff.symm

theorem append_pending (sound : Sound size c) (b : α) : (c.append b).pending = c.pending++[b] := by
  have room := sound.room
  have fits := sound.fits
  exact pending_append c.buffer b (by omega)

theorem store_pending (opens : α → Bool) (sound : Sound size c) (b : α) :
    (c.store opens b).pending = grown opens c.pending b ∧
      (c.store opens b).pending.length = (c.store opens b).index ∧
      (c.store opens b).index ≤ size ∧ size ≤ (c.store opens b).buffer.length := by
  have room := sound.room
  have fits := sound.fits
  have some := pending_nil sound
  have appended : (c.append b).pending = c.pending++[b] ∧ (c.append b).pending.length = (c.append b).index ∧
      (c.append b).index ≤ size ∧ size ≤ (c.append b).buffer.length := by
    refine ⟨append_pending sound b,?_,room,by rw [append,List.length_set]; exact fits⟩
    rw [append_pending sound b,List.length_append,pending_length sound]
    rfl
  unfold store grown
  by_cases opening : opens b = true
  · rw [if_pos opening,if_pos (.inl opening)]
    exact appended
  · rw [if_neg opening]
    by_cases idle : c.index = 0
    · rw [if_neg (not_not.mpr idle),if_neg]
      · exact ⟨rfl,pending_length sound,Nat.le_of_lt room,fits⟩
      · rintro (first | later)
        · exact opening first
        · exact some.mp later idle
    · rw [if_pos idle,if_pos (.inr (some.mpr idle))]
      exact appended

-- A decoder that reads the window's cells only makes the array a representation of
-- the pending bytes.
theorem collect_window (opens : α → Bool) (decode : List α → Option γ) (sound : Sound size c)
    (reads : ∀ buffer, size ≤ buffer.length → decode buffer = decode (buffer.take size)) (b : α) :
    (c.collect opens size decode b).1.Sound size ∧
      (c.collect opens size decode b).1.pending = (window opens size c.pending b).1 ∧
      (c.collect opens size decode b).2 = (window opens size c.pending b).2.bind decode := by
  obtain ⟨pending,length,bounded,fits⟩ := store_pending opens sound b
  have positive : 0 < size := Nat.lt_of_le_of_lt (Nat.zero_le _) sound.room
  unfold collect window
  dsimp only
  rw [← pending,length]
  by_cases full : (c.store opens b).index = size
  · rw [if_pos full,if_pos full]
    refine ⟨⟨positive,fits⟩,List.take_zero,?_⟩
    rw [reads _ fits,Option.bind_some,Collector.pending,full]
  · have small : (c.store opens b).limit size = c.store opens b := by
      unfold limit
      rw [if_neg (by omega)]
    rw [if_neg full,if_neg full,small]
    exact ⟨⟨Nat.lt_of_le_of_ne bounded full,fits⟩,rfl,rfl⟩

theorem collect_run (opens : α → Bool) (decode : List α → Option γ) (sound : Sound size c)
    (reads : ∀ buffer, size ≤ buffer.length → decode buffer = decode (buffer.take size)) (bytes : List α) :
    (drive (collect opens size decode) c bytes).Sound size ∧
      (drive (collect opens size decode) c bytes).pending = drive (window opens size) c.pending bytes ∧
      emitted (collect opens size decode) c bytes = (emitted (window opens size) c.pending bytes).filterMap decode := by
  induction bytes generalizing c with
  | nil => exact ⟨sound,rfl,rfl⟩
  | cons b rest ih =>
    obtain ⟨next,pending,update⟩ := collect_window opens decode sound reads b
    obtain ⟨last,rest_pending,updates⟩ := ih next
    rw [drive_cons,emitted_cons,drive_cons,emitted_cons,updates,update,List.filterMap_append,pending]
    rw [pending] at rest_pending
    refine ⟨last,rest_pending,?_⟩
    cases (window opens size c.pending b).2 with
    | none => rfl
    | some taken =>
      simp only [Option.bind_some,Option.toList_some,List.filterMap_cons,List.filterMap_nil]
      cases decode taken <;> rfl

end Collector

section Frames
variable (opens : α → Bool) (size : Nat)

theorem window_inner {pending : List α} (some : pending ≠ []) (text : List α)
    (short : pending.length+text.length < size) :
    drive (window opens size) pending text = pending++text ∧ emitted (window opens size) pending text = [] := by
  induction text generalizing pending with
  | nil => exact ⟨(List.append_nil _).symm,rfl⟩
  | cons b rest ih =>
    rw [List.length_cons] at short
    have taken : window opens size pending b = (pending++[b],none) := by
      have more : grown opens pending b = pending++[b] := if_pos (.inr some)
      unfold window
      rw [more,if_neg (by rw [List.length_append,List.length_singleton]; omega)]
    obtain ⟨after,quiet⟩ := ih (List.append_ne_nil_of_right_ne_nil pending (List.cons_ne_nil b []))
      (by rw [List.length_append,List.length_singleton]; omega)
    rw [drive_cons,emitted_cons,taken,after,quiet,List.append_assoc]
    exact ⟨rfl,rfl⟩

theorem window_complete {pending : List α} (some : pending ≠ []) (text : List α) (more : text ≠ [])
    (whole : pending.length+text.length = size) :
    drive (window opens size) pending text = [] ∧ emitted (window opens size) pending text = [pending++text] := by
  obtain ⟨early,b,rfl⟩ : ∃ early b, text = early++[b] := ⟨_,_,(List.dropLast_concat_getLast more).symm⟩
  rw [List.length_append,List.length_singleton] at whole
  obtain ⟨after,quiet⟩ := window_inner opens size some early (by omega)
  have last : window opens size (pending++early) b = ([],Option.some (pending++(early++[b]))) := by
    have grow : grown opens (pending++early) b = pending++(early++[b]) := by
      rw [← List.append_assoc]
      exact if_pos (.inr (List.append_ne_nil_of_left_ne_nil some early))
    unfold window
    rw [grow,if_pos (by simp only [List.length_append,List.length_singleton]; omega)]
  rw [drive_append,emitted_append,after,quiet,drive_cons,emitted_cons,last]
  exact ⟨rfl,rfl⟩

theorem window_open (opening : opens b = true) (long : 1 < size) : window opens size [] b = ([b],none) := by
  have grow : grown opens [] b = [b] := if_pos (.inl opening)
  unfold window
  rw [grow,if_neg (by rw [List.length_singleton]; omega)]

theorem window_idle (text : List α) (short : text.length < size) :
    drive (window opens size) [] text = text.dropWhile (fun b => !opens b) ∧
      emitted (window opens size) [] text = [] := by
  induction text with
  | nil => exact ⟨rfl,rfl⟩
  | cons b rest ih =>
    rw [List.length_cons] at short
    rw [drive_cons,emitted_cons]
    by_cases opening : opens b = true
    · obtain ⟨after,quiet⟩ := window_inner opens size (List.cons_ne_nil b []) rest
        (by rw [List.length_singleton]; omega)
      rw [window_open opens size opening (by omega),after,quiet,List.dropWhile_cons_of_neg (by simp [opening])]
      exact ⟨rfl,rfl⟩
    · have grow : grown opens [] b = [] := if_neg (by simp [opening])
      have skipped : window opens size [] b = ([],none) := by
        unfold window
        rw [grow,if_neg (by rw [List.length_nil]; omega)]
      obtain ⟨after,quiet⟩ := ih (by omega)
      rw [skipped,after,quiet,List.dropWhile_cons_of_pos (by simp [opening])]
      exact ⟨rfl,rfl⟩

-- A frame completes one window, which begins with what was pending, and leaves
-- pending what its last bytes open.
theorem window_frame {pending : List α} (short : pending.length < size) (long : 1 < size) (first : α) (rest : List α)
    (opening : opens first = true) (sized : (first::rest).length = size) :
    emitted (window opens size) pending (first::rest) = [pending++(first::rest).take (size-pending.length)] ∧
      drive (window opens size) pending (first::rest) =
        ((first::rest).drop (size-pending.length)).dropWhile (fun b => !opens b) := by
  cases pending with
  | nil =>
    rw [List.length_cons] at sized
    have more : rest ≠ [] := by
      rintro rfl
      rw [List.length_nil] at sized
      omega
    obtain ⟨after,window⟩ := window_complete opens size (List.cons_ne_nil first []) rest more
      (by rw [List.length_singleton]; omega)
    rw [drive_cons,emitted_cons,window_open opens size opening long,after,window,List.length_nil,Nat.sub_zero,
      ← sized,List.take_of_length_le (by simp),List.drop_of_length_le (by simp)]
    exact ⟨rfl,rfl⟩
  | cons b taken =>
    have cut : first::rest = (first::rest).take (size-(b::taken).length)++(first::rest).drop (size-(b::taken).length) :=
      (List.take_append_drop _ _).symm
    have length : ((first::rest).take (size-(b::taken).length)).length = size-(b::taken).length :=
      List.length_take_of_le (by omega)
    have left : ((first::rest).drop (size-(b::taken).length)).length < size := by
      have some : 0 < (b::taken).length := Nat.zero_lt_succ _
      rw [List.length_drop,sized]
      omega
    obtain ⟨after,window⟩ := window_complete opens size (List.cons_ne_nil b taken)
      ((first::rest).take (size-(b::taken).length))
      (List.ne_nil_of_length_pos (by rw [length]; omega)) (by rw [length]; omega)
    obtain ⟨last,quiet⟩ := window_idle opens size _ left
    refine ⟨?_,?_⟩
    · conv_lhs => rw [cut,emitted_append,after,window,quiet,List.append_nil]
    · conv_lhs => rw [cut,drive_append,after,last]

end Frames
end Framing
