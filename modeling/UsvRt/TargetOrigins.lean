import UsvRt.RadarFrames

-- Where the bytes of a target update come from: a ghost notes, for each cell of
-- gps_buffer, which byte of the stream was stored there last.
namespace UsvRt.TargetOrigins
open Runs Framing RadarParser RadarFrames

structure Origins where
  seen : List UInt8
  arrivals : List (Option Nat)
  last : Nat
  deriving DecidableEq

namespace Origins

def boot : Origins := ⟨[],List.replicate 128 none,0⟩

def stored (o : Origins) (p : RadarParser) (b : UInt8) : List (Option Nat) :=
  if (b = 170 ∧ p.preRHex = 170) ∨ p.gpsIndex ≠ 0 then o.arrivals.set p.gpsIndex (some o.seen.length)
  else o.arrivals

-- `last` counts the bytes received when the latest update was made.
def observe (o : Origins) (p : RadarParser) (b : UInt8) : Origins :=
  {seen:=o.seen++[b]
   arrivals:=o.stored p b
   last:=if (p.receive b).2 = none then o.last else o.seen.length+1}

end Origins

def traced : RadarParser × Origins → UInt8 → RadarParser × Origins :=
  observed (fun p b => (p.receive b).1) Origins.observe

def start : RadarParser × Origins := (.boot,.boot)

def header : List UInt8 := [170,170,12,7]

-- An update made by this byte ends an open frame, whose header stands at place
-- `h` of the stream, after the latest update, and uses the bytes that followed it.
def Caused (s : RadarParser × Origins) (b : UInt8) : Prop :=
  (s.1.receive b).2 ≠ none → s.1.gpsIndex ≠ 0 ∧ ∃ h, s.2.last ≤ h ∧ ((s.2.seen++[b]).drop h).take 4 = header ∧
    (∀ cell ∈ [3,5,6,7], (s.2.stored s.1 b).getD cell none = some (h+1+cell)) ∧
    (s.1.receive b).2 = some (reading fun cell => (s.2.seen++[b]).getD (h+1+cell) 0)

-- No end is met while cells 1 and 2 hold the ids of a target and fewer than seven
-- cells have been filled since the index was last zero.
def Complete (s : RadarParser × Origins) (b : UInt8) : Prop :=
  s.1.Closes b → s.1.gpsBuffer.getD 1 0 = 12 → s.1.gpsBuffer.getD 2 0 = 7 → 7 ≤ s.1.gpsIndex

instance (s : RadarParser × Origins) (b : UInt8) : Decidable (Complete s b) :=
  inferInstanceAs (Decidable (_ → _ → _ → _))

-- The cells below the index hold what followed the first byte of the header, the
-- others what came before it.
structure Held (earlier seen : List UInt8) (arrivals : List (Option Nat)) (buffer : List UInt8) (index : Nat) : Prop where
  split : seen = earlier++170::buffer.take index
  first : 0 < index → buffer.getD 0 0 = 170
  own : ∀ cell < index, arrivals.getD cell none = some (earlier.length+1+cell)
  stale : ∀ cell ≥ index, ∀ place ∈ arrivals.getD cell none, place < earlier.length+1

structure Traced (s : RadarParser × Origins) : Prop where
  size : s.1.gpsBuffer.length = 128
  marks : s.2.arrivals.length = 128
  room : s.1.gpsIndex ≤ 13
  pre : s.1.preRHex = s.2.seen.getLastD 0
  past : s.2.last ≤ s.2.seen.length
  fresh : s.1.preRHex = 170 → s.2.last < s.2.seen.length
  received : ∀ cell, ∀ place ∈ s.2.arrivals.getD cell none, place < s.2.seen.length
  opened : s.1.gpsIndex ≠ 0 → ∃ earlier, s.2.last ≤ earlier.length ∧
    Held earlier s.2.seen s.2.arrivals s.1.gpsBuffer s.1.gpsIndex

theorem held_length (held : Held earlier seen arrivals buffer index) (inside : index ≤ buffer.length) :
    seen.length = earlier.length+1+index := by
  rw [held.split,List.length_append,List.length_cons,List.length_take_of_le inside]
  omega

theorem held_append (held : Held earlier seen arrivals buffer index) (inside : index < buffer.length)
    (marks : index < arrivals.length) (b : UInt8) (opens : index = 0 → b = 170) :
    Held earlier (seen++[b]) (arrivals.set index (some seen.length)) (buffer.set index b) (index+1) := by
  have length := held_length held (Nat.le_of_lt inside)
  refine ⟨?_,?_,?_,?_⟩
  · rw [pending_append buffer b inside,held.split,List.append_assoc,List.cons_append]
  · intro _
    rw [cell_set buffer b 0 inside]
    by_cases zero : index = 0
    · rw [if_pos zero.symm,opens zero]
    · rw [if_neg (Ne.symm zero)]
      exact held.first (Nat.pos_of_ne_zero zero)
  · intro cell below
    rw [cell_set arrivals _ none marks]
    by_cases same : cell = index
    · rw [if_pos same,length,same]
    · rw [if_neg same]
      exact held.own cell (by omega)
  · intro cell above place member
    rw [cell_set arrivals _ none marks,if_neg (by omega)] at member
    exact held.stale cell (by omega) place member

theorem blank (count cell : Nat) : (List.replicate count (none : Option Nat)).getD cell none = none := by
  simp only [List.getD,List.getElem?_replicate]
  split <;> rfl

theorem start_traced : Traced start := by
  refine ⟨List.length_replicate,List.length_replicate,Nat.zero_le _,rfl,Nat.le_refl _,?_,?_,?_⟩
  · intro pending
    exact absurd pending (by decide)
  · intro cell place member
    change place ∈ (List.replicate 128 none).getD cell none at member
    rw [blank] at member
    cases member
  · intro opened
    exact absurd rfl opened

def Stores (p : RadarParser) (b : UInt8) : Prop := (b = 170 ∧ p.preRHex = 170) ∨ p.gpsIndex ≠ 0

theorem store_stores (stores : Stores p b) : p.store b = p.append b := by
  unfold store
  by_cases second : b = 170 ∧ p.preRHex = 170
  · rw [if_pos second]
  · rw [if_neg second,if_pos (stores.resolve_left second)]

theorem store_skips (skips : ¬ Stores p b) : p.store b = p ∧ p.gpsIndex = 0 := by
  rw [Stores,not_or,not_not] at skips
  exact ⟨store_idle p b skips.2 skips.1,skips.2⟩

theorem receive_update (p : RadarParser) (b : UInt8) :
    (p.receive b).2 = if p.Closes b then decode (p.store b).gpsBuffer else none := by
  unfold receive
  by_cases closing : p.Closes b
  · rw [if_pos closing,if_pos closing]
  · rw [if_neg closing,if_neg closing]

theorem receive_state (p : RadarParser) (b : UInt8) : (p.receive b).1 =
    ⟨b,if p.Closes b ∨ (p.store b).gpsIndex > 13 then 0 else (p.store b).gpsIndex,(p.store b).gpsBuffer⟩ := by
  unfold receive limit
  by_cases closing : p.Closes b
  · rw [if_pos closing,if_pos (.inl closing)]
  · rw [if_neg closing]
    by_cases full : (p.store b).gpsIndex > 13
    · simp only [if_pos full,if_pos (Or.inr full)]
    · rw [if_neg full,if_neg (not_or.mpr ⟨closing,full⟩)]

-- A stored byte extends the frame that is open, or opens one.
theorem stored_held (inside : Traced s) (stores : Stores s.1 b) :
    ∃ earlier, s.2.last ≤ earlier.length ∧
      Held earlier (s.2.seen++[b]) (s.2.stored s.1 b) (s.1.store b).gpsBuffer (s.1.store b).gpsIndex := by
  have room := inside.room
  have size := inside.size
  have marks := inside.marks
  have noted : s.2.stored s.1 b = s.2.arrivals.set s.1.gpsIndex (some s.2.seen.length) := if_pos stores
  rw [noted,store_stores stores]
  by_cases closed : s.1.gpsIndex = 0
  · obtain ⟨opens,before⟩ := stores.resolve_right (not_not.mpr closed)
    have fresh := inside.fresh before
    obtain ⟨earlier,last,shape⟩ : ∃ earlier last, s.2.seen = earlier++[last] := by
      have filled : s.2.seen ≠ [] := by
        intro none
        rw [none] at fresh
        exact absurd fresh (Nat.not_lt_zero _)
      exact ⟨_,_,(List.dropLast_concat_getLast filled).symm⟩
    have pre := inside.pre
    rw [shape,List.getLastD_concat,before] at pre
    subst pre
    rw [shape,List.length_append,List.length_singleton] at fresh
    have held : Held earlier s.2.seen s.2.arrivals s.1.gpsBuffer s.1.gpsIndex := by
      rw [closed]
      refine ⟨shape,fun more => absurd more (Nat.lt_irrefl 0),fun cell below => absurd below (Nat.not_lt_zero _),?_⟩
      intro cell _ place member
      have received := inside.received cell place member
      rwa [shape,List.length_append,List.length_singleton] at received
    exact ⟨earlier,by omega,held_append held (by omega) (by omega) b fun _ => opens⟩
  · obtain ⟨earlier,last,held⟩ := inside.opened closed
    exact ⟨earlier,last,held_append held (by omega) (by omega) b fun zero => absurd zero closed⟩

theorem stored_received (inside : Traced s) (b : UInt8) :
    ∀ cell, ∀ place ∈ (s.2.stored s.1 b).getD cell none, place < s.2.seen.length+1 := by
  intro cell place member
  unfold Origins.stored at member
  split at member
  · rw [cell_set s.2.arrivals _ none (by have := inside.room; have := inside.marks; omega)] at member
    split at member
    · have same : s.2.seen.length = place := Option.some.inj member
      omega
    · have before := inside.received cell place member
      omega
  · have before := inside.received cell place member
    omega

theorem still_open (inside : Traced s) (b : UInt8) (opened : (traced s b).1.gpsIndex ≠ 0) :
    ∃ earlier, (traced s b).2.last ≤ earlier.length ∧
      Held earlier (traced s b).2.seen (traced s b).2.arrivals (traced s b).1.gpsBuffer (traced s b).1.gpsIndex := by
  have state : (traced s b).1 = _ := receive_state s.1 b
  rw [state] at opened ⊢
  dsimp only at opened ⊢
  by_cases ended : s.1.Closes b ∨ (s.1.store b).gpsIndex > 13
  · rw [if_pos ended] at opened
    exact absurd rfl opened
  · rw [if_neg ended] at opened ⊢
    rw [not_or] at ended
    have stores : Stores s.1 b := by
      by_contra skips
      obtain ⟨same,zero⟩ := store_skips skips
      rw [same] at opened
      exact opened zero
    obtain ⟨earlier,last,held⟩ := stored_held inside stores
    have same : (traced s b).2.last = s.2.last := if_pos ((receive_update s.1 b).trans (if_neg ended.1))
    exact ⟨earlier,same ▸ last,held⟩

theorem traced_step (s : RadarParser × Origins) (b : UInt8) (inside : Traced s) : Traced (traced s b) := by
  have past := inside.past
  have size : (s.1.store b).gpsBuffer.length = 128 := by
    by_cases stores : Stores s.1 b
    · rw [store_stores stores]
      exact List.length_set.trans inside.size
    · rw [(store_skips stores).1]
      exact inside.size
  have marks : (s.2.stored s.1 b).length = 128 := by
    unfold Origins.stored
    split
    · exact List.length_set.trans inside.marks
    · exact inside.marks
  have seen : (traced s b).2.seen = s.2.seen++[b] := rfl
  have quiet : b ≠ 85 → (traced s b).2.last = s.2.last := by
    intro inner
    exact if_pos ((receive_update s.1 b).trans (if_neg fun closing => inner closing.1))
  have state : (traced s b).1 = _ := receive_state s.1 b
  refine ⟨?_,marks,?_,?_,?_,?_,?_,still_open inside b⟩
  · rw [state]
    exact size
  · rw [state]
    dsimp only
    split <;> omega
  · rw [state,seen,List.getLastD_concat]
  · rw [seen,List.length_append,List.length_singleton]
    change (if (s.1.receive b).2 = none then s.2.last else s.2.seen.length+1) ≤ _
    split <;> omega
  · intro again
    rw [state] at again
    have again : b = 170 := again
    rw [quiet (by rw [again]; decide),seen,List.length_append,List.length_singleton]
    omega
  · intro cell place member
    rw [seen,List.length_append,List.length_singleton]
    exact stored_received inside b cell place member

theorem last_cell (inside : Traced s) (opened : s.1.gpsIndex ≠ 0) :
    s.1.preRHex = s.1.gpsBuffer.getD (s.1.gpsIndex-1) 0 := by
  obtain ⟨earlier,_,held⟩ := inside.opened opened
  have size := inside.size
  have room := inside.room
  obtain ⟨index,next⟩ : ∃ index, s.1.gpsIndex = index+1 := ⟨s.1.gpsIndex-1,by omega⟩
  have within : index < s.1.gpsBuffer.length := by omega
  have split := held.split
  rw [next,List.take_succ_eq_append_getElem within,← List.cons_append,← List.append_assoc] at split
  rw [inside.pre,split,List.getLastD_concat,next,Nat.add_sub_cancel,List.getElem_eq_getD 0]

theorem decode_ids (buffer : List UInt8) : decode buffer ≠ none ↔ buffer.getD 1 0 = 12 ∧ buffer.getD 2 0 = 7 := by
  rw [decode_some,← UInt8.toNat_inj,← UInt8.toNat_inj]
  rfl

theorem closing_late (inside : Traced s) (closing : s.1.Closes b) (opened : s.1.gpsIndex ≠ 0) :
    3 ≤ s.1.gpsIndex ∨ (s.1.gpsIndex = 2 ∧ s.1.gpsBuffer.getD 1 0 = 85) := by
  have before := last_cell inside opened
  rw [closing.2] at before
  rcases (by omega : s.1.gpsIndex = 1 ∨ s.1.gpsIndex = 2 ∨ 3 ≤ s.1.gpsIndex) with one | two | later
  · obtain ⟨_,_,held⟩ := inside.opened opened
    rw [one,Nat.sub_self,held.first (by omega)] at before
    exact absurd before (by decide)
  · rw [two] at before
    exact .inr ⟨two,before.symm⟩
  · exact .inl later

-- Two marks make cells 1 and 2 no target's ids, so the ids that an end finds were
-- there before its last byte.
theorem ending_update (inside : Traced s) (closing : s.1.Closes b) :
    (s.1.receive b).2 ≠ none ↔ s.1.gpsBuffer.getD 1 0 = 12 ∧ s.1.gpsBuffer.getD 2 0 = 7 := by
  rw [receive_update,if_pos closing,decode_ids]
  by_cases opened : s.1.gpsIndex = 0
  · have skips : ¬ Stores s.1 b := by
      rintro (opens | more)
      · exact absurd (closing.1.symm.trans opens.1) (by decide)
      · exact more opened
    rw [(store_skips skips).1]
  · have within : s.1.gpsIndex < s.1.gpsBuffer.length := by
      have size := inside.size
      have room := inside.room
      omega
    have cell : ∀ key, (s.1.store b).gpsBuffer.getD key 0 =
        if key = s.1.gpsIndex then b else s.1.gpsBuffer.getD key 0 := by
      intro key
      rw [store_stores (.inr opened)]
      exact cell_set s.1.gpsBuffer b 0 within
    rw [cell 1,cell 2]
    rcases closing_late inside closing opened with later | ⟨two,mark⟩
    · rw [if_neg (by omega),if_neg (by omega)]
    · rw [if_neg (by omega),mark]
      exact iff_of_false (fun ids => absurd ids.1 (by decide)) (fun ids => absurd ids.1 (by decide))

theorem held_value (held : Held earlier seen arrivals buffer index) (below : cell < index) :
    seen.getD (earlier.length+1+cell) 0 = buffer.getD cell 0 := by
  have shift : earlier.length+1+cell-earlier.length = cell+1 := by omega
  rw [held.split]
  simp only [List.getD]
  rw [List.getElem?_append_right (by omega),shift,List.getElem?_cons_succ,List.getElem?_take_of_lt below]

theorem header_held (held : Held earlier seen arrivals buffer index) (size : buffer.length = 128) (long : 3 ≤ index)
    (first : buffer.getD 1 0 = 12) (second : buffer.getD 2 0 = 7) : (seen.drop earlier.length).take 4 = header := by
  have zero := held.first (by omega)
  match buffer,size with
  | a::b::c::rest,_ =>
    simp only [List.getD_cons_succ,List.getD_cons_zero] at zero first second
    obtain ⟨more,rfl⟩ : ∃ more, index = more+3 := ⟨index-3,by omega⟩
    rw [held.split,List.drop_left,zero,first,second]
    rfl

theorem open_index (p : RadarParser) (b : UInt8) (opened : p.gpsIndex ≠ 0) : (p.store b).gpsIndex = p.gpsIndex+1 := by
  rw [store_stores (.inr opened)]
  rfl

-- A cell that an update uses and that was not filled again is older than its header.
theorem caused_complete (inside : Traced s) (caused : Caused s b) : Complete s b := by
  intro closing first second
  by_contra early
  obtain ⟨opened,place,_,_,uses,_⟩ := caused ((ending_update inside closing).mpr ⟨first,second⟩)
  obtain ⟨earlier,_,held⟩ := stored_held inside (.inr opened)
  rw [open_index s.1 b opened] at held
  have late : 3 ≤ s.1.gpsIndex := by
    rcases closing_late inside closing opened with later | ⟨_,mark⟩
    · exact later
    · exact absurd (mark.symm.trans first) (by decide)
  have id := uses 3 (by decide)
  rw [held.own 3 (by omega),Option.some.injEq] at id
  have angle := held.stale 7 (by omega) (place+1+7) (uses 7 (by decide))
  omega

theorem complete_caused (inside : Traced s) (complete : Complete s b) : Caused s b := by
  intro update
  have closing : s.1.Closes b := by
    by_contra inner
    exact update ((receive_update s.1 b).trans (if_neg inner))
  obtain ⟨first,second⟩ := (ending_update inside closing).mp update
  have enough := complete closing first second
  have opened : s.1.gpsIndex ≠ 0 := by omega
  obtain ⟨earlier,past,held⟩ := stored_held inside (.inr opened)
  rw [open_index s.1 b opened] at held
  rw [receive_update,if_pos closing] at update ⊢
  have size : (s.1.store b).gpsBuffer.length = 128 := by
    rw [store_stores (.inr opened)]
    exact List.length_set.trans inside.size
  have ids := (decode_ids _).mp update
  refine ⟨opened,earlier.length,past,header_held held size (by omega) ids.1 ids.2,?_,?_⟩
  · intro cell member
    simp only [List.mem_cons,List.not_mem_nil,or_false] at member
    exact held.own cell (by omega)
  · rw [decode_reading _ update,Option.some.injEq,reading_exact]
    intro cell member
    simp only [List.mem_cons,List.not_mem_nil,or_false] at member
    exact (held_value held (by omega)).symm

theorem caused_exact (s : RadarParser × Origins) (b : UInt8) (inside : Traced s) : Caused s b ↔ Complete s b :=
  ⟨caused_complete inside,complete_caused inside⟩

theorem no_phantoms_exact (bytes : List UInt8) :
    Along traced Caused start bytes ↔ Along traced Complete start bytes := by
  have every : ∀ s b, Traced s → True → Traced (traced s b) := fun s b inside _ => traced_step s b inside
  have same : ∀ s b, Traced s → True → (Caused s b ↔ Complete s b) := fun s b inside _ => caused_exact s b inside
  exact Along.congr (invariant_along every same start_traced (along_every traced fun _ _ => trivial))

-- A target frame and one more trailer byte: the second end reuses its cells.
def extended : List UInt8 := RadarFrames.near.bytes++[85]

theorem trailer_repeats : ¬ Along traced Caused start extended := by
  intro path
  obtain ⟨_,last,_⟩ := (along_append traced Caused).mp path
  have opened := (last (by decide)).1
  revert opened
  decide

end UsvRt.TargetOrigins
