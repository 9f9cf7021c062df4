import UsvRt.Radar

-- Which sequences of radar frames the receiver decodes as they were sent.
namespace UsvRt.RadarFrames
open Runs Framing RadarParser

structure RadarFrame where
  id1 : UInt8
  id2 : UInt8
  data : List UInt8
  sized : data.length = 8

namespace RadarFrame

def body (f : RadarFrame) : List UInt8 := f.id1::f.id2::f.data++[85,85]
def bytes (f : RadarFrame) : List UInt8 := 170::170::f.body

def target (f : RadarFrame) : Option Target :=
  let d := fun key => (f.data.getD key 0).toNat
  if f.id1 = 12 ∧ f.id2 = 7 then some ⟨d 0,d 2*256+d 3,d 4⟩ else none

-- The body cut after every 55 55 the receiver takes for an end. A frame is open
-- in the first piece only, unless a later one opens another.
def pieces (f : RadarFrame) : List (List UInt8) := segments 85 170 f.body

end RadarFrame

def targetIds : List UInt8 := [12,7]

-- What must hold of a frame and of the cells left by the frames before it: an end
-- before the last byte comes late enough for the cells it reads, or finds them
-- equal; another frame then opens before the next end; none that opens is a target.
structure Readable (buffer : List UInt8) (f : RadarFrame) : Prop where
  held : f.target ≠ none → ∀ cell ∈ [3,5,6,7],
    (f.pieces.headD []).length < cell → buffer.getD cell 0 = f.body.getD (cell-1) 0
  replaced : f.target ≠ none → ∀ piece ∈ f.pieces.tail.head?, beyond 170 85 piece ≠ none
  foreign : ∀ piece ∈ f.pieces.tail, ∀ opened ∈ beyond 170 85 piece, opened.take 2 ≠ targetIds

instance (buffer : List UInt8) (f : RadarFrame) : Decidable (Readable buffer f) :=
  decidable_of_iff
    ((f.target ≠ none → ∀ cell ∈ [3,5,6,7],
        (f.pieces.headD []).length < cell → buffer.getD cell 0 = f.body.getD (cell-1) 0) ∧
      (f.target ≠ none → ∀ piece ∈ f.pieces.tail.head?, beyond 170 85 piece ≠ none) ∧
      (∀ piece ∈ f.pieces.tail, ∀ opened ∈ beyond 170 85 piece, opened.take 2 ≠ targetIds))
    ⟨fun ⟨held,replaced,foreign⟩ => ⟨held,replaced,foreign⟩,
      fun readable => ⟨readable.held,readable.replaced,readable.foreign⟩⟩

def feed (p : RadarParser) (f : RadarFrame) : RadarParser := drive receive p f.bytes
def updates (p : RadarParser) (frames : List RadarFrame) : List Target :=
  emitted receive p (frames.flatMap RadarFrame.bytes)

structure Idle (p : RadarParser) : Prop where
  size : p.gpsBuffer.length = 128
  closed : p.gpsIndex = 0
  apart : p.preRHex ≠ 170

theorem boot_idle : Idle .boot := ⟨List.length_replicate,rfl,by decide⟩

theorem store_open (p : RadarParser) (b : UInt8) (opened : p.gpsIndex ≠ 0) : p.store b = p.append b := by
  unfold store
  by_cases second : b = 170 ∧ p.preRHex = 170
  · rw [if_pos second]
  · rw [if_neg second,if_pos opened]

theorem store_idle (p : RadarParser) (b : UInt8) (closed : p.gpsIndex = 0) (inner : ¬ (b = 170 ∧ p.preRHex = 170)) :
    p.store b = p := by
  unfold store
  rw [if_neg inner,if_neg (not_not.mpr closed)]

theorem limit_small (p : RadarParser) (small : p.gpsIndex ≤ 13) : p.limit = p := by
  unfold limit
  rw [if_neg (by omega)]

-- An open frame takes in all of a piece, and decodes at its end.
theorem open_piece (p : RadarParser) (piece : List UInt8) (opened : p.gpsIndex ≠ 0)
    (room : p.gpsIndex+piece.length ≤ 13) (ends : Ends 85 p.preRHex piece) :
    drive receive p piece = ⟨85,0,write p.gpsBuffer p.gpsIndex piece⟩ ∧
      emitted receive p piece = (decode (write p.gpsBuffer p.gpsIndex piece)).toList := by
  induction piece generalizing p with
  | nil => exact absurd ends id
  | cons b rest ih =>
    rw [List.length_cons] at room
    by_cases closing : p.Closes b
    · obtain rfl := ends_pair ends closing
      have received : p.receive b = (⟨85,0,p.gpsBuffer.set p.gpsIndex b⟩,decode (p.gpsBuffer.set p.gpsIndex b)) := by
        unfold receive
        rw [if_pos closing,store_open p b opened,closing.1]
        rfl
      rw [drive_cons,emitted_cons,received]
      exact ⟨rfl,List.append_nil _⟩
    · have later := ends_inner ends closing
      have received : p.receive b = (⟨b,p.gpsIndex+1,p.gpsBuffer.set p.gpsIndex b⟩,none) := by
        unfold receive
        rw [if_neg closing,store_open p b opened,limit_small _ (by simp only [append]; omega)]
        rfl
      obtain ⟨after,decoded⟩ := ih ⟨b,p.gpsIndex+1,p.gpsBuffer.set p.gpsIndex b⟩ (Nat.succ_ne_zero _)
        (by dsimp only; omega) later
      rw [drive_cons,emitted_cons,received]
      exact ⟨after,decoded⟩

-- The cells once a piece that began outside any frame has ended.
def cells (pre : UInt8) (buffer piece : List UInt8) : List UInt8 :=
  match beyond 170 pre piece with
  | none => buffer
  | some opened => write (buffer.set 0 170) 1 opened

theorem idle_piece (p : RadarParser) (piece : List UInt8) (closed : p.gpsIndex = 0) (short : piece.length ≤ 12)
    (ends : Ends 85 p.preRHex piece) :
    drive receive p piece = ⟨85,0,cells p.preRHex p.gpsBuffer piece⟩ ∧
      emitted receive p piece = (decode (cells p.preRHex p.gpsBuffer piece)).toList := by
  unfold cells
  induction piece generalizing p with
  | nil => exact absurd ends id
  | cons b rest ih =>
    rw [List.length_cons] at short
    by_cases opening : b = 170 ∧ p.preRHex = 170
    · have inner : ¬ p.Closes b := fun closing => absurd (opening.1.symm.trans closing.1) (by decide)
      have received : p.receive b = (⟨b,1,p.gpsBuffer.set 0 b⟩,none) := by
        unfold receive store
        rw [if_neg inner,if_pos opening,limit_small _ (by simp only [append]; omega)]
        simp only [append,closed]
      obtain ⟨after,decoded⟩ := open_piece ⟨b,1,p.gpsBuffer.set 0 b⟩ rest (by simp) (by dsimp only; omega)
        (ends_inner ends inner)
      rw [beyond,if_pos opening,drive_cons,emitted_cons,received]
      rw [opening.1] at after decoded ⊢
      exact ⟨after,decoded⟩
    · have stored := store_idle p b closed opening
      rw [beyond,if_neg opening]
      by_cases closing : p.Closes b
      · obtain rfl := ends_pair ends closing
        have received : p.receive b = (⟨85,0,p.gpsBuffer⟩,decode p.gpsBuffer) := by
          unfold receive
          rw [if_pos closing,stored,closing.1]
        rw [drive_cons,emitted_cons,received]
        exact ⟨rfl,List.append_nil _⟩
      · have received : p.receive b = (⟨b,0,p.gpsBuffer⟩,none) := by
          unfold receive
          rw [if_neg closing,stored,limit_small p (by omega)]
          dsimp only
          rw [closed]
        rw [drive_cons,emitted_cons,received]
        exact ih ⟨b,0,p.gpsBuffer⟩ rfl (by omega) (ends_inner ends closing)

theorem opened_cell (buffer piece : List UInt8) (size : buffer.length = 128) (short : piece.length ≤ 12)
    (positive : 0 < cell) :
    (write (buffer.set 0 170) 1 piece).getD cell 0 =
      if cell ≤ piece.length then piece.getD (cell-1) 0 else buffer.getD cell 0 := by
  rw [write_cell _ _ _ _ (by rw [List.length_set]; omega),cell_set buffer 170 0 (by omega),if_neg (by omega : ¬ cell = 0)]
  by_cases inside : cell ≤ piece.length
  · rw [if_pos inside,if_pos (by omega)]
  · rw [if_neg inside,if_neg (by omega)]

theorem target_ids (piece : List UInt8) (long : 2 ≤ piece.length) :
    piece.take 2 = targetIds ↔ (piece.getD 0 0).toNat = 12 ∧ (piece.getD 1 0).toNat = 7 := by
  obtain ⟨b,c,rest,rfl⟩ : ∃ b c rest, piece = b::c::rest := by
    match piece,long with
    | b::c::rest,_ => exact ⟨b,c,rest,rfl⟩
  have first : b = 12 ↔ b.toNat = 12 := UInt8.toNat_inj.symm
  have second : c = 7 ↔ c.toNat = 7 := UInt8.toNat_inj.symm
  simp [targetIds,first,second]

theorem decode_some (buffer : List UInt8) :
    decode buffer ≠ none ↔ (buffer.getD 1 0).toNat = 12 ∧ (buffer.getD 2 0).toNat = 7 := by
  simp [decode]

theorem decode_opened (buffer piece : List UInt8) (size : buffer.length = 128) (short : piece.length ≤ 12)
    (long : 2 ≤ piece.length) :
    decode (write (buffer.set 0 170) 1 piece) ≠ none ↔ piece.take 2 = targetIds := by
  have one := opened_cell buffer piece size short (Nat.zero_lt_one)
  have two := opened_cell buffer piece size short (Nat.zero_lt_two)
  rw [if_pos (by omega)] at one two
  rw [target_ids piece long,decode_some,one,two]

-- Nothing is decoded from the pieces after an end exactly when the cells it read
-- are replaced before the next one, and never by a target's.
def Silent (buffer : List UInt8) (pieces : List (List UInt8)) : Prop :=
  (decode buffer ≠ none → ∀ piece ∈ pieces.head?, beyond 170 85 piece ≠ none) ∧
    ∀ piece ∈ pieces, ∀ opened ∈ beyond 170 85 piece, opened.take 2 ≠ targetIds

theorem cells_silent (buffer piece : List UInt8) (size : buffer.length = 128) (short : piece.length ≤ 12)
    (ends : Ends 85 85 piece) :
    decode (cells 85 buffer piece) = none ↔
      (decode buffer ≠ none → beyond 170 85 piece ≠ none) ∧
        ∀ opened ∈ beyond 170 85 piece, opened.take 2 ≠ targetIds := by
  unfold cells
  cases found : beyond 170 85 piece with
  | none => simp
  | some opened =>
    obtain ⟨last,shorter⟩ := beyond_ends (by decide) ends found
    have ids := decode_opened buffer opened size (by omega) (ends_length (by decide) last)
    simp [← ids]

theorem cells_length (pre : UInt8) (buffer piece : List UInt8) : (cells pre buffer piece).length = buffer.length := by
  unfold cells
  split
  · rfl
  · rw [write_length,List.length_set]

theorem silent_pieces (pieces : List (List UInt8)) (chain : Chain 85 85 pieces)
    (short : ∀ piece ∈ pieces, piece.length ≤ 12) (buffer : List UInt8) (size : buffer.length = 128) :
    Idle (drive receive ⟨85,0,buffer⟩ pieces.flatten) ∧
      (emitted receive ⟨85,0,buffer⟩ pieces.flatten = [] ↔ Silent buffer pieces) := by
  induction pieces generalizing buffer with
  | nil => exact ⟨⟨size,rfl,(by decide : (85 : UInt8) ≠ 170)⟩,by simp [Silent]⟩
  | cons piece more ih =>
    cases chain with
    | cons ends later =>
      obtain ⟨after,decoded⟩ := idle_piece ⟨85,0,buffer⟩ piece rfl (short piece List.mem_cons_self) ends
      obtain ⟨idle,quiet⟩ := ih later (fun other member => short other (List.mem_cons_of_mem _ member))
        (cells 85 buffer piece) ((cells_length 85 buffer piece).trans size)
      have silent := cells_silent buffer piece size (short piece List.mem_cons_self) ends
      rw [List.flatten_cons,drive_append,emitted_append,after,decoded]
      refine ⟨idle,?_⟩
      rw [List.append_eq_nil_iff,quiet,Option.toList_eq_nil_iff]
      constructor
      · rintro ⟨none,_,foreign⟩
        obtain ⟨replaced,own⟩ := silent.mp none
        refine ⟨fun some => by simpa using replaced some,?_⟩
        intro other member
        rcases List.mem_cons.mp member with rfl | member
        · exact own
        · exact foreign other member
      · rintro ⟨replaced,foreign⟩
        have none := silent.mpr ⟨fun some => replaced some piece rfl,foreign piece List.mem_cons_self⟩
        exact ⟨none,fun some => absurd none some,fun other member => foreign other (List.mem_cons_of_mem _ member)⟩

-- The cells a target is read from.
def reading (cell : Nat → UInt8) : Target :=
  ⟨(cell 3).toNat,(cell 5).toNat*256+(cell 6).toNat,(cell 7).toNat⟩

theorem reading_exact (first second : Nat → UInt8) :
    reading first = reading second ↔ ∀ cell ∈ [3,5,6,7], first cell = second cell := by
  have low := (first 6).toNat_lt
  have other := (second 6).toNat_lt
  simp only [reading,Target.mk.injEq,List.forall_mem_cons,← UInt8.toNat_inj]
  constructor
  · rintro ⟨id,distance,angle⟩
    exact ⟨id,by omega,by omega,angle,by simp⟩
  · rintro ⟨id,high,low,angle,_⟩
    exact ⟨id,by omega,angle⟩

theorem decode_reading (buffer : List UInt8) (some : decode buffer ≠ none) :
    decode buffer = Option.some (reading fun cell => buffer.getD cell 0) :=
  if_pos ((decode_some buffer).mp some)

theorem target_reading (f : RadarFrame) (some : f.target ≠ none) :
    f.target = Option.some (reading fun cell => f.body.getD (cell-1) 0) := by
  have inside : ∀ key < 8, (f.data++[85,85]).getD key 0 = f.data.getD key 0 := by
    intro key small
    exact List.getD_append _ _ _ _ (f.sized ▸ small)
  unfold RadarFrame.target at some ⊢
  dsimp only at some ⊢
  split
  · simp only [reading,RadarFrame.body,List.cons_append,Nat.reduceSub,List.getD_cons_succ,inside 0 (by decide),
      inside 2 (by decide),inside 3 (by decide),inside 4 (by decide)]
  · rename_i other
    rw [if_neg other] at some
    exact absurd rfl some

theorem header_opens (p : RadarParser) (idle : Idle p) :
    drive receive p [170,170] = ⟨170,1,p.gpsBuffer.set 0 170⟩ ∧ emitted receive p [170,170] = [] := by
  have stored := store_idle p 170 idle.closed fun opening => idle.apart opening.2
  have first : p.receive 170 = (⟨170,0,p.gpsBuffer⟩,none) := by
    unfold receive
    rw [if_neg (fun closing => absurd closing.1 (by decide)),stored,limit_small p (by rw [idle.closed]; decide)]
    dsimp only
    rw [idle.closed]
  rw [drive_cons,emitted_cons,first]
  exact ⟨rfl,rfl⟩

-- The first piece begins with the ids, and the pieces make up the body.
structure Cut (f : RadarFrame) (first : List UInt8) (more : List (List UInt8)) : Prop where
  split : f.pieces = first::more
  whole : f.body = first++more.flatten
  ends : Ends 85 170 first
  later : Chain 85 85 more
  short : first.length ≤ 12
  shorter : ∀ piece ∈ more, piece.length ≤ 12

theorem pieces_cut (f : RadarFrame) : ∃ first more, Cut f first more := by
  obtain ⟨chain,whole⟩ := segments_chain (85 : UInt8) (f.id1::f.id2::f.data) 170
  change Chain 85 170 f.pieces at chain
  change f.pieces.flatten = f.body at whole
  have size : f.body.length = 12 := by simp [RadarFrame.body,f.sized]
  cases split : f.pieces with
  | nil =>
    rw [split] at whole
    rw [← whole] at size
    simp at size
  | cons first more =>
    rw [split] at chain whole
    rw [List.flatten_cons] at whole
    rw [← whole,List.length_append] at size
    cases chain with
    | cons ends later =>
      refine ⟨first,more,split,whole.symm,ends,later,by omega,?_⟩
      intro piece member
      have part := (List.sublist_flatten_of_mem member).length_le
      omega

theorem cut_ids (cut : Cut f first more) : first.take 2 = targetIds ↔ f.target ≠ none := by
  have long := ends_length (by decide) cut.ends
  have same : first.take 2 = [f.id1,f.id2] := by
    have shared : f.body.take 2 = first.take 2 := by
      rw [cut.whole,List.take_append_of_le_length long]
    rw [← shared]
    rfl
  rw [same]
  simp [targetIds,RadarFrame.target]

theorem cut_cell (cut : Cut f first more) (positive : 0 < cell) (inside : cell ≤ first.length) :
    f.body.getD (cell-1) 0 = first.getD (cell-1) 0 := by
  rw [cut.whole,List.getD_append _ _ _ _ (by omega)]

-- The end of the first piece reads the target that was sent.
theorem held_exact (buffer : List UInt8) (size : buffer.length = 128) (cut : Cut f first more)
    (target : f.target ≠ none) :
    decode (write (buffer.set 0 170) 1 first) = f.target ↔
      ∀ cell ∈ [3,5,6,7], first.length < cell → buffer.getD cell 0 = f.body.getD (cell-1) 0 := by
  have opened := decode_opened buffer first size cut.short (ends_length (by decide) cut.ends)
  rw [decode_reading _ (opened.mpr ((cut_ids cut).mpr target)),target_reading f target,Option.some.injEq,reading_exact]
  refine forall₂_congr fun cell member => ?_
  have positive : 0 < cell := by
    simp only [List.mem_cons,List.not_mem_nil,or_false] at member
    omega
  rw [opened_cell buffer first size cut.short positive]
  by_cases inside : cell ≤ first.length
  · rw [if_pos inside,cut_cell cut positive inside]
    exact iff_of_true rfl fun beyond => absurd inside (Nat.not_le_of_lt beyond)
  · rw [if_neg inside]
    exact ⟨fun same _ => same,fun same => same (Nat.lt_of_not_le inside)⟩

-- The header opens the frame, its first piece closes it, and the later pieces work on what that left.
theorem frame_pieces (p : RadarParser) (idle : Idle p) (cut : Cut f first more) :
    Idle (feed p f) ∧ ∃ silent : List Target,
      emitted receive p f.bytes = (decode (write (p.gpsBuffer.set 0 170) 1 first)).toList++silent ∧
        (silent = [] ↔ Silent (write (p.gpsBuffer.set 0 170) 1 first) more) := by
  obtain ⟨header,quiet⟩ := header_opens p idle
  obtain ⟨opened,decoded⟩ := open_piece ⟨170,1,p.gpsBuffer.set 0 170⟩ first (by simp)
    (by have := cut.short; dsimp only; omega) cut.ends
  have size : (write (p.gpsBuffer.set 0 170) 1 first).length = 128 := by
    rw [write_length,List.length_set,idle.size]
  obtain ⟨after,silent⟩ := silent_pieces more cut.later cut.shorter _ size
  have bytes : f.bytes = [170,170]++(first++more.flatten) := by rw [← cut.whole]; rfl
  refine ⟨?_,_,?_,silent⟩
  · rw [feed,bytes,drive_append,drive_append,header,opened]
    exact after
  · rw [bytes,emitted_append,emitted_append,quiet,header,opened,decoded,List.nil_append]

theorem frame_exact (p : RadarParser) (idle : Idle p) (f : RadarFrame) :
    Idle (feed p f) ∧ (emitted receive p f.bytes = f.target.toList ↔ Readable p.gpsBuffer f) ∧
      f.target.toList.length ≤ (emitted receive p f.bytes).length := by
  obtain ⟨first,more,cut⟩ := pieces_cut f
  obtain ⟨after,rest,put,silent⟩ := frame_pieces p idle cut
  have ids := decode_opened p.gpsBuffer first idle.size cut.short (ends_length (by decide) cut.ends)
  rw [cut_ids cut] at ids
  rw [put]
  refine ⟨after,?_⟩
  have head : f.pieces.headD [] = first := by rw [cut.split]; rfl
  have tail : f.pieces.tail = more := by rw [cut.split]; rfl
  by_cases target : f.target = none
  · have none : decode (write (p.gpsBuffer.set 0 170) 1 first) = none := not_not.mp fun some => ids.mp some target
    rw [none,target,Option.toList_none,List.nil_append,silent]
    refine ⟨?_,Nat.zero_le _⟩
    constructor
    · rintro ⟨_,foreign⟩
      exact ⟨fun some => absurd target some,fun some => absurd target some,by rw [tail]; exact foreign⟩
    · rintro ⟨_,_,foreign⟩
      exact ⟨fun some => absurd none some,by rw [← tail]; exact foreign⟩
  · have some := ids.mpr target
    have held := held_exact p.gpsBuffer idle.size cut target
    obtain ⟨t,own⟩ := Option.ne_none_iff_exists'.mp target
    obtain ⟨read,got⟩ := Option.ne_none_iff_exists'.mp some
    rw [got,own,Option.some.injEq] at held
    rw [got,own,Option.toList_some,Option.toList_some,List.singleton_append,List.cons.injEq,silent,held]
    refine ⟨?_,by simp⟩
    constructor
    · rintro ⟨same,replaced,foreign⟩
      exact ⟨fun _ => by rw [head]; exact same,fun _ => by rw [tail]; exact replaced some,by rw [tail]; exact foreign⟩
    · rintro ⟨same,replaced,foreign⟩
      rw [head] at same
      rw [tail] at replaced foreign
      exact ⟨same target,fun _ => replaced target,foreign⟩

theorem updates_cons (p : RadarParser) (f : RadarFrame) (rest : List RadarFrame) :
    updates p (f::rest) = emitted receive p f.bytes ++ updates (feed p f) rest := by
  unfold updates
  rw [List.flatMap_cons,emitted_append]
  rfl

theorem targets_cons (f : RadarFrame) (rest : List RadarFrame) :
    (f::rest).filterMap RadarFrame.target = f.target.toList ++ rest.filterMap RadarFrame.target := by
  rw [List.filterMap_cons]
  cases f.target with
  | none => rfl
  | some t => rfl

-- A target frame is never missed; what goes wrong are its data and repetitions.
theorem targets_counted (p : RadarParser) (idle : Idle p) (frames : List RadarFrame) :
    (frames.filterMap RadarFrame.target).length ≤ (updates p frames).length := by
  induction frames generalizing p with
  | nil => exact Nat.zero_le _
  | cons f rest ih =>
    obtain ⟨after,_,counted⟩ := frame_exact p idle f
    have later := ih (feed p f) after
    rw [updates_cons,targets_cons,List.length_append,List.length_append]
    omega

def Decodes (p : RadarParser) (frames : List RadarFrame) : Prop :=
  updates p frames = frames.filterMap RadarFrame.target

theorem frames_exact (p : RadarParser) (idle : Idle p) (frames : List RadarFrame) :
    Decodes p frames ↔ Along feed (fun q f => Readable q.gpsBuffer f) p frames := by
  induction frames generalizing p with
  | nil => exact iff_of_true rfl trivial
  | cons f rest ih =>
    obtain ⟨after,readable,counted⟩ := frame_exact p idle f
    have later := targets_counted (feed p f) after rest
    rw [Decodes,updates_cons,targets_cons,Along,← readable,← ih (feed p f) after]
    constructor
    · intro same
      have total := congrArg List.length same
      rw [List.length_append,List.length_append] at total
      exact List.append_inj same (by omega)
    · rintro ⟨first,others⟩
      rw [first,others]

theorem whole_readable (buffer : List UInt8) (f : RadarFrame) (whole : f.pieces = [f.body]) : Readable buffer f := by
  have size : f.body.length = 12 := by simp [RadarFrame.body,f.sized]
  refine ⟨?_,by rw [whole]; simp,by rw [whole]; simp⟩
  intro _ cell member beyond
  rw [whole,List.headD_cons,size] at beyond
  simp only [List.mem_cons,List.not_mem_nil,or_false] at member
  omega

def near : RadarFrame := ⟨12,7,[3,0,1,44,90,0,0,0],rfl⟩
def other : RadarFrame := ⟨9,1,[85,85,3,170,170,9,9,9],rfl⟩

theorem sequence_decoded : Decodes .boot [near,other,near] :=
  (frames_exact .boot boot_idle _).mpr
    ⟨whole_readable _ near (by decide),by decide,whole_readable _ near (by decide),trivial⟩

-- d7 = 55: the first trailer byte already ends the frame, the second ends it again.
def trailing : RadarFrame := ⟨12,7,[3,0,1,44,90,0,0,85],rfl⟩

theorem target_repeated :
    updates .boot [trailing] = [⟨3,300,90⟩,⟨3,300,90⟩] ∧ ¬ Decodes .boot [trailing] := by
  have twice : updates .boot [trailing] = [⟨3,300,90⟩,⟨3,300,90⟩] := by decide
  refine ⟨twice,?_⟩
  rw [Decodes,twice]
  decide

end UsvRt.RadarFrames
