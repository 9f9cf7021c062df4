import UsvRt.Windows

-- water.c's receiver and the answers of the probe to send_water_data.
namespace UsvRt.WaterProbe
open Runs Framing

-- manager.c's ph and wt, with the locals of check_water: water_index and
-- water_buffer, whose cells hold one byte each.
structure Water where
  parser : Collector UInt8
  ph : Int
  wt : Int
  deriving DecidableEq

def boot : Water := ⟨⟨0,List.replicate 128 0⟩,0,0⟩

def word (buffer : List UInt8) (cell : Nat) : Int :=
  (buffer.getD cell 0).toNat*256+(buffer.getD (cell+1) 0).toNat

def opens (rHex : UInt8) : Bool := rHex == 6

-- Twelve bytes from a 6 on make a frame.
def decode (waterBuffer : List UInt8) : Option (Int × Int) := some (word waterBuffer 3,word waterBuffer 7)

def receive (parser : Collector UInt8) (rHex : UInt8) : Collector UInt8 × Option (Int × Int) :=
  parser.collect opens 12 decode rHex

def check (s : Water) (rHex : UInt8) : Water :=
  match receive s.parser rHex with
  | (parser,some (ph,wt)) => ⟨parser,ph,wt⟩
  | (parser,none) => {s with parser:=parser}

-- An answer to 06 03 00 00 00 04: eight data bytes and the CRC.
structure Response where
  data : List UInt8
  crc1 : UInt8
  crc2 : UInt8
  sized : data.length = 8

def Response.bytes (r : Response) : List UInt8 := 6::3::8::(r.data++[r.crc1,r.crc2])

def feed (s : Water) (r : Response) : Water := run check s r.bytes

-- The values are those of the answer, and the parser waits for the next one.
def Decoded (s : Water) (r : Response) : Prop :=
  (feed s r).ph = word r.data 0 ∧ (feed s r).wt = word r.data 4 ∧ (feed s r).parser.index = 0

structure Idle (s : Water) : Prop where
  closed : s.parser.index = 0
  sound : s.parser.Sound 12

theorem boot_idle : Idle boot :=
  ⟨rfl,Nat.zero_lt_succ _,(by decide : 12 ≤ 128).trans_eq List.length_replicate.symm⟩

theorem decode_reads (buffer : List UInt8) (_ : 12 ≤ buffer.length) : decode buffer = decode (buffer.take 12) := by
  have cell : ∀ key < 12, (buffer.take 12).getD key 0 = buffer.getD key 0 := fun key inside => take_getD buffer inside 0
  simp only [decode,word,cell 3 (by decide),cell 4 (by decide),cell 7 (by decide),cell 8 (by decide)]

theorem receive_run (sound : c.Sound 12) (bytes : List UInt8) :
    (drive receive c bytes).Sound 12 ∧ (drive receive c bytes).pending = drive (window opens 12) c.pending bytes ∧
      emitted receive c bytes = (emitted (window opens 12) c.pending bytes).filterMap decode :=
  Collector.collect_run opens decode sound decode_reads bytes

-- The readings are those of the last frame that was completed.
theorem check_run (s : Water) (bytes : List UInt8) :
    run check s bytes =
      let readings := (emitted receive s.parser bytes).foldl (fun _ reading => reading) (s.ph,s.wt)
      ⟨drive receive s.parser bytes,readings.1,readings.2⟩ := by
  induction bytes generalizing s with
  | nil => rfl
  | cons b rest ih =>
    rw [run_cons,ih,drive_cons,emitted_cons,List.foldl_append]
    unfold check
    cases found : receive s.parser b with
    | mk parser update =>
      cases update with
      | none => rfl
      | some reading => rfl

def Response.frame (r : Response) : List UInt8 := 6::3::8::(r.data++[r.crc1])

theorem response_split (r : Response) : r.bytes = r.frame++[r.crc2] := by
  simp [Response.bytes,Response.frame]

theorem frame_length (r : Response) : r.frame.length = 12 := by
  simp [Response.frame,r.sized]

theorem frame_word (r : Response) (inside : cell+1 < 8) : word r.frame (cell+3) = word r.data cell := by
  have shift : ∀ key < 8, r.frame.getD (key+3) 0 = r.data.getD key 0 := by
    intro key small
    have past : r.frame.getD (key+3) 0 = (r.data++[r.crc1]).getD key 0 := rfl
    rw [past,List.getD_append _ _ _ _ (r.sized ▸ small)]
  unfold word
  rw [shift cell (by omega),Nat.add_right_comm,shift (cell+1) inside]

theorem response_windows (r : Response) :
    emitted (window opens 12) [] r.bytes = [r.frame] ∧
      drive (window opens 12) [] r.bytes = if r.crc2 = 6 then [r.crc2] else [] := by
  have sized := frame_length r
  obtain ⟨windows,after⟩ := window_frame opens 12 (List.length_nil.trans_lt (by decide)) (by decide) 6
    (3::8::(r.data++[r.crc1])) rfl sized
  change emitted (window opens 12) [] r.frame = [r.frame.take 12] at windows
  change drive (window opens 12) [] r.frame = (r.frame.drop 12).dropWhile _ at after
  rw [List.take_of_length_le (Nat.le_of_eq sized)] at windows
  rw [List.drop_of_length_le (Nat.le_of_eq sized),List.dropWhile_nil] at after
  obtain ⟨left,quiet⟩ := window_idle opens 12 [r.crc2] (show 1 < 12 by decide)
  rw [response_split,emitted_append,drive_append,windows,after,left,quiet]
  refine ⟨rfl,?_⟩
  by_cases six : r.crc2 = 6
  · rw [if_pos six,six]
    rfl
  · rw [if_neg six,List.dropWhile_cons_of_pos (by simp [opens,six])]
    rfl

-- What one answer does to an idle receiver: it is decoded, and its last byte is
-- taken for the first of a frame if it is a 6.
theorem response_decoded (s : Water) (idle : Idle s) (r : Response) :
    (feed s r).ph = word r.data 0 ∧ (feed s r).wt = word r.data 4 ∧
      (feed s r).parser.Sound 12 ∧ ((feed s r).parser.index = 0 ↔ r.crc2 ≠ 6) := by
  have none : s.parser.pending = [] := by
    unfold Collector.pending
    rw [idle.closed,List.take_zero]
  obtain ⟨sound,pending,updates⟩ := receive_run idle.sound r.bytes
  obtain ⟨windows,after⟩ := response_windows r
  rw [none,after] at pending
  rw [none,windows] at updates
  have values : emitted receive s.parser r.bytes = [(word r.data 0,word r.data 4)] := by
    have ph : word r.frame 3 = word r.data 0 := frame_word r (by decide)
    have wt : word r.frame 7 = word r.data 4 := frame_word r (by decide)
    refine updates.trans ?_
    rw [← ph,← wt]
    rfl
  have state := check_run s r.bytes
  rw [values] at state
  have counted := Collector.pending_length sound
  rw [pending] at counted
  unfold feed
  rw [state]
  dsimp only [List.foldl_cons,List.foldl_nil]
  refine ⟨rfl,rfl,sound,?_⟩
  rw [← counted]
  by_cases six : r.crc2 = 6
  · simp [six]
  · simp [six]

theorem probe_exact (s : Water) (idle : Idle s) (responses : List Response) :
    Along feed Decoded s responses ↔ ∀ r ∈ responses, r.crc2 ≠ 6 := by
  induction responses generalizing s with
  | nil => exact iff_of_true trivial fun r member => absurd member List.not_mem_nil
  | cons r rest ih =>
    obtain ⟨ph,wt,sound,closed⟩ := response_decoded s idle r
    rw [Along,List.forall_mem_cons]
    constructor
    · rintro ⟨⟨_,_,index⟩,later⟩
      exact ⟨closed.mp index,(ih (feed s r) ⟨index,sound⟩).mp later⟩
    · rintro ⟨other,later⟩
      have index := closed.mpr other
      exact ⟨⟨ph,wt,index⟩,(ih (feed s r) ⟨index,sound⟩).mpr later⟩

def answer (crc2 : UInt8) : Response := ⟨[2,188,0,0,0,200,0,0],17,crc2,rfl⟩

theorem answers_decoded : Along feed Decoded boot [answer 34,answer 7] :=
  (probe_exact boot boot_idle [answer 34,answer 7]).mpr (by decide)

-- The 6 that ends the first answer is taken for the start of the second: its
-- readings are the bytes one place earlier.
theorem answer_shifted :
    (run feed boot [answer 6,answer 34]).ph = 2050 ∧ word (answer 34).data 0 = 700 ∧
      ¬ Along feed Decoded boot [answer 6,answer 34] := by
  refine ⟨by decide +kernel,by decide,?_⟩
  intro path
  have index := path.1.2.2
  revert index
  decide +kernel

end UsvRt.WaterProbe
