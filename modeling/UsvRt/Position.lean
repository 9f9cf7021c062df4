import Mathlib.Data.Rat.Defs
import UsvRt.Windows
import UsvRt.TextScan

-- gps.c's binary receiver: how the stream of position and heading frames gets out
-- of step and back into it.
namespace UsvRt.Position
open Runs Framing

-- What check_gps stores. The float_t values are exact here.
inductive Fix where
  | heading (currentTheta : ℚ)
  | position (lng lat : ℚ)
  | speed (speed : Int)
  deriving DecidableEq

def opens (rHex : UInt8) : Bool := rHex == 85

-- Four bytes as an int: their sum is a double, which beyond the range of int is
-- converted to its end.
def quad (gpsBuffer : List UInt8) (cell : Nat) : Int :=
  let byte := fun key => (gpsBuffer.getD key 0).toNat
  TextScan.saturate (byte (cell+3)*2^24+byte (cell+2)*2^16+byte (cell+1)*2^8+byte cell)

def degrees (value : Int) : ℚ := value.tdiv 10000000+(value.tmod 10000000 : ℚ)/100000/60

def decode (gpsBuffer : List UInt8) : Option Fix :=
  let byte := fun key => (gpsBuffer.getD key 0).toNat
  if byte 1 = 83 then some (.heading (((byte 7*256+byte 6 : Nat) : ℚ)/32768*180))
  else if byte 1 = 87 then some (.position (degrees (quad gpsBuffer 2)) (degrees (quad gpsBuffer 6)))
  else if byte 1 = 88 then some (.speed (quad gpsBuffer 6))
  else none

def receive (parser : Collector UInt8) (rHex : UInt8) : Collector UInt8 × Option Fix :=
  parser.collect opens 11 decode rHex

def boot : Collector UInt8 := ⟨0,List.replicate 128 0⟩

structure GpsFrame where
  type : UInt8
  data : List UInt8
  trailing : UInt8
  sized : data.length = 8

def GpsFrame.bytes (f : GpsFrame) : List UInt8 := 85::f.type::(f.data++[f.trailing])

def stream (frames : List GpsFrame) : List UInt8 := frames.flatMap GpsFrame.bytes

theorem boot_sound : boot.Sound 11 :=
  ⟨Nat.zero_lt_succ _,(by decide : 11 ≤ 128).trans_eq List.length_replicate.symm⟩

theorem decode_reads (buffer : List UInt8) (_ : 11 ≤ buffer.length) : decode buffer = decode (buffer.take 11) := by
  have byte : ∀ key < 11, ((buffer.take 11).getD key 0).toNat = (buffer.getD key 0).toNat :=
    fun key inside => congrArg UInt8.toNat (take_getD buffer inside 0)
  simp only [decode,quad,byte 1 (by decide),byte 2 (by decide),byte 3 (by decide),byte 4 (by decide),byte 5 (by decide),
    byte 6 (by decide),byte 7 (by decide),byte 8 (by decide),byte 9 (by decide)]

theorem receive_run (sound : c.Sound 11) (bytes : List UInt8) :
    (drive receive c bytes).Sound 11 ∧ (drive receive c bytes).pending = drive (window opens 11) c.pending bytes ∧
      emitted receive c bytes = (emitted (window opens 11) c.pending bytes).filterMap decode :=
  Collector.collect_run opens decode sound decode_reads bytes

theorem bytes_length (f : GpsFrame) : f.bytes.length = 11 := by
  simp [GpsFrame.bytes,f.sized]

-- The bytes of a frame that are left over when the parser already has some.
def leftOver (index : Nat) (f : GpsFrame) : List UInt8 := f.bytes.drop (11-index)

theorem frame_step (c : Collector UInt8) (sound : c.Sound 11) (f : GpsFrame) :
    (drive receive c f.bytes).Sound 11 ∧
      (drive receive c f.bytes).index = ((leftOver c.index f).dropWhile (fun b => !opens b)).length ∧
      emitted receive c f.bytes = (decode (c.pending++f.bytes.take (11-c.index))).toList := by
  have taken := Collector.pending_length sound
  have room := sound.room
  obtain ⟨next,pending,updates⟩ := receive_run sound f.bytes
  have short : c.pending.length < 11 := by omega
  obtain ⟨windows,after⟩ := window_frame opens 11 short (by decide) 85 (f.type::(f.data++[f.trailing])) rfl
    (bytes_length f)
  change emitted (window opens 11) c.pending f.bytes = [c.pending++f.bytes.take (11-c.pending.length)] at windows
  change drive (window opens 11) c.pending f.bytes = (leftOver c.pending.length f).dropWhile _ at after
  rw [taken] at windows after
  have counted := Collector.pending_length next
  rw [pending,after] at counted
  refine ⟨next,counted.symm,updates.trans ?_⟩
  rw [windows,List.filterMap_cons,List.filterMap_nil]
  cases decode (c.pending++f.bytes.take (11-c.index)) <;> rfl

theorem index_shrinks (c : Collector UInt8) (sound : c.Sound 11) (f : GpsFrame) :
    (drive receive c f.bytes).index ≤ c.index := by
  have room := sound.room
  have left : (leftOver c.index f).length = c.index := by
    rw [leftOver,List.length_drop,bytes_length]
    omega
  rw [(frame_step c sound f).2.1]
  exact ((List.dropWhile_sublist _).length_le).trans_eq left

theorem index_cleared (c : Collector UInt8) (sound : c.Sound 11) (f : GpsFrame)
    (clear : ∀ b ∈ leftOver c.index f, b ≠ 85) : (drive receive c f.bytes).index = 0 := by
  have none : (leftOver c.index f).dropWhile (fun b => !opens b) = [] := by
    rw [List.dropWhile_eq_nil_iff]
    intro b member
    simpa [opens] using clear b member
  rw [(frame_step c sound f).2.1,none,List.length_nil]

theorem aligned_frame (c : Collector UInt8) (sound : c.Sound 11) (f : GpsFrame) (aligned : c.index = 0) :
    emitted receive c f.bytes = (decode f.bytes).toList ∧ (drive receive c f.bytes).index = 0 := by
  have size := bytes_length f
  have none : c.pending = [] := by
    unfold Collector.pending
    rw [aligned,List.take_zero]
  obtain ⟨_,_,updates⟩ := frame_step c sound f
  rw [none,aligned,List.nil_append,Nat.sub_zero,List.take_of_length_le (Nat.le_of_eq size)] at updates
  exact ⟨updates,Nat.le_zero.mp ((index_shrinks c sound f).trans_eq aligned)⟩

-- The parser after some bytes and the frames that followed them.
def after (noise : List UInt8) (frames : List GpsFrame) : Collector UInt8 := drive receive boot (noise++stream frames)

theorem after_snoc (noise : List UInt8) (frames : List GpsFrame) (f : GpsFrame) :
    after noise (frames++[f]) = drive receive (after noise frames) f.bytes := by
  unfold after stream
  rw [List.flatMap_append,← List.append_assoc,drive_append]
  simp

theorem receive_sound (noise : List UInt8) (frames : List GpsFrame) : (after noise frames).Sound 11 :=
  (receive_run boot_sound (noise++stream frames)).1

-- A frame out of which the parser comes with nothing pending.
def Clear (noise : List UInt8) (before : List GpsFrame) (g : GpsFrame) : Prop :=
  ∀ b ∈ leftOver (after noise before).index g, b ≠ 85

structure Realigns (noise : List UInt8) (frames : List GpsFrame) : Prop where
  shrinks : ∀ before f later, frames = before++f::later →
    (after noise (before++[f])).index ≤ (after noise before).index
  regained : ∀ before g earlier f later, frames = before++g::(earlier++f::later) → Clear noise before g →
    (after noise (before++g::earlier)).index = 0 ∧
      emitted receive (after noise (before++g::earlier)) f.bytes = (decode f.bytes).toList

theorem stays_aligned (noise : List UInt8) (before earlier : List GpsFrame)
    (aligned : (after noise before).index = 0) : (after noise (before++earlier)).index = 0 := by
  induction earlier generalizing before with
  | nil => rw [List.append_nil]; exact aligned
  | cons f rest ih =>
    have next := (aligned_frame _ (receive_sound noise before) f aligned).2
    rw [← after_snoc] at next
    have later := ih (before++[f]) next
    rwa [List.append_assoc,List.singleton_append] at later

theorem realigned (noise : List UInt8) (frames : List GpsFrame) : Realigns noise frames := by
  refine ⟨?_,?_⟩
  · intro before f _ _
    rw [after_snoc]
    exact index_shrinks _ (receive_sound noise before) f
  · intro before g earlier f _ _ clear
    have cleared := index_cleared _ (receive_sound noise before) g clear
    rw [← after_snoc] at cleared
    have aligned := stays_aligned noise (before++[g]) earlier cleared
    rw [List.append_assoc,List.singleton_append] at aligned
    exact ⟨aligned,(aligned_frame _ (receive_sound noise _) f aligned).1⟩

-- A heading of 90 degrees whose last data byte and trailing byte read as the start
-- of a frame.
def misleading : GpsFrame := ⟨83,[0,0,0,32,0,64,0,85],83,rfl⟩

theorem misleading_windows :
    emitted (window opens 11) [85,83] misleading.bytes = [[85,83,85,83,0,0,0,32,0,64,0]] ∧
      drive (window opens 11) [85,83] misleading.bytes = [85,83] := by decide

-- After a stray 55 53 every such frame is stored as 45 degrees, for as long as they
-- come.
theorem never_realigned :
    decode misleading.bytes = some (.heading 90) ∧
      ∀ count, emitted receive boot ([85,83]++stream (List.replicate count misleading)) =
        List.replicate count (.heading 45) := by
  refine ⟨by decide +kernel,?_⟩
  intro count
  obtain ⟨_,_,updates⟩ := receive_run boot_sound ([85,83]++stream (List.replicate count misleading))
  have start : boot.pending = [] := rfl
  have opening : drive (window opens 11) [] [85,83] = [85,83] ∧ emitted (window opens 11) [] [85,83] = [] := by decide
  obtain ⟨windows,pending⟩ := misleading_windows
  have misread : decode [85,83,85,83,0,0,0,32,0,64,0] = some (.heading 45) := by decide +kernel
  have repeated : ∀ count, (emitted (window opens 11) [85,83] (stream (List.replicate count misleading))).filterMap decode =
      List.replicate count (.heading 45) := by
    intro count
    induction count with
    | zero => rfl
    | succ count ih =>
      have first : stream (List.replicate (count+1) misleading) =
          misleading.bytes++stream (List.replicate count misleading) := by
        simp [stream,List.replicate_succ]
      rw [first,emitted_append,windows,pending,List.filterMap_append,ih,List.replicate_succ,List.filterMap_cons,misread]
      rfl
  have entered : emitted (window opens 11) [] ([85,83]++stream (List.replicate count misleading)) =
      emitted (window opens 11) [85,83] (stream (List.replicate count misleading)) := by
    rw [emitted_append,opening.1,opening.2,List.nil_append]
  rw [start,entered,repeated count] at updates
  exact updates

end UsvRt.Position
