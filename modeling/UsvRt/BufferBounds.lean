import UsvRt.ArrayWrites
import UsvRt.Position
import UsvRt.RadioFrames
import UsvRt.TargetOrigins
import UsvRt.WaterProbe

-- The arrays that the five running receivers fill, and every write they make to one.
namespace UsvRt.BufferBounds
open Runs Framing ArrayWrites

inductive Cells where
  | serverBuffer
  | radioBuffer
  | radarBuffer
  | gpsBuffer
  | waterBuffer
  | targetId
  | targetDistance
  | targetAngle
  deriving DecidableEq

def Cells.size : Cells → Nat
  | .serverBuffer => 50
  | .radioBuffer => 32
  | .radarBuffer | .gpsBuffer | .waterBuffer => 128
  | .targetId | .targetDistance | .targetAngle => 10

abbrev CellWrite := Write Cells Int

def byte (into : Cells) (index : Nat) (value : UInt8) : CellWrite := ⟨into,index,value.toNat⟩

-- The two ASCII receivers store a byte and, behind the last one, the NUL.
def serverWrites (p : ServerParser) (b : UInt8) : List CellWrite :=
  (if b = byteS ∨ p.loraBufferIndex ≠ 0 then [byte .serverBuffer p.loraBufferIndex b] else [])++
    if b = byteZ ∧ (p.store b).loraBufferIndex ≠ 0 then [byte .serverBuffer (p.store b).loraBufferIndex 0] else []

def radioWrites (p : RadioParser) (b : UInt8) : List CellWrite :=
  (if b = byteA ∨ b = byteH then [byte .radioBuffer 0 b]
    else if p.loraBufferIndex ≠ 0 then [byte .radioBuffer p.loraBufferIndex b] else [])++
    if b = 90 ∧ (p.store b).loraBufferIndex ≠ 0 then [byte .radioBuffer (p.store b).loraBufferIndex 0] else []

def radarWrites (p : RadarParser) (b : UInt8) : List CellWrite :=
  if (b = 170 ∧ p.preRHex = 170) ∨ p.gpsIndex ≠ 0 then [byte .radarBuffer p.gpsIndex b] else []

def targetWrites (target : Target) : List CellWrite :=
  if target.id < 10 then
    [⟨.targetId,target.id,1⟩,⟨.targetDistance,target.id,target.distance⟩,⟨.targetAngle,target.id,target.angle⟩]
  else []

def collectorWrites (into : Cells) (opens : UInt8 → Bool) (c : Collector UInt8) (b : UInt8) : List CellWrite :=
  if opens b = true ∨ c.index ≠ 0 then [byte into c.index b] else []

structure Receivers where
  server : ServerParser
  radio : RadioParser
  radar : RadarParser
  targets : Targets
  gps : Collector UInt8
  water : Collector UInt8

-- A byte read by one of the five threads.
inductive Arrival where
  | server (loraChar : UInt8)
  | radio (loraChar : UInt8)
  | radar (rHex : UInt8)
  | gps (rHex : UInt8)
  | water (rHex : UInt8)
  deriving DecidableEq

namespace Receivers

def boot (stack : List (List UInt8)) : Receivers :=
  ⟨.boot stack,.boot,.boot,.boot,Position.boot,WaterProbe.boot.parser⟩

def step (s : Receivers) : Arrival → Receivers
  | .server loraChar => {s with server:=(s.server.receive loraChar).1}
  | .radio loraChar => {s with radio:=(s.radio.receive loraChar).1}
  | .radar rHex =>
    {s with
      radar:=(s.radar.receive rHex).1
      targets:=(s.radar.receive rHex).2.elim s.targets s.targets.update}
  | .gps rHex => {s with gps:=(Position.receive s.gps rHex).1}
  | .water rHex => {s with water:=(WaterProbe.receive s.water rHex).1}

def writes (s : Receivers) : Arrival → List CellWrite
  | .server loraChar => serverWrites s.server loraChar
  | .radio loraChar => radioWrites s.radio loraChar
  | .radar rHex => radarWrites s.radar rHex++(s.radar.receive rHex).2.elim [] targetWrites
  | .gps rHex => collectorWrites .gpsBuffer Position.opens s.gps rHex
  | .water rHex => collectorWrites .waterBuffer WaterProbe.opens s.water rHex

def bytes (buffer : List UInt8) : List Int := buffer.map fun b => (b.toNat : Int)

def memory (s : Receivers) : Cells → List Int
  | .serverBuffer => bytes s.server.loraBuffer
  | .radioBuffer => bytes s.radio.loraBuffer
  | .radarBuffer => bytes s.radar.gpsBuffer
  | .gpsBuffer => bytes s.gps.buffer
  | .waterBuffer => bytes s.water.buffer
  | .targetId => s.targets.targetId
  | .targetDistance => s.targets.targetDistance
  | .targetAngle => s.targets.targetAngle

end Receivers
open Receivers

theorem bytes_set (into : Cells) (buffer : List UInt8) (index : Nat) (b : UInt8) :
    bytes (buffer.set index b) = store (bytes buffer) (byte into index b) := List.map_set

-- What a byte does to each buffer, and that nothing else is written to it.
theorem server_stored (p : ServerParser) (b : UInt8) :
    bytes (p.store b).loraBuffer =
      (if b = byteS ∨ p.loraBufferIndex ≠ 0 then [byte .serverBuffer p.loraBufferIndex b] else []).foldl store
        (bytes p.loraBuffer) := by
  rcases p.store_cases b with ⟨same,idle,inner⟩ | ⟨infoType,same,first,_⟩
  · rw [same,if_neg (not_or.mpr ⟨inner,not_not.mpr idle⟩)]
    rfl
  · have taken : b = byteS ∨ p.loraBufferIndex ≠ 0 := by
      by_cases idle : p.loraBufferIndex = 0
      · exact .inl (first idle)
      · exact .inr idle
    rw [same,if_pos taken]
    exact bytes_set .serverBuffer p.loraBuffer p.loraBufferIndex b

theorem server_written (p : ServerParser) (b : UInt8) :
    bytes (p.receive b).1.loraBuffer = (serverWrites p b).foldl store (bytes p.loraBuffer) := by
  unfold serverWrites ServerParser.receive
  rw [List.foldl_append,← server_stored p b]
  dsimp only
  by_cases ended : b = byteZ ∧ (p.store b).loraBufferIndex ≠ 0
  · rw [if_pos ended,if_pos ended,ServerParser.limit_buffer]
    exact bytes_set .serverBuffer (p.store b).loraBuffer (p.store b).loraBufferIndex 0
  · rw [if_neg ended,if_neg ended,ServerParser.limit_buffer]
    rfl

theorem radio_stored (p : RadioParser) (b : UInt8) :
    bytes (p.store b).loraBuffer =
      (if b = byteA ∨ b = byteH then [byte .radioBuffer 0 b]
        else if p.loraBufferIndex ≠ 0 then [byte .radioBuffer p.loraBufferIndex b] else []).foldl store
        (bytes p.loraBuffer) := by
  by_cases start : b = byteA ∨ b = byteH
  · rw [p.store_start start,if_pos start]
    exact bytes_set .radioBuffer p.loraBuffer 0 b
  · rw [if_neg start]
    by_cases idle : p.loraBufferIndex = 0
    · rw [p.store_idle start idle,if_neg (not_not.mpr idle)]
      rfl
    · rw [p.store_later start idle,if_pos idle]
      exact bytes_set .radioBuffer p.loraBuffer p.loraBufferIndex b

theorem radio_limit (p : RadioParser) : p.limit.loraBuffer = p.loraBuffer := by
  unfold RadioParser.limit
  split <;> rfl

theorem radio_finish (p : RadioParser) : p.finish.1.loraBuffer = p.loraBuffer.set p.loraBufferIndex 0 := by
  unfold RadioParser.finish
  split <;> rfl

theorem radio_written (p : RadioParser) (b : UInt8) :
    bytes (p.receive b).1.loraBuffer = (radioWrites p b).foldl store (bytes p.loraBuffer) := by
  unfold radioWrites RadioParser.receive
  rw [List.foldl_append,← radio_stored p b]
  dsimp only
  by_cases ended : b = 90 ∧ (p.store b).loraBufferIndex ≠ 0
  · rw [if_pos ended,if_pos ended,radio_limit,radio_finish]
    exact bytes_set .radioBuffer (p.store b).loraBuffer (p.store b).loraBufferIndex 0
  · rw [if_neg ended,if_neg ended,radio_limit]
    rfl

theorem radar_written (p : RadarParser) (b : UInt8) :
    bytes (p.receive b).1.gpsBuffer = (radarWrites p b).foldl store (bytes p.gpsBuffer) := by
  rw [TargetOrigins.receive_state]
  unfold radarWrites
  by_cases stores : (b = 170 ∧ p.preRHex = 170) ∨ p.gpsIndex ≠ 0
  · rw [if_pos stores,TargetOrigins.store_stores stores]
    exact bytes_set .radarBuffer p.gpsBuffer p.gpsIndex b
  · rw [if_neg stores,(TargetOrigins.store_skips stores).1]
    rfl

theorem collector_written (into : Cells) (opens : UInt8 → Bool) (size : Nat) (decode : List UInt8 → Option γ)
    (c : Collector UInt8) (b : UInt8) :
    bytes (c.collect opens size decode b).1.buffer = (collectorWrites into opens c b).foldl store (bytes c.buffer) := by
  have limited : (c.collect opens size decode b).1.buffer = (c.store opens b).buffer := by
    unfold Collector.collect Collector.limit
    dsimp only
    split
    · rfl
    · split <;> rfl
  rw [limited]
  unfold collectorWrites Collector.store
  by_cases opening : opens b = true
  · rw [if_pos opening,if_pos (.inl opening)]
    exact bytes_set into c.buffer c.index b
  · rw [if_neg opening]
    by_cases idle : c.index = 0
    · rw [if_neg (not_not.mpr idle),if_neg (not_or.mpr ⟨opening,not_not.mpr idle⟩)]
      rfl
    · rw [if_pos idle,if_pos (.inr idle)]
      exact bytes_set into c.buffer c.index b

theorem byte_into (into : Cells) (index : Nat) (b : UInt8) (condition : Prop) [Decidable condition] :
    ∀ w ∈ (if condition then [byte into index b] else []), w = byte into index b ∧ condition := by
  intro w member
  split at member
  · rename_i holds
    exact ⟨List.mem_singleton.mp member,holds⟩
  · cases member

theorem server_writes (p : ServerParser) (b : UInt8) :
    ∀ w ∈ serverWrites p b, w.into = .serverBuffer ∧
      (w.index = p.loraBufferIndex ∨ w.index = (p.store b).loraBufferIndex) := by
  intro w member
  rcases List.mem_append.mp member with taken | ended
  · rw [(byte_into _ _ _ _ w taken).1]
    exact ⟨rfl,.inl rfl⟩
  · rw [(byte_into _ _ _ _ w ended).1]
    exact ⟨rfl,.inr rfl⟩

theorem radio_writes (p : RadioParser) (b : UInt8) :
    ∀ w ∈ radioWrites p b, w.into = .radioBuffer ∧
      (w.index = 0 ∨ w.index = p.loraBufferIndex ∨ w.index = (p.store b).loraBufferIndex) := by
  intro w member
  rcases List.mem_append.mp member with taken | ended
  · split at taken
    · rw [List.mem_singleton.mp taken]
      exact ⟨rfl,.inl rfl⟩
    · rw [(byte_into _ _ _ _ w taken).1]
      exact ⟨rfl,.inr (.inl rfl)⟩
  · rw [(byte_into _ _ _ _ w ended).1]
    exact ⟨rfl,.inr (.inr rfl)⟩

theorem radar_writes (p : RadarParser) (b : UInt8) : ∀ w ∈ radarWrites p b, w = byte .radarBuffer p.gpsIndex b :=
  fun w member => (byte_into _ _ _ _ w member).1

theorem collector_writes (into : Cells) (opens : UInt8 → Bool) (c : Collector UInt8) (b : UInt8) :
    ∀ w ∈ collectorWrites into opens c b, w = byte into c.index b :=
  fun w member => (byte_into _ _ _ _ w member).1

theorem target_inside (target : Target) : ∀ w ∈ targetWrites target, Inside Cells.size w := by
  intro w member
  unfold targetWrites at member
  split at member
  · rename_i inside
    simp only [List.mem_cons,List.not_mem_nil,or_false] at member
    rcases member with rfl | rfl | rfl <;> exact inside
  · cases member

theorem targets_memory (s : Receivers) (target : Target) :
    ({s with targets:=s.targets.update target} : Receivers).memory = putAll s.memory (targetWrites target) := by
  unfold Targets.update targetWrites
  by_cases inside : target.id < 10
  · rw [if_pos inside,if_pos inside]
    funext i
    cases i <;> rfl
  · rw [if_neg inside,if_neg inside]
    rfl

theorem radar_memory (s : Receivers) (b : UInt8) :
    ({s with radar:=(s.radar.receive b).1} : Receivers).memory = putAll s.memory (radarWrites s.radar b) := by
  refine putAll_exact (fun w member => congrArg Write.into (radar_writes s.radar b w member)) (radar_written s.radar b) ?_
  intro i other
  cases i <;> first | rfl | exact absurd rfl other

-- The memory after a byte is the memory before it with the listed writes made.
theorem step_memory (s : Receivers) (e : Arrival) : (s.step e).memory = putAll s.memory (s.writes e) := by
  cases e with
  | server b =>
    refine putAll_exact (fun w member => (server_writes s.server b w member).1) (server_written s.server b) ?_
    intro i other
    cases i <;> first | rfl | exact absurd rfl other
  | radio b =>
    refine putAll_exact (fun w member => (radio_writes s.radio b w member).1) (radio_written s.radio b) ?_
    intro i other
    cases i <;> first | rfl | exact absurd rfl other
  | radar b =>
    rw [writes,putAll_append,← radar_memory s b]
    unfold step
    dsimp only
    cases (s.radar.receive b).2 with
    | none => rfl
    | some target => exact targets_memory {s with radar:=(s.radar.receive b).1} target
  | gps b =>
    refine putAll_exact (fun w member => congrArg Write.into (collector_writes _ _ _ b w member))
      (collector_written .gpsBuffer Position.opens 11 Position.decode s.gps b) ?_
    intro i other
    cases i <;> first | rfl | exact absurd rfl other
  | water b =>
    refine putAll_exact (fun w member => congrArg Write.into (collector_writes _ _ _ b w member))
      (collector_written .waterBuffer WaterProbe.opens 12 WaterProbe.decode s.water b) ?_
    intro i other
    cases i <;> first | rfl | exact absurd rfl other

-- Between two bytes each receiver has room for one more, the ASCII ones for a NUL too.
structure Sound (s : Receivers) : Prop where
  server : s.server.Sound
  radio : s.radio.Sound
  radar : s.radar.gpsIndex ≤ 13
  gps : s.gps.Sound 11
  water : s.water.Sound 12

theorem boot_sound (stack : List (List UInt8)) : Sound (.boot stack) :=
  ⟨ServerParser.boot_sound stack,RadioParser.boot_sound,Nat.zero_le 13,Position.boot_sound,WaterProbe.boot_idle.sound⟩

theorem radar_room (p : RadarParser) (b : UInt8) : (p.receive b).1.gpsIndex ≤ 13 := by
  rw [TargetOrigins.receive_state]
  dsimp only
  split
  · exact Nat.zero_le 13
  · rename_i small
    omega

theorem sound_step (s : Receivers) (e : Arrival) (sound : Sound s) : Sound (s.step e) := by
  obtain ⟨server,radio,radar,gps,water⟩ := sound
  cases e with
  | server b => exact ⟨s.server.receive_sound server b,radio,radar,gps,water⟩
  | radio b => exact ⟨server,s.radio.receive_sound radio b,radar,gps,water⟩
  | radar b => exact ⟨server,radio,radar_room s.radar b,gps,water⟩
  | gps b => exact ⟨server,radio,radar,(Position.receive_run gps [b]).1,water⟩
  | water b => exact ⟨server,radio,radar,gps,(WaterProbe.receive_run water [b]).1⟩

theorem server_inside (p : ServerParser) (sound : p.Sound) (b : UInt8) : ∀ w ∈ serverWrites p b, Inside Cells.size w := by
  intro w member
  obtain ⟨into,index⟩ := server_writes p b w member
  have room := sound.room
  have next : (p.store b).loraBufferIndex ≤ p.loraBufferIndex+1 := by
    rcases p.store_cases b with ⟨same,_⟩ | ⟨infoType,same,_⟩
    · rw [same]
      exact Nat.le_succ _
    · rw [same]
      exact Nat.le_refl _
  unfold Inside
  rw [into]
  change w.index < 50
  omega

theorem radio_inside (p : RadioParser) (sound : p.Sound) (b : UInt8) : ∀ w ∈ radioWrites p b, Inside Cells.size w := by
  intro w member
  obtain ⟨into,index⟩ := radio_writes p b w member
  have room := sound.room
  have next := (p.store_sound sound b).2.1
  unfold Inside
  rw [into]
  change w.index < 32
  omega

theorem radar_inside (p : RadarParser) (room : p.gpsIndex ≤ 13) (b : UInt8) : ∀ w ∈ radarWrites p b, Inside Cells.size w := by
  intro w member
  rw [radar_writes p b w member]
  change p.gpsIndex < 128
  omega

theorem updated_inside (p : RadarParser) (b : UInt8) :
    ∀ w ∈ (p.receive b).2.elim [] targetWrites, Inside Cells.size w := by
  intro w member
  cases update : (p.receive b).2 with
  | none =>
    rw [update] at member
    cases member
  | some target =>
    rw [update] at member
    exact target_inside target w member

theorem collector_inside (into : Cells) (opens : UInt8 → Bool) (c : Collector UInt8) (sound : c.Sound size)
    (fits : size ≤ into.size) (b : UInt8) : ∀ w ∈ collectorWrites into opens c b, Inside Cells.size w := by
  intro w member
  rw [collector_writes into opens c b w member]
  exact Nat.lt_of_lt_of_le sound.room fits

theorem writes_inside (s : Receivers) (e : Arrival) (sound : Sound s) : ∀ w ∈ s.writes e, Inside Cells.size w := by
  cases e with
  | server b => exact server_inside s.server sound.server b
  | radio b => exact radio_inside s.radio sound.radio b
  | radar b =>
    intro w member
    rcases List.mem_append.mp member with buffered | tabled
    · exact radar_inside s.radar sound.radar b w buffered
    · exact updated_inside s.radar b w tabled
  | gps b => exact collector_inside .gpsBuffer Position.opens s.gps sound.gps (by decide) b
  | water b => exact collector_inside .waterBuffer WaterProbe.opens s.water sound.water (by decide) b

theorem boot_fits (stack : List (List UInt8)) : Fits Cells.size (boot stack).memory := by
  intro i
  cases i <;> rfl

-- Every array keeps the size it was declared with, every write is inside its array, and
-- the arrays change by these writes alone.
def Bounded (s : Receivers) (e : Arrival) : Prop :=
  Fits Cells.size s.memory ∧ (∀ w ∈ s.writes e, Inside Cells.size w) ∧ (s.step e).memory = putAll s.memory (s.writes e)

theorem buffer_bounds (stack : List (List UInt8)) (arrivals : List Arrival) :
    Along Receivers.step Bounded (.boot stack) arrivals := by
  have preserved : ∀ s e, Sound s ∧ Fits Cells.size s.memory → True →
      Sound (s.step e) ∧ Fits Cells.size (s.step e).memory := by
    rintro s e ⟨sound,fits⟩ _
    refine ⟨sound_step s e sound,?_⟩
    rw [step_memory]
    exact putAll_fits fits (s.writes e)
  have established : ∀ s e, Sound s ∧ Fits Cells.size s.memory → True → Bounded s e := by
    rintro s e ⟨sound,fits⟩ _
    exact ⟨fits,writes_inside s e sound,step_memory s e⟩
  exact invariant_along preserved established ⟨boot_sound stack,boot_fits stack⟩ (along_every _ fun _ _ => trivial)

-- The NUL of the longest frame takes the last cell.
example : byte .serverBuffer 49 0 ∈
    (run Receivers.step (.boot []) (List.replicate 48 (.server 83))).writes (.server 90) := by decide +kernel

end UsvRt.BufferBounds
