import UsvRt.ServerMessages

-- What a damaged message leaves behind for the next one.
namespace UsvRt
open TextScan Runs

namespace Device

theorem server_sound (reached : Reached libm d) : d.server.Sound := by
  apply reached.invariant (fun stack => ServerParser.boot_sound (List.ofFn stack))
  intro d i sound
  cases i with
  | serverByte loraChar => exact d.server.receive_sound sound loraChar
  | wait | radioByte | manager | changePwm | changeGear => exact sound

theorem feed_inner (libm : Libm) (d : Device) (bytes : List UInt8) (inner : byteZ ∉ bytes) :
    (feed libm d bytes).usv.globals = d.usv.globals ∧ (feed libm d bytes).usv.reply = d.usv.reply ∧
      (feed libm d bytes).server.scratch = d.server.scratch := by
  obtain ⟨globals,reply⟩ := feed_effect libm d bytes
  obtain ⟨quiet,kept⟩ := d.server.commands_inner bytes inner
  rw [quiet] at globals reply
  exact ⟨globals,reply,by rw [feed_server,kept]⟩

theorem feed_message (libm : Libm) (d : Device) (sound : d.server.Sound) (idle : d.server.loraBufferIndex = 0)
    (m : ServerMessage) : (feed libm d m.bytes).usv.globals = m.command.toList.foldl Globals.apply d.usv.globals := by
  rw [(feed_effect libm d m.bytes).1,(d.server.receive_message sound idle m).1]

end Device

-- Inside an open frame the 'S' of a message is one more byte: the frame keeps its
-- old type to the end or is dropped at 49 bytes.
theorem open_commands (p : ServerParser) (sound : p.Sound) (opened : 0 < p.loraBufferIndex) (rest : List UInt8)
    (noStart : byteS ∉ rest) (inner : byteZ ∉ rest) :
    p.commands (byteS::(rest++[byteZ])) = [] ∨
      ∃ scratch, p.commands (byteS::(rest++[byteZ])) = (decodeServer p.infoType scratch).toList := by
  have received : p.receive byteS = ((p.append byteS).limit,none) := by
    rw [p.receive_inner (by decide),ServerParser.store,if_pos rfl]
  have past : (p.receive byteS).1.loraBufferIndex ≠ 1 := by
    rw [received,ServerParser.limit_index,ServerParser.append_index]
    split <;> omega
  have firstType : (p.receive byteS).1.infoType = p.infoType := by
    rw [received,ServerParser.limit_infoType]; rfl
  have firstSound := p.receive_sound sound byteS
  obtain ⟨type,index⟩ := ServerParser.type_kept _ rest past noStart inner
  have lastSound := ServerParser.receiveAll_sound _ firstSound rest
  obtain ⟨quiet,_⟩ := (p.receive byteS).1.commands_inner rest inner
  have whole : p.commands (byteS::(rest++[byteZ])) =
      (((p.receive byteS).1.receiveAll rest).receive byteZ).2.toList := by
    have first : (p.receive byteS).2 = none := by rw [received]
    rw [ServerParser.commands,first,ServerParser.commands_append,quiet]
    simp [ServerParser.commands]
  rw [whole]
  rcases Nat.eq_zero_or_pos ((p.receive byteS).1.receiveAll rest).loraBufferIndex with idle | positive
  · left
    rw [ServerParser.receive_last _ idle]
    rfl
  · right
    obtain ⟨command,_⟩ := ServerParser.receive_end _ lastSound positive index
    rw [command,type,firstType]
    exact ⟨_,rfl⟩

theorem decode_keeps (g : Globals) (infoType : Nat) (scratch : List (List UInt8)) :
    (infoType ≠ 6 → ((decodeServer infoType scratch).toList.foldl Globals.apply g).control.compassStatus =
      g.control.compassStatus) ∧
    (infoType ≠ 3 → ((decodeServer infoType scratch).toList.foldl Globals.apply g).control.controlVal =
      g.control.controlVal) := by
  unfold decodeServer
  dsimp only
  split <;> simp [Globals.apply,Control.apply,Control.assign]
  split <;> rfl

def digitText (one : Bool) : List UInt8 := if one then [49] else [48]

theorem digitText_field (one : Bool) : FieldText (digitText one) := by
  cases one <;> decide

def compassMessage (one : Bool) : ServerMessage :=
  ⟨6,[digitText one],rfl,by simpa using digitText_field one,by cases one <;> decide⟩

def controlMessage (one : Bool) : ServerMessage :=
  ⟨3,[digitText one,digitText true],arity_control,by simpa using ⟨digitText_field one,digitText_field true⟩,
    by cases one <;> decide⟩

theorem compassMessage_command (one : Bool) : (compassMessage one).command = some (.compass (if one then 1 else 0)) := by
  cases one <;> decide

theorem controlMessage_command (one : Bool) :
    (controlMessage one).command = some (.control (if one then 1 else 0) 1) := by
  cases one <;> decide

theorem bit_apart (value : Int) : ∃ one : Bool, (if one then 1 else 0) ≠ value := by
  by_cases zero : value = 0
  · exact ⟨true,by simp [zero]⟩
  · exact ⟨false,fun same => zero same.symm⟩

-- A message tells an open parser from an idle one when it sets a global that the
-- stale type leaves alone to a value it does not have.
theorem told_apart (libm : Libm) (d : Device) (sound : d.server.Sound) (opened : 0 < d.server.loraBufferIndex)
    (idle : ServerParser) (idleSound : idle.Sound) (empty : idle.loraBufferIndex = 0) (m : ServerMessage)
    (body : List UInt8) (shape : m.bytes = byteS::(body++[byteZ])) (noStart : byteS ∉ body) (inner : byteZ ∉ body)
    (read : Globals → Int) (c : ServerCommand) (means : m.command = some c)
    (fresh : read (d.usv.globals.apply c) ≠ read d.usv.globals)
    (stale : ∀ scratch, read ((decodeServer d.server.infoType scratch).toList.foldl Globals.apply d.usv.globals) =
      read d.usv.globals) :
    (d.feed libm m.bytes).usv.globals ≠ (Device.feed libm {d with server:=idle} m.bytes).usv.globals := by
  rw [Device.feed_message libm {d with server:=idle} idleSound empty,means,(Device.feed_effect libm d _).1]
  intro same
  have values := congrArg read same
  have outcome := open_commands d.server sound opened body noStart inner
  rw [← shape] at outcome
  rcases outcome with none | ⟨scratch,some⟩
  · rw [none] at values
    exact fresh values.symm
  · rw [some,stale scratch] at values
    exact fresh values.symm

theorem open_diverges (libm : Libm) (d : Device) (sound : d.server.Sound) (opened : 0 < d.server.loraBufferIndex)
    (idle : ServerParser) (idleSound : idle.Sound) (empty : idle.loraBufferIndex = 0) :
    ∃ m : ServerMessage, (d.feed libm m.bytes).usv.globals ≠
      (Device.feed libm {d with server:=idle} m.bytes).usv.globals := by
  by_cases six : d.server.infoType = 6
  · obtain ⟨one,apart⟩ := bit_apart d.usv.globals.control.controlVal
    refine ⟨controlMessage one,?_⟩
    apply told_apart libm d sound opened idle idleSound empty (controlMessage one) ([51,44]++digitText one++[44,49])
      (by cases one <;> rfl) (by cases one <;> decide) (by cases one <;> decide)
      (fun g => g.control.controlVal) (.control (if one then 1 else 0) 1) (controlMessage_command one)
    · exact apart
    · intro scratch
      exact (decode_keeps d.usv.globals d.server.infoType scratch).2 (by omega)
  · obtain ⟨one,apart⟩ := bit_apart d.usv.globals.control.compassStatus
    refine ⟨compassMessage one,?_⟩
    apply told_apart libm d sound opened idle idleSound empty (compassMessage one) ([54,44]++digitText one)
      (by cases one <;> rfl) (by cases one <;> decide) (by cases one <;> decide)
      (fun g => g.control.compassStatus) (.compass (if one then 1 else 0)) (compassMessage_command one)
    · exact apart
    · intro scratch
      exact (decode_keeps d.usv.globals d.server.infoType scratch).1 six

def Resynchronises (libm : Libm) (d : Device) (p : List UInt8) : Prop :=
  ∀ (m : ServerMessage) (idle : ServerParser), idle.Sound → idle.loraBufferIndex = 0 →
    (d.feed libm (p++m.bytes)).usv.globals = (Device.feed libm {d with server:=idle} m.bytes).usv.globals

theorem resynchronises_exact (libm : Libm) (d : Device) (reached : Device.Reached libm d) (p : List UInt8)
    (unended : byteZ ∉ p) :
    Resynchronises libm d p ↔ (d.feed libm p).server.loraBufferIndex = 0 := by
  have sound : (d.feed libm p).server.Sound := Device.server_sound (reached.run (p.map .serverByte))
  obtain ⟨globals,_⟩ := Device.feed_inner libm d p unended
  constructor
  · intro same
    apply Classical.byContradiction
    intro opened
    have bootSound := ServerParser.boot_sound []
    obtain ⟨m,apart⟩ := open_diverges libm (d.feed libm p) sound (Nat.pos_of_ne_zero opened) (.boot []) bootSound rfl
    have equal := same m (.boot []) bootSound rfl
    rw [Device.feed_append] at equal
    rw [equal,Device.feed_message libm {d with server:=.boot []} bootSound rfl,
      Device.feed_message libm {d.feed libm p with server:=.boot []} bootSound rfl] at apart
    exact apart (by rw [← globals])
  · intro closed m idle idleSound empty
    rw [Device.feed_append,Device.feed_message libm (d.feed libm p) sound closed,
      Device.feed_message libm {d with server:=idle} idleSound empty,globals]

def silentStack : Fin 6 → List UInt8 := fun _ => []

theorem noise_resynchronises : Resynchronises .level (Device.boot silentStack) [13,10] :=
  (resynchronises_exact .level (Device.boot silentStack) ⟨silentStack,[],rfl⟩ [13,10] (by decide)).mpr (by decide)

-- S3,5,1Z
def steering : List UInt8 := [83,51,44,53,44,49,90]

def steered : Device := Device.feed .level (Device.boot silentStack) steering

def homing : ServerMessage :=
  ⟨1,[[49,49,52,48,48,48,48,48,48],[51,48,48,48,48,48,48,48]],rfl,by decide,by decide⟩

-- After S3,5,1Z and one stray 'S', S1,114000000,30000000Z sets control_val.
theorem stray_start_misread : Device.Reached .level steered ∧ ¬ Resynchronises .level steered [byteS] := by
  refine ⟨⟨silentStack,steering.map .serverByte,rfl⟩,?_⟩
  intro same
  have equal := congrArg (fun g : Globals => g.control.controlVal) (same homing (.boot []) (ServerParser.boot_sound []) rfl)
  revert equal
  decide +kernel

end UsvRt
