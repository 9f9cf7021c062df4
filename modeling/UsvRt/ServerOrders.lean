import UsvRt.Decimal
import UsvRt.ServerRecovery

-- What the messages of the server protocol mean, and that a stream of them is
-- decoded to that.
namespace UsvRt
open TextScan

inductive Order where
  | target (lng lat : Numeral)
  | sample (bottleId bottleDeep bottleAmount : Numeral)
  | control (controlVal controlMode : Numeral)
  | settings (networkBackhome energyBackhome obstacleAvoid handSpeed autoSpeed : Numeral)
  | gains (p i d : Numeral)
  | compass (compassStatus : Numeral)
  | heartbeat

namespace Order

def infoType : Order → Nat
  | .target .. => 1
  | .sample .. => 2
  | .control .. => 3
  | .settings .. => 4
  | .gains .. => 5
  | .compass .. => 6
  | .heartbeat => 8

def fields : Order → List Numeral
  | .target lng lat => [lng,lat]
  | .sample bottleId bottleDeep bottleAmount => [bottleId,bottleDeep,bottleAmount]
  | .control controlVal controlMode => [controlVal,controlMode]
  | .settings networkBackhome energyBackhome obstacleAvoid handSpeed autoSpeed =>
    [networkBackhome,energyBackhome,obstacleAvoid,handSpeed,autoSpeed]
  | .gains p i d => [p,i,d]
  | .compass compassStatus => [compassStatus]
  | .heartbeat => []

def bytes (o : Order) : List UInt8 := messageBytes o.infoType (o.fields.map Numeral.text)

-- The globals before and after. Those a message does not name keep their values.
def Meaning : Order → Globals → Globals → Prop
  | .target lng lat,g,h =>
    h = {g with control:={g.control with targetLng:=floatT (lng.value/1000000),targetLat:=floatT (lat.value/1000000)}}
  | .sample bottleId bottleDeep bottleAmount,g,h =>
    h = {g with bottleId:=bottleId.value,bottleDeep:=bottleDeep.value,bottleAmount:=bottleAmount.value,drawStatus:=0}
  | .control controlVal controlMode,g,h =>
    h = {g with control:={g.control with
        controlVal:=controlVal.value
        controlMode:=controlMode.value
        targetLng:=h.control.targetLng
        targetLat:=h.control.targetLat}} ∧
      if controlMode.value = 3 then ¬ (h.control.targetLng > 1 ∧ h.control.targetLat > 1)
      else h.control.targetLng = g.control.targetLng ∧ h.control.targetLat = g.control.targetLat
  | .settings networkBackhome energyBackhome obstacleAvoid handSpeed autoSpeed,g,h =>
    h = {g with control:={g.control with
      networkBackhome:=networkBackhome.value
      energyBackhome:=energyBackhome.value
      obstacleAvoid:=obstacleAvoid.value
      handSpeed:=handSpeed.value
      autoSpeed:=autoSpeed.value}}
  | .gains p i d,g,h => h = {g with control:={g.control with pid:=(floatT (p.value/100),floatT (i.value/100),floatT (d.value/100))}}
  | .compass compassStatus,g,h => h = {g with control:={g.control with compassStatus:=compassStatus.value}}
  | .heartbeat,g,h => h = {g with isConnect:=1}

-- Fields of at most 19 characters in the range of int, and at most 49 bytes.
structure WellFormed (o : Order) : Prop where
  short : ∀ n ∈ o.fields, n.text.length ≤ 19
  low : ∀ n ∈ o.fields, -2^31 ≤ n.value
  high : ∀ n ∈ o.fields, n.value < 2^31
  fits : o.bytes.length ≤ 49

end Order

theorem numeral_text (n : Numeral) (short : n.text.length ≤ 19) : FieldText n.text := by
  have absent : ∀ b : UInt8, b ≠ 43 → b ≠ 45 → isDigit b = false → b ∉ n.text := by
    intro b plus minus solid member
    rcases n.text_bytes member with same | same | digit
    · exact plus same
    · exact minus same
    · rw [solid] at digit
      cases digit
  exact ⟨n.text_filled,short,absent _ (by decide) (by decide) (by decide),absent _ (by decide) (by decide) (by decide),
    absent _ (by decide) (by decide) (by decide)⟩

namespace Order

theorem counted (o : Order) : arity o.infoType = some (o.fields.map Numeral.text).length := by
  cases o <;> rfl

def message (o : Order) (wellFormed : WellFormed o) : ServerMessage where
  infoType := o.infoType
  fields := o.fields.map Numeral.text
  counted := o.counted
  texts := by
    intro field member
    obtain ⟨n,inside,rfl⟩ := List.mem_map.mp member
    exact numeral_text n (wellFormed.short n inside)
  fits := wellFormed.fits

-- The command decoded from a message is its meaning.
theorem command_meaning (o : Order) (wellFormed : WellFormed o) (g : Globals) :
    o.Meaning g ((o.message wellFormed).command.toList.foldl Globals.apply g) := by
  have value : ∀ n ∈ o.fields, atoi n.text = n.value :=
    fun n member => atoi_numeral n (wellFormed.low n member) (wellFormed.high n member)
  change o.Meaning g
    ((decodeServer o.infoType ([typeDigit o.infoType]::o.fields.map Numeral.text)).toList.foldl Globals.apply g)
  cases o with
  | control controlVal controlMode =>
    simp only [fields,List.forall_mem_cons] at value
    have decoded : (decodeServer 3 ([typeDigit 3]::[controlVal,controlMode].map Numeral.text)) =
        some (.control controlVal.value controlMode.value) := by
      simp [decodeServer,value]
    rw [infoType,fields,decoded]
    by_cases homeless : controlMode.value = 3
    · simp [Meaning,Globals.apply,Control.apply,Control.assign,homeless]
    · simp [Meaning,Globals.apply,Control.apply,Control.assign,homeless]
  | target | sample | settings | gains | compass | heartbeat =>
    simp only [fields,List.forall_mem_cons] at value
    simp [Meaning,decodeServer,infoType,fields,value,Globals.apply,Control.apply,Control.assign]

-- The meanings of a list of messages, one after the other.
inductive Meanings : List Order → Globals → Globals → Prop where
  | nil : Meanings [] g g
  | cons (first : Meaning o g h) (later : Meanings rest h last) : Meanings (o::rest) g last

end Order

namespace Device

theorem feed_order (libm : Libm) (d : Device) (reached : Reached libm d) (idle : d.server.loraBufferIndex = 0)
    (o : Order) (wellFormed : o.WellFormed) :
    (feed libm d o.bytes).server.loraBufferIndex = 0 ∧ o.Meaning d.usv.globals (feed libm d o.bytes).usv.globals := by
  have sound := server_sound reached
  obtain ⟨_,closed⟩ := d.server.receive_message sound idle (o.message wellFormed)
  have globals := feed_message libm d sound idle (o.message wellFormed)
  have meaning := o.command_meaning wellFormed d.usv.globals
  rw [← globals] at meaning
  refine ⟨?_,meaning⟩
  rw [feed_server]
  exact closed

-- After every message of the stream the parser is idle, and the globals are what
-- the messages so far mean.
theorem stream_decoded (libm : Libm) (d : Device) (reached : Reached libm d) (idle : d.server.loraBufferIndex = 0)
    (orders : List Order) (wellFormed : ∀ o ∈ orders, o.WellFormed) (earlier later : List Order)
    (split : orders = earlier++later) :
    (feed libm d (earlier.flatMap Order.bytes)).server.loraBufferIndex = 0 ∧
      Order.Meanings earlier d.usv.globals (feed libm d (earlier.flatMap Order.bytes)).usv.globals := by
  subst split
  induction earlier generalizing d with
  | nil => exact ⟨idle,.nil⟩
  | cons o rest ih =>
    obtain ⟨closed,meaning⟩ := feed_order libm d reached idle o (wellFormed o (by simp))
    have next : Reached libm (feed libm d o.bytes) := reached.run (o.bytes.map .serverByte)
    obtain ⟨last,meanings⟩ := ih (feed libm d o.bytes) next closed fun p member => wellFormed p (List.mem_cons_of_mem _ member)
    rw [List.flatMap_cons,feed_append]
    exact ⟨last,.cons meaning meanings⟩

end Device

-- S3,+090,1Z S1,-5,7Z S8Z
def steer : Order := .control ⟨.plus,[⟨0,by decide⟩,⟨9,by decide⟩,⟨0,by decide⟩],by decide⟩ ⟨.none,[⟨1,by decide⟩],by decide⟩
def southward : Order := .target ⟨.minus,[⟨5,by decide⟩],by decide⟩ ⟨.none,[⟨7,by decide⟩],by decide⟩

def exchange : List Order := [steer,southward,.heartbeat]

theorem exchange_wellFormed : ∀ o ∈ exchange, o.WellFormed := by
  intro o member
  simp only [exchange,List.mem_cons,List.not_mem_nil,or_false] at member
  rcases member with rfl | rfl | rfl
  · exact ⟨by decide,by decide,by decide,by decide⟩
  · exact ⟨by decide,by decide,by decide,by decide⟩
  · exact ⟨by decide,by decide,by decide,by decide⟩

theorem exchange_decoded :
    (Device.feed .level (Device.boot silentStack) (exchange.flatMap Order.bytes)).server.loraBufferIndex = 0 ∧
      Order.Meanings exchange Usv.boot.globals
        (Device.feed .level (Device.boot silentStack) (exchange.flatMap Order.bytes)).usv.globals :=
  Device.stream_decoded .level (Device.boot silentStack) ⟨silentStack,[],rfl⟩ rfl exchange exchange_wellFormed exchange []
    (List.append_nil _).symm

-- S1,114123456,30123456Z
def harbourLng : Numeral :=
  ⟨.none,[⟨1,by decide⟩,⟨1,by decide⟩,⟨4,by decide⟩,⟨1,by decide⟩,⟨2,by decide⟩,
    ⟨3,by decide⟩,⟨4,by decide⟩,⟨5,by decide⟩,⟨6,by decide⟩],by decide⟩
def harbourLat : Numeral :=
  ⟨.none,[⟨3,by decide⟩,⟨0,by decide⟩,⟨1,by decide⟩,⟨2,by decide⟩,
    ⟨3,by decide⟩,⟨4,by decide⟩,⟨5,by decide⟩,⟨6,by decide⟩],by decide⟩
def harbour : Order := .target harbourLng harbourLat

-- 114.123456 degrees are stored as 114.1234588623046875.
theorem harbour_rounded :
    harbour.WellFormed ∧ harbourLng.value = 114123456 ∧
      (Device.feed .level (Device.boot silentStack) harbour.bytes).usv.globals.control.targetLng = 7479195/65536 ∧
      (Device.feed .level (Device.boot silentStack) harbour.bytes).usv.globals.control.targetLng ≠
        (harbourLng.value : ℚ)/1000000 :=
  ⟨⟨by decide,by decide,by decide,by decide⟩,by decide,by decide +kernel,by decide +kernel⟩

end UsvRt
