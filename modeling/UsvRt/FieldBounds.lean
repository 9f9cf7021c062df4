import UsvRt.FieldScan
import UsvRt.RadioFrames
import UsvRt.ServerRecovery

-- The strings the two ASCII receivers convert their fields to, and which frames
-- overrun them.
namespace UsvRt.FieldBounds
open TextScan Runs

-- c1..c6 in raspberry.c.
def inner : Destination := ⟨(· != byteComma),byteComma,20⟩
def last : Destination := ⟨(· != byteZ),byteZ,20⟩

def serverCells : Nat → List Destination
  | 1 => [inner,inner,last]
  | 2 => [inner,inner,inner,last]
  | 3 => [inner,inner,last]
  | 4 => [inner,inner,inner,inner,inner,last]
  | 5 => [inner,inner,inner,last]
  | 6 => [inner,last]
  | _ => []

-- col_s and row_s, key_s in lora.c.
def radioCells (dataType : Nat) : List Destination :=
  if dataType = 1 then [⟨isDigit,44,5⟩,⟨isDigit,90,5⟩] else [⟨isDigit,90,6⟩]

-- The strings sscanf stores on a byte.
def serverWrites (p : ServerParser) (b : UInt8) : List (List UInt8) :=
  let stored := p.store b
  if b = byteZ ∧ stored.loraBufferIndex ≠ 0 then
    convert (serverFormat stored.infoType) (cString (stored.loraBuffer.set stored.loraBufferIndex 0))
  else []

def radioWrites (p : RadioParser) (b : UInt8) : List (List UInt8) :=
  let stored := p.store b
  if b = 90 ∧ stored.loraBufferIndex ≠ 0 then
    convert (if stored.dataType = 1 then stickFormat else keyFormat)
      (cString (stored.loraBuffer.set stored.loraBufferIndex 0))
  else []

theorem server_scratch (p : ServerParser) (b : UInt8) :
    (p.receive b).1.scratch = assign (serverWrites p b) p.scratch := by
  unfold ServerParser.receive serverWrites
  dsimp only
  split
  · rw [ServerParser.limit_scratch,← p.store_scratch b]
    rfl
  · rw [ServerParser.limit_scratch,p.store_scratch]
    rfl

theorem radio_kept (p : RadioParser) (b : UInt8) :
    (p.store b).colS = p.colS ∧ (p.store b).rowS = p.rowS ∧ (p.store b).keyS = p.keyS := by
  unfold RadioParser.store
  split
  · exact ⟨rfl,rfl,rfl⟩
  · split <;> exact ⟨rfl,rfl,rfl⟩

theorem limit_strings (p : RadioParser) :
    p.limit.colS = p.colS ∧ p.limit.rowS = p.rowS ∧ p.limit.keyS = p.keyS := by
  unfold RadioParser.limit
  split <;> exact ⟨rfl,rfl,rfl⟩

theorem radio_strings (p : RadioParser) (b : UInt8) :
    ((p.store b).dataType = 1 →
      (p.receive b).1.colS = (assign (radioWrites p b) [p.colS,p.rowS]).getD 0 [] ∧
      (p.receive b).1.rowS = (assign (radioWrites p b) [p.colS,p.rowS]).getD 1 []) ∧
    ((p.store b).dataType ≠ 1 → (p.receive b).1.keyS = (assign (radioWrites p b) [p.keyS]).getD 0 []) := by
  obtain ⟨col,row,key⟩ := radio_kept p b
  unfold RadioParser.receive radioWrites
  dsimp only
  by_cases ended : b = 90 ∧ (p.store b).loraBufferIndex ≠ 0
  · rw [if_pos ended,if_pos ended]
    obtain ⟨limitCol,limitRow,limitKey⟩ := limit_strings (p.store b).finish.1
    dsimp only
    rw [limitCol,limitRow,limitKey,← col,← row,← key]
    unfold RadioParser.finish
    by_cases stick : (p.store b).dataType = 1
    · rw [if_pos stick,if_pos stick]
      exact ⟨fun _ => ⟨rfl,rfl⟩,fun keys => absurd stick keys⟩
    · rw [if_neg stick,if_neg stick]
      exact ⟨fun same => absurd same stick,fun _ => rfl⟩
  · rw [if_neg ended,if_neg ended]
    obtain ⟨limitCol,limitRow,limitKey⟩ := limit_strings (p.store b)
    dsimp only
    rw [limitCol,limitRow,limitKey,col,row,key]
    exact ⟨fun _ => ⟨rfl,rfl⟩,fun _ => rfl⟩

-- No conversion of this byte writes past its destination.
def Inside (d : Device) : Input → Prop
  | .serverByte b => Stored (serverCells (d.server.store b).infoType) (serverWrites d.server b)
  | .radioByte b => Stored (radioCells (d.radio.store b).dataType) (radioWrites d.radio b)
  | _ => True

instance (destinations : List Destination) (texts : List (List UInt8)) : Decidable (Stored destinations texts) :=
  inferInstanceAs (Decidable (∀ write ∈ texts.zip destinations, _))

instance (d : Device) (i : Input) : Decidable (Inside d i) :=
  match i with
  | .serverByte _ | .radioByte _ => inferInstanceAs (Decidable (Stored _ _))
  | .wait _ | .manager _ | .changePwm | .changeGear => inferInstanceAs (Decidable True)

-- A frame of one byte takes its type from the 'Z' that ends it.
def frameType (p : ServerParser) : Nat := if p.loraBufferIndex = 1 then digitOf byteZ else p.infoType

-- The fields of a frame that ends here fit, as its text after the first byte has
-- its delimiters.
def Delimited (d : Device) : Input → Prop
  | .serverByte b => b = byteZ → d.server.loraBufferIndex ≠ 0 →
      Fits (serverCells (frameType d.server)) (cString (d.server.frame++[byteZ])).tail
  | .radioByte b => b = 90 → d.radio.loraBufferIndex ≠ 0 →
      Fits (radioCells d.radio.dataType) (cString (d.radio.frame++[90])).tail
  | _ => True

theorem server_format (infoType : Nat) (text : List UInt8) :
    convert (serverFormat infoType) (byteS::text) = convert (scanning (serverCells infoType) []) text := by
  match infoType with
  | 1 | 2 | 3 | 4 | 5 | 6 => exact convert_literal byteS _ text
  | 0 | _+7 => rfl

theorem radio_format (dataType : Nat) (text : List UInt8) :
    convert (if dataType = 1 then stickFormat else keyFormat) ((if dataType = 1 then byteA else byteH)::text) =
      convert (scanning (radioCells dataType) [.literal 44]) text := by
  unfold radioCells
  by_cases stick : dataType = 1
  · rw [if_pos stick,if_pos stick,if_pos stick]
    exact convert_literal byteA _ text
  · rw [if_neg stick,if_neg stick,if_neg stick]
    exact convert_literal byteH _ text

theorem server_destinations (infoType : Nat) :
    (∀ d ∈ serverCells infoType, 0 < d.cells) ∧ ∀ d ∈ serverCells infoType, d.accepts d.stop = false := by
  unfold serverCells
  split <;> simp [inner,last]

theorem radio_destinations (dataType : Nat) :
    (∀ d ∈ radioCells dataType, 0 < d.cells) ∧ ∀ d ∈ radioCells dataType, d.accepts d.stop = false := by
  unfold radioCells
  split <;> simp [isDigit]

theorem cString_head (head : UInt8) (text : List UInt8) (some : head ≠ 0) :
    cString (head::text) = head::(cString (head::text)).tail := by
  unfold cString
  rw [List.takeWhile_cons_of_pos (by simpa using some)]
  rfl

theorem stored_none (destinations : List Destination) : Stored destinations [] := by simp [Stored]

theorem stored_type (p : ServerParser) (opened : p.loraBufferIndex ≠ 0) : (p.store byteZ).infoType = frameType p := by
  unfold ServerParser.store frameType
  rw [if_neg (by decide)]
  by_cases second : p.loraBufferIndex = 1
  · rw [if_pos second,if_pos second]
    rfl
  · rw [if_neg second,if_neg second,if_pos opened]
    rfl

theorem server_head (p : ServerParser) (sound : p.Sound) (opened : p.loraBufferIndex ≠ 0) :
    cString (p.frame++[byteZ]) = byteS::(cString (p.frame++[byteZ])).tail := by
  have size := sound.size
  have first := sound.opened (Nat.pos_of_ne_zero opened)
  obtain ⟨index,next⟩ : ∃ index, p.loraBufferIndex = index+1 := ⟨p.loraBufferIndex-1,by omega⟩
  obtain ⟨head,rest,shape⟩ := List.exists_cons_of_length_pos (show 0 < p.loraBuffer.length by omega)
  rw [shape,List.head?_cons,Option.some.injEq] at first
  subst first
  unfold ServerParser.frame
  rw [shape,next,List.take_succ_cons,List.cons_append]
  exact cString_head byteS _ (by decide)

theorem server_exact (p : ServerParser) (sound : p.Sound) (b : UInt8) :
    Stored (serverCells (p.store b).infoType) (serverWrites p b) ↔
      (b = byteZ → p.loraBufferIndex ≠ 0 →
        Fits (serverCells (frameType p)) (cString (p.frame++[byteZ])).tail) := by
  by_cases ended : b = byteZ ∧ p.loraBufferIndex ≠ 0
  · obtain ⟨rfl,opened⟩ := ended
    obtain ⟨index,text⟩ := p.finish_text sound (Nat.pos_of_ne_zero opened)
    have writes : serverWrites p byteZ = convert (serverFormat (frameType p)) (cString (p.frame++[byteZ])) := by
      rw [← text,← stored_type p opened]
      exact if_pos ⟨rfl,by omega⟩
    obtain ⟨positive,outside⟩ := server_destinations (frameType p)
    rw [writes,stored_type p opened,server_head p sound opened,server_format,List.tail_cons,
      stored_fits _ _ _ positive outside]
    exact ⟨fun fits _ _ => fits,fun fits => fits rfl opened⟩
  · have writes : serverWrites p b = [] := by
      refine if_neg fun both => ended ⟨both.1,fun idle => ?_⟩
      obtain ⟨rfl,stored⟩ := both
      unfold ServerParser.store at stored
      rw [if_neg (by decide),if_neg (by omega),if_neg (by omega)] at stored
      exact stored idle
    rw [writes]
    exact iff_of_true (stored_none _) fun last opened => absurd ⟨last,opened⟩ ended

theorem radio_head (p : RadioParser) (sound : p.Sound) (opened : p.loraBufferIndex ≠ 0) :
    cString (p.frame++[90]) = (if p.dataType = 1 then byteA else byteH)::(cString (p.frame++[90])).tail := by
  have first := sound.opened (Nat.pos_of_ne_zero opened)
  obtain ⟨rest,shape⟩ := List.head?_eq_some_iff.mp first
  rw [shape,List.cons_append]
  exact cString_head _ _ (by split <;> decide)

theorem radio_writes_exact (p : RadioParser) (sound : p.Sound) (b : UInt8) :
    Stored (radioCells (p.store b).dataType) (radioWrites p b) ↔
      (b = 90 → p.loraBufferIndex ≠ 0 → Fits (radioCells p.dataType) (cString (p.frame++[90])).tail) := by
  have noStart : ¬ ((90 : UInt8) = byteA ∨ (90 : UInt8) = byteH) := by decide
  by_cases ended : b = 90 ∧ p.loraBufferIndex ≠ 0
  · obtain ⟨rfl,opened⟩ := ended
    have stored := p.store_later noStart opened
    have type : (p.append 90).dataType = p.dataType := rfl
    have writes : radioWrites p 90 =
        convert (if p.dataType = 1 then stickFormat else keyFormat) (cString (p.frame++[90])) := by
      have longer : (p.store 90).loraBufferIndex ≠ 0 := by
        rw [stored]
        exact Nat.succ_ne_zero _
      rw [← p.end_text sound.size sound.room,← type,← stored]
      exact if_pos ⟨rfl,longer⟩
    obtain ⟨positive,outside⟩ := radio_destinations p.dataType
    rw [writes,stored,type,radio_head p sound opened,radio_format,List.tail_cons,stored_fits _ _ _ positive outside]
    exact ⟨fun fits _ _ => fits,fun fits => fits rfl opened⟩
  · have writes : radioWrites p b = [] := by
      refine if_neg fun both => ended ⟨both.1,fun idle => ?_⟩
      obtain ⟨rfl,stored⟩ := both
      rw [p.store_idle noStart idle] at stored
      exact stored idle
    rw [writes]
    exact iff_of_true (stored_none _) fun last opened => absurd ⟨last,opened⟩ ended

theorem inside_exact (libm : Libm) (d : Device) (reached : Device.Reached libm d) (i : Input) :
    Inside d i ↔ Delimited d i := by
  cases i with
  | serverByte b => exact server_exact d.server (Device.server_sound reached) b
  | radioByte b => exact radio_writes_exact d.radio (Device.radio_sound reached) b
  | wait | manager | changePwm | changeGear => exact Iff.rfl

theorem bounds_exact (libm : Libm) (stack : Fin 6 → List UInt8) (inputs : List Input) :
    Along (Device.step libm) Inside (.boot stack) inputs ↔ Along (Device.step libm) Delimited (.boot stack) inputs := by
  have every : ∀ d i, Device.Reached libm d → True → Device.Reached libm (d.step libm i) :=
    fun d i reached _ => reached.run [i]
  have same : ∀ d i, Device.Reached libm d → True → (Inside d i ↔ Delimited d i) :=
    fun d i reached _ => inside_exact libm d reached i
  exact Along.congr (invariant_along every same ⟨stack,[],rfl⟩ (along_every _ fun _ _ => trivial))

-- A1,123456Z: six digits and a terminator for row_s.
def longRow : List Input := [65,49,44,49,50,51,52,53,54,90].map .radioByte

-- S6,11111111111111111111Z: twenty digits and a terminator for c2.
def longStatus : List Input := ([83,54,44]++List.replicate 20 49++[90] : List UInt8).map .serverByte

theorem strings_overrun :
    ¬ Along (Device.step .level) Inside (.boot silentStack) longRow ∧
      ¬ Along (Device.step .level) Inside (.boot silentStack) longStatus := by
  refine ⟨?_,?_⟩
  · decide +kernel
  · decide +kernel

end UsvRt.FieldBounds
