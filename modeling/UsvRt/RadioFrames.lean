import UsvRt.Decimal
import UsvRt.Framing
import UsvRt.ServerFrames

-- Frames of the remote control: whatever was received before, a frame is decoded
-- from its own bytes.
namespace UsvRt
open TextScan

namespace RadioParser

def frame (p : RadioParser) : List UInt8 := p.loraBuffer.take p.loraBufferIndex

-- Between two bytes: room for one more and its terminator, and the type of an open
-- frame is that of its first byte.
structure Sound (p : RadioParser) : Prop where
  size : p.loraBuffer.length = 32
  room : p.loraBufferIndex ≤ 20
  opened : 0 < p.loraBufferIndex → p.frame.head? = some (if p.dataType = 1 then byteA else byteH)

theorem boot_sound : Sound boot :=
  ⟨List.length_replicate,Nat.zero_le _,fun positive => absurd positive (Nat.lt_irrefl 0)⟩

theorem append_frame (p : RadioParser) (b : UInt8) (inside : p.loraBufferIndex < p.loraBuffer.length) :
    (p.append b).frame = p.frame++[b] :=
  Framing.pending_append p.loraBuffer b inside

theorem limit_small (p : RadioParser) (small : p.loraBufferIndex ≤ 20) : p.limit = p := by
  unfold limit
  rw [if_neg (by omega)]

-- The state once a start byte has been taken in.
def opening (p : RadioParser) (b : UInt8) : RadioParser :=
  {p with loraBuffer:=p.loraBuffer.set 0 b,loraBufferIndex:=1,dataType:=if b = byteA then 1 else 2}

theorem store_start (p : RadioParser) (start : b = byteA ∨ b = byteH) : p.store b = p.opening b := by
  unfold store
  rw [if_pos start]
  rfl

theorem store_later (p : RadioParser) (inner : ¬ (b = byteA ∨ b = byteH)) (opened : p.loraBufferIndex ≠ 0) :
    p.store b = p.append b := by
  unfold store
  rw [if_neg inner,if_pos opened]

theorem store_idle (p : RadioParser) (inner : ¬ (b = byteA ∨ b = byteH)) (closed : p.loraBufferIndex = 0) :
    p.store b = p := by
  unfold store
  rw [if_neg inner,if_neg (not_not.mpr closed)]

theorem receive_inner (p : RadioParser) (inner : b ≠ 90) : p.receive b = ((p.store b).limit,none) := by
  unfold receive
  rw [if_neg fun both => inner both.1]

theorem receive_last (p : RadioParser) (opened : p.loraBufferIndex ≠ 0) :
    p.receive 90 = ((p.append 90).finish.1.limit,some (p.append 90).finish.2) := by
  have inner : ¬ ((90 : UInt8) = byteA ∨ (90 : UInt8) = byteH) := by decide
  have stored := p.store_later inner opened
  have longer : (p.append 90).loraBufferIndex ≠ 0 := Nat.succ_ne_zero _
  unfold receive
  rw [stored,if_pos ⟨rfl,longer⟩]

theorem opening_frame (p : RadioParser) (size : p.loraBuffer.length = 32) (b : UInt8) : (p.opening b).frame = [b] := by
  have written : (p.loraBuffer.set 0 b).take (0+1) = p.loraBuffer.take 0++[b] :=
    Framing.pending_append p.loraBuffer b (by omega)
  rwa [List.take_zero,List.nil_append] at written

theorem store_sound (p : RadioParser) (sound : p.Sound) (b : UInt8) :
    (p.store b).loraBuffer.length = 32 ∧ (p.store b).loraBufferIndex ≤ 21 ∧
      (0 < (p.store b).loraBufferIndex →
        (p.store b).frame.head? = some (if (p.store b).dataType = 1 then byteA else byteH)) := by
  have size := sound.size
  have room := sound.room
  by_cases start : b = byteA ∨ b = byteH
  · rw [p.store_start start,p.opening_frame size b]
    refine ⟨List.length_set.trans size,(by decide : 1 ≤ 21),fun _ => ?_⟩
    rcases start with rfl | rfl <;> rfl
  · by_cases closed : p.loraBufferIndex = 0
    · rw [p.store_idle start closed]
      exact ⟨size,by omega,sound.opened⟩
    · rw [p.store_later start closed,p.append_frame b (by omega)]
      refine ⟨List.length_set.trans size,by simp only [append]; omega,fun _ => ?_⟩
      rw [List.head?_append,sound.opened (Nat.pos_of_ne_zero closed)]
      rfl

theorem limit_sound (p : RadioParser) (size : p.loraBuffer.length = 32)
    (opened : 0 < p.loraBufferIndex → p.frame.head? = some (if p.dataType = 1 then byteA else byteH)) :
    p.limit.Sound := by
  unfold limit
  by_cases full : p.loraBufferIndex > 20
  · rw [if_pos full]
    exact ⟨size,Nat.zero_le _,fun positive => absurd positive (Nat.lt_irrefl 0)⟩
  · rw [if_neg full]
    exact ⟨size,by omega,opened⟩

theorem finish_size (p : RadioParser) : p.finish.1.loraBuffer.length = p.loraBuffer.length ∧
    p.finish.1.loraBufferIndex = 0 := by
  unfold finish
  split
  · exact ⟨List.length_set,rfl⟩
  · exact ⟨List.length_set,rfl⟩

theorem receive_sound (p : RadioParser) (sound : p.Sound) (b : UInt8) : (p.receive b).1.Sound := by
  obtain ⟨size,_,opened⟩ := p.store_sound sound b
  unfold receive
  dsimp only
  split
  · obtain ⟨length,idle⟩ := (p.store b).finish_size
    exact limit_sound _ (length.trans size) fun positive => by omega
  · exact limit_sound _ size opened

-- Bytes inside an open frame only fill the buffer.
theorem body_received (p : RadioParser) (body : List UInt8) (inner : ∀ b ∈ body, ¬ (b = byteA ∨ b = byteH) ∧ b ≠ 90)
    (opened : p.loraBufferIndex ≠ 0) (room : p.loraBufferIndex+body.length ≤ 20) :
    Framing.drive receive p body = {p with
        loraBuffer:=Framing.write p.loraBuffer p.loraBufferIndex body
        loraBufferIndex:=p.loraBufferIndex+body.length} ∧
      Framing.emitted receive p body = [] := by
  induction body generalizing p with
  | nil => exact ⟨rfl,rfl⟩
  | cons b rest ih =>
    rw [List.length_cons] at room
    obtain ⟨noStart,noEnd⟩ := inner b List.mem_cons_self
    have received : p.receive b = (p.append b,none) := by
      rw [p.receive_inner noEnd,p.store_later noStart opened,limit_small _ (by simp only [append]; omega)]
    obtain ⟨after,quiet⟩ := ih (p.append b) (fun c member => inner c (List.mem_cons_of_mem _ member))
      (Nat.succ_ne_zero _) (by simp only [append]; omega)
    rw [Framing.drive_cons,Framing.emitted_cons,received,after,quiet]
    refine ⟨?_,rfl⟩
    simp only [append,Framing.write,List.length_cons,Nat.add_assoc,Nat.add_comm 1]

-- A start byte drops what the parser had collected.
theorem frame_received (p : RadioParser) (size : p.loraBuffer.length = 32) (start : b = byteA ∨ b = byteH)
    (body : List UInt8) (inner : ∀ c ∈ body, ¬ (c = byteA ∨ c = byteH) ∧ c ≠ 90) (short : body.length ≤ 19) :
    ∃ q : RadioParser, Framing.drive receive p (b::body) = q ∧ Framing.emitted receive p (b::body) = [] ∧
      q.loraBuffer.length = 32 ∧ q.loraBufferIndex = body.length+1 ∧ q.frame = b::body ∧
      q.dataType = if b = byteA then 1 else 2 := by
  have noEnd : b ≠ 90 := by
    rcases start with rfl | rfl <;> decide
  have received : p.receive b = (p.opening b,none) := by
    rw [p.receive_inner noEnd,p.store_start start,limit_small _ (by decide : 1 ≤ 20)]
  obtain ⟨after,quiet⟩ := (p.opening b).body_received body inner Nat.one_ne_zero (by simp only [opening]; omega)
  have length : (p.opening b).loraBuffer.length = 32 := List.length_set.trans size
  refine ⟨_,rfl,?_,?_⟩
  · rw [Framing.emitted_cons,received,quiet]
    rfl
  · rw [Framing.drive_cons,received,after]
    refine ⟨(Framing.write_length _ _ _).trans length,Nat.add_comm _ _,?_,rfl⟩
    have filled : (Framing.write (p.opening b).loraBuffer 1 body).take (1+body.length) =
        (p.opening b).loraBuffer.take 1++body := Framing.write_pending (p.opening b).loraBuffer body (by omega)
    have head : (p.opening b).loraBuffer.take 1 = [b] := p.opening_frame size b
    rw [head] at filled
    exact filled

-- The final byte decodes the accumulated text by the type of the frame.
def decodeText (p : RadioParser) (text : List UInt8) : RadioCommand :=
  if p.dataType = 1 then
    let texts := assign (convert stickFormat text) [p.colS,p.rowS]
    .stick (atoi (texts.getD 0 [])) (atoi (texts.getD 1 []))
  else
    let keyS := (assign (convert keyFormat text) [p.keyS]).getD 0 []
    .keys (atoi (keyS.take 1)) (atoi ((keyS.drop 1).take 1))

theorem end_text (p : RadioParser) (size : p.loraBuffer.length = 32) (room : p.loraBufferIndex ≤ 20) :
    cString ((p.append 90).loraBuffer.set (p.append 90).loraBufferIndex 0) = cString (p.frame++[90]) := by
  have longer : (p.append 90).loraBuffer.length = 32 := List.length_set.trans size
  rw [cString_terminated _ _ (by rw [longer]; simp only [append]; omega),← append_frame p 90 (by omega)]
  rfl

theorem receive_end (p : RadioParser) (size : p.loraBuffer.length = 32) (room : p.loraBufferIndex ≤ 20)
    (opened : p.loraBufferIndex ≠ 0) :
    (p.receive 90).1.loraBufferIndex = 0 ∧ (p.receive 90).2 = some (p.decodeText (cString (p.frame++[90]))) := by
  rw [p.receive_last opened,← p.end_text size room]
  obtain ⟨_,idle⟩ := (p.append 90).finish_size
  refine ⟨?_,?_⟩
  · rw [limit_small _ (by omega)]
    exact idle
  · unfold finish decodeText
    by_cases stick : p.dataType = 1
    · have same : (p.append 90).dataType = 1 := stick
      rw [if_pos same,if_pos stick]
      rfl
    · have same : (p.append 90).dataType ≠ 1 := stick
      rw [if_neg same,if_neg stick]
      rfl

end RadioParser

structure StickFrame where
  col : List (Fin 10)
  row : List (Fin 10)
  colFilled : col ≠ []
  colShort : col.length ≤ 4
  rowFilled : row ≠ []
  rowShort : row.length ≤ 4

structure KeyFrame where
  first : Fin 10
  second : Fin 10
  rest : List (Fin 10)
  short : rest.length ≤ 3

def StickFrame.body (f : StickFrame) : List UInt8 := digitsText f.col++byteComma::digitsText f.row
def KeyFrame.body (f : KeyFrame) : List UInt8 := digitsText (f.first::f.second::f.rest)

inductive RadioFrame where
  | stick (f : StickFrame)
  | keys (f : KeyFrame)

def RadioFrame.bytes : RadioFrame → List UInt8
  | .stick f => byteA::f.body++[90]
  | .keys f => byteH::f.body++[90]

def RadioFrame.command : RadioFrame → RadioCommand
  | .stick f => .stick (number f.col) (number f.row)
  | .keys f => .keys f.first.val f.second.val

theorem digits_inner (digits : List (Fin 10)) : ∀ b ∈ digitsText digits, ¬ (b = byteA ∨ b = byteH) ∧ b ≠ 90 := by
  intro b member
  have digit := digitsText_digits digits b member
  refine ⟨?_,?_⟩
  · rintro (rfl | rfl) <;> exact absurd digit (by decide)
  · rintro rfl
    exact absurd digit (by decide)

theorem StickFrame.body_inner (f : StickFrame) : ∀ b ∈ f.body, ¬ (b = byteA ∨ b = byteH) ∧ b ≠ 90 := by
  intro b member
  rcases List.mem_append.mp member with inside | later
  · exact digits_inner f.col b inside
  · rcases List.mem_cons.mp later with rfl | inside
    · decide
    · exact digits_inner f.row b inside

theorem StickFrame.body_short (f : StickFrame) : f.body.length ≤ 9 := by
  have col := f.colShort
  have row := f.rowShort
  simp only [body,List.length_append,List.length_cons,digitsText_length]
  omega

theorem KeyFrame.body_short (f : KeyFrame) : f.body.length ≤ 5 := by
  have short := f.short
  simp only [body,digitsText_length,List.length_cons]
  omega

theorem digits_clean (digits : List (Fin 10)) : (0 : UInt8) ∉ digitsText digits := digitsText_absent digits (by decide)

theorem StickFrame.text_exact (f : StickFrame) :
    convert stickFormat (cString (byteA::f.body++[90])) = [digitsText f.col,digitsText f.row] := by
  have clean : (0 : UInt8) ∉ byteA::f.body++[90] := by
    simp only [body,List.mem_append,List.mem_cons,List.not_mem_nil,or_false,not_or]
    exact ⟨⟨by decide,digits_clean f.col,by decide,digits_clean f.row⟩,by decide⟩
  have filled : ∀ digits : List (Fin 10), digits ≠ [] → digitsText digits ≠ [] := by
    intro digits some
    simpa [digitsText] using some
  rw [cString_text _ clean,stickFormat,List.cons_append,convert_literal,body,List.append_assoc,List.cons_append,
    Directive.digits,convert_scanSet isDigit _ byteComma _ (filled f.col f.colFilled) (digitsText_digits f.col) (by decide),
    byteComma,convert_literal,
    convert_scanSet isDigit _ 90 [] (filled f.row f.rowFilled) (digitsText_digits f.row) (by decide),convert_literal]
  rfl

theorem KeyFrame.text_exact (f : KeyFrame) : convert keyFormat (cString (byteH::f.body++[90])) = [f.body] := by
  have clean : (0 : UInt8) ∉ byteH::f.body++[90] := by
    simp only [List.mem_append,List.mem_cons,List.not_mem_nil,or_false,not_or]
    exact ⟨⟨by decide,digits_clean _⟩,by decide⟩
  have scanned : convert (.scanSet isDigit::[.literal 90,.literal 44]) (f.body++[90]) =
      f.body::convert [.literal 90,.literal 44] [90] :=
    convert_scanSet isDigit _ 90 [] (by simp [body,digitsText]) (digitsText_digits _) (by decide)
  rw [cString_text _ clean,keyFormat,List.cons_append,convert_literal,Directive.digits,scanned,convert_literal]
  rfl

theorem short_number (digits : List (Fin 10)) (filled : digits ≠ []) (short : digits.length ≤ 4) :
    atoi (digitsText digits) = number digits := by
  have bound := number_bound digits
  have room : 10^digits.length ≤ 10^4 := Nat.pow_le_pow_right (by decide) short
  exact atoi_digits digits filled (by omega)

namespace RadioParser

theorem frame_decoded (p : RadioParser) (size : p.loraBuffer.length = 32) (f : RadioFrame) :
    Framing.emitted receive p f.bytes = [f.command] ∧ (Framing.drive receive p f.bytes).loraBufferIndex = 0 := by
  cases f with
  | stick f =>
    obtain ⟨q,state,quiet,length,index,frame,type⟩ :=
      p.frame_received size (.inl rfl) f.body f.body_inner (Nat.le_trans f.body_short (by decide))
    have short := f.body_short
    obtain ⟨idle,decoded⟩ := q.receive_end length (by omega) (by omega)
    rw [frame] at decoded
    have stick : q.dataType = 1 := type
    have command : q.decodeText (cString (byteA::f.body++[90])) = (RadioFrame.stick f).command := by
      unfold decodeText
      rw [if_pos stick,f.text_exact]
      simp [assign,RadioFrame.command,short_number f.col f.colFilled f.colShort,
        short_number f.row f.rowFilled f.rowShort]
    rw [RadioFrame.bytes,Framing.emitted_append,Framing.drive_append,quiet,state]
    refine ⟨?_,idle⟩
    simp only [Framing.emitted_cons,Framing.emitted_nil,decoded,command]
    rfl
  | keys f =>
    obtain ⟨q,state,quiet,length,index,frame,type⟩ :=
      p.frame_received size (.inr rfl) f.body (digits_inner _) (Nat.le_trans f.body_short (by decide))
    have short := f.body_short
    obtain ⟨idle,decoded⟩ := q.receive_end length (by omega) (by omega)
    rw [frame] at decoded
    have keys : q.dataType ≠ 1 := by
      rw [type]
      decide
    have single : ∀ digit : Fin 10, atoi [digitByte digit] = digit.val := by decide
    have command : q.decodeText (cString (byteH::f.body++[90])) = (RadioFrame.keys f).command := by
      unfold decodeText
      rw [if_neg keys,f.text_exact]
      simp [assign,RadioFrame.command,KeyFrame.body,digitsText,single]
    rw [RadioFrame.bytes,Framing.emitted_append,Framing.drive_append,quiet,state]
    refine ⟨?_,idle⟩
    simp only [Framing.emitted_cons,Framing.emitted_nil,decoded,command]
    rfl

end RadioParser

theorem Device.radio_sound (reached : Device.Reached libm d) : d.radio.Sound := by
  have preserved : ∀ d i, RadioParser.Sound (Device.radio d) → (Device.step libm d i).radio.Sound := by
    intro d i sound
    cases i with
    | radioByte loraChar => exact d.radio.receive_sound sound loraChar
    | wait | serverByte | manager | changePwm | changeGear => exact sound
  exact reached.invariant (fun _ => RadioParser.boot_sound) preserved

theorem Device.radio_fed (libm : Libm) (d : Device) (bytes : List UInt8) :
    (Runs.run (Device.step libm) d (bytes.map .radioByte)).radio = Framing.drive RadioParser.receive d.radio bytes ∧
      (Runs.run (Device.step libm) d (bytes.map .radioByte)).usv =
        Runs.run (Usv.step libm) d.usv ((Framing.emitted RadioParser.receive d.radio bytes).map .radio) := by
  induction bytes generalizing d with
  | nil => exact ⟨rfl,rfl⟩
  | cons b rest ih =>
    obtain ⟨radio,usv⟩ := ih (d.step libm (.radioByte b))
    refine ⟨radio,?_⟩
    rw [List.map_cons,Runs.run_cons,usv,Framing.emitted_cons,List.map_append,Runs.run_append]
    rfl

-- A stick value strictly between 45 and 55 counts as the middle.
def stickValue (digits : List (Fin 10)) : Nat := if 45 < number digits ∧ number digits < 55 then 50 else number digits

def Shows (f : RadioFrame) (before after : Remote) : Prop :=
  match f with
  | .stick f => after.col.toNat = stickValue f.col ∧ after.row.toNat = stickValue f.row ∧
      after.key0 = before.key0 ∧ after.key1 = before.key1 ∧ after.key2 = before.key2
  | .keys f => after.key0 = (if f.first.val % 2 = 1 then 1 else 0) ∧
      after.key1 = (if f.first.val % 3 = 1 then 1 else 0) ∧
      after.key2 = (if f.second.val % 3 = 1 then 1 else 0) ∧
      after.col = before.col ∧ after.row = before.row

theorem centred_stick (digits : List (Fin 10)) (short : digits.length ≤ 4) :
    (centred (UInt32.ofInt (number digits))).toNat = stickValue digits := by
  have bound := number_bound digits
  have room : 10^digits.length ≤ 10^4 := Nat.pow_le_pow_right (by decide) short
  have value : (UInt32.ofInt (number digits)).toNat = number digits := by
    have small := MachineWord.ofInt_small (show (0 : Int) ≤ number digits by omega) (by omega)
    omega
  unfold centred stickValue
  generalize UInt32.ofInt (number digits) = word at value ⊢
  rw [← value]
  have middle : word > 45 ∧ word < 55 ↔ 45 < word.toNat ∧ word.toNat < 55 :=
    and_congr UInt32.lt_iff_toNat_lt UInt32.lt_iff_toNat_lt
  by_cases inside : 45 < word.toNat ∧ word.toNat < 55
  · rw [if_pos inside,if_pos (middle.mpr inside)]
    rfl
  · rw [if_neg inside,if_neg fun between => inside (middle.mp between)]

theorem shows_command (f : RadioFrame) (r : Remote) (tick : UInt32) : Shows f r (r.apply tick f.command) := by
  cases f with
  | stick f => exact ⟨centred_stick f.col f.colShort,centred_stick f.row f.rowShort,rfl,rfl,rfl⟩
  | keys f =>
    have even : ∀ digit : Fin 10, (digit.val : Int).tmod 2 = 1 ↔ digit.val % 2 = 1 := by decide
    have third : ∀ digit : Fin 10, (digit.val : Int).tmod 3 = 1 ↔ digit.val % 3 = 1 := by decide
    simp only [Shows,RadioFrame.command,Remote.apply,even,third]
    exact ⟨trivial,trivial,trivial,trivial,trivial⟩

theorem radio_exact (libm : Libm) (d : Device) (reached : Device.Reached libm d) (f : RadioFrame) :
    Shows f d.usv.remote (Runs.run (Device.step libm) d (f.bytes.map .radioByte)).usv.remote ∧
      (Runs.run (Device.step libm) d (f.bytes.map .radioByte)).radio.loraBufferIndex = 0 := by
  obtain ⟨decoded,idle⟩ := d.radio.frame_decoded (Device.radio_sound reached).size f
  obtain ⟨radio,usv⟩ := Device.radio_fed libm d f.bytes
  rw [radio,usv,decoded]
  exact ⟨shows_command f d.usv.remote d.usv.tick,idle⟩

-- H21Z cut short by A47,3Z, after an H frame that was never ended.
def leftover : List UInt8 := [72,49,49,49,72,50,49]

def steady : StickFrame := ⟨[4,7],[3],by decide,by decide,by decide,by decide⟩

theorem cut_short_decoded :
    Shows (.stick steady) Remote.boot (Runs.run (Device.step .level)
      (Runs.run (Device.step .level) (Device.boot fun _ => []) (leftover.map .radioByte))
      ((RadioFrame.stick steady).bytes.map .radioByte)).usv.remote :=
  (radio_exact .level (Runs.run (Device.step .level) (Device.boot fun _ => []) (leftover.map .radioByte))
    ⟨fun _ => [],leftover.map .radioByte,rfl⟩ (.stick steady)).1

end UsvRt
