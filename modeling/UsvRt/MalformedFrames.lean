import UsvRt.ServerRecovery

-- What a server frame does to the control globals when the scan of its text stops
-- early: the fields it reached are new, the others are what the strings held.
namespace UsvRt.MalformedFrames
open TextScan

def frameText (d : Device) (libm : Libm) (body : List UInt8) : List UInt8 :=
  cString ((d.feed libm (byteS::body)).server.frame ++ [byteZ])

-- The info_type the parser holds once the 'Z' is in. Only the second byte of a frame
-- sets it, and only when no 'S': it can be left over from an earlier frame.
def storedType (d : Device) (libm : Libm) (body : List UInt8) : Nat :=
  ((d.feed libm (byteS::body)).server.store byteZ).infoType

def converted (d : Device) (libm : Libm) (body : List UInt8) : List (List UInt8) :=
  convert (serverFormat (storedType d libm body)) (frameText d libm body)

def Malformed (d : Device) (libm : Libm) (body : List UInt8) : Prop :=
  (converted d libm body).length < fields (serverFormat (storedType d libm body))

instance (d : Device) (libm : Libm) (body : List UInt8) : Decidable (Malformed d libm body) :=
  inferInstanceAs (Decidable (_ < _))

-- The number read from c2.. (key 1..): converted now, or kept from before.
def fieldValue (converted kept : List (List UInt8)) (key : Nat) : Int :=
  atoi (if key < converted.length then converted.getD key [] else kept.getD key [])

-- Every control global after a frame of the given type: those the type names take
-- its fields, all others stay.
structure Fieldwise (infoType : Nat) (value : Nat → Int) (before after : Globals) : Prop where
  targetLng : after.control.targetLng =
    if infoType = 1 then floatT (value 1/1000000) else before.control.targetLng
  targetLat : after.control.targetLat =
    if infoType = 1 then floatT (value 2/1000000)
    else if infoType = 3 ∧ value 2 = 3 then 0 else before.control.targetLat
  bottleId : after.bottleId = if infoType = 2 then value 1 else before.bottleId
  bottleDeep : after.bottleDeep = if infoType = 2 then value 2 else before.bottleDeep
  bottleAmount : after.bottleAmount = if infoType = 2 then value 3 else before.bottleAmount
  drawStatus : after.drawStatus = if infoType = 2 then 0 else before.drawStatus
  controlVal : after.control.controlVal = if infoType = 3 then value 1 else before.control.controlVal
  controlMode : after.control.controlMode = if infoType = 3 then value 2 else before.control.controlMode
  networkBackhome : after.control.networkBackhome =
    if infoType = 4 then value 1 else before.control.networkBackhome
  energyBackhome : after.control.energyBackhome =
    if infoType = 4 then value 2 else before.control.energyBackhome
  obstacleAvoid : after.control.obstacleAvoid =
    if infoType = 4 then value 3 else before.control.obstacleAvoid
  handSpeed : after.control.handSpeed = if infoType = 4 then value 4 else before.control.handSpeed
  autoSpeed : after.control.autoSpeed = if infoType = 4 then value 5 else before.control.autoSpeed
  pid : after.control.pid =
    if infoType = 5 then (floatT (value 1/100),floatT (value 2/100),floatT (value 3/100)) else before.control.pid
  compassStatus : after.control.compassStatus =
    if infoType = 6 then value 1 else before.control.compassStatus
  isConnect : after.isConnect = if infoType = 8 then 1 else before.isConnect

def confirmedType (infoType : Nat) : Bool :=
  infoType == 1 || infoType == 2 || infoType == 4 || infoType == 5 || infoType == 6

theorem decode_fieldwise (infoType : Nat) (converted kept : List (List UInt8)) (g : Globals) :
    Fieldwise infoType (fieldValue converted kept) g
      ((decodeServer infoType (assign converted kept)).toList.foldl Globals.apply g) := by
  have read : ∀ key, atoi ((assign converted kept).getD key []) = fieldValue converted kept key := by
    intro key
    rw [assign_getD]; rfl
  unfold decodeServer
  simp only [read]
  split
  case h_3 =>
    by_cases homeless : fieldValue converted kept 2 = 3
    · constructor <;> simp [Globals.apply,Control.apply,Control.assign,homeless]
    · constructor <;> simp [Globals.apply,Control.apply,Control.assign,homeless]
  all_goals constructor <;> simp_all [Globals.apply,Control.apply,Control.assign]

theorem decode_confirmed (infoType : Nat) (scratch : List (List UInt8)) (r : Reply) :
    (decodeServer infoType scratch).toList.foldl Reply.request r =
      if confirmedType infoType then {r with sendStatusData:=0,sendConfirmData:=1} else r := by
  unfold decodeServer
  dsimp only
  split <;> simp_all [Reply.request,ServerCommand.confirmed,confirmedType]

-- From an idle receiver a frame without a further 'S' is the one in lora_buffer, of
-- the type its own digit names, as long as the buffer lasts.
theorem frame_kept (p : ServerParser) (sound : p.Sound) (idle : p.loraBufferIndex = 0) (body : List UInt8)
    (noStart : byteS ∉ body) (inner : byteZ ∉ body) (short : body.length < 48) :
    (p.receiveAll (byteS::body)).loraBufferIndex = body.length+1 ∧
      (p.receiveAll (byteS::body)).frame = byteS::body ∧
      ((p.receiveAll (byteS::body)).store byteZ).infoType = digitOf ((body++[byteZ]).headD 0) := by
  obtain ⟨index,first,_⟩ := p.frame_started sound idle
  have startSound := p.receive_sound sound byteS
  obtain ⟨frame,count⟩ := (p.receive byteS).1.frame_collected startSound (by omega) body inner (by omega)
  rw [first] at frame
  rw [index] at count
  refine ⟨count.trans (Nat.add_comm 1 _),frame,?_⟩
  cases body with
  | nil =>
    obtain ⟨_,zero,_⟩ | ⟨infoType,stored,_,_,second⟩ := (p.receive byteS).1.store_cases byteZ
    · omega
    · change ((p.receive byteS).1.store byteZ).infoType = _
      rw [stored]
      exact second index (by decide)
  | cons digit rest =>
    rw [List.mem_cons,not_or] at noStart inner
    have received := (p.receive byteS).1.receive_inner (Ne.symm inner.1)
    obtain ⟨_,zero,_⟩ | ⟨infoType,stored,_,_,second⟩ := (p.receive byteS).1.store_cases digit
    · omega
    have type : ((p.receive byteS).1.receive digit).1.infoType = digitOf digit := by
      rw [received,stored,ServerParser.limit_infoType]
      exact second index (Ne.symm noStart.1)
    have past : ((p.receive byteS).1.receive digit).1.loraBufferIndex ≠ 1 := by
      rw [received,stored,ServerParser.limit_index,ServerParser.typed_index,ServerParser.append_index,index]
      decide
    obtain ⟨kept,index⟩ := ServerParser.type_kept _ rest past noStart.2 inner.2
    have started : 0 < (p.receiveAll (byteS::digit::rest)).loraBufferIndex := by
      change (((p.receive byteS).1.receiveAll (digit::rest))).loraBufferIndex = _ at count
      change 0 < ((p.receive byteS).1.receiveAll (digit::rest)).loraBufferIndex
      omega
    exact (((p.receiveAll (byteS::digit::rest)).store_end started).2 index).trans (kept.trans type)

theorem idle_kept (p : ServerParser) (idle : p.loraBufferIndex = 0) (bytes : List UInt8) (noStart : byteS ∉ bytes)
    (inner : byteZ ∉ bytes) : (p.receiveAll bytes).loraBufferIndex = 0 := by
  induction bytes generalizing p with
  | nil => exact idle
  | cons b rest ih =>
    rw [List.mem_cons,not_or] at noStart inner
    apply ih (p.receive b).1 _ noStart.2 inner.2
    rw [p.receive_inner (Ne.symm inner.1)]
    obtain ⟨same,_⟩ | ⟨_,_,first,_⟩ := p.store_cases b
    · rw [same,ServerParser.limit_small p (by omega)]
      exact idle
    · exact absurd (first idle).symm noStart.1

-- The 49th byte empties the buffer, and what follows opens no frame.
theorem frame_dropped (p : ServerParser) (sound : p.Sound) (idle : p.loraBufferIndex = 0) (body : List UInt8)
    (noStart : byteS ∉ body) (inner : byteZ ∉ body) (long : 48 ≤ body.length) :
    (p.receiveAll (byteS::body)).loraBufferIndex = 0 := by
  have size : (body.take 47).length = 47 := by
    rw [List.length_take]
    omega
  obtain ⟨last,rest,shape⟩ : ∃ last rest, body.drop 47 = last::rest :=
    List.exists_cons_of_length_pos (by rw [List.length_drop]; omega)
  have split : body = body.take 47++last::rest := by
    rw [← shape,List.take_append_drop]
  have apart : byteS ∉ body.take 47 ∧ byteS ≠ last ∧ byteS ∉ rest := by
    rw [split,List.mem_append,List.mem_cons,not_or,not_or] at noStart
    exact noStart
  have within : byteZ ∉ body.take 47 ∧ byteZ ≠ last ∧ byteZ ∉ rest := by
    rw [split,List.mem_append,List.mem_cons,not_or,not_or] at inner
    exact inner
  obtain ⟨count,_⟩ := frame_kept p sound idle (body.take 47) apart.1 within.1 (by omega)
  rw [size] at count
  rw [split,← List.cons_append,ServerParser.receiveAll,List.foldl_append]
  apply idle_kept _ _ rest apart.2.2 within.2.2
  change ((p.receiveAll (byteS::body.take 47)).receive last).1.loraBufferIndex = 0
  rw [ServerParser.receive_inner _ (Ne.symm within.2.1)]
  obtain ⟨_,zero,_⟩ | ⟨infoType,stored,_⟩ := (p.receiveAll (byteS::body.take 47)).store_cases last
  · omega
  · rw [stored,ServerParser.limit_index,ServerParser.typed_index,ServerParser.append_index,count]
    decide

-- From an idle receiver and with no 'S' inside: dropped from 48 bytes between 'S' and
-- 'Z' on, else its text is the frame and its type the frame's digit.
theorem frame_from_idle (libm : Libm) (d : Device) (reached : Device.Reached libm d) (body : List UInt8)
    (unended : byteZ ∉ body) (idle : d.server.loraBufferIndex = 0) (noStart : byteS ∉ body) :
    ((d.feed libm (byteS::body)).server.loraBufferIndex = 0 ↔ 48 ≤ body.length) ∧
      (body.length < 48 → storedType d libm body = digitOf ((body++[byteZ]).headD 0) ∧
        frameText d libm body = cString (byteS::(body++[byteZ]))) := by
  have sound := Device.server_sound reached
  unfold storedType frameText
  rw [Device.feed_server]
  rcases Nat.lt_or_ge body.length 48 with short | long
  · obtain ⟨count,frame,type⟩ := frame_kept d.server sound idle body noStart unended short
    refine ⟨⟨fun zero => by omega,fun long => by omega⟩,fun _ => ⟨type,?_⟩⟩
    rw [frame]
    rfl
  · have dropped := frame_dropped d.server sound idle body noStart unended long
    exact ⟨⟨fun _ => long,fun _ => dropped⟩,fun short => by omega⟩

theorem unopened_frame (libm : Libm) (d : Device) (body : List UInt8) (unended : byteZ ∉ body)
    (dropped : (d.feed libm (byteS::body)).server.loraBufferIndex = 0) :
    (d.feed libm (byteS::(body++[byteZ]))).usv.globals = d.usv.globals ∧
      (d.feed libm (byteS::(body++[byteZ]))).usv.reply = d.usv.reply := by
  have inner : byteZ ∉ byteS::body := by
    rw [List.mem_cons,not_or]; exact ⟨by decide,unended⟩
  obtain ⟨globals,reply,_⟩ := Device.feed_inner libm d (byteS::body) inner
  obtain ⟨last,lastReply⟩ := Device.feed_effect libm (d.feed libm (byteS::body)) [byteZ]
  have quiet : (d.feed libm (byteS::body)).server.commands [byteZ] = [] := by
    simp [ServerParser.commands,ServerParser.receive_last _ dropped]
  rw [quiet] at last lastReply
  rw [← List.cons_append,Device.feed_append]
  exact ⟨last.trans globals,lastReply.trans reply⟩

-- For a frame that was not dropped, complete or not: each global of its type takes
-- the field the scan reached, or what an earlier message left in that string.
theorem frame_fieldwise (libm : Libm) (d : Device) (reached : Device.Reached libm d) (body : List UInt8)
    (unended : byteZ ∉ body) (opened : (d.feed libm (byteS::body)).server.loraBufferIndex ≠ 0) :
    Fieldwise (storedType d libm body) (fieldValue (converted d libm body) d.server.scratch) d.usv.globals
        (d.feed libm (byteS::(body++[byteZ]))).usv.globals ∧
      (d.feed libm (byteS::(body++[byteZ]))).usv.reply =
        if confirmedType (storedType d libm body) then {d.usv.reply with sendStatusData:=0,sendConfirmData:=1}
        else d.usv.reply := by
  have inner : byteZ ∉ byteS::body := by
    rw [List.mem_cons,not_or]; exact ⟨by decide,unended⟩
  have sound : (d.feed libm (byteS::body)).server.Sound :=
    Device.server_sound (reached.run ((byteS::body).map .serverByte))
  obtain ⟨globals,reply,scratch⟩ := Device.feed_inner libm d (byteS::body) inner
  obtain ⟨last,lastReply⟩ := Device.feed_effect libm (d.feed libm (byteS::body)) [byteZ]
  obtain ⟨command,_⟩ := ServerParser.receive_finish _ sound (Nat.pos_of_ne_zero opened)
  have commands : (d.feed libm (byteS::body)).server.commands [byteZ] =
      (decodeServer (storedType d libm body) (assign (converted d libm body) d.server.scratch)).toList := by
    rw [ServerParser.commands,command,scratch]
    simp [ServerParser.commands,storedType,converted,frameText]
  rw [← List.cons_append,Device.feed_append,last,lastReply,commands,globals,reply]
  exact ⟨decode_fieldwise _ _ _ _,decode_confirmed _ _ _⟩

-- S2,3,5,900Z
def sampling : List UInt8 := [83,50,44,51,44,53,44,57,48,48,90]

def sampled : Device := Device.feed .level (Device.boot silentStack) sampling

theorem sampled_reached : Device.Reached .level sampled := ⟨silentStack,sampling.map .serverByte,rfl⟩

-- S2,4Z after it: one field, and the scan stops at the missing comma.
def truncated : List UInt8 := [50,44,52]

end UsvRt.MalformedFrames
