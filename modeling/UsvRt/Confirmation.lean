import UsvRt.ServerRecovery

-- raspberry.c's sender thread beside its receiver, switching where they block.
namespace UsvRt.Confirmation
open Runs TextScan

def bytePercent : UInt8 := 37
def byteFeed : UInt8 := 10

-- Where lora_send sleeps: after each line it prints, and at the end of its loop.
-- Between two obstacle lines it keeps the indices still to be visited.
inductive Pause where
  | started
  | afterDraw
  | afterWater
  | afterObstacle (rest : List Nat)
  | afterPosition
  | afterEcho
  | cycle
  deriving DecidableEq

inductive Line where
  | draw
  | water
  | obstacle (i : Nat)
  | position
  | echo (text : List UInt8)
  deriving DecidableEq

structure View where
  tick : UInt32
  drawStatus : Int
  minDistance : Int
  targetId : Nat → Int

structure Serial where
  server : ServerParser
  reply : Reply
  pause : Pause
  drawSendTick : UInt32
  lines : List Line

namespace Serial

def boot (stack : List (List UInt8)) : Serial := ⟨.boot stack,.boot,.started,0,[]⟩

def emit (s : Serial) (out : Line × Pause) : Serial := {s with lines:=s.lines++[out.1],pause:=out.2}

def echoes (s : Serial) : List (List UInt8) :=
  s.lines.filterMap fun
    | .echo text => some text
    | _ => none

end Serial

def obstacleLines (view : View) : List Nat → Line × Pause
  | [] => (.position,.afterPosition)
  | i::rest => if view.targetId i = 1 then (.obstacle i,.afterObstacle rest) else obstacleLines view rest

def detectLines (view : View) : Line × Pause :=
  if view.minDistance < 1500 then obstacleLines view (List.range 10) else (.position,.afterPosition)

def waterLines (view : View) : Line × Pause :=
  if view.drawStatus = 4 then (.water,.afterWater) else detectLines view

-- lora_send from one delay to the next. Its confirmation is a format string of
-- rt_kprintf, here `kprintf`.
def loraSend (kprintf : List UInt8 → List UInt8) (s : Serial) (view : View) : Serial :=
  match s.pause with
  | .started | .cycle =>
    if s.reply.sendStatusData = 1 then
      if view.tick - s.drawSendTick > 1000 then {s.emit (.draw,.afterDraw) with drawSendTick:=view.tick}
      else s.emit (waterLines view)
    else if s.reply.sendConfirmData = 1 then s.emit (.echo (kprintf (cString s.server.loraBuffer)),.afterEcho)
    else {s with pause:=.cycle}
  | .afterDraw => s.emit (waterLines view)
  | .afterWater => s.emit (detectLines view)
  | .afterObstacle rest => s.emit (obstacleLines view rest)
  | .afterPosition => {s with pause:=.cycle}
  | .afterEcho => {s with reply:={s.reply with sendStatusData:=1,sendDetectData:=0},pause:=.cycle}

def loraRec (s : Serial) (loraChar : UInt8) : Serial :=
  {s with
    server:=(s.server.receive loraChar).1
    reply:=(s.server.receive loraChar).2.toList.foldl Reply.request s.reply}

inductive Turn where
  | byte (loraChar : UInt8)
  | send (view : View)

variable (kprintf : List UInt8 → List UInt8)

def turn (s : Serial) : Turn → Serial
  | .byte loraChar => loraRec s loraChar
  | .send view => loraSend kprintf s view

-- Neither a conversion for rt_kprintf nor a line feed, before which the console port
-- puts a CR.
def Verbatim (text : List UInt8) : Prop := bytePercent ∉ text ∧ byteFeed ∉ text

instance (text : List UInt8) : Decidable (Verbatim text) := inferInstanceAs (Decidable (_ ∧ _))

-- Such a format string, inside rt_kprintf's buffer, prints itself.
def Prints : Prop := ∀ text : List UInt8, text.length < 255 → Verbatim text → kprintf text = text

def remaining : Pause → Nat
  | .started | .cycle => 1
  | .afterPosition | .afterEcho => 2
  | .afterObstacle rest => rest.length+3
  | .afterWater => 13
  | .afterDraw => 14

structure Reports (out : Line × Pause) (bound : Nat) : Prop where
  silent : ∀ text, out.1 ≠ .echo text
  free : out.2 ≠ .afterEcho
  near : remaining out.2 ≤ bound

theorem position_reports (enough : 2 ≤ bound) : Reports (.position,.afterPosition) bound :=
  ⟨by simp,by simp,enough⟩

theorem obstacle_reports (view : View) (rest : List Nat) : Reports (obstacleLines view rest) (rest.length+2) := by
  induction rest with
  | nil => exact position_reports (Nat.le_refl _)
  | cons i rest ih =>
    unfold obstacleLines
    split
    · refine ⟨by simp,by simp,?_⟩
      simp only [remaining,List.length_cons]
      omega
    · exact ⟨ih.silent,ih.free,Nat.le_trans ih.near (by simp only [List.length_cons]; omega)⟩

theorem detect_reports (view : View) : Reports (detectLines view) 12 := by
  unfold detectLines
  split
  · exact obstacle_reports view (List.range 10)
  · exact position_reports (by decide)

theorem water_reports (view : View) : Reports (waterLines view) 13 := by
  have detect := detect_reports view
  unfold waterLines
  split
  · exact ⟨by simp,by simp,by decide⟩
  · exact ⟨detect.silent,detect.free,Nat.le_succ_of_le detect.near⟩

theorem emit_silent (s : Serial) (silent : ∀ text, out.1 ≠ .echo text) : (s.emit out).echoes = s.echoes := by
  obtain ⟨line,pause⟩ := out
  cases line with
  | echo text => exact absurd rfl (silent text)
  | draw | water | obstacle | position => simp [Serial.emit,Serial.echoes]

theorem emit_echo (s : Serial) (text : List UInt8) (pause : Pause) :
    (s.emit (.echo text,pause)).echoes = s.echoes++[text] := by
  simp [Serial.emit,Serial.echoes]

structure Cycles (s next : Serial) : Prop where
  server : next.server = s.server
  reply : next.reply = s.reply
  echoes : next.echoes = s.echoes
  free : next.pause ≠ .afterEcho
  top : remaining s.pause = 1 → s.reply.sendStatusData = 1
  nearer : remaining s.pause ≠ 1 → remaining next.pause < remaining s.pause
  bounded : remaining next.pause ≤ max 14 (remaining s.pause)

-- Everything one resumption of lora_send can do.
inductive Resumed (s : Serial) : Serial → Prop where
  | echoed (paused : s.pause = .afterEcho) :
      Resumed s {s with reply:={s.reply with sendStatusData:=1,sendDetectData:=0},pause:=.cycle}
  | confirm (top : remaining s.pause = 1) (status : s.reply.sendStatusData ≠ 1) (requested : s.reply.sendConfirmData = 1) :
      Resumed s (s.emit (.echo (kprintf (cString s.server.loraBuffer)),.afterEcho))
  | idle (top : remaining s.pause = 1) (status : s.reply.sendStatusData ≠ 1) (unrequested : s.reply.sendConfirmData ≠ 1) :
      Resumed s {s with pause:=.cycle}
  | report (free : s.pause ≠ .afterEcho) (cycles : Cycles s next) : Resumed s next

theorem emit_cycles (s : Serial) (reports : Reports out bound) (top : remaining s.pause = 1 → s.reply.sendStatusData = 1)
    (nearer : remaining s.pause ≠ 1 → bound < remaining s.pause) (bounded : bound ≤ max 14 (remaining s.pause)) :
    Cycles s (s.emit out) :=
  ⟨rfl,rfl,emit_silent s reports.silent,reports.free,top,fun past => Nat.lt_of_le_of_lt reports.near (nearer past),
    Nat.le_trans reports.near bounded⟩

theorem send_top (s : Serial) (view : View) (top : s.pause = .started ∨ s.pause = .cycle) :
    loraSend kprintf s view =
      if s.reply.sendStatusData = 1 then
        if view.tick - s.drawSendTick > 1000 then {s.emit (.draw,.afterDraw) with drawSendTick:=view.tick}
        else s.emit (waterLines view)
      else if s.reply.sendConfirmData = 1 then s.emit (.echo (kprintf (cString s.server.loraBuffer)),.afterEcho)
      else {s with pause:=.cycle} := by
  unfold loraSend
  rcases top with same | same <;> rw [same]

theorem top_resumed (s : Serial) (view : View) (top : s.pause = .started ∨ s.pause = .cycle) :
    Resumed kprintf s (loraSend kprintf s view) := by
  have one : remaining s.pause = 1 := by
    rcases top with same | same <;> rw [same] <;> rfl
  have free : s.pause ≠ .afterEcho := by
    rcases top with same | same <;> rw [same] <;> simp
  rw [send_top kprintf s view top]
  split
  · rename_i status
    split
    · have draw : Reports (.draw,.afterDraw) 14 := ⟨by simp,by simp,Nat.le_refl _⟩
      have cycles := emit_cycles s draw (fun _ => status) (fun past => absurd one past) (Nat.le_max_left _ _)
      exact .report free ⟨cycles.server,cycles.reply,cycles.echoes,cycles.free,cycles.top,cycles.nearer,cycles.bounded⟩
    · exact .report free (emit_cycles s (water_reports view) (fun _ => status) (fun past => absurd one past)
        (Nat.le_trans (by decide) (Nat.le_max_left _ _)))
  · rename_i status
    split
    · rename_i requested
      exact .confirm one status requested
    · rename_i unrequested
      exact .idle one status unrequested

theorem send_resumed (s : Serial) (view : View) : Resumed kprintf s (loraSend kprintf s view) := by
  cases paused : s.pause with
  | started => exact top_resumed kprintf s view (.inl paused)
  | cycle => exact top_resumed kprintf s view (.inr paused)
  | afterEcho =>
    have sent : loraSend kprintf s view =
        {s with reply:={s.reply with sendStatusData:=1,sendDetectData:=0},pause:=.cycle} := by
      unfold loraSend; rw [paused]
    rw [sent]
    exact .echoed paused
  | afterDraw =>
    have sent : loraSend kprintf s view = s.emit (waterLines view) := by
      unfold loraSend; rw [paused]
    have length : remaining s.pause = 14 := by rw [paused]; rfl
    rw [sent]
    exact .report (by rw [paused]; simp) (emit_cycles s (water_reports view) (by omega) (by omega) (by omega))
  | afterWater =>
    have sent : loraSend kprintf s view = s.emit (detectLines view) := by
      unfold loraSend; rw [paused]
    have length : remaining s.pause = 13 := by rw [paused]; rfl
    rw [sent]
    exact .report (by rw [paused]; simp) (emit_cycles s (detect_reports view) (by omega) (by omega) (by omega))
  | afterObstacle rest =>
    have sent : loraSend kprintf s view = s.emit (obstacleLines view rest) := by
      unfold loraSend; rw [paused]
    have length : remaining s.pause = rest.length+3 := by rw [paused]; rfl
    rw [sent]
    exact .report (by rw [paused]; simp) (emit_cycles s (obstacle_reports view rest) (by omega) (by omega) (by omega))
  | afterPosition =>
    have sent : loraSend kprintf s view = {s with pause:=.cycle} := by
      unfold loraSend; rw [paused]
    have length : remaining s.pause = 2 := by rw [paused]; rfl
    rw [sent]
    refine .report (by rw [paused]; simp) ⟨rfl,rfl,rfl,by simp,by omega,fun _ => ?_,?_⟩
    · rw [length]
      exact (by decide : 1 < 2)
    · rw [length]
      exact (by decide : 1 ≤ max 14 2)

-- The confirmations still to be printed: none, none while the delay of the last
-- one runs, or the message whose bytes lora_buffer holds.
inductive Owes (s : Serial) : List (List UInt8) → Prop where
  | clear (status : s.reply.sendStatusData = 1) (free : s.pause ≠ .afterEcho) : Owes s []
  | printed (status : s.reply.sendStatusData ≠ 1) (paused : s.pause = .afterEcho) : Owes s []
  | owed (status : s.reply.sendStatusData ≠ 1) (requested : s.reply.sendConfirmData = 1) (free : s.pause ≠ .afterEcho)
      (text : cString s.server.loraBuffer = message) (short : message.length < 255) (plain : Verbatim message) :
      Owes s [message]

-- A resumption prints what is owed, or keeps it and comes nearer to it.
theorem send_owes (prints : Prints kprintf) (s : Serial) (view : View) (owes : Owes s owed) :
    (Owes (loraSend kprintf s view) [] ∧ (loraSend kprintf s view).echoes = s.echoes++owed) ∨
      (Owes (loraSend kprintf s view) owed ∧ (loraSend kprintf s view).echoes = s.echoes ∧
        remaining (loraSend kprintf s view).pause < remaining s.pause) := by
  have resumed := send_resumed kprintf s view
  generalize loraSend kprintf s view = next at resumed
  cases resumed with
  | echoed paused =>
    cases owes with
    | clear _ free => exact absurd paused free
    | printed => exact .inl ⟨.clear rfl (by simp),by simp [Serial.echoes]⟩
    | owed _ _ free => exact absurd paused free
  | confirm top status requested =>
    cases owes with
    | clear one => exact absurd one status
    | printed _ paused =>
      rw [paused] at top
      cases top
    | owed _ _ _ text short plain =>
      rw [text,prints _ short plain]
      exact .inl ⟨.printed status rfl,emit_echo s _ _⟩
  | idle top status unrequested =>
    cases owes with
    | clear one => exact absurd one status
    | printed _ paused =>
      rw [paused] at top
      cases top
    | owed _ requested => exact absurd requested unrequested
  | report free cycles =>
    cases owes with
    | clear one => exact .inl ⟨.clear (by rw [cycles.reply]; exact one) cycles.free,by simp [cycles.echoes]⟩
    | printed _ paused => exact absurd paused free
    | owed status requested _ text short plain =>
      have past : remaining s.pause ≠ 1 := fun top => status (cycles.top top)
      refine .inr ⟨?_,cycles.echoes,cycles.nearer past⟩
      exact .owed (by rw [cycles.reply]; exact status) (by rw [cycles.reply]; exact requested) cycles.free
        (by rw [cycles.server]; exact text) short plain

theorem rec_echoes (s : Serial) (loraChar : UInt8) : (loraRec s loraChar).echoes = s.echoes := rfl

-- The receiver here and the board's receiver are one: the same bytes leave both with
-- the same parser and the same flags.
theorem rec_feed (libm : Libm) (d : Device) (s : Serial) (server : s.server = d.server) (reply : s.reply = d.usv.reply)
    (bytes : List UInt8) :
    (run (turn kprintf) s (bytes.map .byte)).server = (d.feed libm bytes).server ∧
      (run (turn kprintf) s (bytes.map .byte)).reply = (d.feed libm bytes).usv.reply := by
  induction bytes generalizing d s with
  | nil => exact ⟨server,reply⟩
  | cons b rest ih =>
    refine ih (d.step libm (.serverByte b)) (loraRec s b) ?_ ?_
    · change (s.server.receive b).1 = (d.server.receive b).1
      rw [server]
    · have effect := (d.feed_effect libm [b]).2
      simp only [ServerParser.commands,List.append_nil] at effect
      refine Eq.trans ?_ effect.symm
      change (s.server.receive b).2.toList.foldl Reply.request s.reply = _
      rw [server,reply]

theorem rec_inner (s : Serial) {loraChar : UInt8} (inner : loraChar ≠ byteZ) :
    loraRec s loraChar = {s with server:=(s.server.receive loraChar).1} := by
  unfold loraRec
  rw [s.server.receive_inner inner]
  rfl

theorem receive_same (p : ServerParser) {b : UInt8} (inner : b ≠ byteZ) (cell : p.loraBuffer[p.loraBufferIndex]? = some b) :
    (p.receive b).1.loraBuffer = p.loraBuffer := by
  rw [p.receive_inner inner,ServerParser.limit_buffer]
  obtain ⟨same,_⟩ | ⟨infoType,same,_⟩ := p.store_cases b
  · rw [same]
  · rw [same]
    obtain ⟨inside,value⟩ := List.getElem?_eq_some_iff.mp cell
    change p.loraBuffer.set p.loraBufferIndex b = p.loraBuffer
    rw [← value]
    exact List.set_getElem_self inside

-- No byte falls into a running confirmation, except inner bytes of the next message
-- during the delay after it, or where lora_buffer already holds them.
def Clear (s : Serial) : Turn → Prop
  | .byte loraChar => s.reply.sendStatusData = 1 ∨
      (loraChar ≠ byteZ ∧ (s.pause = .afterEcho ∨ s.server.loraBuffer[s.server.loraBufferIndex]? = some loraChar))
  | .send _ => True

instance (s : Serial) (t : Turn) : Decidable (Clear s t) :=
  match t with
  | .byte _ => inferInstanceAs (Decidable (_ ∨ _ ∧ _))
  | .send _ => inferInstanceAs (Decidable True)

theorem byte_owes (s : Serial) {loraChar : UInt8} (owes : Owes s owed) (inner : loraChar ≠ byteZ)
    (clear : Clear s (.byte loraChar)) : Owes (loraRec s loraChar) owed := by
  rw [rec_inner s inner]
  cases owes with
  | clear status free => exact .clear status free
  | printed status paused => exact .printed status paused
  | owed status requested free text short plain =>
    rcases clear with one | ⟨_,paused | cell⟩
    · exact absurd one status
    · exact absurd paused free
    · refine .owed status requested free ?_ short plain
      dsimp only
      rw [receive_same s.server inner cell]
      exact text

theorem owed_byte (s : Serial) {loraChar : UInt8} (owes : Owes s [message]) (clear : Clear s (.byte loraChar)) :
    loraChar ≠ byteZ := by
  cases owes with
  | owed status =>
    rcases clear with one | ⟨inner,_⟩
    · exact absurd one status
    · exact inner

theorem remaining_positive (pause : Pause) : 0 < remaining pause := by
  cases pause with
  | afterObstacle rest => exact Nat.zero_lt_succ _
  | started | afterDraw | afterWater | afterPosition | afterEcho | cycle => decide

theorem turn_printed (s : Serial) (t : Turn) : s.echoes <+: (turn kprintf s t).echoes := by
  cases t with
  | byte loraChar => exact List.prefix_refl _
  | send view =>
    change s.echoes <+: (loraSend kprintf s view).echoes
    have resumed := send_resumed kprintf s view
    generalize loraSend kprintf s view = next at resumed
    cases resumed with
    | echoed | idle => exact List.prefix_refl _
    | confirm => rw [emit_echo]; exact List.prefix_append _ _
    | report free cycles => rw [cycles.echoes]

theorem run_printed (s : Serial) (turns : List Turn) : s.echoes <+: (run (turn kprintf) s turns).echoes := by
  induction turns generalizing s with
  | nil => exact List.prefix_refl _
  | cons t rest ih => exact (turn_printed kprintf s t).trans (ih (turn kprintf s t))

def sends : List Turn → Nat
  | [] => 0
  | .byte _::rest => sends rest
  | .send _::rest => sends rest+1

theorem owed_printed (prints : Prints kprintf) (s : Serial) (turns : List Turn) (owes : Owes s [message])
    (clear : Along (turn kprintf) Clear s turns) (enough : remaining s.pause ≤ sends turns) :
    s.echoes++[message] <+: (run (turn kprintf) s turns).echoes := by
  induction turns generalizing s with
  | nil =>
    have positive := remaining_positive s.pause
    simp only [sends] at enough
    omega
  | cons t rest ih =>
    cases t with
    | byte loraChar => exact ih (loraRec s loraChar) (byte_owes s owes (owed_byte s owes clear.1) clear.1) clear.2 enough
    | send view =>
      rcases send_owes kprintf prints s view owes with ⟨_,printed⟩ | ⟨kept,same,nearer⟩
      · rw [← printed]
        exact run_printed kprintf _ rest
      · rw [← same]
        simp only [sends] at enough
        exact ih _ kept clear.2 (by omega)

theorem owes_printed (prints : Prints kprintf) (s : Serial) (turns : List Turn) (owes : Owes s owed)
    (clear : Along (turn kprintf) Clear s turns) (enough : remaining s.pause ≤ sends turns) :
    s.echoes++owed <+: (run (turn kprintf) s turns).echoes := by
  cases owed with
  | nil => rw [List.append_nil]; exact run_printed kprintf s turns
  | cons message others =>
    have single : others = [] := by cases owes; rfl
    subst single
    exact owed_printed kprintf prints s turns owes clear enough

def Near (s : Serial) : Prop := remaining s.pause ≤ 14

theorem turn_near (s : Serial) (t : Turn) (bounded : Near s) : Near (turn kprintf s t) := by
  cases t with
  | byte loraChar => exact bounded
  | send view =>
    change remaining (loraSend kprintf s view).pause ≤ 14
    have resumed := send_resumed kprintf s view
    generalize loraSend kprintf s view = next at resumed
    cases resumed with
    | echoed | idle => exact (by decide : 1 ≤ 14)
    | confirm => exact (by decide : 2 ≤ 14)
    | report free cycles => exact Nat.le_trans cycles.bounded (Nat.max_le.mpr ⟨Nat.le_refl _,bounded⟩)

def received : List Turn → List UInt8
  | [] => []
  | .byte loraChar::rest => loraChar::received rest
  | .send _::rest => received rest

def stream (messages : List ServerMessage) : List UInt8 := messages.flatMap ServerMessage.bytes

def completed (messages : List ServerMessage) (bytes : List UInt8) : List (List UInt8) :=
  (messages.take (bytes.count byteZ)).map ServerMessage.bytes

structure Confirmable (m : ServerMessage) : Prop where
  confirmed : m.infoType = 1 ∨ m.infoType = 2 ∨ m.infoType = 4 ∨ m.infoType = 5 ∨ m.infoType = 6
  plain : Verbatim m.bytes

theorem confirmable_command (confirmable : Confirmable m) : ∃ c, m.command = some c ∧ c.confirmed = true := by
  unfold ServerMessage.command decodeServer
  rcases confirmable.confirmed with type | type | type | type | type <;> rw [type] <;> exact ⟨_,rfl,rfl⟩

-- The last byte of a message, received while nothing is owed, makes it owed.
theorem last_owes (s : Serial) (confirmable : Confirmable m) (mid : ServerParser.Midway s.server m got [b])
    (status : s.reply.sendStatusData = 1) (owes : Owes s owed) :
    owed = [] ∧ Owes (loraRec s b) [m.bytes] := by
  obtain ⟨_,command,_,text⟩ := s.server.midway_last mid
  obtain ⟨c,means,confirmed⟩ := confirmable_command confirmable
  have fits := m.fits
  have reply : (loraRec s b).reply = {s.reply with sendStatusData:=0,sendConfirmData:=1} := by
    simp only [loraRec,command,means,Option.toList_some,List.foldl_cons,List.foldl_nil,Reply.request,confirmed,if_true]
  cases owes with
  | clear _ free =>
    refine ⟨rfl,.owed ?_ ?_ free text (Nat.lt_of_le_of_lt fits (by decide)) confirmable.plain⟩
    · rw [reply]; exact (by decide : (0 : Int) ≠ 1)
    · rw [reply]
  | printed other => exact absurd status other
  | owed other => exact absurd status other

def Before (p : ServerParser) (got : List UInt8) : List ServerMessage → Prop
  | [] => got = []
  | m::_ => ∃ left, left ≠ [] ∧ p.Midway m got left

theorem before_next (p : ServerParser) (sound : p.Sound) (idle : p.loraBufferIndex = 0) (messages : List ServerMessage) :
    Before p [] messages := by
  cases messages with
  | nil => rfl
  | cons m rest => exact ⟨m.bytes,by simp [m.bytes_shape],p.midway_start sound idle m⟩

theorem send_server (s : Serial) (view : View) : (loraSend kprintf s view).server = s.server := by
  have resumed := send_resumed kprintf s view
  generalize loraSend kprintf s view = next at resumed
  cases resumed with
  | echoed | idle | confirm => rfl
  | report free cycles => exact cycles.server

theorem completed_last (m : ServerMessage) (messages : List ServerMessage) (bytes : List UInt8) :
    completed (m::messages) (byteZ::bytes) = m.bytes::completed messages bytes := by
  simp [completed]

theorem completed_inner (messages : List ServerMessage) (bytes : List UInt8) (inner : b ≠ byteZ) :
    completed messages (b::bytes) = completed messages bytes := by
  simp only [completed,List.count_cons_of_ne inner]

-- The next byte of the stream belongs to the message under way, and leaves the rest of the stream.
theorem incoming_byte (before : Before p got messages) (incoming : got++b::bytes <+: stream messages) :
    ∃ m later left, messages = m::later ∧ p.Midway m got (b::left) ∧ bytes <+: left++stream later ∧
      stream messages = got++b::(left++stream later) := by
  cases messages with
  | nil =>
    have none : got++b::bytes = [] := List.prefix_nil.mp incoming
    simp at none
  | cons m later =>
    obtain ⟨left,more,mid⟩ := before
    obtain ⟨c,left,rfl⟩ := List.exists_cons_of_ne_nil more
    have shape : stream (m::later) = got++c::(left++stream later) := by
      simp [stream,mid.split]
    rw [shape,List.prefix_append_right_inj,List.cons_prefix_cons] at incoming
    obtain ⟨rfl,incoming⟩ := incoming
    exact ⟨m,later,left,rfl,mid,incoming,shape⟩

-- Over a run, what was printed and what is still owed are the completed messages.
theorem run_owes (prints : Prints kprintf) (s : Serial) (turns : List Turn) (messages : List ServerMessage)
    (got : List UInt8) (confirmable : ∀ m ∈ messages, Confirmable m) (before : Before s.server got messages)
    (owes : Owes s owed) (clear : Along (turn kprintf) Clear s turns) (incoming : got++received turns <+: stream messages) :
    ∃ final, Owes (run (turn kprintf) s turns) final ∧
      (run (turn kprintf) s turns).echoes++final = s.echoes++owed++completed messages (received turns) := by
  induction turns generalizing s messages got owed with
  | nil => exact ⟨owed,owes,by simp [completed,received]⟩
  | cons t rest ih =>
    cases t with
    | send view =>
      have kept : Before (loraSend kprintf s view).server got messages := by rw [send_server]; exact before
      rcases send_owes kprintf prints s view owes with ⟨none,printed⟩ | ⟨same,unprinted,_⟩
      · obtain ⟨final,last,shape⟩ := ih (loraSend kprintf s view) messages got confirmable kept none clear.2 incoming
        rw [printed,List.append_nil] at shape
        exact ⟨final,last,shape⟩
      · obtain ⟨final,last,shape⟩ := ih (loraSend kprintf s view) messages got confirmable kept same clear.2 incoming
        rw [unprinted] at shape
        exact ⟨final,last,shape⟩
    | byte b =>
      obtain ⟨m,later,left,rfl,mid,ahead,shape⟩ := incoming_byte before incoming
      cases left with
      | nil =>
        obtain ⟨last,_,idle,_⟩ := s.server.midway_last mid
        have status : s.reply.sendStatusData = 1 := by
          rcases clear.1 with one | ⟨inner,_⟩
          · exact one
          · exact absurd last inner
        obtain ⟨rfl,next⟩ := last_owes s (confirmable m List.mem_cons_self) mid status owes
        have sound := s.server.receive_sound mid.sound b
        have others : ∀ n ∈ later, Confirmable n := fun n member => confirmable n (List.mem_cons_of_mem _ member)
        obtain ⟨final,owing,printed⟩ := ih (loraRec s b) later [] others (before_next _ sound idle later) next clear.2 ahead
        refine ⟨final,owing,printed.trans ?_⟩
        rw [received,last,completed_last,rec_echoes]
        simp
      | cons d left =>
        obtain ⟨inner,next⟩ := s.server.midway_inner mid (by simp)
        have grown : (got++[b])++received rest <+: stream (m::later) := by
          rw [shape,List.append_assoc,List.singleton_append]
          exact (List.prefix_append_right_inj got).mpr (List.cons_prefix_cons.mpr ⟨rfl,ahead⟩)
        obtain ⟨final,owing,printed⟩ := ih (loraRec s b) (m::later) (got++[b]) confirmable ⟨d::left,by simp,next⟩
          (byte_owes s owes inner clear.1) clear.2 grown
        refine ⟨final,owing,printed.trans ?_⟩
        rw [received,completed_inner _ _ inner]
        rfl

-- Confirmations are the completed messages in order, each once and with its own
-- bytes; fourteen resumptions later none is missing.
def Confirms (stack : List (List UInt8)) (messages : List ServerMessage) (turns : List Turn) : Prop :=
  (run (turn kprintf) (.boot stack) turns).echoes <+: completed messages (received turns) ∧
    ∀ first second, turns = first++second → 14 ≤ sends second →
      completed messages (received first) <+: (run (turn kprintf) (.boot stack) turns).echoes

theorem received_append (first second : List Turn) : received (first++second) = received first++received second := by
  induction first with
  | nil => rfl
  | cons t rest ih =>
    cases t with
    | byte b => simp only [List.cons_append,received,ih]
    | send view => exact ih

theorem clear_confirms (prints : Prints kprintf) (stack : List (List UInt8)) (messages : List ServerMessage)
    (confirmable : ∀ m ∈ messages, Confirmable m) (turns : List Turn) (incoming : received turns <+: stream messages)
    (clear : Along (turn kprintf) Clear (.boot stack) turns) : Confirms kprintf stack messages turns := by
  have before := before_next (.boot stack) (ServerParser.boot_sound stack) rfl messages
  have owes : Owes (.boot stack) [] := .clear rfl (by simp [Serial.boot])
  refine ⟨?_,?_⟩
  · obtain ⟨final,_,shape⟩ := run_owes kprintf prints _ turns messages [] confirmable before owes clear incoming
    exact ⟨final,shape.trans (by simp [Serial.boot,Serial.echoes])⟩
  · rintro first second rfl enough
    obtain ⟨early,later⟩ := (along_append _ _).mp clear
    rw [received_append] at incoming
    obtain ⟨owed,owing,shape⟩ := run_owes kprintf prints _ first messages [] confirmable before owes early
      ((List.prefix_append _ _).trans incoming)
    have near : Near (run (turn kprintf) (.boot stack) first) := by
      refine Runs.Reached.invariant ?_ ?_ ⟨first,rfl⟩
      · exact turn_near kprintf
      · exact (by decide : 1 ≤ 14)
    have printed := owes_printed kprintf prints _ second owing later (Nat.le_trans near enough)
    rw [shape] at printed
    rw [run_append]
    simpa [Serial.boot,Serial.echoes] using printed

theorem unowed_sends (prints : Prints kprintf) (s : Serial) (owes : Owes s []) (views : List View) :
    (run (turn kprintf) s (views.map .send)).echoes = s.echoes := by
  induction views generalizing s with
  | nil => rfl
  | cons view rest ih =>
    rcases send_owes kprintf prints s view owes with ⟨next,same⟩ | ⟨next,same,_⟩
    · rw [List.append_nil] at same
      exact (ih _ next).trans same
    · exact (ih _ next).trans same

theorem sends_views (views : List View) : sends (views.map .send) = views.length := by
  induction views with
  | nil => rfl
  | cons view rest ih => simp only [List.map_cons,sends,ih,List.length_cons]

theorem plain_prints : Prints id := fun _ _ _ => rfl

def calm : View := ⟨0,0,10000,fun _ => 0⟩

theorem compass_confirmable (one : Bool) : Confirmable (compassMessage one) :=
  ⟨.inr (.inr (.inr (.inr rfl))),by cases one <;> decide⟩

def pair : List ServerMessage := [compassMessage true,compassMessage false]

theorem pair_confirmable : ∀ m ∈ pair, Confirmable m := by
  intro m member
  simp only [pair,List.mem_cons,List.not_mem_nil,or_false] at member
  rcases member with rfl | rfl
  · exact compass_confirmable true
  · exact compass_confirmable false

def spaced : List Turn :=
  (compassMessage true).bytes.map .byte ++ List.replicate 14 (.send calm) ++
    (compassMessage false).bytes.map .byte ++ List.replicate 14 (.send calm)

theorem spaced_confirms : Confirms id [] pair spaced :=
  clear_confirms id plain_prints [] pair pair_confirmable spaced (by decide) (by decide)

-- The second message during the delay after the first confirmation.
def crowded : List Turn :=
  (compassMessage true).bytes.map .byte ++ [.send calm] ++ (compassMessage false).bytes.map .byte

-- The second message but for its end before the first confirmation.
def mixed : List Turn := (compassMessage true).bytes.map .byte ++ [83,54,44,48].map .byte ++ [.send calm]

theorem second_unconfirmed :
    received crowded = stream pair ∧
      (∀ views : List View, 14 ≤ views.length → ¬ Confirms id [] pair (crowded++views.map .send)) ∧
      received mixed <+: stream pair ∧ ¬ Confirms id [] pair mixed := by
  refine ⟨by decide,?_,by decide,?_⟩
  · intro views enough confirms
    have owes : Owes (run (turn id) (.boot []) crowded) [] := .printed (by decide) (by decide)
    have all := confirms.2 crowded (views.map .send) rfl (by rw [sends_views]; exact enough)
    rw [run_append,unowed_sends id plain_prints _ owes] at all
    revert all
    decide
  · intro confirms
    have shown := confirms.1
    revert shown
    decide

end UsvRt.Confirmation
