import UsvRt.Confirmation
import UsvRt.Formatter

-- The confirmation hands a message of the peer's choosing to rt_kprintf as its
-- format: which messages come back as they were sent.
namespace UsvRt.EchoFormat
open Runs TextScan Confirmation FormatSyntax

-- What lora_buffer holds, up to its first NUL, once a 'Z' has ended the frame.
def message (p : ServerParser) : List UInt8 := cString (p.frame++[byteZ])

-- lora_send is about to print a confirmation.
structure Confirming (s : Serial) : Prop where
  top : s.pause = .started ∨ s.pause = .cycle
  status : s.reply.sendStatusData ≠ 1
  requested : s.reply.sendConfirmData = 1

-- No argument is passed: rt_kprintf would read what lies on the stack.
def Echoed (memory : UInt32 → List UInt8) (rtLogBuf : Nat → UInt8) (stack : List UInt32) (s : Serial) (view : View)
    (text : List UInt8) : Prop :=
  (loraSend (Formatter.rtKprintf memory rtLogBuf · stack) s view).lines = s.lines++[.echo text] ∧ arguments (walk text) = 0

theorem message_short (p : ServerParser) (sound : p.Sound) : (message p).length < 255 := by
  have room := sound.room
  have cut : (message p).length ≤ (p.frame++[byteZ]).length := (List.takeWhile_sublist _).length_le
  have frame : p.frame.length ≤ p.loraBufferIndex := List.length_take_le _ _
  rw [List.length_append,List.length_singleton] at cut
  omega

theorem turns_server (kprintf : List UInt8 → List UInt8) (s : Serial) (turns : List Turn) :
    (run (turn kprintf) s turns).server = s.server.receiveAll (received turns) := by
  induction turns generalizing s with
  | nil => rfl
  | cons t rest ih =>
    cases t with
    | byte loraChar => exact ih (loraRec s loraChar)
    | send view =>
      refine (ih (loraSend kprintf s view)).trans ?_
      rw [send_server]
      rfl

theorem sends_received (views : List View) : received (views.map .send) = [] := by
  induction views with
  | nil => rfl
  | cons view rest ih => exact ih

-- From an idle parser on, the message is what came over the wire.
theorem message_collected (p : ServerParser) (sound : p.Sound) (idle : p.loraBufferIndex = 0) (body : List UInt8)
    (inner : byteZ ∉ body) (short : body.length ≤ 47) : message (p.receiveAll (byteS::body)) = cString (byteS::body++[byteZ]) := by
  obtain ⟨index,first,_⟩ := p.frame_started sound idle
  have collected := ((p.receive byteS).1.frame_collected (p.receive_sound sound byteS) (by omega) body inner (by omega)).1
  unfold message
  change cString (((p.receive byteS).1.receiveAll body).frame++[byteZ]) = _
  rw [collected,first]
  rfl

theorem turns_sound (kprintf : List UInt8 → List UInt8) (stack : List (List UInt8)) (turns : List Turn) :
    (run (turn kprintf) (.boot stack) turns).server.Sound := by
  have every : ∀ (s : Serial) (t : Turn), s.server.Sound → (turn kprintf s t).server.Sound := by
    intro s t sound
    cases t with
    | byte loraChar => exact s.server.receive_sound sound loraChar
    | send view =>
      change (loraSend kprintf s view).server.Sound
      rw [send_server]
      exact sound
  have reached : Reached (turn kprintf) (.boot stack) (run (turn kprintf) (.boot stack) turns) := ⟨turns,rfl⟩
  have sound := reached.invariant every (ServerParser.boot_sound stack)
  exact sound

section Echo
variable (memory : UInt32 → List UInt8) (rtLogBuf : Nat → UInt8) (stack : List UInt32)

theorem confirm_exact (s : Serial) (view : View) (confirming : Confirming s)
    (text : List UInt8) (held : cString s.server.loraBuffer = text) (short : text.length < 255) :
    Echoed memory rtLogBuf stack s view text ↔ Plain text := by
  have sent := send_top (Formatter.rtKprintf memory rtLogBuf · stack) s view confirming.top
  rw [if_neg confirming.status,if_pos confirming.requested,held] at sent
  rw [← Formatter.kprintf_exact memory rtLogBuf text stack short]
  refine and_congr_left (fun _ => ?_)
  rw [sent]
  change s.lines++[Line.echo (Formatter.rtKprintf memory rtLogBuf text stack)] = s.lines++[.echo text] ↔ _
  simp

-- Whatever was printed before, and whatever memory holds by now.
theorem echo_exact (kprintf : List UInt8 → List UInt8) (stored : List (List UInt8)) (turns : List Turn)
    (opened : (run (turn kprintf) (.boot stored) turns).server.loraBufferIndex ≠ 0) (views : List View)
    (confirming : Confirming (run (turn kprintf) (.boot stored) (turns++.byte byteZ::views.map .send)))
    (view : View) :
    (Echoed memory rtLogBuf stack (run (turn kprintf) (.boot stored) (turns++.byte byteZ::views.map .send)) view
        (message (run (turn kprintf) (.boot stored) turns).server) ↔
      Plain (message (run (turn kprintf) (.boot stored) turns).server)) ∧
    ∀ before after body, turns = before++after → (run (turn kprintf) (.boot stored) before).server.loraBufferIndex = 0 →
      received after = byteS::body → byteZ ∉ body → body.length ≤ 47 →
        message (run (turn kprintf) (.boot stored) turns).server = cString (byteS::body++[byteZ]) := by
  have sound := turns_sound kprintf stored turns
  have held := (ServerParser.receive_finish _ sound (Nat.pos_of_ne_zero opened)).2.2
  constructor
  · refine confirm_exact memory rtLogBuf stack _ view confirming _ ?_ (message_short _ sound)
    rw [run_append,run_cons,turns_server,sends_received]
    exact held
  · intro before after body split idle bytes inner short
    have start := turns_sound kprintf stored before
    rw [split,run_append,turns_server _ _ after,bytes]
    exact message_collected _ start idle body inner short

end Echo

-- S6,1Z
def compassTurns : List Turn := [83,54,44,49].map .byte

theorem compass_echoed :
    Echoed (fun _ => []) (fun _ => 0) []
      (run (turn (Formatter.rtKprintf (fun _ => []) (fun _ => 0) · [])) (.boot []) (compassTurns++[.byte byteZ])) calm
      [83,54,44,49,90] :=
  (echo_exact (fun _ => []) (fun _ => 0) [] (Formatter.rtKprintf (fun _ => []) (fun _ => 0) · []) [] compassTurns (by decide) []
    ⟨.inl rfl,by decide,by decide⟩ calm).1.mpr (by decide)

theorem bytes_run (kprintf : List UInt8 → List UInt8) (s : Serial) (bytes : List UInt8) :
    run (turn kprintf) s (bytes.map .byte) = bytes.foldl loraRec s := by
  induction bytes generalizing s with
  | nil => rfl
  | cons b rest ih => exact ih (loraRec s b)

-- S6,%dZ
def percentBytes : List UInt8 := [83,54,44,37,100,90]

theorem percent_read : ¬∃ memory rtLogBuf stack,
    Echoed memory rtLogBuf stack (run (turn (Formatter.rtKprintf memory rtLogBuf · stack)) (.boot []) (percentBytes.map .byte)) calm
      percentBytes := by
  intro found
  obtain ⟨memory,rtLogBuf,stack,echoed⟩ := found
  have confirming : Confirming (percentBytes.foldl loraRec (.boot [])) := ⟨.inl rfl,by decide,by decide⟩
  rw [bytes_run,confirm_exact memory rtLogBuf stack _ calm confirming percentBytes (by decide) (by decide)] at echoed
  revert echoed
  decide

end UsvRt.EchoFormat
