import UsvRt.Confirmation
import UsvRt.PrintedNumbers

-- raspberry.c's lora_send down to the bytes on the wire, and how a shore station takes
-- them apart again.
namespace UsvRt.Telemetry
open Runs TextScan MachineWord Confirmation

-- The globals that lora_send prints or tests, as it finds them when it resumes. A
-- position and a heading are here already in the units they are printed in.
structure Globals where
  tick : UInt32
  shipId : Int32
  bottleId : Int32
  drawStatus : Int32
  dumpDrawTime : Int32
  fullDrawTime : Int32
  wt : Int32
  ph : Int32
  doDo : Int32
  ec : Int32
  td : Int32
  minDistance : Int32
  targetId : Nat → Int32
  targetAngle : Nat → Int32
  targetDistance : Nat → Int32
  lng : Int32
  lat : Int32
  dumpEnergy : Int32
  currentTheta : Int32
  currentMode : Int32
  angleError : Int32
  speed : Int32

def Globals.view (g : Globals) : View :=
  {tick:=g.tick,drawStatus:=g.drawStatus.toInt,minDistance:=g.minDistance.toInt,targetId:=fun i => (g.targetId i).toInt}

-- A letter, `%d` as often as there are values with commas between, then "Z\n".
def reportFormat (letter : UInt8) (count : Nat) : List UInt8 :=
  letter::([44].intercalate (List.replicate count [37,100])++[90,10])

-- "C%d,%d,%d,%d,%dZ\n", "B%d,%d,%d,%d,%d,%dZ\n", "D%d,%d,%d,%dZ\n" and
-- "A%d,%d,%d,%d,%d,%d,%d,%dZ\n".
def drawFormat : List UInt8 := reportFormat 67 5
def waterFormat : List UInt8 := reportFormat 66 6
def obstacleFormat : List UInt8 := reportFormat 68 4
def positionFormat : List UInt8 := reportFormat 65 8

example : obstacleFormat = [68,37,100,44,37,100,44,37,100,44,37,100,90,10] := by decide

def drawValues (g : Globals) : List Int32 := [g.shipId,g.bottleId,g.drawStatus,g.dumpDrawTime,g.fullDrawTime]
def waterValues (g : Globals) : List Int32 := [g.shipId,g.wt,g.ph,g.doDo,g.ec,g.td]
def obstacleValues (g : Globals) (i : Nat) : List Int32 := [g.shipId,Int32.ofNat i,g.targetAngle i,g.targetDistance i]
def positionValues (g : Globals) : List Int32 :=
  [g.shipId,g.lng,g.lat,g.dumpEnergy,g.currentTheta,g.currentMode,g.angleError,g.speed]

-- _serial_poll_tx with RT_DEVICE_FLAG_STREAM.
def serialPollTx (data : List UInt8) : List UInt8 := data.flatMap fun b => if b = 10 then [13,b] else [b]

-- What follows the arguments on the stack, the strings in memory and what rt_log_buf
-- held before do not reach a report.
variable (memory : UInt32 → List UInt8) (rtLogBuf : Nat → UInt8) (stack : List UInt32)

def kprintf (fmt : List UInt8) (args : List Int32) : List UInt8 :=
  Formatter.rtKprintf memory rtLogBuf fmt (args.map Int32.toUInt32++stack)

def lineText (g : Globals) : Line → List UInt8
  | .draw => kprintf memory rtLogBuf stack drawFormat (drawValues g)
  | .water => kprintf memory rtLogBuf stack waterFormat (waterValues g)
  | .obstacle i => kprintf memory rtLogBuf stack obstacleFormat (obstacleValues g i)
  | .position => kprintf memory rtLogBuf stack positionFormat (positionValues g)
  | .echo text => text

structure Sender where
  serial : Serial
  wire : List UInt8

inductive Event where
  | byte (loraChar : UInt8)
  | send (g : Globals)

def Event.turn : Event → Turn
  | .byte loraChar => .byte loraChar
  | .send g => .send g.view

-- What lora_send printed since its last resumption.
def printed (s : Serial) (e : Event) : List Line :=
  (turn (kprintf memory rtLogBuf stack · []) s e.turn).lines.drop s.lines.length

def Event.text (e : Event) (line : Line) : List UInt8 :=
  match e with
  | .byte _ => []
  | .send g => lineText memory rtLogBuf stack g line

def step (s : Sender) (e : Event) : Sender :=
  {serial:=turn (kprintf memory rtLogBuf stack · []) s.serial e.turn
   wire:=s.wire++(printed memory rtLogBuf stack s.serial e).flatMap fun line =>
    serialPollTx (e.text memory rtLogBuf stack line)}

theorem word_toInt (x : Int32) : asInt x.toUInt32 = x.toInt := by
  have bits : x.toUInt32.toNat = x.toBitVec.toNat := rfl
  have value : x.toInt = x.toBitVec.toInt := rfl
  rw [value,BitVec.toInt_eq_toNat_cond,asInt,bits]
  split <;> split <;> omega

def decimal (word : UInt32) : List UInt8 := Formatter.numberText word 10 (-1) (-1) ⟨false,true,false,false,false,false⟩

theorem decimal_atoi (word : UInt32) : atoi (decimal word) = asInt word := by
  rw [decimal,Formatter.atoi_field _ _ _ _ rfl]
  exact if_pos (by decide)

theorem decimal_plain (word : UInt32) :
    ∃ sign num : _, decimal word = sign++(Formatter.tmp false 10 num).reverse ∧ (sign = [] ∨ sign = [45]) ∧ num < 2^32 := by
  refine ⟨(Formatter.signByte ⟨false,true,false,false,false,false⟩ word).toList,
    Formatter.absolute ⟨false,true,false,false,false,false⟩ word,?_,?_,?_⟩
  · generalize same : Formatter.signByte ⟨false,true,false,false,false,false⟩ word = sign
    unfold decimal Formatter.numberText Formatter.layout
    rw [same]
    generalize Formatter.tmp false 10 _ = tmp
    have zeros : max (-1) (tmp.length : Int)-tmp.length = 0 := by omega
    have room : (-1-max (-1) (tmp.length : Int)-sign.toList.length).toNat = 0 := by omega
    dsimp only
    rw [zeros,room]
    rfl
  · unfold Formatter.signByte
    split <;> [split; skip] <;> simp
  · unfold Formatter.absolute
    split
    · exact (-word).toNat_lt
    · exact word.toNat_lt

theorem decimal_bytes (word : UInt32) : ∀ b ∈ decimal word, b = 45 ∨ isDigit b = true := by
  obtain ⟨sign,num,shape,minus,_⟩ := decimal_plain word
  obtain ⟨ds,_,digits,_⟩ := Formatter.tmp_decimal false num
  rw [shape,digits]
  intro b member
  rcases List.mem_append.mp member with first | later
  · rcases minus with rfl | rfl
    · cases first
    · exact .inl (List.mem_singleton.mp first)
  · exact .inr (digitsText_digits ds b later)

theorem decimal_absent (word : UInt32) (minus : b ≠ 45) (digit : isDigit b = false) : b ∉ decimal word := by
  intro member
  rcases decimal_bytes word b member with same | inside
  · exact minus same
  · rw [digit] at inside
    cases inside

theorem decimal_length (word : UInt32) : (decimal word).length ≤ 11 := by
  obtain ⟨sign,num,shape,minus,small⟩ := decimal_plain word
  have most := Formatter.tmp_length false 10 (UInt32.ofNat num)
  rw [UInt32.toNat_ofNat',Nat.mod_eq_of_lt small] at most
  rw [shape,List.length_append,List.length_reverse]
  rcases minus with rfl | rfl
  · simp only [List.length_nil]
    omega
  · simp only [List.length_singleton]
    omega

theorem text_decimal (rest : List UInt8) (args : List UInt32) :
    Formatter.text memory (37::100::rest) args = decimal (args.headD 0)++Formatter.text memory rest args.tail := by
  rw [Formatter.text,if_neg (by decide)]
  have parsed : Formatter.parse (100::rest) args = ⟨⟨false,false,false,false,false,false⟩,-1,-1,none,100::rest,args⟩ := rfl
  rw [parsed]
  rfl

theorem text_plain (rest : List UInt8) (args : List UInt32) (other : b ≠ 37) :
    Formatter.text memory (b::rest) args = b::Formatter.text memory rest args := by
  rw [Formatter.text,if_pos other]

def fieldsText (values : List Int32) : List UInt8 := [44].intercalate (values.map fun v => decimal v.toUInt32)
def reportText (letter : UInt8) (values : List Int32) : List UInt8 := letter::(fieldsText values++[90,10])

theorem fields_cons (v w : Int32) (others : List Int32) :
    fieldsText (v::w::others) = decimal v.toUInt32++44::fieldsText (w::others) := by
  simp [fieldsText]

theorem fields_single (v : Int32) : fieldsText [v] = decimal v.toUInt32 := List.intercalate_singleton

theorem text_fields (values : List Int32) (rest : List UInt8) (beyond : List UInt32) :
    Formatter.text memory ([44].intercalate (List.replicate values.length [37,100])++rest) (values.map Int32.toUInt32++beyond) =
      fieldsText values++Formatter.text memory rest beyond := by
  induction values with
  | nil => rfl
  | cons v others ih =>
    cases others with
    | nil =>
      rw [fields_single,List.length_singleton,List.replicate_one,List.intercalate_singleton]
      exact text_decimal memory rest _
    | cons w others =>
      have next : [44].intercalate (List.replicate (v::w::others).length [37,100]) =
          37::100::44::[44].intercalate (List.replicate (w::others).length [(37 : UInt8),100]) := by
        simp [List.replicate_succ]
      rw [next,fields_cons,List.cons_append,List.cons_append,List.cons_append,text_decimal,text_plain memory _ _ (by decide)]
      change decimal v.toUInt32++44::Formatter.text memory _ ((w::others).map Int32.toUInt32++beyond) = _
      rw [ih,List.append_assoc]
      rfl

theorem fields_length (values : List Int32) : (fieldsText values).length ≤ 12*values.length := by
  induction values with
  | nil => exact Nat.le_refl _
  | cons v others ih =>
    have bound := decimal_length v.toUInt32
    cases others with
    | nil =>
      rw [fields_single,List.length_singleton]
      omega
    | cons w others =>
      rw [fields_cons,List.length_append,List.length_cons,List.length_cons]
      omega

theorem text_report (letter : UInt8) (values : List Int32) (other : letter ≠ 37) (beyond : List UInt32) :
    Formatter.text memory (reportFormat letter values.length) (values.map Int32.toUInt32++beyond) = reportText letter values := by
  unfold reportFormat reportText
  rw [text_plain memory _ _ other,text_fields,text_plain memory _ _ (by decide),text_plain memory _ _ (by decide),
    Formatter.text]

-- No report is cut: the longest takes 99 of rt_log_buf's 256 cells.
theorem kprintf_report (letter : UInt8) (values : List Int32) (other : letter ≠ 37) (few : values.length ≤ 8) :
    kprintf memory rtLogBuf stack (reportFormat letter values.length) values = reportText letter values := by
  have bound := fields_length values
  unfold kprintf
  rw [Formatter.kprintf_text,text_report memory letter values other]
  refine if_pos ?_
  simp only [reportText,List.length_cons,List.length_append,List.length_nil]
  omega

-- What the shore is told: the letter and the values of a report, or a confirmation.
inductive Message where
  | report (letter : UInt8) (values : List Int)
  | confirmation (text : List UInt8)
  deriving DecidableEq

-- A station collects up to a 'Z', drops the line end left by the message before, and
-- reads a confirmation as it is and the fields of anything else with atoi.
def station (pending : List UInt8) (b : UInt8) : List UInt8×Option (List UInt8) :=
  if b = 90 then ([],some pending) else (pending++[b],none)

def readFrame (frame : List UInt8) : Option Message :=
  match frame.dropWhile (fun b => b == 13 || b == 10) with
  | [] => none
  | 83::inner => some (.confirmation (83::(inner++[90])))
  | letter::body => some (.report letter ((body.splitOn 44).map atoi))

def received (wire : List UInt8) : List (Option Message) := (Framing.emitted station [] wire).map readFrame

def reportMessage (letter : UInt8) (values : List Int32) : Message := .report letter (values.map Int32.toInt)

def lineMessage (g : Globals) : Line → Message
  | .draw => reportMessage 67 (drawValues g)
  | .water => reportMessage 66 (waterValues g)
  | .obstacle i => reportMessage 68 (obstacleValues g i)
  | .position => reportMessage 65 (positionValues g)
  | .echo text => .confirmation text

def Event.messages (s : Serial) (e : Event) : List Message :=
  match e with
  | .byte _ => []
  | .send g => (printed memory rtLogBuf stack s (.send g)).map (lineMessage g)

-- Every message sent over a run, with the values it was printed from.
def sent : Serial → List Event → List Message
  | _,[] => []
  | s,e::rest =>
    e.messages memory rtLogBuf stack s++sent (turn (kprintf memory rtLogBuf stack · []) s e.turn) rest

-- A confirmation that is one whole message. A line feed in it would go out as two bytes.
def Framed (text : List UInt8) : Prop := ∃ inner, text = 83::(inner++[90]) ∧ 90 ∉ inner ∧ 10 ∉ inner

-- What is left of a line end while the station waits for the next message.
def Trailing (pending : List UInt8) : Prop := ∀ b ∈ pending, b = 13 ∨ b = 10

theorem polite_plain (plain : 10 ∉ text) : serialPollTx text = text := by
  induction text with
  | nil => rfl
  | cons b text ih =>
    rw [List.mem_cons,not_or] at plain
    have same := ih plain.2
    unfold serialPollTx at *
    rw [List.flatMap_cons,same,if_neg (Ne.symm plain.1)]
    rfl

theorem polite_append (first second : List UInt8) : serialPollTx (first++second) = serialPollTx first++serialPollTx second :=
  List.flatMap_append

theorem station_inner (inner : 90 ∉ text) (pending : List UInt8) :
    Framing.emitted station pending text = [] ∧ Framing.drive station pending text = pending++text := by
  induction text generalizing pending with
  | nil => exact ⟨rfl,(List.append_nil _).symm⟩
  | cons b text ih =>
    rw [List.mem_cons,not_or] at inner
    have kept : station pending b = (pending++[b],none) := if_neg (Ne.symm inner.1)
    have later := ih inner.2 (pending++[b])
    rw [List.append_assoc] at later
    rw [Framing.emitted_cons,Framing.drive_cons,kept]
    exact later

-- One message: the frame up to its 'Z', then what follows it up to the next.
theorem station_frame (pending core rest : List UInt8) (inner : 90 ∉ core) (after : 90 ∉ rest) :
    Framing.emitted station pending (core++90::rest) = [pending++core] ∧
      Framing.drive station pending (core++90::rest) = rest := by
  have front := station_inner inner pending
  have back := station_inner after []
  have close : station (pending++core) 90 = ([],some (pending++core)) := rfl
  rw [Framing.emitted_append,Framing.drive_append,front.1,front.2,Framing.emitted_cons,Framing.drive_cons,close,back.1,back.2]
  exact ⟨rfl,rfl⟩

theorem trailing_dropped (trailing : Trailing pending) (text : List UInt8) (first : b ≠ 13 ∧ b ≠ 10) :
    (pending++b::text).dropWhile (fun b => b == 13 || b == 10) = b::text := by
  rw [List.dropWhile_append_of_pos]
  · refine List.dropWhile_cons_of_neg ?_
    simp [first]
  · intro c member
    rcases trailing c member with rfl | rfl <;> rfl

theorem fields_absent (values : List Int32) (comma : b ≠ 44) (minus : b ≠ 45) (digit : isDigit b = false) :
    b ∉ fieldsText values := by
  induction values with
  | nil => exact List.not_mem_nil
  | cons v others ih =>
    cases others with
    | nil =>
      rw [fields_single]
      exact decimal_absent _ minus digit
    | cons w others =>
      rw [fields_cons,List.mem_append,List.mem_cons,not_or,not_or]
      exact ⟨decimal_absent _ minus digit,comma,ih⟩

theorem fields_read (values : List Int32) (some_ : values ≠ []) :
    ((fieldsText values).splitOn 44).map atoi = values.map Int32.toInt := by
  unfold fieldsText
  rw [List.splitOn_intercalate 44 (fun field member => ?_) (by simpa using some_)]
  · rw [List.map_map]
    refine List.map_congr_left fun v _ => ?_
    exact (decimal_atoi v.toUInt32).trans (word_toInt v)
  · obtain ⟨v,_,rfl⟩ := List.mem_map.mp member
    exact decimal_absent _ (by decide) (by decide)

-- What a station makes of the bytes of one message, whatever line end came before it.
structure Reads (text : List UInt8) (message : Message) : Prop where
  frame : ∀ pending, Trailing pending →
    (Framing.emitted station pending (serialPollTx text)).map readFrame = [some message]
  rest : ∀ pending, Trailing pending → Trailing (Framing.drive station pending (serialPollTx text))

theorem report_reads (letter : UInt8) (values : List Int32) (some_ : values ≠ [])
    (first : letter ≠ 13 ∧ letter ≠ 10 ∧ letter ≠ 83 ∧ letter ≠ 90) :
    Reads (reportText letter values) (reportMessage letter values) := by
  obtain ⟨cr,lf,start,close⟩ := first
  have inner : 90 ∉ letter::fieldsText values := by
    rw [List.mem_cons,not_or]
    exact ⟨Ne.symm close,fields_absent values (by decide) (by decide) (by decide)⟩
  have plain : 10 ∉ letter::(fieldsText values++[90]) := by
    simp [Ne.symm lf,fields_absent values (by decide : (10 : UInt8) ≠ 44) (by decide) (by decide)]
  have bytes : serialPollTx (reportText letter values) = (letter::fieldsText values)++90::[13,10] := by
    have shape : reportText letter values = (letter::(fieldsText values++[90]))++[10] := by simp [reportText]
    rw [shape,polite_append,polite_plain plain]
    simp [serialPollTx]
  constructor
  · intro pending trailing
    have whole := (station_frame pending _ [13,10] inner (by decide)).1
    rw [bytes,whole,List.map_singleton,readFrame,trailing_dropped trailing _ ⟨cr,lf⟩]
    split
    · contradiction
    · rename_i same
      exact absurd (List.cons.inj same).1 start
    · rename_i same
      cases same
      rw [fields_read values some_]
      rfl
  · intro pending _
    rw [bytes,(station_frame pending _ [13,10] inner (by decide)).2]
    simp [Trailing]

theorem confirmation_reads (framed : Framed text) : Reads text (.confirmation text) := by
  obtain ⟨inner,rfl,noEnd,noFeed⟩ := framed
  have plain : 10 ∉ 83::(inner++[90]) := by simp [noFeed]
  have within : 90 ∉ 83::inner := by simp [noEnd]
  constructor
  · intro pending trailing
    have whole := (station_frame pending (83::inner) [] within (by decide)).1
    rw [polite_plain plain]
    refine (congrArg (List.map readFrame) whole).trans ?_
    rw [List.map_singleton,readFrame,trailing_dropped trailing _ (by decide)]
    rfl
  · intro pending _
    have rest := (station_frame pending (83::inner) [] within (by decide)).2
    rw [polite_plain plain]
    refine (congrArg Trailing rest).mpr ?_
    simp [Trailing]

theorem line_reads (g : Globals) (line : Line) (framed : ∀ text, line = .echo text → Framed text) :
    Reads (lineText memory rtLogBuf stack g line) (lineMessage g line) := by
  cases line with
  | draw =>
    have text := kprintf_report memory rtLogBuf stack 67 (drawValues g) (by decide) (by decide : 5 ≤ 8)
    change Reads (kprintf memory rtLogBuf stack (reportFormat 67 (drawValues g).length) (drawValues g)) _
    rw [text]
    exact report_reads 67 (drawValues g) (List.cons_ne_nil _ _) (by decide)
  | water =>
    have text := kprintf_report memory rtLogBuf stack 66 (waterValues g) (by decide) (by decide : 6 ≤ 8)
    change Reads (kprintf memory rtLogBuf stack (reportFormat 66 (waterValues g).length) (waterValues g)) _
    rw [text]
    exact report_reads 66 (waterValues g) (List.cons_ne_nil _ _) (by decide)
  | obstacle i =>
    have text := kprintf_report memory rtLogBuf stack 68 (obstacleValues g i) (by decide) (by decide : 4 ≤ 8)
    change Reads (kprintf memory rtLogBuf stack (reportFormat 68 (obstacleValues g i).length) (obstacleValues g i)) _
    rw [text]
    exact report_reads 68 (obstacleValues g i) (List.cons_ne_nil _ _) (by decide)
  | position =>
    have text := kprintf_report memory rtLogBuf stack 65 (positionValues g) (by decide) (by decide : 8 ≤ 8)
    change Reads (kprintf memory rtLogBuf stack (reportFormat 65 (positionValues g).length) (positionValues g)) _
    rw [text]
    exact report_reads 65 (positionValues g) (List.cons_ne_nil _ _) (by decide)
  | echo text => exact confirmation_reads (framed text rfl)

theorem reads_all (texts : List α) (text : α → List UInt8) (message : α → Message)
    (reads : ∀ a ∈ texts, Reads (text a) (message a)) (trailing : Trailing pending) :
    (Framing.emitted station pending (texts.flatMap fun a => serialPollTx (text a))).map readFrame =
        texts.map (fun a => some (message a)) ∧
      Trailing (Framing.drive station pending (texts.flatMap fun a => serialPollTx (text a))) := by
  induction texts generalizing pending with
  | nil => exact ⟨rfl,trailing⟩
  | cons a texts ih =>
    have here := reads a List.mem_cons_self
    have later := ih (fun b member => reads b (List.mem_cons_of_mem _ member)) (here.rest pending trailing)
    rw [List.flatMap_cons,Framing.emitted_append,Framing.drive_append,List.map_append,here.frame pending trailing,later.1]
    exact ⟨rfl,later.2⟩

theorem step_reads (s : Sender) (e : Event) (trailing : Trailing (Framing.drive station [] s.wire))
    (framed : ∀ text, .confirmation text ∈ e.messages memory rtLogBuf stack s.serial → Framed text) :
    Telemetry.received (step memory rtLogBuf stack s e).wire =
        Telemetry.received s.wire++(e.messages memory rtLogBuf stack s.serial).map some ∧
      Trailing (Framing.drive station [] (step memory rtLogBuf stack s e).wire) := by
  unfold step Telemetry.received
  rw [Framing.emitted_append,Framing.drive_append,List.map_append,List.append_cancel_left_eq]
  cases e with
  | byte loraChar =>
    have none : printed memory rtLogBuf stack s.serial (.byte loraChar) = [] := List.drop_length
    rw [none]
    exact ⟨rfl,trailing⟩
  | send g =>
    have all := reads_all (printed memory rtLogBuf stack s.serial (.send g)) (lineText memory rtLogBuf stack g) (lineMessage g)
      (fun line member => line_reads memory rtLogBuf stack g line fun text same => framed text ?_) trailing
    · refine ⟨all.1.trans ?_,all.2⟩
      rw [Event.messages,List.map_map]
      rfl
    · subst same
      exact List.mem_map_of_mem member

theorem run_reads (s : Sender) (events : List Event) (trailing : Trailing (Framing.drive station [] s.wire))
    (framed : ∀ text, .confirmation text ∈ sent memory rtLogBuf stack s.serial events → Framed text) :
    Telemetry.received (run (step memory rtLogBuf stack) s events).wire =
      Telemetry.received s.wire++(sent memory rtLogBuf stack s.serial events).map some := by
  induction events generalizing s with
  | nil => exact (List.append_nil _).symm
  | cons e rest ih =>
    obtain ⟨here,next⟩ := step_reads memory rtLogBuf stack s e trailing fun text member =>
      framed text (List.mem_append_left _ member)
    rw [run_cons,ih _ next fun text member => framed text (List.mem_append_right _ member),here,sent,List.map_append,
      List.append_assoc]
    rfl

def quiet : Globals :=
  {tick:=0,shipId:=8,bottleId:=0,drawStatus:=0,dumpDrawTime:=0,fullDrawTime:=0,wt:=0,ph:=0,doDo:=0,ec:=0,td:=0
   minDistance:=10000,targetId:=fun _ => 0,targetAngle:=fun _ => 0,targetDistance:=fun _ => 0,lng:=114123456,lat:=-30123456
   dumpEnergy:=87,currentTheta:=271,currentMode:=2,angleError:=-180,speed:=0}

def quietReport : Message := .report 65 [8,114123456,-30123456,87,271,2,-180,0]

theorem quiet_sent : sent (fun _ => []) (fun _ => 0) [] (.boot []) [.send quiet] = [quietReport] := by decide

def confirmation : Message → Option (List UInt8)
  | .confirmation text => some text
  | .report _ _ => none

-- The real rt_kprintf prints such a text as it stands, at the port too.
theorem kprintf_prints : Prints (kprintf memory rtLogBuf stack · []) := by
  intro text short plain
  have shown : FormatSyntax.Plain text := by
    refine List.isChain_iff_getElem.mpr fun i inside same => ?_
    have member : text[i] ∈ text := List.getElem_mem _
    rw [same] at member
    exact absurd member plain.1
  exact ((Formatter.kprintf_exact memory rtLogBuf text stack short).mpr shown).1

theorem port_prints : Prints fun text => serialPollTx (kprintf memory rtLogBuf stack text []) := by
  intro text short plain
  have same : kprintf memory rtLogBuf stack text [] = text := kprintf_prints memory rtLogBuf stack text short plain
  change serialPollTx (kprintf memory rtLogBuf stack text []) = text
  rw [same,polite_plain plain.2]

theorem turn_lines (kp : List UInt8 → List UInt8) (s : Serial) (t : Turn) : s.lines <+: (turn kp s t).lines := by
  cases t with
  | byte loraChar => exact List.prefix_refl _
  | send view =>
    change s.lines <+: (loraSend kp s view).lines
    unfold loraSend
    split
    all_goals try exact List.prefix_append _ _
    all_goals try exact List.prefix_refl _
    all_goals split
    · split <;> exact List.prefix_append _ _
    · split
      · exact List.prefix_append _ _
      · exact List.prefix_refl _
    · split <;> exact List.prefix_append _ _
    · split
      · exact List.prefix_append _ _
      · exact List.prefix_refl _

theorem turn_printed_lines (s : Serial) (e : Event) :
    (turn (kprintf memory rtLogBuf stack · []) s e.turn).lines = s.lines++printed memory rtLogBuf stack s e :=
  (List.prefix_iff_eq_append.mp (turn_lines _ s e.turn)).symm

theorem messages_echoes (s : Serial) (e : Event) :
    (turn (kprintf memory rtLogBuf stack · []) s e.turn).echoes =
      s.echoes++(e.messages memory rtLogBuf stack s).filterMap confirmation := by
  unfold Serial.echoes
  rw [turn_printed_lines,List.filterMap_append,List.append_cancel_left_eq]
  cases e with
  | byte loraChar =>
    have none : printed memory rtLogBuf stack s (.byte loraChar) = [] := List.drop_length
    rw [none]
    rfl
  | send g =>
    rw [Event.messages,List.filterMap_map]
    refine List.filterMap_congr fun line _ => ?_
    cases line with
    | draw | water | obstacle | position | echo => rfl

theorem sent_echoes (s : Serial) (events : List Event) :
    (run (turn (kprintf memory rtLogBuf stack · [])) s (events.map Event.turn)).echoes =
      s.echoes++(sent memory rtLogBuf stack s events).filterMap confirmation := by
  induction events generalizing s with
  | nil => exact (List.append_nil _).symm
  | cons e rest ih =>
    rw [List.map_cons,run_cons,ih,messages_echoes,sent,List.filterMap_append,List.append_assoc]

-- What the station reads as confirmations on a wire.
def confirmations (wire : List UInt8) : List (List UInt8) :=
  (Telemetry.received wire).filterMap fun message => message.bind confirmation

theorem message_framed (confirmable : Confirmable m) : Framed m.bytes := by
  have shape := m.bytes_shape
  have clean := m.inner_clean
  obtain ⟨_,_,digit⟩ := digit_exact m.counted
  refine ⟨typeDigit m.infoType::m.inner,shape,?_,?_⟩
  · rw [List.mem_cons,not_or]
    exact ⟨fun same => digit.noEnd (List.mem_singleton.mpr same),clean.1⟩
  · intro inside
    refine confirmable.plain.2 ?_
    rw [shape]
    exact List.mem_cons_of_mem _ (List.mem_append_left _ inside)

-- Two orders, the second after the first has come back.
def compassOrders : List Event :=
  (compassMessage true).bytes.map .byte++List.replicate 14 (.send quiet)++(compassMessage false).bytes.map .byte

end UsvRt.Telemetry
