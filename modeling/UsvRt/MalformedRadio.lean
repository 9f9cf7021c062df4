import UsvRt.RadioFrames

-- What a frame of the remote control does when it is not of either form: sscanf's
-- result is not looked at, so fields it does not reach keep their last digits.
namespace UsvRt.MalformedRadio
open TextScan Framing RadioParser

def leading (text : List UInt8) : List UInt8 := text.takeWhile isDigit

inductive WellFormed : UInt8 → List UInt8 → Prop where
  | stick (col row : List UInt8) (colFilled : col ≠ []) (rowFilled : row ≠ []) (colDigits : ∀ b ∈ col, isDigit b = true)
      (rowDigits : ∀ b ∈ row, isDigit b = true) : WellFormed byteA (col++byteComma::row)
  | keys (key : List UInt8) (keyFilled : key ≠ []) (keyDigits : ∀ b ∈ key, isDigit b = true) : WellFormed byteH key

-- The digits in front are taken, or those that are there already.
def fieldText (field kept : List UInt8) : List UInt8 := if field = [] then kept else field

-- The second field is reached over the first one and a comma.
def secondField (body : List UInt8) : List UInt8 :=
  match body.dropWhile isDigit with
  | 44::rest => if leading body = [] then [] else leading rest
  | _ => []

def stickAt (p : RadioParser) (body : List UInt8) (tick : UInt32) (r : Remote) : Remote :=
  {r with
    col:=centred (UInt32.ofInt (atoi (fieldText (leading body) p.colS)))
    row:=centred (UInt32.ofInt (atoi (fieldText (secondField body) p.rowS)))
    recTick:=tick}

def keysAt (p : RadioParser) (body : List UInt8) (tick : UInt32) (r : Remote) : Remote :=
  let key := fieldText (leading body) p.keyS
  let key1 := atoi (key.take 1)
  let key2 := atoi ((key.drop 1).take 1)
  {r with
    key0:=if key1.tmod 2 = 1 then 1 else 0
    key1:=if key1.tmod 3 = 1 then 1 else 0
    key2:=if key2.tmod 3 = 1 then 1 else 0
    recTick:=tick}

-- No byte of it starts a frame of its own or ends this one.
def Inner (body : List UInt8) : Prop := ∀ b ∈ body, ¬(b = byteA ∨ b = byteH) ∧ b ≠ 90

instance (body : List UInt8) : Decidable (Inner body) := List.decidableBAll _ body

theorem digit_solid (digit : isDigit b = true) : (b != 0) = true := by
  rw [bne_iff_ne]
  rintro rfl
  exact absurd digit (by decide)

theorem leading_cString (text : List UInt8) : leading (cString text) = leading text := by
  unfold leading
  induction text with
  | nil => rfl
  | cons b rest ih =>
    by_cases digit : isDigit b = true
    · have kept : cString (b::rest) = b::cString rest := List.takeWhile_cons_of_pos (digit_solid digit)
      rw [kept,List.takeWhile_cons_of_pos digit,List.takeWhile_cons_of_pos digit,ih]
    · rw [List.takeWhile_cons_of_neg digit]
      unfold cString
      rw [List.takeWhile_cons]
      split
      · exact List.takeWhile_cons_of_neg digit
      · rfl

theorem rest_cString (text : List UInt8) : (cString text).dropWhile isDigit = cString (text.dropWhile isDigit) := by
  induction text with
  | nil => rfl
  | cons b rest ih =>
    by_cases digit : isDigit b = true
    · have kept : cString (b::rest) = b::cString rest := List.takeWhile_cons_of_pos (digit_solid digit)
      rw [kept,List.dropWhile_cons_of_pos digit,List.dropWhile_cons_of_pos digit,ih]
    · rw [List.dropWhile_cons_of_neg digit]
      unfold cString
      rw [List.takeWhile_cons]
      split
      · exact List.dropWhile_cons_of_neg digit
      · rfl

theorem leading_closed (body : List UInt8) : leading (body++[90]) = leading body := by
  unfold leading
  induction body with
  | nil => rfl
  | cons b rest ih => rw [List.cons_append,List.takeWhile_cons,List.takeWhile_cons,ih]

theorem rest_closed (body : List UInt8) : (body++[90]).dropWhile isDigit = body.dropWhile isDigit++[90] := by
  induction body with
  | nil => rfl
  | cons b rest ih =>
    rw [List.cons_append,List.dropWhile_cons,List.dropWhile_cons,ih]
    split <;> rfl

theorem opening_text (start : UInt8) (solid : start ≠ 0) (body : List UInt8) :
    cString (start::body++[90]) = start::cString (body++[90]) :=
  List.takeWhile_cons_of_pos (bne_iff_ne.mpr solid)

theorem key_converted (body : List UInt8) :
    (assign (convert keyFormat (cString (byteH::body++[90]))) [kept]).getD 0 [] = fieldText (leading body) kept := by
  have scanned : convert keyFormat (cString (byteH::body++[90])) =
      if leading body = [] then [] else leading body::convert [.literal 90,.literal 44] ((cString (body++[90])).dropWhile isDigit) := by
    rw [opening_text byteH (by decide),keyFormat,convert_literal,← leading_closed,← leading_cString]
    rfl
  rw [scanned]
  unfold fieldText
  split <;> rfl

theorem convert_tail (text : List UInt8) : convert [.literal 90,.literal 44] text = [] := by
  cases text with
  | nil => rfl
  | cons b rest =>
    unfold convert
    split
    · cases rest with
      | nil => rfl
      | cons c more =>
        unfold convert
        split <;> rfl
    · rfl

-- After the first field the scan goes on over a comma only.
theorem second_converted (body : List UInt8) (filled : leading body ≠ []) :
    convert [.literal 44,.digits,.literal 90,.literal 44] (cString (body.dropWhile isDigit++[90])) =
      if secondField body = [] then [] else [secondField body] := by
  unfold secondField
  split
  · rename_i rest shape
    have comma : cString (44::rest++[90]) = 44::cString (rest++[90]) := List.takeWhile_cons_of_pos rfl
    have field : (cString (rest++[90])).takeWhile isDigit = leading rest :=
      (leading_cString (rest++[90])).trans (leading_closed rest)
    rw [shape,comma,convert_literal,if_neg filled,Directive.digits]
    unfold convert
    rw [field,convert_tail]
  · rename_i other
    rw [if_pos rfl]
    cases shape : body.dropWhile isDigit with
    | nil => rfl
    | cons b rest =>
      have apart : b ≠ 44 := by
        rintro rfl
        exact other rest shape
      unfold cString
      rw [List.cons_append,List.takeWhile_cons]
      split
      · exact if_neg apart
      · rfl

theorem stick_converted (body colS rowS : List UInt8) :
    assign (convert stickFormat (cString (byteA::body++[90]))) [colS,rowS] =
      [fieldText (leading body) colS,fieldText (secondField body) rowS] := by
  have scanned : convert stickFormat (cString (byteA::body++[90])) =
      if leading body = [] then []
      else leading body::convert [.literal 44,.digits,.literal 90,.literal 44] (cString (body.dropWhile isDigit++[90])) := by
    rw [opening_text byteA (by decide),stickFormat,convert_literal,← rest_closed,← rest_cString,← leading_closed,
      ← leading_cString]
    rfl
  rw [scanned]
  unfold fieldText
  by_cases empty : leading body = []
  · have none : secondField body = [] := by
      unfold secondField
      split
      · exact if_pos empty
      · rfl
    rw [if_pos empty,if_pos empty,if_pos none]
    rfl
  · rw [if_neg empty,if_neg empty,second_converted body empty]
    split <;> rfl

structure Kept (p q : RadioParser) : Prop where
  colS : q.colS = p.colS
  rowS : q.rowS = p.rowS
  keyS : q.keyS = p.keyS

theorem limit_kept (p : RadioParser) : Kept p p.limit := by
  unfold limit
  split <;> exact ⟨rfl,rfl,rfl⟩

theorem store_kept (p : RadioParser) (b : UInt8) : Kept p (p.store b) := by
  unfold store
  split
  · exact ⟨rfl,rfl,rfl⟩
  · split <;> exact ⟨rfl,rfl,rfl⟩

theorem inner_kept (p : RadioParser) (bytes : List UInt8) (inner : ∀ b ∈ bytes, b ≠ 90) : Kept p (drive receive p bytes) := by
  induction bytes generalizing p with
  | nil => exact ⟨rfl,rfl,rfl⟩
  | cons b rest ih =>
    have later := ih (p.receive b).1 (fun c member => inner c (List.mem_cons_of_mem _ member))
    have stored := store_kept p b
    have limited := limit_kept (p.store b)
    have received : (p.receive b).1 = (p.store b).limit := congrArg Prod.fst (p.receive_inner (inner b List.mem_cons_self))
    rw [received] at later
    rw [drive_cons,received]
    exact ⟨later.colS.trans (limited.colS.trans stored.colS),later.rowS.trans (limited.rowS.trans stored.rowS),
      later.keyS.trans (limited.keyS.trans stored.keyS)⟩

theorem idle_received (p : RadioParser) (idle : p.loraBufferIndex = 0) (body : List UInt8) (inner : Inner body) :
    emitted receive p body = [] ∧ (drive receive p body).loraBufferIndex = 0 := by
  induction body generalizing p with
  | nil => exact ⟨rfl,idle⟩
  | cons b rest ih =>
    obtain ⟨noStart,noEnd⟩ := inner b List.mem_cons_self
    have received : p.receive b = (p,none) := by
      rw [p.receive_inner noEnd,p.store_idle noStart idle,limit_small p (by omega)]
    rw [emitted_cons,drive_cons,received]
    exact ih p idle (fun c member => inner c (List.mem_cons_of_mem _ member))

-- The twentieth byte after the start drops the frame.
theorem overlong_received (p : RadioParser) (size : p.loraBuffer.length = 32) (isStart : start = byteA ∨ start = byteH)
    (body : List UInt8) (inner : Inner body) (long : 20 ≤ body.length) :
    emitted receive p (start::body) = [] ∧ (drive receive p (start::body)).loraBufferIndex = 0 := by
  obtain ⟨b,rest,split⟩ : ∃ b rest, body = body.take 19++b::rest := by
    refine ⟨body[19],body.drop 20,?_⟩
    rw [List.getElem_cons_drop,List.take_append_drop]
  have members : ∀ c, c ∈ body.take 19 ∨ c = b ∨ c ∈ rest → c ∈ body := by
    intro c member
    rw [split]
    simpa using member
  have first : ∀ c ∈ body.take 19, ¬(c = byteA ∨ c = byteH) ∧ c ≠ 90 := fun c member => inner c (members c (.inl member))
  have count : (body.take 19).length = 19 := List.length_take_of_le (by omega)
  obtain ⟨q,state,quiet,_,index,_,_⟩ := p.frame_received size isStart (body.take 19) first count.le
  obtain ⟨noStart,noEnd⟩ := inner b (members b (.inr (.inl rfl)))
  have full : (q.append b).loraBufferIndex > 20 := by
    simp only [append,index,count]
    decide
  have received : q.receive b = ({q.append b with loraBufferIndex:=0},none) := by
    have limited : (q.append b).limit = {q.append b with loraBufferIndex:=0} := if_pos full
    rw [q.receive_inner noEnd,q.store_later noStart (by omega),limited]
  have later := idle_received {q.append b with loraBufferIndex:=0} rfl rest (fun c member => inner c (members c (.inr (.inr member))))
  rw [split,← List.cons_append,emitted_append,drive_append,quiet,state,emitted_cons,drive_cons,received]
  exact later

-- What the end of a frame makes of the remote.
def received (p : RadioParser) (start : UInt8) (body : List UInt8) (tick : UInt32) (r : Remote) : Remote :=
  if 20 ≤ body.length then r
  else if start = byteA then stickAt p body tick r
  else keysAt p body tick r

theorem body_quiet (p : RadioParser) (size : p.loraBuffer.length = 32) (isStart : start = byteA ∨ start = byteH)
    (body : List UInt8) (inner : Inner body) : emitted receive p (start::body) = [] := by
  rcases Nat.lt_or_ge body.length 20 with short | long
  · obtain ⟨_,_,quiet,_⟩ := p.frame_received size isStart body inner (by omega)
    exact quiet
  · exact (overlong_received p size isStart body inner long).1

theorem idle_end (p : RadioParser) (idle : p.loraBufferIndex = 0) : p.receive 90 = (p,none) := by
  have inside : ¬((90 : UInt8) = byteA ∨ (90 : UInt8) = byteH) := by decide
  unfold receive
  rw [p.store_idle inside idle,if_neg (fun both => both.2 idle),limit_small _ (by omega)]

theorem end_received (p : RadioParser) (size : p.loraBuffer.length = 32) (isStart : start = byteA ∨ start = byteH)
    (body : List UInt8) (inner : Inner body) (libm : Libm) (d : Device) (radio : d.radio = drive receive p (start::body)) :
    (d.step libm (.radioByte 90)).usv = {d.usv with remote:=received p start body d.usv.tick d.usv.remote} := by
  have decoded := Device.radio_byte libm d 90
  unfold received
  rcases Nat.lt_or_ge body.length 20 with short | long
  · have solid : ∀ b ∈ start::body, b ≠ 90 := by
      intro b member
      rcases List.mem_cons.mp member with rfl | inside
      · rcases isStart with rfl | rfl <;> decide
      · exact (inner b inside).2
    have kept := inner_kept p (start::body) solid
    obtain ⟨q,state,_,length,index,frame,type⟩ := p.frame_received size isStart body inner (by omega)
    obtain ⟨_,command⟩ := q.receive_end length (by omega) (by omega)
    rw [state] at kept radio
    rw [if_neg (by omega),decoded,radio,command,frame]
    unfold decodeText
    rcases isStart with rfl | rfl
    · have stick : q.dataType = 1 := type
      rw [if_pos stick,if_pos rfl,stick_converted,kept.colS,kept.rowS]
      rfl
    · have keys : q.dataType ≠ 1 := by
        rw [type]
        decide
      have other : ¬byteH = byteA := by decide
      rw [if_neg keys,if_neg other,key_converted,kept.keyS]
      rfl
  · have idle := (overlong_received p size isStart body inner long).2
    rw [← radio] at idle
    rw [if_pos long,decoded,idle_end d.radio idle]

def heard : Input → Option UInt8
  | .radioByte loraChar => some loraChar
  | _ => none

theorem radio_heard (libm : Libm) (d : Device) (inputs : List Input) :
    (Runs.run (Device.step libm) d inputs).radio = drive receive d.radio (inputs.filterMap heard) := by
  induction inputs generalizing d with
  | nil => rfl
  | cons i rest ih =>
    rw [Runs.run_cons,ih]
    cases i <;> rfl

-- Whatever else happens meanwhile, the bytes before the end do nothing.
theorem inner_quiet (libm : Libm) (d : Device) (size : d.radio.loraBuffer.length = 32) (isStart : start = byteA ∨ start = byteH)
    (body : List UInt8) (inner : Inner body) (earlier later : List Input) (b : UInt8)
    (bytes : (earlier++.radioByte b::later).filterMap heard = start::body) :
    (Runs.run (Device.step libm) d (earlier++[.radioByte b])).usv = (Runs.run (Device.step libm) d earlier).usv := by
  have quiet := body_quiet d.radio size isStart body inner
  rw [← bytes,List.filterMap_append,List.filterMap_cons,emitted_append] at quiet
  have silent := (List.append_eq_nil_iff.mp ((List.append_eq_nil_iff.mp quiet).2)).1
  rw [← radio_heard libm,Option.toList_eq_nil_iff] at silent
  rw [Runs.run_append]
  change (Device.step libm (Runs.run (Device.step libm) d earlier) (.radioByte b)).usv = _
  rw [Device.radio_byte,silent]

-- A30,80Z
def steered : Device :=
  Runs.run (Device.step .level) (Device.boot fun _ => []) ([65,51,48,44,56,48,90].map .radioByte)

-- A99Z without its second field, with some time passing in between.
def cut : List Input := [.radioByte 65,.wait 7,.radioByte 57,.radioByte 57]

theorem empty_malformed : ¬WellFormed byteA [] := by
  intro formed
  generalize none : ([] : List UInt8) = body at formed
  generalize start : byteA = first at formed
  cases formed with
  | stick => simp at none
  | keys => exact absurd start (by decide)

end UsvRt.MalformedRadio
