import UsvRt.ServerFrames

-- Well-formed server messages and their reception by an idle parser.
namespace UsvRt
open TextScan

def arity : Nat → Option Nat
  | 1 => some 2
  | 2 => some 3
  | 3 => some 2
  | 4 => some 5
  | 5 => some 3
  | 6 => some 1
  | 8 => some 0
  | _ => none

structure FieldText (field : List UInt8) : Prop where
  filled : field ≠ []
  short : field.length ≤ 19
  noComma : byteComma ∉ field
  noEnd : byteZ ∉ field
  noTerminator : (0 : UInt8) ∉ field

instance (field : List UInt8) : Decidable (FieldText field) :=
  decidable_of_iff (field ≠ [] ∧ field.length ≤ 19 ∧ byteComma ∉ field ∧ byteZ ∉ field ∧ (0 : UInt8) ∉ field)
    ⟨fun ⟨filled,short,noComma,noEnd,noTerminator⟩ => ⟨filled,short,noComma,noEnd,noTerminator⟩,
      fun text => ⟨text.filled,text.short,text.noComma,text.noEnd,text.noTerminator⟩⟩

def typeDigit (infoType : Nat) : UInt8 := UInt8.ofNat (48+infoType)

def messageBytes (infoType : Nat) (fields : List (List UInt8)) : List UInt8 :=
  byteS::typeDigit infoType::(fields.flatMap (byteComma::·) ++ [byteZ])

structure ServerMessage where
  infoType : Nat
  fields : List (List UInt8)
  counted : arity infoType = some fields.length
  texts : ∀ field ∈ fields, FieldText field
  fits : (messageBytes infoType fields).length ≤ 49

def ServerMessage.bytes (m : ServerMessage) : List UInt8 := messageBytes m.infoType m.fields

def ServerMessage.command (m : ServerMessage) : Option ServerCommand :=
  decodeServer m.infoType ([typeDigit m.infoType]::m.fields)

def ServerMessage.inner (m : ServerMessage) : List UInt8 := m.fields.flatMap (byteComma::·)

theorem arity_control : arity 3 = some 2 := rfl

theorem arity_types (counted : arity infoType = some count) :
    infoType = 1 ∨ infoType = 2 ∨ infoType = 3 ∨ infoType = 4 ∨ infoType = 5 ∨ infoType = 6 ∨ infoType = 8 := by
  unfold arity at counted
  split at counted <;> simp_all

theorem digit_exact (counted : arity infoType = some count) :
    digitOf (typeDigit infoType) = infoType ∧ typeDigit infoType ≠ byteS ∧ FieldText [typeDigit infoType] := by
  have checked : ∀ t ∈ [1,2,3,4,5,6,8], digitOf (typeDigit t) = t ∧ typeDigit t ≠ byteS ∧
      byteComma ≠ typeDigit t ∧ byteZ ≠ typeDigit t ∧ 0 ≠ typeDigit t := by decide
  have listed : infoType ∈ [1,2,3,4,5,6,8] := by
    rcases arity_types counted with h | h | h | h | h | h | h <;> simp [h]
  obtain ⟨digit,noStart,noComma,noEnd,noTerminator⟩ := checked infoType listed
  refine ⟨digit,noStart,⟨by simp,by simp,?_,?_,?_⟩⟩
  · simpa using noComma
  · simpa using noEnd
  · simpa using noTerminator

def fieldDirectives : Nat → List Directive
  | 0 => [.until byteZ,.literal byteZ]
  | n+1 => .until byteComma::.literal byteComma::fieldDirectives n

theorem serverFormat_fields (counted : arity infoType = some (n+1)) :
    serverFormat infoType = .literal byteS::fieldDirectives (n+1) := by
  unfold arity at counted
  split at counted <;> simp_all <;> subst counted <;> rfl

theorem heartbeat_format (counted : arity infoType = some 0) : infoType = 8 := by
  unfold arity at counted
  split at counted <;> simp_all

theorem until_inside {field : List UInt8} (stop : UInt8) (absent : stop ∉ field) :
    ∀ b ∈ field, (b != stop) = true := by
  intro b member
  have apart : b ≠ stop := fun same => absent (same ▸ member)
  simpa using apart

theorem convert_fields (first : List UInt8) (rest : List (List UInt8)) (text : FieldText first)
    (texts : ∀ field ∈ rest, FieldText field) :
    convert (fieldDirectives rest.length) (first ++ (rest.flatMap (byteComma::·) ++ [byteZ])) = first::rest := by
  induction rest generalizing first with
  | nil =>
    have inside := until_inside byteZ text.noEnd
    have step := convert_scanSet (· != byteZ) [.literal byteZ] byteZ [] text.filled inside (by decide)
    simpa [fieldDirectives,Directive.until,convert] using step
  | cons next rest ih =>
    have inside := until_inside byteComma text.noComma
    have tail := ih next (texts next (by simp)) (fun field member => texts field (List.mem_cons_of_mem _ member))
    have step := convert_scanSet (· != byteComma) (.literal byteComma::fieldDirectives rest.length)
      byteComma (next ++ (rest.flatMap (byteComma::·) ++ [byteZ])) text.filled inside (by decide)
    rw [convert_literal,tail] at step
    simpa [fieldDirectives,Directive.until,List.append_assoc] using step

namespace ServerMessage

theorem bytes_shape (m : ServerMessage) :
    m.bytes = byteS::typeDigit m.infoType::(m.inner ++ [byteZ]) := rfl

theorem inner_clean (m : ServerMessage) : byteZ ∉ m.inner ∧ (0 : UInt8) ∉ m.inner := by
  have apart : ∀ b : UInt8, b ≠ byteComma → (∀ field ∈ m.fields, b ∉ field) → b ∉ m.inner := by
    intro b noComma absent member
    obtain ⟨field,present,inside⟩ := List.mem_flatMap.mp member
    rcases List.mem_cons.mp inside with same | deep
    · exact noComma same
    · exact absent field present deep
  exact ⟨apart byteZ (by decide) fun field present => (m.texts field present).noEnd,
    apart 0 (by decide) fun field present => (m.texts field present).noTerminator⟩

def body (m : ServerMessage) : List UInt8 := byteS::typeDigit m.infoType::m.inner

theorem bytes_body (m : ServerMessage) : m.bytes = m.body++[byteZ] := rfl

theorem body_inner (m : ServerMessage) : byteZ ∉ m.body := by
  have digit := (digit_exact m.counted).2.2.noEnd
  rw [List.mem_singleton] at digit
  simp only [body,List.mem_cons,not_or]
  exact ⟨by decide,digit,m.inner_clean.1⟩

theorem text_clean (m : ServerMessage) : (0 : UInt8) ∉ m.bytes := by
  have digit := (digit_exact m.counted).2.2.noTerminator
  rw [List.mem_singleton] at digit
  rw [bytes_shape]
  simp only [List.mem_cons,List.mem_append,List.not_mem_nil,or_false,not_or]
  exact ⟨by decide,digit,m.inner_clean.2,by decide⟩

-- A complete scan fills every string its type reads, whatever they held before.
theorem decode_exact (m : ServerMessage) (kept : List (List UInt8)) :
    decodeServer m.infoType (assign (convert (serverFormat m.infoType) (cString m.bytes)) kept) = m.command := by
  rw [cString_text _ m.text_clean]
  cases count : m.fields with
  | nil =>
    have counted := m.counted
    rw [count] at counted
    simp only [command,heartbeat_format counted]
    rfl
  | cons first rest =>
    have counted := m.counted
    rw [count,List.length_cons] at counted
    have scanned : convert (serverFormat m.infoType) m.bytes = [typeDigit m.infoType]::m.fields := by
      rw [serverFormat_fields counted,bytes_shape,convert_literal]
      have converted := convert_fields [typeDigit m.infoType] m.fields (digit_exact m.counted).2.2 m.texts
      rw [count,List.length_cons] at converted
      simpa [inner,count] using converted
    rw [scanned,command]
    have filled : ∀ key < m.fields.length+1, (assign ([typeDigit m.infoType]::m.fields) kept).getD key [] =
        ([typeDigit m.infoType]::m.fields).getD key [] := by
      intro key inside
      rw [assign_getD,if_pos (by simpa using inside)]
    have length : m.fields.length = rest.length+1 := by rw [count,List.length_cons]
    unfold arity at counted
    split at counted <;> simp_all [decodeServer]

end ServerMessage

namespace ServerParser

-- The parser has received `got` of a message and nothing before it.
structure Midway (p : ServerParser) (m : ServerMessage) (got left : List UInt8) : Prop where
  sound : p.Sound
  split : m.bytes = got++left
  index : p.loraBufferIndex = got.length
  frame : p.frame = got
  typed : 2 ≤ got.length → p.infoType = m.infoType

theorem midway_start (p : ServerParser) (sound : p.Sound) (idle : p.loraBufferIndex = 0) (m : ServerMessage) :
    Midway p m [] m.bytes := by
  refine ⟨sound,rfl,idle,?_,fun past => absurd past (by simp)⟩
  rw [frame,idle]
  rfl

theorem midway_inner (mid : Midway p m got (b::left)) (more : left ≠ []) :
    b ≠ byteZ ∧ Midway (p.receive b).1 m (got++[b]) left := by
  obtain ⟨sound,split,index,frame,typed⟩ := mid
  obtain ⟨digit,noStart,_⟩ := digit_exact m.counted
  have size := sound.size
  have length : got.length+left.length+1 ≤ 49 := by
    have fits := m.fits
    rw [← ServerMessage.bytes,split,List.length_append,List.length_cons] at fits
    omega
  have positive := List.length_pos_iff.mpr more
  have here : m.bytes[got.length]? = some b := by rw [split]; simp
  have body : m.body = got++b::left.dropLast := by
    have dropped := congrArg List.dropLast split
    rwa [m.bytes_body,List.dropLast_concat,List.dropLast_append_of_ne_nil (by simp),
      List.dropLast_cons_of_ne_nil more] at dropped
  have inner : b ≠ byteZ := by
    rintro rfl
    exact m.body_inner (by rw [body]; simp)
  refine ⟨inner,?_⟩
  have nextSound := p.receive_sound sound b
  rw [p.receive_inner inner] at nextSound ⊢
  dsimp only at nextSound ⊢
  obtain ⟨_,idle,apart⟩ | ⟨infoType,same,_,type,second⟩ := p.store_cases b
  · rw [index] at idle
    rw [idle,m.bytes_shape] at here
    exact absurd (Option.some.inj here).symm apart
  · rw [same,limit_small _ (by rw [typed_index,append_index]; omega)] at nextSound ⊢
    refine ⟨nextSound,by rw [split,List.append_assoc]; rfl,?_,?_,?_⟩
    · rw [typed_index,append_index,index,List.length_append]; rfl
    · change (p.append b).frame = _
      rw [append_frame p b (by omega),frame]
    · intro past
      change infoType = m.infoType
      rw [List.length_append,List.length_singleton] at past
      rcases Nat.lt_or_ge got.length 2 with one | two
      · have one : got.length = 1 := by omega
        rw [one,m.bytes_shape] at here
        have value : typeDigit m.infoType = b := Option.some.inj here
        rw [second (index.trans one) (by rw [← value]; exact noStart),← value,digit]
      · rcases type with kept | ⟨one,_⟩
        · exact kept.trans (typed two)
        · omega

-- The last byte decodes the message and leaves its text in the buffer.
theorem midway_last (mid : Midway p m got [b]) :
    b = byteZ ∧ (p.receive b).2 = m.command ∧ (p.receive b).1.loraBufferIndex = 0 ∧
      cString (p.receive b).1.loraBuffer = m.bytes := by
  obtain ⟨sound,split,index,frame,typed⟩ := mid
  rw [m.bytes_body] at split
  obtain ⟨whole,last⟩ := List.append_inj' split rfl
  have last : byteZ = b := List.head_eq_of_cons_eq last
  subst last
  have two : 2 ≤ got.length := by rw [← whole]; simp [ServerMessage.body]
  obtain ⟨command,closed,text⟩ := p.receive_end sound (by omega) (by omega)
  rw [typed two,frame,← whole,← m.bytes_body,m.decode_exact] at command
  rw [frame,← whole,← m.bytes_body,cString_text _ m.text_clean] at text
  exact ⟨rfl,command,closed,text⟩

theorem midway_commands (mid : Midway p m got left) (more : left ≠ []) :
    p.commands left = m.command.toList ∧ (p.receiveAll left).loraBufferIndex = 0 := by
  induction left generalizing p got with
  | nil => exact absurd rfl more
  | cons b left ih =>
    cases left with
    | nil =>
      obtain ⟨_,command,closed,_⟩ := midway_last mid
      exact ⟨by simp [commands,command],closed⟩
    | cons c left =>
      obtain ⟨inner,next⟩ := midway_inner mid (by simp)
      obtain ⟨decoded,closed⟩ := ih next (by simp)
      refine ⟨?_,closed⟩
      rw [commands,decoded,p.receive_inner inner]
      rfl

-- An idle parser decodes a well-formed message to its meaning and is idle again.
theorem receive_message (p : ServerParser) (sound : p.Sound) (idle : p.loraBufferIndex = 0) (m : ServerMessage) :
    p.commands m.bytes = m.command.toList ∧ (p.receiveAll m.bytes).loraBufferIndex = 0 :=
  midway_commands (p.midway_start sound idle m) (by simp [m.bytes_shape])

end ServerParser
end UsvRt
