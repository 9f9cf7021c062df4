import UsvRt.Device
import UsvRt.Framing

-- How the server receiver accumulates a frame, and what it decodes from one.
namespace UsvRt
open TextScan

theorem cString_terminated (buffer : List UInt8) (size : Nat) (inside : size < buffer.length) :
    cString (buffer.set size 0) = cString (buffer.take size) := by
  have split : buffer.set size 0 = buffer.take size ++ 0::buffer.drop (size+1) := by
    rw [List.set_eq_take_append_cons_drop,if_pos inside]
  unfold cString
  rw [split,List.takeWhile_append]
  split
  · rename_i whole
    have same : (buffer.take size).takeWhile (· != 0) = buffer.take size :=
      List.IsPrefix.eq_of_length (List.takeWhile_prefix _) whole
    rw [same]
    simp
  · rfl

theorem cString_text (text : List UInt8) (clean : (0 : UInt8) ∉ text) : cString text = text := by
  unfold cString
  rw [List.takeWhile_eq_self_iff]
  intro b member
  have apart : b ≠ 0 := fun zero => clean (zero ▸ member)
  simpa using apart

namespace ServerParser

def frame (p : ServerParser) : List UInt8 := p.loraBuffer.take p.loraBufferIndex

theorem append_frame (p : ServerParser) (b : UInt8) (inside : p.loraBufferIndex < p.loraBuffer.length) :
    (p.append b).frame = p.frame ++ [b] :=
  Framing.pending_append p.loraBuffer b inside

@[simp] theorem append_index (p : ServerParser) (b : UInt8) :
    (p.append b).loraBufferIndex = p.loraBufferIndex+1 := rfl
@[simp] theorem append_size (p : ServerParser) (b : UInt8) :
    (p.append b).loraBuffer.length = p.loraBuffer.length := List.length_set

@[simp] theorem typed_index (p : ServerParser) (infoType : Nat) :
    (p.typed infoType).loraBufferIndex = p.loraBufferIndex := rfl

-- What storing a byte can do: nothing before a frame, else one more byte of it;
-- only the second byte of a frame sets the type, and an 'S' never does.
theorem store_cases (p : ServerParser) (b : UInt8) :
    (p.store b = p ∧ p.loraBufferIndex = 0 ∧ b ≠ byteS) ∨
      (∃ infoType, p.store b = (p.append b).typed infoType ∧
        (p.loraBufferIndex = 0 → b = byteS) ∧
        (infoType = p.infoType ∨ (p.loraBufferIndex = 1 ∧ b ≠ byteS ∧ infoType = digitOf b)) ∧
        (p.loraBufferIndex = 1 → b ≠ byteS → infoType = digitOf b)) := by
  unfold store
  by_cases start : b = byteS
  · rw [if_pos start]
    exact .inr ⟨p.infoType,rfl,fun _ => start,.inl rfl,fun _ apart => absurd start apart⟩
  · rw [if_neg start]
    by_cases second : p.loraBufferIndex = 1
    · rw [if_pos second]
      exact .inr ⟨digitOf b,rfl,fun zero => by omega,.inr ⟨second,start,rfl⟩,fun _ _ => rfl⟩
    · rw [if_neg second]
      by_cases idle : p.loraBufferIndex = 0
      · rw [if_neg (by simpa using idle)]
        exact .inl ⟨rfl,idle,start⟩
      · rw [if_pos idle]
        exact .inr ⟨p.infoType,rfl,fun zero => absurd zero idle,.inl rfl,fun one => absurd one second⟩

theorem store_scratch (p : ServerParser) (b : UInt8) : (p.store b).scratch = p.scratch := by
  obtain ⟨same,_⟩ | ⟨infoType,same,_⟩ := p.store_cases b <;> rw [same]
  rfl

theorem limit_scratch (p : ServerParser) : p.limit.scratch = p.scratch := by
  unfold limit; split <;> rfl

theorem limit_infoType (p : ServerParser) : p.limit.infoType = p.infoType := by
  unfold limit; split <;> rfl

theorem limit_buffer (p : ServerParser) : p.limit.loraBuffer = p.loraBuffer := by
  unfold limit; split <;> rfl

theorem limit_index (p : ServerParser) :
    p.limit.loraBufferIndex = if p.loraBufferIndex ≥ 49 then 0 else p.loraBufferIndex := by
  unfold limit; split <;> rfl

theorem limit_small (p : ServerParser) (small : p.loraBufferIndex < 49) : p.limit = p := by
  unfold limit; rw [if_neg (by omega)]

theorem receive_inner (p : ServerParser) {b : UInt8} (inner : b ≠ byteZ) :
    p.receive b = ((p.store b).limit,none) := by
  unfold receive
  rw [if_neg (fun both => inner both.1)]

theorem store_head (p : ServerParser) (sound : p.Sound) (b : UInt8) :
    0 < (p.store b).loraBufferIndex → (p.store b).loraBuffer.head? = some byteS := by
  intro positive
  obtain ⟨same,_⟩ | ⟨infoType,same,first,_⟩ := p.store_cases b
  · rw [same] at positive ⊢
    exact sound.opened positive
  · rw [same]
    have size := sound.size
    obtain ⟨head,tail,shape⟩ : ∃ head tail, p.loraBuffer = head::tail :=
      List.exists_cons_of_length_pos (by omega)
    simp only [append,typed,shape]
    rcases Nat.eq_zero_or_pos p.loraBufferIndex with zero | later
    · rw [zero,first zero]; rfl
    · obtain ⟨index,next⟩ : ∃ index, p.loraBufferIndex = index+1 := ⟨p.loraBufferIndex-1,by omega⟩
      have opened := sound.opened later
      rw [shape] at opened
      rw [next,List.set_cons_succ]
      exact opened

theorem store_size (p : ServerParser) (b : UInt8) : (p.store b).loraBuffer.length = p.loraBuffer.length := by
  obtain ⟨same,_⟩ | ⟨infoType,same,_⟩ := p.store_cases b <;> rw [same]
  exact append_size p b

theorem receive_sound (p : ServerParser) (sound : p.Sound) (b : UInt8) : (p.receive b).1.Sound := by
  have size := sound.size
  have stored := p.store_size b
  unfold receive
  dsimp only
  split
  · refine ⟨?_,?_,?_⟩
    · rw [limit_buffer]
      simp only [finish,List.length_set]
      omega
    · rw [limit_index]; simp [finish]
    · rw [limit_index]; simp [finish]
  · refine ⟨?_,?_,?_⟩
    · rw [limit_buffer]; omega
    · rw [limit_index]; split <;> omega
    · rw [limit_index,limit_buffer]
      split
      · intro positive; omega
      · exact p.store_head sound b

theorem boot_sound (stack : List (List UInt8)) : (boot stack).Sound :=
  ⟨List.length_replicate,Nat.zero_lt_succ _,fun positive => absurd positive (Nat.lt_irrefl 0)⟩

theorem receiveAll_sound (p : ServerParser) (sound : p.Sound) (bytes : List UInt8) :
    (p.receiveAll bytes).Sound := by
  induction bytes generalizing p with
  | nil => exact sound
  | cons b rest ih => exact ih _ (p.receive_sound sound b)

theorem commands_inner (p : ServerParser) (bytes : List UInt8) (inner : byteZ ∉ bytes) :
    p.commands bytes = [] ∧ (p.receiveAll bytes).scratch = p.scratch := by
  induction bytes generalizing p with
  | nil => exact ⟨rfl,rfl⟩
  | cons b rest ih =>
    rw [List.mem_cons,not_or] at inner
    have received := p.receive_inner (Ne.symm inner.1)
    obtain ⟨quiet,kept⟩ := ih (p.receive b).1 inner.2
    refine ⟨?_,?_⟩
    · rw [commands,quiet,received]; rfl
    · change ((p.receive b).1.receiveAll rest).scratch = _
      rw [kept,received,limit_scratch,store_scratch]

-- Past the second byte a frame keeps its type, whatever bytes but 'S' follow.
theorem type_kept (p : ServerParser) (bytes : List UInt8) (past : p.loraBufferIndex ≠ 1)
    (noStart : byteS ∉ bytes) (inner : byteZ ∉ bytes) :
    (p.receiveAll bytes).infoType = p.infoType ∧ (p.receiveAll bytes).loraBufferIndex ≠ 1 := by
  induction bytes generalizing p with
  | nil => exact ⟨rfl,past⟩
  | cons b rest ih =>
    rw [List.mem_cons,not_or] at noStart inner
    have received := p.receive_inner (Ne.symm inner.1)
    have next : (p.receive b).1.infoType = p.infoType ∧ (p.receive b).1.loraBufferIndex ≠ 1 := by
      rw [received,limit_infoType,limit_index]
      obtain ⟨same,idle,_⟩ | ⟨infoType,same,first,type,_⟩ := p.store_cases b
      · rw [same]
        refine ⟨rfl,?_⟩
        split <;> omega
      · rw [same]
        have started : p.loraBufferIndex ≠ 0 := fun zero => noStart.1 (first zero).symm
        refine ⟨?_,?_⟩
        · rcases type with kept | ⟨one,_⟩
          · exact kept
          · exact absurd one past
        · rw [typed_index,append_index]
          split <;> omega
    obtain ⟨type,index⟩ := ih (p.receive b).1 next.2 noStart.2 inner.2
    exact ⟨type.trans next.1,index⟩

-- The 'S' that opens a frame in an idle parser.
theorem frame_started (p : ServerParser) (sound : p.Sound) (idle : p.loraBufferIndex = 0) :
    (p.receive byteS).1.loraBufferIndex = 1 ∧ (p.receive byteS).1.frame = [byteS] ∧
      (p.receive byteS).1.infoType = p.infoType := by
  have size := sound.size
  have received : (p.receive byteS).1 = p.append byteS := by
    have stored : p.store byteS = p.append byteS := if_pos rfl
    rw [p.receive_inner (by decide),stored,limit_small]
    rw [append_index,idle]
    decide
  rw [received]
  refine ⟨?_,?_,rfl⟩
  · rw [append_index,idle]
  · rw [p.append_frame byteS (by omega)]
    unfold frame
    rw [idle]
    rfl

-- While the buffer lasts, every byte of a started frame is stored behind the last.
theorem frame_collected (p : ServerParser) (sound : p.Sound) (started : p.loraBufferIndex ≠ 0) (body : List UInt8)
    (inner : byteZ ∉ body) (short : p.loraBufferIndex+body.length ≤ 48) :
    (p.receiveAll body).frame = p.frame++body ∧ (p.receiveAll body).loraBufferIndex = p.loraBufferIndex+body.length := by
  induction body generalizing p with
  | nil => exact ⟨(List.append_nil _).symm,rfl⟩
  | cons b rest ih =>
    rw [List.mem_cons,not_or] at inner
    rw [List.length_cons] at short
    have size := sound.size
    obtain ⟨_,idle,_⟩ | ⟨infoType,stored,_⟩ := p.store_cases b
    · exact absurd idle started
    have received : (p.receive b).1 = (p.append b).typed infoType := by
      rw [p.receive_inner (Ne.symm inner.1),stored,limit_small]
      rw [typed_index,append_index]
      omega
    have longer : ((p.append b).typed infoType).frame = p.frame++[b] := p.append_frame b (by omega)
    have index : (p.receive b).1.loraBufferIndex = p.loraBufferIndex+1 := by
      rw [received]
      rfl
    obtain ⟨frame,count⟩ := ih (p.receive b).1 (p.receive_sound sound b) (by omega) inner.2 (by omega)
    refine ⟨?_,?_⟩
    · refine frame.trans ?_
      rw [received,longer,List.append_assoc]
      rfl
    · refine count.trans ?_
      rw [index,List.length_cons]
      omega

theorem receive_last (p : ServerParser) (idle : p.loraBufferIndex = 0) : p.receive byteZ = (p.limit,none) := by
  have kept : p.store byteZ = p := by
    unfold store
    rw [if_neg (by decide),if_neg (by omega),if_neg (by omega)]
  unfold receive
  rw [kept,if_neg (fun both => both.2 idle)]

theorem store_end (p : ServerParser) (started : 0 < p.loraBufferIndex) :
    p.store byteZ = (p.append byteZ).typed (p.store byteZ).infoType ∧
      (p.loraBufferIndex ≠ 1 → (p.store byteZ).infoType = p.infoType) := by
  obtain ⟨_,idle,_⟩ | ⟨infoType,same,_,type,_⟩ := p.store_cases byteZ
  · omega
  · refine ⟨by rw [same]; rfl,?_⟩
    intro past
    rw [same]
    rcases type with kept | ⟨second,_⟩
    · exact kept
    · exact absurd second past

theorem finish_text (p : ServerParser) (sound : p.Sound) (started : 0 < p.loraBufferIndex) :
    (p.store byteZ).loraBufferIndex = p.loraBufferIndex+1 ∧
      cString (p.store byteZ).finish.1.loraBuffer = cString (p.frame++[byteZ]) := by
  have size := sound.size
  have room := sound.room
  obtain ⟨stored,_⟩ := p.store_end started
  have index : (p.store byteZ).loraBufferIndex = p.loraBufferIndex+1 := by
    rw [stored,typed_index,append_index]
  refine ⟨index,?_⟩
  simp only [finish]
  rw [cString_terminated _ _ (by rw [p.store_size,index]; omega),stored]
  change cString (p.append byteZ).frame = _
  rw [append_frame p byteZ (by omega)]

-- The final byte: the accumulated text is scanned in the format of its type, and
-- stays in the buffer.
theorem receive_finish (p : ServerParser) (sound : p.Sound) (started : 0 < p.loraBufferIndex) :
    (p.receive byteZ).2 = decodeServer (p.store byteZ).infoType
        (assign (convert (serverFormat (p.store byteZ).infoType) (cString (p.frame++[byteZ]))) p.scratch) ∧
      (p.receive byteZ).1.loraBufferIndex = 0 ∧
      cString (p.receive byteZ).1.loraBuffer = cString (p.frame++[byteZ]) := by
  obtain ⟨index,text⟩ := p.finish_text sound started
  unfold receive
  dsimp only
  rw [if_pos ⟨rfl,by omega⟩]
  refine ⟨?_,?_,by rw [limit_buffer]; exact text⟩
  · rw [← text,← store_scratch p byteZ]
    rfl
  · rw [limit_index]; rfl

theorem receive_end (p : ServerParser) (sound : p.Sound) (started : 0 < p.loraBufferIndex)
    (past : p.loraBufferIndex ≠ 1) :
    (p.receive byteZ).2 = decodeServer p.infoType
        (assign (convert (serverFormat p.infoType) (cString (p.frame++[byteZ]))) p.scratch) ∧
      (p.receive byteZ).1.loraBufferIndex = 0 ∧
      cString (p.receive byteZ).1.loraBuffer = cString (p.frame++[byteZ]) := by
  have finished := p.receive_finish sound started
  rwa [(p.store_end started).2 past] at finished

end ServerParser
end UsvRt
