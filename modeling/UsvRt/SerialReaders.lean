import UsvRt.Wakeups
import UsvRt.RxFifo
import UsvRt.ServerProtocol
import UsvRt.RadioProtocol
import UsvRt.Radar
import UsvRt.WaterProbe
import UsvRt.Position

namespace UsvRt
open Runs Framing Wakeups

inductive Port where
  | raspberry
  | lora
  | compass
  | water
  | gps

namespace Port

def Parser : Port → Type
  | raspberry => ServerParser
  | lora => RadioParser
  | compass => RadarParser
  | water => Collector UInt8
  | gps => Collector UInt8

def Decoded : Port → Type
  | raspberry => ServerCommand
  | lora => RadioCommand
  | compass => Target
  | water => Int×Int
  | gps => Position.Fix

def receive : (port : Port) → port.Parser → UInt8 → port.Parser×Option port.Decoded
  | raspberry => ServerParser.receive
  | lora => RadioParser.receive
  | compass => RadarParser.receive
  | water => WaterProbe.receive
  | gps => Position.receive

end Port

-- A receiver thread with the semaphore its callback releases; the thread is between two of
-- the steps of its loop, or suspended in the middle of rt_sem_take.
structure Reader (port : Port) where
  fifo : RxFifo
  semValue : UInt16
  phase : Phase UInt8
  parser : port.Parser
  handed : List UInt8

namespace Reader
variable {port : Port}

def registered (fifo : RxFifo) (parser : port.Parser) : Reader port := ⟨fifo,0,.reading,parser,[]⟩

def semRelease (r : Reader port) : Reader port :=
  match r.phase with
  | .suspended => {r with phase:=.reading}
  | _ => {r with semValue:=r.semValue+1}

def semTake (r : Reader port) : Reader port :=
  if r.semValue > 0 then {r with semValue:=r.semValue-1,phase:=.reading} else {r with phase:=.suspended}

def interrupt (r : Reader port) (bytes : List UInt8) : Reader port :=
  let r := {r with fifo:=run RxFifo.put r.fifo bytes}
  if r.fifo.rxLength ≠ 0 then r.semRelease else r

def turn (r : Reader port) : Reader port :=
  match r.phase with
  | .reading =>
    match r.fifo.read with
    | none => {r with phase:=.missed}
    | some (byte,fifo) => {r with fifo:=fifo,phase:=.holding byte}
  | .missed => r.semTake
  | .suspended => r
  | .holding byte => {r with parser:=(port.receive r.parser byte).1,handed:=r.handed++[byte],phase:=.reading}

def step (r : Reader port) : Event UInt8 → Reader port
  | .interrupt bytes => r.interrupt bytes
  | .turn => r.turn

-- What is assumed of an interrupt: the FIFO has room for its bytes, the count does not wrap.
def Spared (r : Reader port) : Event UInt8 → Prop
  | .interrupt bytes => r.fifo.rxLength+bytes.length < r.fifo.bufsz ∧ r.semValue ≤ (r.interrupt bytes).semValue
  | .turn => True

def line (r : Reader port) : Line UInt8 := ⟨r.fifo.contents,r.semValue.toNat,r.phase,r.handed⟩

instance (r : Reader port) : (e : Event UInt8) → Decidable (r.Spared e)
  | .interrupt bytes =>
    inferInstanceAs (Decidable (r.fifo.rxLength+bytes.length < r.fifo.bufsz ∧ r.semValue ≤ (r.interrupt bytes).semValue))
  | .turn => isTrue trivial

theorem counted {value : UInt16} (unwrapped : value ≤ value+1) : (value+1).toNat = value.toNat+1 := by
  have bound := value.toNat_lt
  rw [UInt16.le_iff_toNat_le,UInt16.toNat_add,show (1 : UInt16).toNat = 1 from rfl] at unwrapped
  rw [UInt16.toNat_add,show (1 : UInt16).toNat = 1 from rfl]
  omega

theorem release_line (r : Reader port) (unwrapped : r.semValue ≤ r.semRelease.semValue) :
    r.semRelease.line = r.line.release := by
  obtain ⟨fifo,semValue,phase,parser,handed⟩ := r
  cases phase with
  | suspended => rfl
  | reading => simp only [semRelease,line,Line.release,counted unwrapped]
  | missed => simp only [semRelease,line,Line.release,counted unwrapped]
  | holding byte => simp only [semRelease,line,Line.release,counted unwrapped]

theorem interrupt_line (r : Reader port) (spared : r.Spared (.interrupt bytes)) :
    (r.interrupt bytes).line = r.line.interrupt bytes := by
  obtain ⟨room,unwrapped⟩ := spared
  have appended := RxFifo.puts_contents r.fifo bytes room
  have length := RxFifo.contents_length (run RxFifo.put r.fifo bytes)
  unfold interrupt at unwrapped ⊢
  unfold Line.interrupt
  dsimp only at unwrapped ⊢
  by_cases arrived : (run RxFifo.put r.fifo bytes).rxLength = 0
  · have nothing : r.line.queue++bytes = [] := by
      rw [line,← appended,← List.length_eq_zero_iff,length,arrived]
    obtain ⟨empty,_⟩ := List.append_eq_nil_iff.mp nothing
    rw [if_neg (not_not_intro arrived),if_pos (List.isEmpty_iff.mpr nothing),line,appended]
    exact congrArg (fun queue => {r.line with queue:=queue}) (nothing.trans empty.symm)
  · have something : ¬(r.line.queue++bytes).isEmpty := by
      rw [List.isEmpty_iff,line,← appended,← List.length_eq_zero_iff,length]
      exact arrived
    rw [if_pos arrived] at unwrapped ⊢
    rw [release_line _ unwrapped,if_neg something,line,appended]
    rfl

theorem turn_line (r : Reader port) : r.turn.line = r.line.turn := by
  obtain ⟨fifo,semValue,phase,parser,handed⟩ := r
  cases phase with
  | reading =>
    cases received : fifo.read with
    | none =>
      have empty := (RxFifo.read_none fifo).mp received
      simp only [turn,line,Line.turn,received,empty]
    | some next =>
      obtain ⟨byte,rest⟩ := next
      have front := RxFifo.read_some fifo received
      simp only [turn,line,Line.turn,received,front]
  | missed =>
    unfold turn semTake
    cases count : semValue.toNat with
    | zero =>
      have spent : ¬semValue > 0 := by rw [gt_iff_lt,UInt16.lt_iff_toNat_lt,count]; exact Nat.lt_irrefl 0
      dsimp only
      rw [if_neg spent]
      simp only [line,Line.turn,count]
    | succ left =>
      have available : semValue > 0 := by rw [gt_iff_lt,UInt16.lt_iff_toNat_lt,count]; exact Nat.succ_pos left
      have taken : (semValue-1).toNat = left := by
        have bound := semValue.toNat_lt
        rw [UInt16.toNat_sub,count,show (1 : UInt16).toNat = 1 from rfl]
        omega
      dsimp only
      rw [if_pos available]
      simp only [line,Line.turn,count,taken]
  | suspended => rfl
  | holding byte => rfl

theorem step_line (r : Reader port) (e : Event UInt8) (spared : r.Spared e) : (r.step e).line = r.line.step e := by
  cases e with
  | interrupt bytes => exact interrupt_line r spared
  | turn => exact turn_line r

theorem run_line (r : Reader port) (spared : Along step Spared r events) :
    (run step r events).line = run Line.step r.line events := by
  induction events generalizing r with
  | nil => rfl
  | cons e rest ih => rw [run_cons,run_cons,ih _ spared.2,step_line r e spared.1]

def Parsed (start : port.Parser) (r : Reader port) : Prop := r.parser = drive port.receive start r.handed

theorem release_parsed (parsed : Parsed start r) : Parsed start (semRelease r : Reader port) := by
  unfold semRelease
  split <;> exact parsed

theorem step_parsed (e : Event UInt8) (parsed : Parsed start r) : Parsed start (step r e : Reader port) := by
  cases e with
  | interrupt bytes =>
    unfold step interrupt
    dsimp only
    split
    · exact release_parsed parsed
    · exact parsed
  | turn =>
    obtain ⟨fifo,semValue,phase,parser,handed⟩ := r
    cases phase with
    | reading =>
      unfold step turn
      dsimp only
      split <;> exact parsed
    | missed =>
      unfold step turn semTake
      dsimp only
      split <;> exact parsed
    | suspended => exact parsed
    | holding byte =>
      change (port.receive parser byte).1 = drive port.receive start (handed++[byte])
      rw [drive_append,← parsed]
      rfl

-- given: the bytes waiting when the callback was registered and those appended since.
structure Delivers (start : port.Parser) (given : List UInt8) (r : Reader port) : Prop where
  suspended : r.phase = .suspended → r.fifo.contents = [] ∧ r.handed = given
  order : r.handed++(r.phase.held++r.fifo.contents) = given
  parsed : Parsed start r
  drained : ∀ turns, r.line.work ≤ turns →
    (run step r (List.replicate turns .turn)).phase = .suspended ∧
      (run step r (List.replicate turns .turn)).handed = given

theorem spared_turns (r : Reader port) (turns : Nat) : Along step Spared r (List.replicate turns .turn) := by
  induction turns generalizing r with
  | zero => trivial
  | succ turns ih => exact ⟨trivial,ih _⟩

theorem registered_watched (fifo : RxFifo) (start : port.Parser) : (registered fifo start).line.Watched := by
  refine ⟨?_,?_⟩
  · intro missed
    cases missed
  · intro suspended
    cases suspended

theorem wakeups_kept (fifo : RxFifo) (start : port.Parser) (events : List (Event UInt8))
    (spared : Along step Spared (registered fifo start) events) :
    Delivers start (fifo.contents++arrived events) (run step (registered fifo start) events) := by
  have refined := run_line _ spared
  have watched : (run step (registered fifo start) events).line.Watched := by
    rw [refined]
    exact Line.run_watched (registered_watched fifo start) events
  have items : (run step (registered fifo start) events).line.items = fifo.contents++arrived events := by
    rw [refined,Line.run_items]
    rfl
  have initial : Parsed start (registered fifo start) := rfl
  have parsed : Parsed start (run step (registered fifo start) events) :=
    Reached.invariant (fun _ e kept => step_parsed e kept) initial ⟨events,rfl⟩
  refine ⟨?_,items,parsed,?_⟩
  · intro suspended
    exact ⟨watched.suspended suspended,(Line.suspended_handed watched suspended).trans items⟩
  · intro turns enough
    have lined := run_line (run step (registered fifo start) events) (spared_turns _ turns)
    refine ⟨?_,?_⟩
    · exact (congrArg Line.phase lined).trans (Line.turns_suspend _ enough)
    · exact (congrArg Line.handed lined).trans ((Line.turns_handed watched enough).trans items)

-- The second byte comes between the read that found nothing and rt_sem_take.
def missedByte : List (Event UInt8) :=
  [.interrupt [6],.turn,.turn,.turn,.interrupt [3],.turn,.turn,.turn]

def emptyPort : RxFifo := RxFifo.empty 700 (by decide)
def idleParser : Port.Parser .water := WaterProbe.boot.parser
def waterReader : Reader .water := registered emptyPort idleParser

theorem missed_byte_delivered :
    Along step Spared waterReader missedByte ∧
      Delivers idleParser (emptyPort.contents++[6,3]) (run step waterReader missedByte) := by
  have spared : Along step Spared waterReader missedByte := by decide +kernel
  exact ⟨spared,wakeups_kept emptyPort idleParser missedByte spared⟩

end Reader
end UsvRt
