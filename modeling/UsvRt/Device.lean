import UsvRt.Manager

-- The whole board: both byte receivers in front of the decoded machine.
namespace UsvRt
open Runs

structure Device where
  usv : Usv
  server : ServerParser
  radio : RadioParser

inductive Input where
  | wait (ticks : Nat)
  | serverByte (loraChar : UInt8)
  | radioByte (loraChar : UInt8)
  | manager (cruise : UInt32 × UInt32)
  | changePwm
  | changeGear
  deriving DecidableEq

namespace Device

def boot (stack : Fin 6 → List UInt8) : Device := ⟨.boot,.boot (List.ofFn stack),.boot⟩

-- What an input does to the decoded machine. Each received byte refreshes
-- rec_server_tick before it is looked at.
def occurrences (d : Device) : Input → List Occurrence
  | .wait ticks => [.wait ticks]
  | .serverByte loraChar => .heard::((d.server.receive loraChar).2.toList.map .server)
  | .radioByte loraChar => (d.radio.receive loraChar).2.toList.map .radio
  | .manager cruise => [.manager cruise]
  | .changePwm => [.changePwm]
  | .changeGear => [.changeGear]

def step (libm : Libm) (d : Device) (i : Input) : Device :=
  {usv:=run (Usv.step libm) d.usv (d.occurrences i)
   server:=match i with
    | .serverByte loraChar => (d.server.receive loraChar).1
    | _ => d.server
   radio:=match i with
    | .radioByte loraChar => (d.radio.receive loraChar).1
    | _ => d.radio}

def Reached (libm : Libm) (d : Device) : Prop := ∃ stack, Runs.Reached (step libm) (boot stack) d

theorem Reached.run (reached : Reached libm d) (inputs : List Input) :
    Reached libm (Runs.run (step libm) d inputs) := by
  obtain ⟨stack,path⟩ := reached
  exact ⟨stack,Runs.Reached.run path inputs⟩

theorem Reached.invariant {invariant : Device → Prop} (reached : Reached libm d)
    (initial : ∀ stack, invariant (boot stack))
    (preserved : ∀ d i, invariant d → invariant (step libm d i)) : invariant d := by
  obtain ⟨stack,path⟩ := reached
  exact Runs.Reached.invariant preserved (initial stack) path

-- Every run of the board is a run of the decoded machine.
theorem Reached.usv (reached : Reached libm d) : Usv.Reached libm d.usv := by
  obtain ⟨stack,inputs,rfl⟩ := reached
  exact run_refines Device.usv (fun d i => ⟨d.occurrences i,rfl⟩) (boot stack) inputs

def feed (libm : Libm) (d : Device) (bytes : List UInt8) : Device :=
  Runs.run (step libm) d (bytes.map .serverByte)

theorem feed_append (libm : Libm) (d : Device) (first second : List UInt8) :
    feed libm d (first++second) = feed libm (feed libm d first) second := by
  simp only [feed,List.map_append,run_append]

end Device

-- The control globals of the server protocol.
structure Globals where
  control : Control
  bottleId : Int
  bottleDeep : Int
  bottleAmount : Int
  drawStatus : Int
  isConnect : Int
  deriving DecidableEq

def Usv.globals (s : Usv) : Globals :=
  ⟨s.control,s.sampler.bottleId,s.sampler.bottleDeep,s.sampler.bottleAmount,s.sampler.drawStatus,s.link.isConnect⟩

def Globals.apply (g : Globals) : ServerCommand → Globals
  | .sample bottleId bottleDeep bottleAmount =>
    {g with bottleId:=bottleId,bottleDeep:=bottleDeep,bottleAmount:=bottleAmount,drawStatus:=0}
  | .heartbeat => {g with isConnect:=1}
  | c => {g with control:=g.control.apply c}

theorem decoded_globals (s : Usv) (c : ServerCommand) : (s.decoded c).globals = s.globals.apply c := by
  cases c <;> rfl

namespace ServerParser

def commands (p : ServerParser) : List UInt8 → List ServerCommand
  | [] => []
  | b::rest => (p.receive b).2.toList ++ commands (p.receive b).1 rest

theorem commands_append (p : ServerParser) (first second : List UInt8) :
    p.commands (first++second) = p.commands first ++ (p.receiveAll first).commands second := by
  induction first generalizing p with
  | nil => rfl
  | cons b rest ih =>
    simp only [List.cons_append,commands,ih,List.append_assoc]
    rfl

end ServerParser

namespace Device

theorem server_byte (libm : Libm) (d : Device) (loraChar : UInt8) :
    (d.step libm (.serverByte loraChar)).usv =
      match (d.server.receive loraChar).2 with
      | some c => (d.usv.step libm .heard).step libm (.server c)
      | none => d.usv.step libm .heard := by
  change run (Usv.step libm) (d.usv.step libm .heard) ((d.server.receive loraChar).2.toList.map .server) = _
  cases (d.server.receive loraChar).2 with
  | none => rfl
  | some c => rfl

theorem radio_byte (libm : Libm) (d : Device) (loraChar : UInt8) :
    (d.step libm (.radioByte loraChar)).usv =
      match (d.radio.receive loraChar).2 with
      | some c => d.usv.step libm (.radio c)
      | none => d.usv := by
  change run (Usv.step libm) d.usv ((d.radio.receive loraChar).2.toList.map .radio) = _
  cases (d.radio.receive loraChar).2 with
  | none => rfl
  | some c => rfl

theorem heard_decoded (libm : Libm) (s : Usv) (commands : List ServerCommand) :
    (run (Usv.step libm) s (commands.map .server)).globals = commands.foldl Globals.apply s.globals ∧
      (run (Usv.step libm) s (commands.map .server)).reply = commands.foldl Reply.request s.reply := by
  induction commands generalizing s with
  | nil => exact ⟨rfl,rfl⟩
  | cons c rest ih =>
    obtain ⟨globals,reply⟩ := ih (s.decoded c)
    rw [decoded_globals] at globals
    exact ⟨globals,reply⟩

theorem feed_server (libm : Libm) (d : Device) (bytes : List UInt8) :
    (feed libm d bytes).server = d.server.receiveAll bytes := by
  induction bytes generalizing d with
  | nil => rfl
  | cons b rest ih => exact ih (step libm d (.serverByte b))

theorem feed_effect (libm : Libm) (d : Device) (bytes : List UInt8) :
    (feed libm d bytes).usv.globals = (d.server.commands bytes).foldl Globals.apply d.usv.globals ∧
      (feed libm d bytes).usv.reply = (d.server.commands bytes).foldl Reply.request d.usv.reply := by
  induction bytes generalizing d with
  | nil => exact ⟨rfl,rfl⟩
  | cons b rest ih =>
    obtain ⟨globals,reply⟩ := ih (step libm d (.serverByte b))
    obtain ⟨first,second⟩ := heard_decoded libm (d.usv.step libm .heard) (d.server.receive b).2.toList
    simp only [ServerParser.commands,List.foldl_append]
    change (feed libm (step libm d (.serverByte b)) rest).usv.globals = _ ∧
      (feed libm (step libm d (.serverByte b)) rest).usv.reply = _
    rw [globals,reply]
    change List.foldl _ (run (Usv.step libm) (d.usv.step libm .heard) _).globals _ = _ ∧
      List.foldl _ (run (Usv.step libm) (d.usv.step libm .heard) _).reply _ = _
    rw [first,second]
    exact ⟨rfl,rfl⟩

end Device
end UsvRt
