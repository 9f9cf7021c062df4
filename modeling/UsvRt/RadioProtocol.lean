import UsvRt.MachineWord
import UsvRt.TextScan

namespace UsvRt
open TextScan

def byteA : UInt8 := 65
def byteH : UInt8 := 72

inductive RadioCommand where
  | stick (col row : Int)
  | keys (key1 key2 : Int)
  deriving DecidableEq

-- Locals of lora_rec in lora.c. The third key digit is decoded there and unused.
structure RadioParser where
  loraBufferIndex : Nat
  loraBuffer : List UInt8
  dataType : Nat
  colS : List UInt8
  rowS : List UInt8
  keyS : List UInt8
  deriving DecidableEq

def RadioParser.boot : RadioParser := ⟨0,List.replicate 32 0,1,[],[],[]⟩

def stickFormat : List Directive :=
  [.literal byteA,.digits,.literal 44,.digits,.literal 90,.literal 44]
def keyFormat : List Directive := [.literal byteH,.digits,.literal 90,.literal 44]

namespace RadioParser

def append (p : RadioParser) (loraChar : UInt8) : RadioParser :=
  {p with loraBuffer:=p.loraBuffer.set p.loraBufferIndex loraChar,loraBufferIndex:=p.loraBufferIndex+1}

-- Unlike the server receiver, a start byte restarts the frame.
def store (p : RadioParser) (loraChar : UInt8) : RadioParser :=
  if loraChar = byteA ∨ loraChar = byteH then
    {{p with loraBufferIndex:=0}.append loraChar with dataType:=if loraChar = byteA then 1 else 2}
  else if p.loraBufferIndex ≠ 0 then p.append loraChar
  else p

def finish (p : RadioParser) : RadioParser × RadioCommand :=
  let loraBuffer := p.loraBuffer.set p.loraBufferIndex 0
  if p.dataType = 1 then
    let texts := assign (convert stickFormat (cString loraBuffer)) [p.colS,p.rowS]
    let colS := texts.getD 0 []
    let rowS := texts.getD 1 []
    ({p with loraBuffer:=loraBuffer,loraBufferIndex:=0,colS:=colS,rowS:=rowS},.stick (atoi colS) (atoi rowS))
  else
    let keyS := (assign (convert keyFormat (cString loraBuffer)) [p.keyS]).getD 0 []
    ({p with loraBuffer:=loraBuffer,loraBufferIndex:=0,keyS:=keyS},
      .keys (atoi (keyS.take 1)) (atoi ((keyS.drop 1).take 1)))

def limit (p : RadioParser) : RadioParser :=
  if p.loraBufferIndex > 20 then {p with loraBufferIndex:=0} else p

def receive (p : RadioParser) (loraChar : UInt8) : RadioParser × Option RadioCommand :=
  let stored := p.store loraChar
  if loraChar = 90 ∧ stored.loraBufferIndex ≠ 0 then
    (stored.finish.1.limit,some stored.finish.2)
  else (stored.limit,none)

end RadioParser

-- manager.c's globals that the remote writes; key[3..7] are never touched.
structure Remote where
  row : UInt32
  col : UInt32
  key0 : Int
  key1 : Int
  key2 : Int
  recTick : UInt32
  deriving DecidableEq

def Remote.boot : Remote := ⟨50,50,0,0,0,0⟩

def centred (value : UInt32) : UInt32 := if value > 45 ∧ value < 55 then 50 else value

def Remote.apply (r : Remote) (tick : UInt32) : RadioCommand → Remote
  | .stick col row =>
    {r with col:=centred (UInt32.ofInt col),row:=centred (UInt32.ofInt row),recTick:=tick}
  | .keys key1 key2 =>
    {r with
      key0:=if key1.tmod 2 = 1 then 1 else 0
      key1:=if key1.tmod 3 = 1 then 1 else 0
      key2:=if key2.tmod 3 = 1 then 1 else 0
      recTick:=tick}

theorem Remote.apply_stamped (r : Remote) (tick : UInt32) (c : RadioCommand) :
    (r.apply tick c).recTick = tick := by cases c <;> rfl

end UsvRt
