import Mathlib.Data.Rat.Floor
import UsvRt.FloatRounding
import UsvRt.MachineWord
import UsvRt.TextScan

namespace UsvRt
open TextScan MachineWord

def byteS : UInt8 := 83
def byteZ : UInt8 := 90
def byteComma : UInt8 := 44

inductive ServerCommand where
  | target (lng lat : Int)
  | sample (bottleId bottleDeep bottleAmount : Int)
  | control (controlVal controlMode : Int)
  | settings (networkBackhome energyBackhome obstacleAvoid handSpeed autoSpeed : Int)
  | gains (p i d : Int)
  | compass (compassStatus : Int)
  | heartbeat
  deriving DecidableEq

-- Locals of lora_rec in raspberry.c with the global lora_buffer[50]. The strings
-- c1..c6 are one list; like every scratch string they are unbounded here.
structure ServerParser where
  loraBufferIndex : Nat
  loraBuffer : List UInt8
  infoType : Nat
  scratch : List (List UInt8)
  deriving DecidableEq

-- c1..c6 have no initialiser, so boot takes whatever the stack held.
def ServerParser.boot (stack : List (List UInt8)) : ServerParser := ⟨0,List.replicate 50 0,0,stack⟩

-- atoi(&lora_char), read as the value of that one character.
def digitOf (loraChar : UInt8) : Nat := (atoi [loraChar]).toNat

def serverFormat (infoType : Nat) : List Directive :=
  let field := [.until byteComma,.literal byteComma]
  let last := [.until byteZ,.literal byteZ]
  match infoType with
  | 1 => .literal byteS::(field++field++last)
  | 2 => .literal byteS::(field++field++field++last)
  | 3 => .literal byteS::(field++field++last)
  | 4 => .literal byteS::(field++field++field++field++field++last)
  | 5 => .literal byteS::(field++field++field++last)
  | 6 => .literal byteS::(field++last)
  | _ => []

def decodeServer (infoType : Nat) (scratch : List (List UInt8)) : Option ServerCommand :=
  let c2 := atoi (scratch.getD 1 [])
  let c3 := atoi (scratch.getD 2 [])
  let c4 := atoi (scratch.getD 3 [])
  let c5 := atoi (scratch.getD 4 [])
  let c6 := atoi (scratch.getD 5 [])
  match infoType with
  | 1 => some (.target c2 c3)
  | 2 => some (.sample c2 c3 c4)
  | 3 => some (.control c2 c3)
  | 4 => some (.settings c2 c3 c4 c5 c6)
  | 5 => some (.gains c2 c3 c4)
  | 6 => some (.compass c2)
  | 8 => some .heartbeat
  | _ => none

namespace ServerParser

def append (p : ServerParser) (loraChar : UInt8) : ServerParser :=
  {p with loraBuffer:=p.loraBuffer.set p.loraBufferIndex loraChar,loraBufferIndex:=p.loraBufferIndex+1}

def typed (p : ServerParser) (infoType : Nat) : ServerParser := {p with infoType:=infoType}

def store (p : ServerParser) (loraChar : UInt8) : ServerParser :=
  if loraChar = byteS then p.append loraChar
  else if p.loraBufferIndex = 1 then (p.append loraChar).typed (digitOf loraChar)
  else if p.loraBufferIndex ≠ 0 then p.append loraChar
  else p

-- The frame is terminated and split; sscanf's result is not looked at.
def finish (p : ServerParser) : ServerParser × Option ServerCommand :=
  let loraBuffer := p.loraBuffer.set p.loraBufferIndex 0
  let scratch := assign (convert (serverFormat p.infoType) (cString loraBuffer)) p.scratch
  ({p with loraBuffer:=loraBuffer,scratch:=scratch,loraBufferIndex:=0},decodeServer p.infoType scratch)

def limit (p : ServerParser) : ServerParser :=
  if p.loraBufferIndex ≥ 49 then {p with loraBufferIndex:=0} else p

def receive (p : ServerParser) (loraChar : UInt8) : ServerParser × Option ServerCommand :=
  let stored := p.store loraChar
  if loraChar = byteZ ∧ stored.loraBufferIndex ≠ 0 then
    (stored.finish.1.limit,stored.finish.2)
  else (stored.limit,none)

def receiveAll (p : ServerParser) (bytes : List UInt8) : ServerParser :=
  bytes.foldl (fun q b => (q.receive b).1) p

end ServerParser

-- What a float_t takes of an exact quotient: first a double, then the nearest float.
def floatT (x : ℚ) : ℚ := FloatRounding.single (FloatRounding.double x)

-- manager.c's globals that only messages of the server write. target_lng, target_lat
-- and pid[] are float_t.
structure Control where
  targetLng : ℚ
  targetLat : ℚ
  controlVal : Int
  controlMode : Int
  networkBackhome : Int
  energyBackhome : Int
  obstacleAvoid : Int
  handSpeed : Int
  autoSpeed : Int
  pid : ℚ × ℚ × ℚ
  compassStatus : Int
  deriving DecidableEq

-- `float` is what a quotient becomes when it is stored.
def Control.initial (float : ℚ → ℚ) : Control := ⟨0,0,-1,1,0,0,0,3,3,(float (1/2),float (1/100),float 1),0⟩

def Control.assign (float : ℚ → ℚ) (g : Control) : ServerCommand → Control
  | .target lng lat => {g with targetLng:=float (lng/1000000),targetLat:=float (lat/1000000)}
  | .control controlVal controlMode =>
    let g := {g with controlVal:=controlVal,controlMode:=controlMode}
    -- The source assigns target_lat twice here and leaves target_lng.
    if controlMode = 3 then {g with targetLat:=0} else g
  | .settings networkBackhome energyBackhome obstacleAvoid handSpeed autoSpeed =>
    {g with
      networkBackhome:=networkBackhome
      energyBackhome:=energyBackhome
      obstacleAvoid:=obstacleAvoid
      handSpeed:=handSpeed
      autoSpeed:=autoSpeed}
  | .gains p i d => {g with pid:=(float (p/100),float (i/100),float (d/100))}
  | .compass compassStatus => {g with compassStatus:=compassStatus}
  | .sample .. | .heartbeat => g

def Control.boot : Control := .initial floatT

def Control.apply (g : Control) (c : ServerCommand) : Control := g.assign floatT c

structure Link where
  isConnect : Int
  recServerTick : UInt32
  deriving DecidableEq

def Link.boot : Link := ⟨0,0⟩

def Link.heard (l : Link) (tick : UInt32) : Link := {l with recServerTick:=tick}

def Link.apply (l : Link) (tick : UInt32) : ServerCommand → Link
  | .heartbeat => ⟨1,tick⟩
  | _ => l

-- raspberry.c's flags between its receiver and its sender.
structure Reply where
  sendStatusData : Int
  sendDetectData : Int
  sendConfirmData : Int
  deriving DecidableEq

def Reply.boot : Reply := ⟨1,0,0⟩

def ServerCommand.confirmed : ServerCommand → Bool
  | .control .. | .heartbeat => false
  | _ => true

def Reply.request (r : Reply) (c : ServerCommand) : Reply :=
  if c.confirmed then {r with sendStatusData:=0,sendConfirmData:=1} else r

-- What the frame bounds guarantee between two bytes: room for one more byte and
-- its terminator, and an open frame that begins with its 'S'.
structure ServerParser.Sound (p : ServerParser) : Prop where
  size : p.loraBuffer.length = 50
  room : p.loraBufferIndex < 49
  opened : 0 < p.loraBufferIndex → p.loraBuffer.head? = some byteS

end UsvRt
