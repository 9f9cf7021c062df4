import UsvRt.Framing
import UsvRt.Manager

-- compass.c's radar receiver and the obstacle table it fills.
namespace UsvRt
open Framing

structure Target where
  id : Nat
  distance : Nat
  angle : Nat
  deriving DecidableEq

-- Locals of check_radar. A cell of gps_buffer is an int that holds one byte.
structure RadarParser where
  preRHex : UInt8
  gpsIndex : Nat
  gpsBuffer : List UInt8
  deriving DecidableEq

namespace RadarParser

def boot : RadarParser := ⟨0,0,List.replicate 128 0⟩

def append (p : RadarParser) (rHex : UInt8) : RadarParser :=
  {p with gpsBuffer:=p.gpsBuffer.set p.gpsIndex rHex,gpsIndex:=p.gpsIndex+1}

def store (p : RadarParser) (rHex : UInt8) : RadarParser :=
  if rHex = 170 ∧ p.preRHex = 170 then p.append rHex
  else if p.gpsIndex ≠ 0 then p.append rHex
  else p

def decode (gpsBuffer : List UInt8) : Option Target :=
  let cell := fun key => (gpsBuffer.getD key 0).toNat
  if cell 1 = 12 ∧ cell 2 = 7 then some ⟨cell 3,cell 5*256+cell 6,cell 7⟩ else none

def Closes (p : RadarParser) (rHex : UInt8) : Prop := rHex = 85 ∧ p.preRHex = 85

instance (p : RadarParser) (rHex : UInt8) : Decidable (p.Closes rHex) := inferInstanceAs (Decidable (_ ∧ _))

def limit (p : RadarParser) : RadarParser := if p.gpsIndex > 13 then {p with gpsIndex:=0} else p

-- The end of a frame is not asked for an open one: gps_buffer is read either way.
def receive (p : RadarParser) (rHex : UInt8) : RadarParser × Option Target :=
  let stored := p.store rHex
  if p.Closes rHex then ({stored with gpsIndex:=0,preRHex:=rHex},decode stored.gpsBuffer)
  else ({stored.limit with preRHex:=rHex},none)

end RadarParser

-- manager.c's obstacle table. Nothing resets an entry of target_id.
structure Targets where
  targetId : List Int
  targetDistance : List Int
  targetAngle : List Int
  deriving DecidableEq

def Targets.boot : Targets := ⟨List.replicate 10 0,List.replicate 10 0,List.replicate 10 0⟩

def Targets.update (t : Targets) (target : Target) : Targets :=
  if target.id < 10 then
    {t with
      targetId:=t.targetId.set target.id 1
      targetDistance:=t.targetDistance.set target.id target.distance
      targetAngle:=t.targetAngle.set target.id target.angle}
  else t

def Obstacle.update (o : Obstacle) (tick : UInt32) (target : Target) : Obstacle :=
  {o with
    obstacleTick:=tick
    minDistance:=if (target.distance : Int) < o.minDistance then target.distance else o.minDistance}

end UsvRt
