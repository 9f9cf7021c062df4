import UsvRt.Manager
import UsvRt.Truncation

namespace UsvRt
open Runs MachineWord Truncation

-- What auto_cruise.c takes from math.h. Float and double are one exact type here.
structure Analysis (K : Type) where
  sin : K → K
  cos : K → K
  exp : K → K
  asin : K → K
  sqrt : K → K
  atan2 : K → K → K

-- manager.c's globals that auto_cruise_pid reads.
structure Navigation (K : Type) where
  lng : K
  lat : K
  targetLng : K
  targetLat : K
  currentTheta : K
  autoSpeed : Int

-- The globals of auto_cruise.c; those that nothing reads are left out.
structure Cruise (K : Type) where
  maxControl : Int
  tempForwardPwm : Int
  forwardPwm : Int
  steerPwm : Int
  allDistance : K
  targeTheta : Int
  ek : K
  ekk : K
  kp : K
  ki : K
  kd : K
  pidValue : K
  integral : K
  differential : K
  angleError : Int

variable {K : Type} [Field K] [LinearOrder K] [FloorRing K]

def Cruise.boot : Cruise K := ⟨300,0,0,0,0,0,0,0,1/2,0,0,0,0,0,0⟩

def radiusOfEarth : K := 6371580/1000
def pi2degree : K := 31415926/10000000/180
def integralLimit : K := 1800

def Control.navigation (g : Control) (lng lat currentTheta : K) : Navigation K :=
  ⟨lng,lat,g.targetLng,g.targetLat,currentTheta,g.autoSpeed⟩

namespace Navigation

def longitudeDifference (n : Navigation K) : K := n.targetLng*pi2degree - n.lng*pi2degree
def latitudeDifference (n : Navigation K) : K := n.targetLat*pi2degree - n.lat*pi2degree

def allDistance (m : Analysis K) (n : Navigation K) : K :=
  2000*radiusOfEarth*m.asin (m.sqrt (m.sin (n.latitudeDifference/2)^2 +
    m.cos (n.targetLat*pi2degree)*m.cos (n.lat*pi2degree)*m.sin (n.longitudeDifference/2)^2))

def targeTheta (m : Analysis K) (n : Navigation K) : Int :=
  truncate (m.atan2 (m.sin n.longitudeDifference*m.cos (n.targetLat*pi2degree))
    (m.cos (n.lat*pi2degree)*m.sin (n.targetLat*pi2degree) -
      m.sin (n.lat*pi2degree)*m.cos (n.targetLat*pi2degree)*m.cos n.longitudeDifference)*180/(31415926/10000000))

end Navigation

def convertTheta (targeTheta : Int) : Int := if targeTheta > 0 then 360 - targeTheta else |targeTheta|

-- abs takes an int: the error is cut to whole degrees before it is compared.
def foldError (ek : K) : K :=
  if (truncate ek).natAbs ≥ 180 then if ek > 0 then ek - 360 else ek + 360 else ek

def headingError (targeTheta : Int) (currentTheta : K) : K := foldError ((targeTheta : K) - currentTheta)

def shapeDistance (m : Analysis K) (allDistance ek : K) : K :=
  if (truncate ek).natAbs > 90 then 0
  else (if allDistance ≥ 10 then 10 else allDistance)*m.cos (ek*(31415926/10000000)/180)

def limitIntegral (integral : K) : K :=
  if integral > integralLimit then integralLimit
  else if integral < -integralLimit then -integralLimit
  else integral

def addError (integral ek : K) : K := limitIntegral (if (truncate ek).natAbs ≤ 90 then integral + ek else integral)

def sigmoidPwm (m : Analysis K) (slope value : K) : Int := truncate ((1/(1 + m.exp (-slope*value)) - 1/2)*1000)

def forwardOf (m : Analysis K) (allDistanceTemp allDistance : K) : Int :=
  if allDistanceTemp ≤ 11/2 then truncate (allDistanceTemp*35) else sigmoidPwm m (2/5) allDistance

-- Only ints enter the scaling, so its quotients are rational.
def scaledForward (maxControl forwardPwm steerPwm : Int) : Int :=
  truncate ((maxControl*forwardPwm : ℚ)/(forwardPwm + |steerPwm|))
def scaledSteer (maxControl forwardPwm steerPwm : Int) : Int :=
  truncate ((maxControl : ℚ)*(steerPwm/(forwardPwm + |steerPwm|)))

namespace Cruise

def scale (c : Cruise K) : Cruise K :=
  if c.forwardPwm + |c.steerPwm| > c.maxControl then
    {c with
      tempForwardPwm:=c.forwardPwm
      forwardPwm:=scaledForward c.maxControl c.forwardPwm c.steerPwm
      steerPwm:=scaledSteer c.maxControl c.forwardPwm c.steerPwm}
  else c

def outputs (c : Cruise K) : UInt32 × UInt32 :=
  (UInt32.ofInt (1500 + c.forwardPwm - c.steerPwm),UInt32.ofInt (1500 + c.forwardPwm + c.steerPwm))

-- The control law, once the waypoint is at least a metre away.
def regulate (m : Analysis K) (c : Cruise K) (n : Navigation K) : Cruise K :=
  let targeTheta := convertTheta (n.targeTheta m)
  let ek := headingError targeTheta n.currentTheta
  let allDistance := shapeDistance m (n.allDistance m) ek
  let integral := addError c.integral ek
  let differential := ek - c.ekk
  let pidValue := c.kp*ek + c.ki*integral + c.kd*differential
  {c with
    maxControl:=wrap (100*n.autoSpeed)
    forwardPwm:=forwardOf m (n.allDistance m) allDistance
    steerPwm:=sigmoidPwm m (1/20) pidValue
    allDistance:=allDistance
    targeTheta:=targeTheta
    ek:=ek
    ekk:=ek
    pidValue:=pidValue
    integral:=integral
    differential:=differential
    angleError:=truncate ek}

def autoCruisePid (m : Analysis K) (c : Cruise K) (n : Navigation K) : Cruise K × (UInt32 × UInt32) :=
  if n.allDistance m < 1 then
    ({c with maxControl:=wrap (100*n.autoSpeed),allDistance:=n.allDistance m,targeTheta:=n.targeTheta m},(1500,1500))
  else
    let next := (c.regulate m n).scale
    (next,next.outputs)

def called (m : Analysis K) (c : Cruise K) (n : Navigation K) : Cruise K := (c.autoCruisePid m n).1

-- The globals after any calls since start-up.
def after (m : Analysis K) (calls : List (Navigation K)) : Cruise K := run (called m) boot calls

end Cruise

-- What auto_cruise_pid stores is what the manager hands to set_pwm in mode 3.
theorem cruise_drives (libm : Libm) (m : Analysis K) (c : Cruise K) (n : Navigation K) (s : Usv)
    (mode : s.timeouts.selectedMode = 3) :
    (s.manager libm (c.autoCruisePid m n).2).drive.motor =
      setPwm s.drive.motor (c.autoCruisePid m n).2.1 (c.autoCruisePid m n).2.2 := by
  rw [Usv.manager_motor,mode]
  rfl

theorem called_away (m : Analysis K) (c : Cruise K) (n : Navigation K) (away : 1 ≤ n.allDistance m) :
    c.called m n = (c.regulate m n).scale := congrArg Prod.fst (if_neg (not_lt.mpr away))

-- The gains are set where they are declared and nowhere else.
structure Cruise.Tuned (c : Cruise K) : Prop where
  kp : c.kp = 1/2
  ki : c.ki = 0
  kd : c.kd = 0

theorem scale_tuned {K : Type} [Field K] (c : Cruise K) (tuned : c.Tuned) : c.scale.Tuned := by
  unfold Cruise.scale
  split
  · exact ⟨tuned.kp,tuned.ki,tuned.kd⟩
  · exact tuned

theorem called_tuned (m : Analysis K) (c : Cruise K) (n : Navigation K) (tuned : c.Tuned) : (c.called m n).Tuned := by
  unfold Cruise.called Cruise.autoCruisePid
  split
  · exact ⟨tuned.kp,tuned.ki,tuned.kd⟩
  · exact scale_tuned _ ⟨tuned.kp,tuned.ki,tuned.kd⟩

theorem after_tuned (m : Analysis K) (calls : List (Navigation K)) : (Cruise.after m calls).Tuned :=
  Runs.Reached.invariant (called_tuned m) ⟨rfl,rfl,rfl⟩ ⟨calls,rfl⟩

end UsvRt
