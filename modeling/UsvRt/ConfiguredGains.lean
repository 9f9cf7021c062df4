import UsvRt.Autopilot

-- The gains of an S5 message against those auto_cruise_pid computes with.
namespace UsvRt.ConfiguredGains
open Runs Truncation HeadingError Autopilot

inductive Event (K : Type) where
  | message (c : ServerCommand)
  | call (lng lat currentTheta : K)

structure Pilot (K : Type) where
  control : Control
  cruise : Cruise K

-- The gains in force, with what the calls so far have summed up and met last.
structure Course (K : Type) where
  p : ℚ
  i : ℚ
  d : ℚ
  integral : K
  previous : K

section law
variable {K : Type} [Field K]

-- The arithmetic is exact here: nothing is rounded when it is stored.
def Pilot.boot : Pilot K := ⟨.initial id,.boot⟩
def Course.boot : Course K := ⟨1/2,1/100,1,0,0⟩
def boot : Pilot K × Course K := (.boot,.boot)

-- The handler keeps the gains where the course has them, the law its sum and last error.
structure Traced (s : Pilot K × Course K) : Prop where
  gains : s.1.control.pid = (s.2.p,s.2.i,s.2.d)
  tuned : s.1.cruise.Tuned
  integral : s.1.cruise.integral = s.2.integral
  previous : s.1.cruise.ekk = s.2.previous

theorem boot_traced : Traced (boot : Pilot K × Course K) := ⟨rfl,⟨rfl,rfl,rfl⟩,rfl,rfl⟩

variable [LinearOrder K] [FloorRing K]

def Pilot.step (m : Analysis K) (s : Pilot K) : Event K → Pilot K
  | .message c => {s with control:=s.control.assign id c}
  | .call lng lat currentTheta => {s with cruise:=s.cruise.called m (s.control.navigation lng lat currentTheta)}

def errorOf (m : Analysis K) (n : Navigation K) : K := headingError (convertTheta (n.targeTheta m)) n.currentTheta

def accumulate (integral ek : K) : K :=
  max (-((1800 : ℚ) : K)) (min ((1800 : ℚ) : K) (if ⌊|ek|⌋ ≤ 90 then integral + ek else integral))

namespace Course

def configure (h : Course K) : ServerCommand → Course K
  | .gains p i d => {h with p:=p/100,i:=i/100,d:=d/100}
  | _ => h

def meet (h : Course K) (ek : K) : Course K := {h with integral:=accumulate h.integral ek,previous:=ek}

def observe (m : Analysis K) (h : Course K) (s : Pilot K) : Event K → Course K
  | .message c => h.configure c
  | .call lng lat currentTheta =>
    let n := s.control.navigation lng lat currentTheta
    if 1 ≤ n.allDistance m then h.meet (errorOf m n) else h

def value (h : Course K) (ek : K) : K := h.p*ek + h.i*accumulate h.integral ek + h.d*(ek - h.previous)

-- What the configured law says beyond half the error.
def surplus (h : Course K) (ek : K) : K :=
  ((h.p - 1/2 : ℚ) : K)*ek + h.i*accumulate h.integral ek + h.d*(ek - h.previous)

end Course

def step (m : Analysis K) : Pilot K × Course K → Event K → Pilot K × Course K :=
  observed (Pilot.step m) (Course.observe m)

-- PID_value after a call that regulates is what the configured gains make of the errors.
def Lawful (m : Analysis K) (s : Pilot K × Course K) : Event K → Prop
  | .message _ => True
  | .call lng lat currentTheta => 1 ≤ (s.1.control.navigation lng lat currentTheta).allDistance m →
    let next := (s.1.step m (.call lng lat currentTheta)).cruise
    next.pidValue = s.2.value next.ek

def Matched (m : Analysis K) (s : Pilot K × Course K) : Event K → Prop
  | .message _ => True
  | .call lng lat currentTheta => 1 ≤ (s.1.control.navigation lng lat currentTheta).allDistance m →
    s.2.surplus (errorOf m (s.1.control.navigation lng lat currentTheta)) = 0

theorem call_near (m : Analysis K) (c : Cruise K) (n : Navigation K) (near : ¬1 ≤ n.allDistance m) :
    (c.called m n).integral = c.integral ∧ (c.called m n).ekk = c.ekk := by
  have parked : c.called m n = _ := congrArg Prod.fst (if_pos (not_le.mp near))
  rw [parked]
  exact ⟨rfl,rfl⟩

-- Only an S5 message writes the gains.
theorem message_traced (m : Analysis K) (s : Pilot K × Course K) (c : ServerCommand) (traced : Traced s) :
    Traced (step m s (.message c)) := by
  cases c with
  | gains => exact ⟨rfl,traced.tuned,traced.integral,traced.previous⟩
  | control controlVal controlMode =>
    have kept : (s.1.control.assign id (.control controlVal controlMode)).pid = s.1.control.pid := by
      unfold Control.assign
      dsimp only
      split <;> rfl
    exact ⟨kept.trans traced.gains,traced.tuned,traced.integral,traced.previous⟩
  | target | sample | settings | compass | heartbeat => exact ⟨traced.gains,traced.tuned,traced.integral,traced.previous⟩

variable [IsStrictOrderedRing K]

omit [FloorRing K] in
theorem limited (integral : K) : limitIntegral integral = max (-((1800 : ℚ) : K)) (min ((1800 : ℚ) : K) integral) := by
  have limit : (integralLimit : K) = ((1800 : ℚ) : K) := by
    unfold integralLimit
    norm_num
  have room : -((1800 : ℚ) : K) < ((1800 : ℚ) : K) := by norm_num
  unfold limitIntegral
  rw [limit]
  split
  · rename_i beyond
    rw [min_eq_left beyond.le,max_eq_right room.le]
  · rename_i below
    rw [min_eq_right (not_lt.mp below)]
    split
    · rename_i under
      exact (max_eq_left under.le).symm
    · rename_i above
      exact (max_eq_right (not_lt.mp above)).symm

theorem gate_tests (ek : K) : (truncate ek).natAbs ≤ 90 ↔ ⌊|ek|⌋ ≤ 90 := by
  rw [← abs_truncate,Int.abs_eq_natAbs]
  omega

theorem added (integral ek : K) : addError integral ek = accumulate integral ek := by
  unfold addError accumulate
  rw [limited]
  simp only [gate_tests]

theorem call_away (m : Analysis K) (c : Cruise K) (n : Navigation K) (tuned : c.Tuned) (away : 1 ≤ n.allDistance m) :
    (c.called m n).integral = accumulate c.integral (errorOf m n) ∧ (c.called m n).ekk = errorOf m n ∧
      (c.called m n).ek = errorOf m n ∧ (c.called m n).pidValue = 1/2*errorOf m n := by
  have law : (c.regulate m n).pidValue = 1/2*errorOf m n := by
    unfold Cruise.regulate errorOf
    simp only [tuned.kp,tuned.ki,tuned.kd,zero_mul,add_zero]
  rw [called_away m c n away,← added,← law]
  unfold Cruise.scale
  split <;> exact ⟨rfl,rfl,rfl,rfl⟩

theorem call_traced (m : Analysis K) (s : Pilot K × Course K) (lng lat currentTheta : K) (traced : Traced s) :
    Traced (step m s (.call lng lat currentTheta)) := by
  have tuned := called_tuned m s.1.cruise (s.1.control.navigation lng lat currentTheta) traced.tuned
  rcases em (1 ≤ (s.1.control.navigation lng lat currentTheta).allDistance m) with away | near
  · obtain ⟨integral,previous,_⟩ := call_away m s.1.cruise _ traced.tuned away
    have met : (step m s (.call lng lat currentTheta)).2 =
        s.2.meet (errorOf m (s.1.control.navigation lng lat currentTheta)) := if_pos away
    refine ⟨?_,tuned,?_,?_⟩ <;> rw [met]
    · exact traced.gains
    · exact integral.trans (congrArg (accumulate · _) traced.integral)
    · exact previous
  · obtain ⟨integral,previous⟩ := call_near m s.1.cruise _ near
    have same : (step m s (.call lng lat currentTheta)).2 = s.2 := if_neg near
    refine ⟨?_,tuned,?_,?_⟩ <;> rw [same]
    · exact traced.gains
    · exact integral.trans traced.integral
    · exact previous.trans traced.previous

theorem step_traced (m : Analysis K) (s : Pilot K × Course K) (e : Event K) (traced : Traced s) : Traced (step m s e) := by
  cases e with
  | message c => exact message_traced m s c traced
  | call lng lat currentTheta => exact call_traced m s lng lat currentTheta traced

theorem surplus_value (h : Course K) (ek : K) : 1/2*ek = h.value ek ↔ h.surplus ek = 0 := by
  have gap : h.value ek = 1/2*ek + h.surplus ek := by
    unfold Course.value Course.surplus
    push_cast
    ring
  rw [gap,left_eq_add]

theorem lawful_matched (m : Analysis K) (s : Pilot K × Course K) (e : Event K) (traced : Traced s) :
    Lawful m s e ↔ Matched m s e := by
  cases e with
  | message c => exact Iff.rfl
  | call lng lat currentTheta =>
    refine forall_congr' (fun away => ?_)
    obtain ⟨_,_,error,value⟩ := call_away m s.1.cruise _ traced.tuned away
    change (s.1.cruise.called m _).pidValue = s.2.value (s.1.cruise.called m _).ek ↔ _
    rw [error,value]
    exact surplus_value _ _

theorem along_matched (m : Analysis K) (s : Pilot K × Course K) (events : List (Event K)) (traced : Traced s) :
    Along (step m) (Lawful m) s events ↔ Along (step m) (Matched m) s events :=
  along_exchange (fun s e traced _ => lawful_matched m s e traced) (fun s e traced _ _ => step_traced m s e traced)
    traced (along_every _ (fun _ _ => trivial))

end law

def Reconfigures : Event ℝ → Prop
  | .message (.gains ..) => True
  | _ => False

-- The gains that auto_cruise.c computes with.
structure Built (h : Course ℝ) : Prop where
  p : h.p = 1/2
  i : h.i = 0
  d : h.d = 0

theorem built_step (m : Analysis ℝ) (s : Pilot ℝ × Course ℝ) (e : Event ℝ) (built : Built s.2) (same : ¬Reconfigures e) :
    Built (step m s e).2 := by
  cases e with
  | message c =>
    cases c with
    | gains => exact absurd trivial same
    | target | sample | control | settings | compass | heartbeat => exact built
  | call lng lat currentTheta =>
    change Built (s.2.observe m s.1 (.call lng lat currentTheta))
    unfold Course.observe
    dsimp only
    split
    · exact ⟨built.p,built.i,built.d⟩
    · exact built

theorem built_matched (m : Analysis ℝ) (s : Pilot ℝ × Course ℝ) (e : Event ℝ) (built : Built s.2) : Matched m s e := by
  cases e with
  | message c => trivial
  | call lng lat currentTheta =>
    intro away
    unfold Course.surplus
    rw [built.p,built.i,built.d]
    simp

-- Two metres south of the waypoint, thirty degrees off.
noncomputable def astray : Navigation ℝ := northward (30 : ℚ)

noncomputable def northCall : Event ℝ := .call astray.lng astray.lat astray.currentTheta

def Northward (s : Pilot ℝ) : Prop := s.control.navigation astray.lng astray.lat astray.currentTheta = astray

theorem astray_error : errorOf realAnalysis astray = -30 := by
  have error := northward_error (30 : ℚ)
  push_cast at error
  have narrow : ¬(truncate (0 - 30 : ℝ)).natAbs ≥ 180 := by
    intro turned
    have wide := (fold_tests (0 - 30 : ℝ)).mp turned
    norm_num at wide
  rw [foldError,if_neg narrow,zero_sub] at error
  unfold astray
  push_cast
  exact error

theorem north_met (s : Pilot ℝ) (h : Course ℝ) (aimed : Northward s)
    (path : Along (step realAnalysis) (Matched realAnalysis) (s,h) (northCall::rest)) :
    h.surplus (-30) = 0 ∧
      ∃ next, Northward next ∧ Along (step realAnalysis) (Matched realAnalysis) (next,h.meet (-30)) rest := by
  have away : 1 ≤ astray.allDistance realAnalysis := northward_away _
  have aim : s.control.navigation astray.lng astray.lat astray.currentTheta = astray := aimed
  have here := path.1
  have met : step realAnalysis (s,h) northCall = (s.step realAnalysis northCall,h.meet (-30)) := by
    change (_,Course.observe realAnalysis h s (.call astray.lng astray.lat astray.currentTheta)) = _
    unfold Course.observe
    dsimp only
    rw [aim,if_pos away,astray_error]
  refine ⟨?_,s.step realAnalysis northCall,aimed,?_⟩
  · change 1 ≤ (s.control.navigation astray.lng astray.lat astray.currentTheta).allDistance realAnalysis →
      h.surplus (errorOf realAnalysis (s.control.navigation astray.lng astray.lat astray.currentTheta)) = 0 at here
    rw [aim,astray_error] at here
    exact here away
  · rw [← met]
    exact path.2

theorem narrow_sum (integral : ℝ) (low : -1770 ≤ integral) (high : integral ≤ 1830) :
    accumulate integral (-30) = integral - 30 := by
  have gate : ⌊|(-30 : ℝ)|⌋ ≤ 90 := by norm_num
  unfold accumulate
  push_cast
  rw [if_pos gate,min_eq_right (by linarith),max_eq_right (by linarith),sub_eq_add_neg]

def waypoint : Event ℝ := .message (.target 120000000 30000020)

theorem aimed_northward (g : Control) (speed : g.autoSpeed = 3) :
    Northward (Pilot.step realAnalysis ⟨g,cruise⟩ waypoint) := by
  have aim : ∀ g : Control, g.autoSpeed = 3 → g.targetLng = 120 → g.targetLat = 30 + 1/50000 →
      g.navigation astray.lng astray.lat astray.currentTheta = astray := by
    intro g speed lng lat
    unfold Control.navigation astray northward
    rw [speed,lng,lat]
    norm_num
  refine aim _ speed ?_ ?_
  · change ((120000000 : Int) : ℚ)/1000000 = 120
    norm_num
  · change ((30000020 : Int) : ℚ)/1000000 = 30 + 1/50000
    norm_num

-- One call after another with the same error tells the three gains apart.
theorem told_apart (p i d : Int)
    (matched : Along (step realAnalysis) (Matched realAnalysis) boot
      [.message (.gains p i d),waypoint,northCall,northCall,northCall]) : p = 50 ∧ i = 0 ∧ d = 0 := by
  obtain ⟨first,s,aimed,path⟩ := north_met _ ⟨p/100,i/100,d/100,0,0⟩
    (aimed_northward ((Control.initial id).assign id (.gains p i d)) rfl) matched.2.2
  obtain ⟨second,t,aimed,path⟩ := north_met _ _ aimed path
  obtain ⟨third,_⟩ := north_met _ _ aimed path
  have once := narrow_sum 0 (by norm_num) (by norm_num)
  have twice := narrow_sum (0 - 30) (by norm_num) (by norm_num)
  have thrice := narrow_sum (0 - 30 - 30) (by norm_num) (by norm_num)
  simp only [Course.surplus,Course.meet,once,twice,thrice] at first second third
  push_cast at first second third
  have integral : (i : ℝ) = 0 := by linarith
  have differential : (d : ℝ) = 0 := by linarith
  have proportional : (p : ℝ) = 50 := by linarith
  exact ⟨by exact_mod_cast proportional,by exact_mod_cast integral,by exact_mod_cast differential⟩

theorem gains_exact (m : Analysis ℝ) (events : List (Event ℝ)) (p i d : Int) :
    (Along (step m) (Lawful m) boot events ↔ Along (step m) (Matched m) boot events) ∧
      ((∀ later, (∀ e ∈ later, ¬Reconfigures e) →
        Along (step realAnalysis) (Lawful realAnalysis) boot (.message (.gains p i d)::later)) ↔
        p = 50 ∧ i = 0 ∧ d = 0) := by
  refine ⟨along_matched m boot events boot_traced,?_⟩
  constructor
  · intro every
    have lawful := every [waypoint,northCall,northCall,northCall] (by simp [waypoint,northCall,Reconfigures])
    exact told_apart p i d ((along_matched _ _ _ boot_traced).mp lawful)
  · rintro ⟨rfl,rfl,rfl⟩ later same
    have built : Built (step realAnalysis boot (.message (.gains 50 0 0))).2 := by
      constructor <;> norm_num [step,boot,observed,Course.observe,Course.configure]
    rw [along_matched _ _ _ boot_traced]
    exact ⟨trivial,invariant_along (built_step realAnalysis) (fun s e built _ => built_matched _ s e built) built
      (along_every _ same)⟩

-- No S5 message yet: the law in pid[] asks for -45.3, PID_value is -15.
theorem gains_unread : ¬Along (step realAnalysis) (Lawful realAnalysis) boot [waypoint,northCall] := by
  intro lawful
  have matched := (along_matched _ _ _ boot_traced).mp lawful
  have met := (north_met _ .boot (aimed_northward (.initial id) rfl) matched.2).1
  have once := narrow_sum 0 (by norm_num) (by norm_num)
  simp only [Course.surplus,Course.boot,once] at met
  norm_num at met

end UsvRt.ConfiguredGains
