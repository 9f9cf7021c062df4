import UsvRt.Manager

-- The mechanical range of the hose servo against the depths that sampling commands
-- ask for: the pulse of a depth is computed in unsigned arithmetic and not limited.
namespace UsvRt.HoseRange
open Runs Sampler MachineWord

structure InRange (g : Gear) : Prop where
  target : 800 ≤ g.targetGearPwm.toNat ∧ g.targetGearPwm.toNat ≤ 2400
  current : 800 ≤ g.currentGearPwm.toNat ∧ g.currentGearPwm.toNat ≤ 2400
  fits : g.currentGearPwm.toNat*1000 < 2^32

def request (deep : Int) : UInt32 := UInt32.ofInt (depthPulse deep)

-- How far below the pulse of depth zero the request lies: bottle_deep*600/5, the
-- product reduced to 32 bits.
def lowered (deep : Int) : Int := 600*deep % 2^32 / 5

theorem depthPulse_exact (deep : Int) : depthPulse deep = 1400 - lowered deep := by
  have word := ofInt_toNat deep
  have product : (UInt32.ofInt deep * (1400 - minGeerPwm) / 5).toNat = (UInt32.ofInt deep).toNat*600 % 2^32 / 5 := by
    rw [UInt32.toNat_div,UInt32.toNat_mul]
    rfl
  have residue : ((UInt32.ofInt deep).toNat*600 : Int) % 2^32 = 600*deep % 2^32 := by
    rw [word]
    omega
  have steps : ((UInt32.ofInt deep * (1400 - minGeerPwm) / 5).toNat : Int) = lowered deep := by
    rw [product]
    unfold lowered
    rw [← residue]
    rfl
  have bound : lowered deep < 2^30 := by
    unfold lowered
    omega
  have pulse : (1400 - UInt32.ofInt deep * (1400 - minGeerPwm) / 5).toNat =
      (2^32 - (UInt32.ofInt deep * (1400 - minGeerPwm) / 5).toNat + 1400) % 2^32 := UInt32.toNat_sub _ _
  unfold depthPulse asInt
  split <;> omega

theorem request_exact (deep : Int) : ((request deep).toNat : Int) = (1400 - lowered deep) % 2^32 := by
  unfold request
  rw [ofInt_toNat,depthPulse_exact]

theorem lowered_bounds (deep : Int) : 0 ≤ lowered deep ∧ lowered deep < 2^30 := by
  unfold lowered
  omega

theorem request_range (deep : Int) :
    800 ≤ (request deep).toNat ∧ (request deep).toNat ≤ 2400 ↔ lowered deep ≤ 600 := by
  have pulse := request_exact deep
  have bounds := lowered_bounds deep
  omega

theorem request_ordered (shallow : lowered first ≤ 600) (deep : lowered second ≤ 600) :
    request second ≤ request first ↔ lowered first ≤ lowered second := by
  have firstPulse := request_exact first
  have secondPulse := request_exact second
  have firstBounds := lowered_bounds first
  have secondBounds := lowered_bounds second
  rw [UInt32.le_iff_toNat_le]
  omega

-- Without a wrap of the product only the depths 0 to 5 stay in range.
theorem lowered_near (deep : Int) (low : -7000000 ≤ deep) (high : deep ≤ 7000000) :
    (lowered deep ≤ 600 ↔ 0 ≤ deep ∧ deep ≤ 5) ∧ (0 ≤ deep → lowered deep = 120*deep) := by
  unfold lowered
  rcases Int.lt_or_le deep 0 with negative | positive
  · have turned : 600*deep % 2^32 = 600*deep + 2^32 := by omega
    rw [turned]
    omega
  · have plain : 600*deep % 2^32 = 600*deep := Int.emod_eq_of_lt (by omega) (by omega)
    rw [plain]
    omega

variable (libm : Libm)

-- An iteration that sends the hose to this depth.
def Sends (deep : Int) (s : Usv) : Prop :=
  s.timeouts.remote.key0 ≠ 1 ∧ s.sampler.Pending ∧ ¬ s.sampler.AtDepth ∧ s.sampler.bottleDeep = deep

def Requested (events : List Occurrence) (deep : Int) : Prop :=
  ∃ earlier cruise later, events = earlier++.manager cruise::later ∧ Sends deep (run (Usv.step libm) .boot earlier)

structure Ranged (events : List Occurrence) : Prop where
  inRange : ∀ earlier later, events = earlier++later → InRange (run (Usv.step libm) .boot earlier).sampler.gear
  ordered : ∀ first second, Requested libm events first → Requested libm events second → first ≤ second →
    request second ≤ request first

structure Reachable (events : List Occurrence) : Prop where
  within : ∀ deep, Requested libm events deep → lowered deep ≤ 600
  ordered : ∀ first second, Requested libm events first → Requested libm events second → first ≤ second →
    lowered first ≤ lowered second

theorem inRange_boot : InRange .boot := ⟨by decide,by decide,by decide⟩

theorem inRange_set (inside : InRange g) (gearPwm : UInt32) (bounds : 800 ≤ gearPwm.toNat ∧ gearPwm.toNat ≤ 2400) :
    InRange (setGearPwm g gearPwm) := ⟨bounds,inside.current,inside.fits⟩

theorem inRange_loop (inside : InRange g) : InRange (loopChangeGear g).1 := by
  have target := inside.target
  have current := inside.current
  rw [loopChangeGear_current]
  have pulse := rampPulse_one g.targetGearPwm g.currentGearPwm
  have next : 800 ≤ (rampPulse 1 g.targetGearPwm g.currentGearPwm).toNat ∧
      (rampPulse 1 g.targetGearPwm g.currentGearPwm).toNat ≤ 2400 := by
    unfold Ramp.approach at pulse
    split at pulse
    · omega
    · split at pulse <;> omega
  refine ⟨target,next,?_⟩
  dsimp only
  omega

theorem hosePulse_bounds (remote : Remote) : 800 ≤ (hosePulse remote).toNat ∧ (hosePulse remote).toNat ≤ 2400 := by
  unfold hosePulse
  split <;> decide

theorem manage_inRange (s : Sampler) (tick : UInt32) (remote : Remote) (inside : InRange s.gear)
    (within : remote.key0 ≠ 1 → s.Pending → ¬ s.AtDepth → lowered s.bottleDeep ≤ 600) :
    InRange (s.manage tick remote).gear := by
  have managed := manage_sound s tick remote
  generalize s.manage tick remote = next at managed
  cases managed with
  | remotePump | remoteTimeout | remoteOff => exact inRange_set inside _ (hosePulse_bounds remote)
  | travel released pending away =>
    exact inRange_set inside _ ((request_range s.bottleDeep).mpr (within released pending away))
  | pump | finish => exact inside
  | rest => exact inRange_set inside _ (by decide)

def Within (s : Usv) (e : Occurrence) : Prop :=
  ∀ cruise deep, e = .manager cruise → Sends deep s → lowered deep ≤ 600

theorem step_inRange (s : Usv) (e : Occurrence) (inside : InRange s.sampler.gear) (within : Within s e) :
    InRange (s.step libm e).sampler.gear := by
  cases e with
  | wait | heard | radio | changePwm => exact inside
  | server c =>
    cases c with
    | sample | target | control | settings | gains | compass | heartbeat => exact inside
  | changeGear => exact inRange_loop inside
  | manager cruise =>
    refine manage_inRange s.sampler s.tick s.timeouts.remote inside ?_
    intro released pending away
    exact within cruise s.sampler.bottleDeep rfl ⟨released,pending,away,rfl⟩

theorem sends_target (s : Usv) (cruise : UInt32 × UInt32) (sends : Sends deep s) :
    (s.step libm (.manager cruise)).sampler.gear.targetGearPwm = request deep := by
  obtain ⟨released,pending,away,rfl⟩ := sends
  change (s.sampler.manage s.tick s.timeouts.remote).gear.targetGearPwm = _
  have managed := manage_sound s.sampler s.tick s.timeouts.remote
  generalize s.sampler.manage s.tick s.timeouts.remote = next at managed
  cases managed with
  | remotePump enabled | remoteTimeout enabled | remoteOff enabled => exact absurd enabled released
  | travel => rfl
  | pump _ _ there | finish _ _ there => exact absurd there away
  | rest _ idle => exact absurd pending idle

theorem ranged_within (ranged : Ranged libm events) (requested : Requested libm events deep) : lowered deep ≤ 600 := by
  obtain ⟨earlier,cruise,later,rfl,sends⟩ := requested
  have after := ranged.inRange (earlier++[.manager cruise]) later (by rw [List.append_assoc]; rfl)
  have target := after.target
  rw [run_append,run_cons,run_nil,sends_target libm _ cruise sends] at target
  exact (request_range deep).mp target

theorem within_run (within : ∀ deep, Requested libm (earlier++later) deep → lowered deep ≤ 600) :
    InRange (run (Usv.step libm) .boot earlier).sampler.gear := by
  have path : Along (Usv.step libm) Within .boot earlier := by
    rw [along_exact]
    rintro before e after rfl cruise deep rfl sends
    exact within deep ⟨before,cruise,after++later,by rw [List.append_assoc]; rfl,sends⟩
  exact invariant_run (step_inRange libm) inRange_boot path

theorem ranged_reachable (events : List Occurrence) : Ranged libm events ↔ Reachable libm events := by
  constructor
  · intro ranged
    refine ⟨fun deep requested => ranged_within libm ranged requested,?_⟩
    intro first second shallow deep order
    exact (request_ordered (ranged_within libm ranged shallow) (ranged_within libm ranged deep)).mp
      (ranged.ordered first second shallow deep order)
  · intro reachable
    refine ⟨?_,?_⟩
    · rintro earlier later rfl
      exact within_run libm reachable.within
    · intro first second shallow deep order
      exact (request_ordered (reachable.within first shallow) (reachable.within second deep)).mpr
        (reachable.ordered first second shallow deep order)

def Near (deep : Int) : Prop := -7000000 ≤ deep ∧ deep ≤ 7000000

theorem near_reachable (near : ∀ deep, Requested libm events deep → Near deep) :
    Reachable libm events ↔ ∀ deep, Requested libm events deep → 0 ≤ deep ∧ deep ≤ 5 := by
  constructor
  · intro reachable deep requested
    obtain ⟨low,high⟩ := near deep requested
    exact (lowered_near deep low high).1.mp (reachable.within deep requested)
  · intro served
    have steps : ∀ deep, Requested libm events deep → lowered deep = 120*deep := by
      intro deep requested
      obtain ⟨low,high⟩ := near deep requested
      exact (lowered_near deep low high).2 (served deep requested).1
    refine ⟨?_,?_⟩
    · intro deep requested
      have bounds := served deep requested
      have equal := steps deep requested
      omega
    · intro first second shallow deep order
      rw [steps first shallow,steps second deep]
      omega

-- A run keeps the servo in range exactly if the depths it serves do, and with depths
-- that leave the product unwrapped these are 0 to 5.
theorem hose_range_exact (events : List Occurrence) :
    (Ranged libm events ↔ Reachable libm events) ∧
      ((∀ deep, Requested libm events deep → Near deep) →
        (Ranged libm events ↔ ∀ deep, Requested libm events deep → 0 ≤ deep ∧ deep ≤ 5)) :=
  ⟨ranged_reachable libm events,fun near => (ranged_reachable libm events).trans (near_reachable libm near)⟩

-- S2 with depth 6 sends the servo to 680.
theorem deep_leaves_range : ¬ Ranged .level [.server (.sample 1 6 10),.manager (1500,1500)] := by
  intro ranged
  have after := (ranged.inRange [.server (.sample 1 6 10),.manager (1500,1500)] [] rfl).target.1
  revert after
  decide

end UsvRt.HoseRange
