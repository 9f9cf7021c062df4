import UsvRt.Dosing

-- What draw_status reports against what the pump did: status and pins are computed
-- apart, from the same unchecked command.
namespace UsvRt.SampleReports
open Runs Sampler MachineWord Dosing

-- The pump is on and the valve of this bottle open.
def Fills (bottleId : Int) (pins : Pins) : Prop :=
  pins.relay1 = true ∧ ∃ n : Fin 8, bottleId = n.val+1 ∧ pins.valve n = true

instance (bottleId : Int) (pins : Pins) : Decidable (Fills bottleId pins) := inferInstanceAs (Decidable (_ ∧ _))

-- The iteration finds the hose at the depth of a pending command.
def Looks (s : Sampler) (remote : Remote) : Prop := remote.key0 ≠ 1 ∧ s.Pending ∧ s.AtDepth

instance (s : Sampler) (remote : Remote) : Decidable (Looks s remote) := inferInstanceAs (Decidable (_ ∧ _ ∧ _))

def TimeLeft (s : Sampler) (tick : UInt32) : Prop := tick - started s.drawStartTick tick < drawTicks s.bottleAmount

instance (s : Sampler) (tick : UInt32) : Decidable (TimeLeft s tick) := inferInstanceAs (Decidable (_ < _))

-- Since the command: an iteration left its bottle filling, an iteration found the
-- hose at the depth, and a bottle was left filling by an iteration that did not.
structure History where
  served : Bool
  looked : Bool
  lent : Bool
  deriving DecidableEq

def History.fresh : History := ⟨false,false,false⟩

def History.iterate (h : History) (tick : UInt32) (remote : Remote) (s : Sampler) : History :=
  let filling := decide (Fills s.bottleId (s.manage tick remote).pins)
  let looking := decide (Looks s remote)
  ⟨h.served || filling,h.looked || looking,h.lent || (filling && !looking)⟩

def History.observe (h : History) (s : Usv) : Occurrence → History
  | .server (.sample _ _ _) => .fresh
  | .manager _ => h.iterate s.tick s.timeouts.remote s.sampler
  | _ => h

def watched (libm : Libm) : Usv × History → Occurrence → Usv × History := observed (Usv.step libm) History.observe

def start : Usv × History := (.boot,.fresh)

-- An iteration that reports 4 comes after one that filled the bottle, and one that
-- reports 2 fills it.
structure Honest (h : History) (tick : UInt32) (remote : Remote) (s : Sampler) : Prop where
  done : Looks s remote → ¬ TimeLeft s tick → h.served = true
  drawing : Looks s remote → TimeLeft s tick → Fills s.bottleId (s.manage tick remote).pins

def Reports (p : Usv × History) (e : Occurrence) : Prop :=
  ∀ cruise, e = .manager cruise → 1 ≤ p.1.sampler.bottleAmount →
    Honest p.2 p.1.tick p.1.timeouts.remote p.1.sampler

-- The bottle exists, and the first such iteration finds time left to pump.
structure Servable (h : History) (tick : UInt32) (remote : Remote) (s : Sampler) : Prop where
  bottle : Looks s remote → 1 ≤ s.bottleId ∧ s.bottleId ≤ 8
  time : Looks s remote → TimeLeft s tick ∨ h.looked = true ∨ h.lent = true

def Serves (p : Usv × History) (e : Occurrence) : Prop :=
  ∀ cruise, e = .manager cruise → 1 ≤ p.1.sampler.bottleAmount →
    Servable p.2 p.1.tick p.1.timeouts.remote p.1.sampler

theorem draw_fills (bottleId : Int) : Fills bottleId (draw bottleId) ↔ 1 ≤ bottleId ∧ bottleId ≤ 8 := by
  unfold Fills
  rw [draw_relay]
  constructor
  · exact fun filling => filling.1
  · intro served
    have cell : (bottleId-1).toNat < 8 := by omega
    have bottle : bottleId = ((⟨(bottleId-1).toNat,cell⟩ : Fin 8).val : Int)+1 := by
      dsimp only
      omega
    exact ⟨served,⟨(bottleId-1).toNat,cell⟩,bottle,(draw_valve bottleId _).mpr bottle⟩

theorem fills_bottle {bottleId : Int} {pins : Pins} (filling : Fills bottleId pins) : 1 ≤ bottleId ∧ bottleId ≤ 8 := by
  obtain ⟨_,n,bottle,_⟩ := filling
  have bound := n.isLt
  omega

theorem looking_draws (looks : Looks s remote) (left : TimeLeft s tick) : Draws s tick remote :=
  ⟨looks.1,looks.2.1,looks.2.2,left⟩

theorem looking_fills (looks : Looks s remote) (left : TimeLeft s tick) :
    Fills s.bottleId (s.manage tick remote).pins ↔ 1 ≤ s.bottleId ∧ s.bottleId ≤ 8 := by
  rw [(draws_next (looking_draws looks left)).2.2.2.1]
  exact draw_fills s.bottleId

-- Whatever filled the bottle is remembered, by the two causes it can have.
structure Kept (h : History) (bottleId : Int) : Prop where
  cause : h.served = (h.looked || h.lent)
  bottle : h.served = true → 1 ≤ bottleId ∧ bottleId ≤ 8

theorem honest_exact (kept : Kept h s.bottleId) : Honest h tick remote s ↔ Servable h tick remote s := by
  have cause := kept.cause
  constructor
  · rintro ⟨done,drawing⟩
    refine ⟨?_,?_⟩
    · intro looks
      by_cases left : TimeLeft s tick
      · exact (looking_fills looks left).mp (drawing looks left)
      · exact kept.bottle (done looks left)
    · intro looks
      by_cases left : TimeLeft s tick
      · exact .inl left
      · have served := done looks left
        rw [cause] at served
        exact .inr (by simpa using served)
  · rintro ⟨bottle,time⟩
    refine ⟨?_,?_⟩
    · intro looks late
      rcases time looks with left | looked | lent
      · exact absurd left late
      · rw [cause,looked,Bool.true_or]
      · rw [cause,lent,Bool.or_true]
    · intro looks left
      exact (looking_fills looks left).mpr (bottle looks)

theorem kept_iterate (kept : Kept h s.bottleId) (servable : Servable h tick remote s) :
    Kept (h.iterate tick remote s) s.bottleId := by
  have honest := (honest_exact kept).mpr servable
  have bottle : (h.iterate tick remote s).served = true → 1 ≤ s.bottleId ∧ s.bottleId ≤ 8 := by
    intro served
    rcases Bool.or_eq_true_iff.mp served with before | now
    · exact kept.bottle before
    · exact fills_bottle (of_decide_eq_true now)
  refine ⟨?_,bottle⟩
  have cause := kept.cause
  by_cases looks : Looks s remote
  · have served : (h.served || decide (Fills s.bottleId (s.manage tick remote).pins)) = true := by
      by_cases left : TimeLeft s tick
      · rw [decide_eq_true (honest.drawing looks left),Bool.or_true]
      · rw [honest.done looks left,Bool.true_or]
    simp only [History.iterate,served,decide_eq_true looks,Bool.or_true,Bool.true_or]
  · simp only [History.iterate,cause,decide_eq_false looks,Bool.or_false,Bool.not_false,Bool.and_true,Bool.or_assoc]

def Remembered (p : Usv × History) : Prop := 1 ≤ p.1.sampler.bottleAmount → Kept p.2 p.1.sampler.bottleId

theorem fresh_kept (bottleId : Int) : Kept .fresh bottleId := by
  refine ⟨rfl,?_⟩
  intro served
  cases served

theorem remembered_step (libm : Libm) (p : Usv × History) (e : Occurrence) (remembered : Remembered p)
    (serves : Serves p e) : Remembered (watched libm p e) := by
  obtain ⟨s,h⟩ := p
  cases e with
  | wait | heard | radio | changePwm | changeGear => exact remembered
  | server c =>
    cases c with
    | sample bottleId bottleDeep bottleAmount => exact fun _ => fresh_kept bottleId
    | target | control | settings | gains | compass | heartbeat => exact remembered
  | manager cruise =>
    obtain ⟨bottleId,_,bottleAmount⟩ := manage_kept s.sampler s.tick s.timeouts.remote
    intro positive
    have positive : 1 ≤ (s.sampler.manage s.tick s.timeouts.remote).bottleAmount := positive
    rw [bottleAmount] at positive
    have next := kept_iterate (remembered positive) (serves cruise rfl positive)
    rw [← bottleId] at next
    exact next

theorem reports_honest (libm : Libm) (events : List Occurrence) :
    Along (watched libm) Reports start events ↔ Along (watched libm) Serves start events := by
  have initial : Remembered start := fun _ => fresh_kept 0
  have every : Along (watched libm) (fun _ _ => True) start events := along_every _ fun _ _ => trivial
  refine along_exchange ?_ ?_ initial every
  · intro p e remembered _
    refine forall_congr' fun cruise => imp_congr_right fun _ => ?_
    exact imp_congr_right fun positive => honest_exact (remembered positive)
  · exact fun p e remembered _ serves => remembered_step libm p e remembered serves

-- Bottle 9 is reported as being drawn, and an amount of 3 as done, with every pin low.
def reporting (bottleId bottleAmount : Int) : List Occurrence :=
  [.server (.sample bottleId 0 bottleAmount),.wait 1,.manager (1500,1500)]++List.replicate 100 .changeGear++
    [.manager (1500,1500)]

theorem ninth_reported :
    (run (Usv.step .level) .boot (reporting 9 10)).sampler.drawStatus = 2 ∧
      (run (Usv.step .level) .boot (reporting 9 10)).sampler.pins = allLow ∧
      (run (Usv.step .level) .boot (reporting 1 3)).sampler.drawStatus = 4 ∧
      ¬ Along (watched .level) Reports start (reporting 9 10) ∧
      ¬ Along (watched .level) Reports start (reporting 1 3) := by
  have last : ∀ bottleId amount, Along (watched .level) Reports start (reporting bottleId amount) →
      Reports (run (watched .level) start ((reporting bottleId amount).take 103)) (.manager (1500,1500)) := by
    intro bottleId amount path
    refine (along_exact _ _).mp path _ _ [] ?_
    rfl
  refine ⟨by decide +kernel,by decide +kernel,by decide +kernel,?_,?_⟩
  · intro path
    have filling := (last 9 10 path (1500,1500) rfl (by decide +kernel)).drawing (by decide +kernel) (by decide +kernel)
    revert filling
    decide +kernel
  · intro path
    have served := (last 1 3 path (1500,1500) rfl (by decide +kernel)).done (by decide +kernel) (by decide +kernel)
    revert served
    decide +kernel

end UsvRt.SampleReports
