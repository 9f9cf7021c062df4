import UsvRt.MachineWord

-- A flag that a refresh may raise and that a periodic check lowers once the
-- stamped age of the last refresh exceeds a limit. Stamps wrap; true time does not.
namespace Supervision
open MachineWord

structure Watch where
  now : Nat
  refreshed : Nat
  checked : Nat
  flag : Bool

def expired (limit : Nat) (w : Watch) : Bool := decide (limit < (stamp w.now - stamp w.refreshed).toNat)

def check (limit : Nat) (w : Watch) : Watch := {w with flag:=w.flag && !expired limit w,checked:=w.now}
def refresh (flag : Bool) (w : Watch) : Watch := {w with flag:=flag,refreshed:=w.now}
def wait (ticks : Nat) (w : Watch) : Watch := {w with now:=w.now+ticks}

-- A numeric flag that is cleared once the difference of the stamps passes a limit,
-- all in 32 bits, is a checked flag.
theorem timeout_check (w : Watch) {word bound : UInt32} {raised : Int} (same : bound.toNat = limit)
    (stamped : word = stamp w.refreshed) (flag : w.flag = decide (raised = 1)) :
    decide ((if stamp w.now - word > bound then 0 else raised) = 1) = (check limit w).flag := by
  have late : stamp w.now - word > bound ↔ expired limit w = true := by
    rw [stamped,← same]
    exact UInt32.lt_iff_toNat_lt.trans decide_eq_true_iff.symm
  change _ = (w.flag && !expired limit w)
  by_cases overdue : stamp w.now - word > bound
  · rw [if_pos overdue,late.mp overdue,flag]
    simp
  · have fresh : expired limit w = false := by
      rw [late,Bool.not_eq_true] at overdue
      exact overdue
    rw [if_neg overdue,fresh,flag]
    simp

theorem check_eq (flag : cleared = (check limit w).flag) : {w with flag:=cleared,checked:=w.now} = check limit w := by
  subst flag
  rfl

-- A raised flag was still fresh at the last check, and that check is recent
-- enough for the next one to see the true age.
structure Sound (limit gap : Nat) (w : Watch) : Prop where
  checkedPast : w.checked ≤ w.now
  refreshedPast : w.refreshed ≤ w.now
  recent : w.now ≤ w.checked + gap
  fresh : w.flag = true → w.checked ≤ w.refreshed + limit

theorem Sound.refresh (sound : Sound limit gap w) (flag : Bool) : Sound limit gap (refresh flag w) :=
  ⟨sound.checkedPast,Nat.le_refl _,sound.recent,fun _ => Nat.le_trans sound.checkedPast (Nat.le_add_right _ _)⟩

theorem Sound.wait (sound : Sound limit gap w) (bounded : w.now + ticks ≤ w.checked + gap) :
    Sound limit gap (wait ticks w) :=
  ⟨Nat.le_trans sound.checkedPast (Nat.le_add_right _ _),
    Nat.le_trans sound.refreshedPast (Nat.le_add_right _ _),bounded,sound.fresh⟩

theorem Sound.age (sound : Sound limit gap w) (room : limit + gap < 2^32) (raised : w.flag = true) :
    (stamp w.now - stamp w.refreshed).toNat = w.now - w.refreshed := by
  have fresh := sound.fresh raised
  have recent := sound.recent
  exact age_exact sound.refreshedPast (by omega)

theorem Sound.check_exact (sound : Sound limit gap w) (room : limit + gap < 2^32) :
    (check limit w).flag = true ↔ w.flag = true ∧ w.now ≤ w.refreshed + limit := by
  cases raised : w.flag with
  | false => simp [check,raised]
  | true =>
    have age := sound.age room raised
    have past := sound.refreshedPast
    simp only [check,expired,raised,age,Bool.true_and,Bool.not_eq_true',decide_eq_false_iff_not,true_and]
    omega

theorem Sound.check (sound : Sound limit gap w) (room : limit + gap < 2^32) :
    Sound limit gap (check limit w) := by
  refine ⟨Nat.le_refl _,sound.refreshedPast,Nat.le_add_right _ _,?_⟩
  intro raised
  exact ((sound.check_exact room).mp raised).2

end Supervision
