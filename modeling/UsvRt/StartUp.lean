import Mathlib.Data.List.Infix
import UsvRt.Runs

-- main's start-up of the five serial receivers, with bytes coming in meanwhile.
namespace UsvRt.StartUp
open Runs

-- The ports by their module: uart5, uart2, uart1, uart4, uart3.
inductive Port where
  | water
  | raspberry
  | compass
  | gps
  | lora
  deriving DecidableEq

inductive Call where
  | deviceOpen (port : Port)
  | setRxIndicate (port : Port)
  | semInit (port : Port)
  deriving DecidableEq

def initWater : List Call := [.deviceOpen .water,.semInit .water,.setRxIndicate .water]
def initRaspberry : List Call := [.deviceOpen .raspberry,.semInit .raspberry,.setRxIndicate .raspberry]
def initCompass : List Call := [.setRxIndicate .compass,.deviceOpen .compass,.semInit .compass]
def initGps : List Call := [.deviceOpen .gps,.setRxIndicate .gps,.semInit .gps]
def initLora : List Call := [.deviceOpen .lora,.semInit .lora,.setRxIndicate .lora]

-- The threads that main starts in between make none of these calls.
def main : List Call := initWater++initRaspberry++initCompass++initGps++initLora

inductive Event where
  | call
  | byte (port : Port)
  deriving DecidableEq

-- The calls made and to be made, and for each release of a semaphore whether it was
-- initialised.
structure Board where
  made : List Call
  left : List Call
  released : List (Port × Bool)

namespace Board

def boot : Board := ⟨[],main,[]⟩

-- A byte on an open port runs the callback that is registered.
def Interrupts (s : Board) (port : Port) : Prop := .deviceOpen port ∈ s.made ∧ .setRxIndicate port ∈ s.made

instance (s : Board) (port : Port) : Decidable (s.Interrupts port) := inferInstanceAs (Decidable (_ ∧ _))

def advance (s : Board) : Board :=
  match s.left with
  | [] => s
  | c::rest => {s with made:=s.made++[c],left:=rest}

def release (s : Board) (port : Port) : Board := {s with released:=s.released++[(port,decide (.semInit port ∈ s.made))]}

def step (s : Board) : Event → Board
  | .call => s.advance
  | .byte port => if s.Interrupts port then s.release port else s

end Board

def Initialised (s : Board) : Prop := ∀ entry ∈ s.released, entry.2 = true

instance (s : Board) : Decidable (Initialised s) := inferInstanceAs (Decidable (∀ _ ∈ _,_))

-- No byte on uart1 after its open and before its semaphore, none on uart4 after its
-- callback and before its semaphore.
def Silent (s : Board) : Event → Prop
  | .byte .compass => .deviceOpen .compass ∈ s.made → .semInit .compass ∈ s.made
  | .byte .gps => .setRxIndicate .gps ∈ s.made → .semInit .gps ∈ s.made
  | _ => True

instance (s : Board) (e : Event) : Decidable (Silent s e) :=
  match e with
  | .byte .compass | .byte .gps => inferInstanceAs (Decidable (_ → _))
  | .call | .byte .water | .byte .raspberry | .byte .lora => inferInstanceAs (Decidable True)

structure Ordered (s : Board) : Prop where
  split : s.made++s.left = main

theorem step_ordered (s : Board) (e : Event) (ordered : Ordered s) : Ordered (s.step e) := by
  cases e with
  | byte port =>
    change Ordered (if s.Interrupts port then s.release port else s)
    split
    · exact ⟨ordered.split⟩
    · exact ordered
  | call =>
    change Ordered s.advance
    unfold Board.advance
    split
    · exact ordered
    · rename_i c rest left
      refine ⟨?_⟩
      rw [← ordered.split,left,List.append_assoc,List.singleton_append]

-- A byte releases an initialised semaphore, or none.
def Safe (s : Board) : Event → Prop
  | .byte port => s.Interrupts port → .semInit port ∈ s.made
  | .call => True

theorem positions (ordered : Ordered s) : ∃ n ≤ 15, s.made = main.take n := by
  have order := ordered.split
  have length := congrArg List.length order
  have whole : main.length = 15 := rfl
  rw [List.length_append,whole] at length
  refine ⟨s.made.length,by omega,?_⟩
  rw [← order,List.take_left]

-- Three modules initialise the semaphore before the callback; the other two leave it
-- for last, and each is exposed for one gap between two calls.
theorem safe_silent (s : Board) (e : Event) (ordered : Ordered s) : Safe s e ↔ Silent s e := by
  obtain ⟨n,bound,made⟩ := positions ordered
  have checked : ∀ n ≤ 15, ∀ port ∈ [Port.water,.raspberry,.lora],
      Call.setRxIndicate port ∈ main.take n → Call.semInit port ∈ main.take n := by decide
  have early : ∀ n ≤ 15, Call.deviceOpen .compass ∈ main.take n → Call.setRxIndicate .compass ∈ main.take n := by decide
  have late : ∀ n ≤ 15, Call.setRxIndicate .gps ∈ main.take n → Call.deviceOpen .gps ∈ main.take n := by decide
  cases e with
  | call => exact Iff.rfl
  | byte port =>
    unfold Safe Silent Board.Interrupts
    rw [made]
    cases port with
    | water => exact iff_of_true (fun both => checked n bound .water (by decide) both.2) trivial
    | raspberry => exact iff_of_true (fun both => checked n bound .raspberry (by decide) both.2) trivial
    | lora => exact iff_of_true (fun both => checked n bound .lora (by decide) both.2) trivial
    | compass => exact ⟨fun safe opened => safe ⟨opened,early n bound opened⟩,fun silent both => silent both.1⟩
    | gps => exact ⟨fun safe registered => safe ⟨late n bound registered,registered⟩,fun silent both => silent both.2⟩

theorem step_initialised (s : Board) (e : Event) : Initialised (s.step e) ↔ Initialised s ∧ Safe s e := by
  cases e with
  | call =>
    have kept : s.advance.released = s.released := by
      unfold Board.advance
      split <;> rfl
    change (∀ entry ∈ s.advance.released,_) ↔ _
    rw [kept]
    exact (and_iff_left trivial).symm
  | byte port =>
    change Initialised (if s.Interrupts port then s.release port else s) ↔ _
    by_cases runs : s.Interrupts port
    · rw [if_pos runs]
      simp [Initialised,Board.release,Safe,runs,or_imp,forall_and]
    · rw [if_neg runs]
      exact (and_iff_left (fun both => absurd both runs)).symm

theorem run_initialised (s : Board) (events : List Event) :
    Initialised (run Board.step s events) ↔ Initialised s ∧ Along Board.step Safe s events := by
  induction events generalizing s with
  | nil => exact (and_iff_left trivial).symm
  | cons e rest ih => rw [run_cons,ih,step_initialised,and_assoc]; rfl

theorem boot_ordered : Ordered .boot := ⟨rfl⟩

theorem along_silent (events : List Event) : Along Board.step Safe .boot events ↔ Along Board.step Silent .boot events :=
  along_exchange (fun s e ordered _ => safe_silent s e ordered) (fun s e ordered _ _ => step_ordered s e ordered)
    boot_ordered (along_every _ (fun _ _ => trivial))

theorem startup_exact (events : List Event) :
    Initialised (run Board.step .boot events) ↔ Along Board.step Silent .boot events := by
  rw [run_initialised,along_silent]
  exact and_iff_right (fun entry member => by cases member)

-- A radar byte right after uart1 is opened, a position byte right after the callback
-- of uart4 is registered.
theorem streaming_released :
    (run Board.step .boot (List.replicate 8 .call++[.byte .compass])).released = [(.compass,false)] ∧
      (run Board.step .boot (List.replicate 11 .call++[.byte .gps])).released = [(.gps,false)] ∧
      ¬Initialised (run Board.step .boot (List.replicate 8 .call++[.byte .compass])) := by decide

end UsvRt.StartUp
