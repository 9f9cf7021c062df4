import Mathlib.Data.List.TakeWhile
import UsvRt.TextScan

-- The formats of rt_vsnprintf (kservice.c), whatever their arguments: which bytes are
-- printed as they stand, and where an argument is read.
namespace FormatSyntax
open TextScan

inductive Count where
  | fixed (n : Nat)
  | argument
  deriving DecidableEq

structure Spec where
  flags : List UInt8
  fieldWidth : Option Count
  precision : Option Count
  qualifier : Option UInt8
  deriving DecidableEq

inductive Piece where
  | byte (b : UInt8)
  | count
  | conversion (spec : Spec) (letter : UInt8)
  deriving DecidableEq

def flagBytes : List UInt8 := [45,43,32,35,48]
def isFlag (b : UInt8) : Bool := decide (b ∈ flagBytes)

-- c, s, p, o, X, x, d, i and u.
def letters : List UInt8 := [99,115,112,111,88,120,100,105,117]

def readCount : List UInt8 → Option Count × List UInt8
  | 42::rest => (some .argument,rest)
  | text =>
    if text.takeWhile isDigit = [] then (none,text)
    else (some (.fixed (magnitude text)),text.dropWhile isDigit)

-- A point without digits is a precision of 0.
def readPrecision : List UInt8 → Option Count × List UInt8
  | 46::rest => (some ((readCount rest).1.getD (.fixed 0)),(readCount rest).2)
  | text => (none,text)

def readQualifier : List UInt8 → Option UInt8 × List UInt8
  | 104::rest => (some 104,rest)
  | 108::rest => (some 108,rest)
  | text => (none,text)

def countPieces : Option Count → List Piece
  | some .argument => [.count]
  | _ => []

-- The end of the format is not stepped over, and an unknown letter is printed after
-- its '%'; flags, width and qualifier are dropped with it.
def convertLetter (spec : Spec) : List UInt8 → List Piece × List UInt8
  | [] => ([.byte 37],[])
  | b::rest =>
    if b = 37 then ([.byte 37],rest)
    else if b ∈ letters then ([.conversion spec b],rest)
    else ([.byte 37,.byte b],rest)

def afterPrecision (flags : List UInt8) (fieldWidth precision : Option Count) (text : List UInt8) : List Piece × List UInt8 :=
  convertLetter ⟨flags,fieldWidth,precision,(readQualifier text).1⟩ (readQualifier text).2

def afterWidth (flags : List UInt8) (fieldWidth : Option Count) (text : List UInt8) : List Piece × List UInt8 :=
  let precision := readPrecision text
  let out := afterPrecision flags fieldWidth precision.1 precision.2
  (countPieces precision.1++out.1,out.2)

def afterFlags (flags text : List UInt8) : List Piece × List UInt8 :=
  let fieldWidth := readCount text
  let out := afterWidth flags fieldWidth.1 fieldWidth.2
  (countPieces fieldWidth.1++out.1,out.2)

-- What follows a '%'.
def directive (text : List UInt8) : List Piece × List UInt8 :=
  afterFlags (text.takeWhile isFlag) (text.dropWhile isFlag)

def literals (pieces : List Piece) : List UInt8 := pieces.filterMap fun
  | .byte b => some b
  | _ => none

def arguments (pieces : List Piece) : Nat := pieces.countP fun
  | .byte _ => false
  | _ => true

-- No directive prints more bytes of its own than it takes up.
def Bounded (out : List Piece × List UInt8) (text : List UInt8) : Prop :=
  (literals out.1).length+out.2.length ≤ text.length+1

def Lossy (out : List Piece × List UInt8) (text : List UInt8) : Prop :=
  arguments out.1 ≠ 0 ∨ (literals out.1).length+out.2.length ≤ text.length

@[simp] theorem literals_append (first second : List Piece) :
    literals (first++second) = literals first++literals second := List.filterMap_append

@[simp] theorem arguments_append (first second : List Piece) :
    arguments (first++second) = arguments first+arguments second := List.countP_append

@[simp] theorem literals_count (count : Option Count) : literals (countPieces count) = [] := by
  unfold countPieces
  split <;> rfl

theorem convert_cons (spec : Spec) (b : UInt8) (rest : List UInt8) :
    convertLetter spec (b::rest) =
      if b = 37 then ([.byte 37],rest)
      else if b ∈ letters then ([.conversion spec b],rest)
      else ([.byte 37,.byte b],rest) := rfl

theorem convert_bounded (spec : Spec) (text : List UInt8) : Bounded (convertLetter spec text) text := by
  cases text with
  | nil => exact Nat.le_refl _
  | cons b rest =>
    unfold Bounded
    rw [convert_cons]
    split
    · simp [literals]
      omega
    · split
      · simp [literals]
        omega
      · simp [literals]
        omega

theorem convert_lossy (spec : Spec) (rest : List UInt8) (special : b = 37 ∨ b ∈ letters) :
    Lossy (convertLetter spec (b::rest)) (b::rest) := by
  rw [convert_cons]
  by_cases percent : b = 37
  · rw [if_pos percent]
    right
    simp [literals]
    omega
  · rw [if_neg percent,if_pos (special.resolve_left percent)]
    left
    simp [arguments]

theorem count_shorter (text : List UInt8) : (readCount text).2.length ≤ text.length := by
  unfold readCount
  split
  · exact Nat.le_succ _
  · split
    · exact Nat.le_refl _
    · exact (List.dropWhile_sublist _).length_le

theorem precision_shorter (text : List UInt8) : (readPrecision text).2.length ≤ text.length := by
  unfold readPrecision
  split
  · exact (count_shorter _).trans (Nat.le_succ _)
  · exact Nat.le_refl _

theorem qualifier_shorter (text : List UInt8) : (readQualifier text).2.length ≤ text.length := by
  unfold readQualifier
  split
  · exact Nat.le_succ _
  · exact Nat.le_succ _
  · exact Nat.le_refl _

theorem count_none (rest : List UInt8) (star : b ≠ 42) (digit : ¬isDigit b = true) : readCount (b::rest) = (none,b::rest) := by
  unfold readCount
  split
  · rename_i same
    exact absurd (List.cons.inj same).1 star
  · exact if_pos (List.takeWhile_cons_of_neg digit)

theorem precision_none (rest : List UInt8) (point : b ≠ 46) : readPrecision (b::rest) = (none,b::rest) := by
  unfold readPrecision
  split
  · rename_i same
    exact absurd (List.cons.inj same).1 point
  · rfl

theorem qualifier_none (rest : List UInt8) (half : b ≠ 104) (long : b ≠ 108) : readQualifier (b::rest) = (none,b::rest) := by
  unfold readQualifier
  split
  · rename_i same
    exact absurd (List.cons.inj same).1 half
  · rename_i same
    exact absurd (List.cons.inj same).1 long
  · rfl

theorem bounded_shorter (bounded : Bounded out text) (shorter : text.length < longer.length) : Lossy out longer := by
  unfold Bounded at bounded
  exact .inr (by omega)

theorem bounded_weaken (bounded : Bounded out text) (shorter : text.length ≤ longer.length) : Bounded out longer := by
  unfold Bounded at *
  omega

theorem counted_bounded (count : Option Count) (bounded : Bounded (pieces,rest) text) :
    Bounded (countPieces count++pieces,rest) text := by
  unfold Bounded at *
  rw [literals_append,literals_count,List.nil_append]
  exact bounded

theorem counted_lossy (count : Option Count) (lossy : Lossy (pieces,rest) text) :
    Lossy (countPieces count++pieces,rest) text := by
  unfold Lossy at *
  rw [literals_append,literals_count,List.nil_append,arguments_append]
  exact lossy.imp_left (by dsimp only; omega)

theorem afterPrecision_bounded (flags : List UInt8) (fieldWidth precision : Option Count) (text : List UInt8) :
    Bounded (afterPrecision flags fieldWidth precision text) text :=
  bounded_weaken (convert_bounded _ _) (qualifier_shorter text)

theorem afterWidth_bounded (flags : List UInt8) (fieldWidth : Option Count) (text : List UInt8) :
    Bounded (afterWidth flags fieldWidth text) text :=
  counted_bounded _ (bounded_weaken (afterPrecision_bounded _ _ _ _) (precision_shorter text))

theorem afterFlags_bounded (flags text : List UInt8) : Bounded (afterFlags flags text) text :=
  counted_bounded _ (bounded_weaken (afterWidth_bounded _ _ _) (count_shorter text))

theorem directive_bounded (text : List UInt8) : Bounded (directive text) text :=
  bounded_weaken (afterFlags_bounded _ _) (List.dropWhile_sublist _).length_le

-- What makes a byte after '%' more than the byte itself: h and l, then the point, a
-- digit or '*', and last the flags.
def qualified : List UInt8 := 104::108::37::letters
def pointed : List UInt8 := 46::qualified

theorem afterPrecision_lossy (flags : List UInt8) (fieldWidth precision : Option Count) (rest : List UInt8)
    (special : b ∈ qualified) : Lossy (afterPrecision flags fieldWidth precision (b::rest)) (b::rest) := by
  by_cases half : b = 104 ∨ b = 108
  · refine bounded_shorter (convert_bounded _ _) ?_
    rcases half with rfl | rfl <;> exact Nat.lt_succ_self _
  · rw [not_or] at half
    unfold afterPrecision
    rw [qualifier_none rest half.1 half.2]
    refine convert_lossy _ rest ?_
    simpa [qualified,half.1,half.2] using special

theorem afterWidth_lossy (flags : List UInt8) (fieldWidth : Option Count) (rest : List UInt8)
    (special : b ∈ pointed) : Lossy (afterWidth flags fieldWidth (b::rest)) (b::rest) := by
  unfold afterWidth
  by_cases point : b = 46
  · subst point
    exact counted_lossy _ (bounded_shorter (afterPrecision_bounded _ _ _ _) (Nat.lt_succ_of_le (count_shorter rest)))
  · rw [precision_none rest point]
    refine counted_lossy _ (afterPrecision_lossy _ _ _ rest ?_)
    simpa [pointed,point] using special

theorem afterFlags_lossy (flags rest : List UInt8) (special : b = 42 ∨ isDigit b = true ∨ b ∈ pointed) :
    Lossy (afterFlags flags (b::rest)) (b::rest) := by
  unfold afterFlags
  by_cases star : b = 42
  · subst star
    left
    have read : arguments (countPieces (readCount (42::rest)).1) = 1 := rfl
    rw [arguments_append,read]
    omega
  by_cases digit : isDigit b = true
  · refine counted_lossy _ (bounded_shorter (afterWidth_bounded _ _ _) ?_)
    have taken : (b::rest).takeWhile isDigit ≠ [] := by
      rw [List.takeWhile_cons_of_pos digit]
      exact List.cons_ne_nil _ _
    have read : (readCount (b::rest)).2 = (b::rest).dropWhile isDigit := by
      unfold readCount
      split
      · rename_i same
        exact absurd (List.cons.inj same).1 star
      · rw [if_neg taken]
    rw [read,List.dropWhile_cons_of_pos digit]
    exact Nat.lt_succ_of_le (List.dropWhile_sublist _).length_le
  · rw [count_none rest star digit]
    exact counted_lossy _ (afterWidth_lossy _ _ rest ((special.resolve_left star).resolve_left digit))

-- A byte that a '%' in front of it turns into more, or less, than itself.
def Special (b : UInt8) : Prop := isFlag b = true ∨ b = 42 ∨ isDigit b = true ∨ b ∈ pointed

instance (b : UInt8) : Decidable (Special b) := inferInstanceAs (Decidable (_ ∨ _ ∨ _ ∨ _))

theorem directive_lossy (rest : List UInt8) (special : Special b) : Lossy (directive (b::rest)) (b::rest) := by
  unfold directive
  by_cases flag : isFlag b = true
  · rw [List.dropWhile_cons_of_pos flag]
    exact bounded_shorter (afterFlags_bounded _ _) (Nat.lt_succ_of_le (List.dropWhile_sublist _).length_le)
  · rw [List.dropWhile_cons_of_neg flag]
    exact afterFlags_lossy _ rest (special.resolve_left flag)

theorem directive_plain (rest : List UInt8) (plain : ¬Special b) : directive (b::rest) = ([.byte 37,.byte b],rest) := by
  simp only [Special,pointed,qualified,List.mem_cons,not_or] at plain
  obtain ⟨flag,star,digit,point,half,long,percent,letter⟩ := plain
  simp only [directive,afterFlags,afterWidth,afterPrecision,List.dropWhile_cons_of_neg flag,count_none rest star digit,
    precision_none rest point,qualifier_none rest half long]
  rw [convert_cons,if_neg percent,if_neg letter]
  rfl

theorem convert_shorter (spec : Spec) (text : List UInt8) : (convertLetter spec text).2.length ≤ text.length := by
  cases text with
  | nil => exact Nat.le_refl _
  | cons b rest =>
    rw [convert_cons]
    split
    · exact Nat.le_succ _
    · split <;> exact Nat.le_succ _

theorem directive_shorter (text : List UInt8) : (directive text).2.length ≤ text.length :=
  ((convert_shorter _ _).trans (qualifier_shorter _)).trans
    (((precision_shorter _).trans (count_shorter _)).trans (List.dropWhile_sublist _).length_le)

-- The loop over the format, whose end is its NUL.
def walk : List UInt8 → List Piece
  | [] => []
  | b::rest => if b ≠ 37 then .byte b::walk rest else (directive rest).1++walk (directive rest).2
termination_by text => text.length
decreasing_by
  · exact Nat.lt_succ_self _
  · exact Nat.lt_succ_of_le (directive_shorter rest)

-- Every '%' is the last byte, or a byte follows that means nothing to it.
def Plain (text : List UInt8) : Prop := text.IsChain fun a b => a = 37 → ¬Special b

instance (text : List UInt8) : Decidable (Plain text) := inferInstanceAs (Decidable (List.IsChain _ _))

theorem walk_length (text : List UInt8) : (literals (walk text)).length ≤ text.length := by
  fun_induction walk text with
  | case1 => exact Nat.le_refl _
  | case2 b rest other ih => exact Nat.succ_le_succ ih
  | case3 b rest percent ih =>
    have bounded := directive_bounded rest
    unfold Bounded at bounded
    rw [literals_append,List.length_append,List.length_cons]
    omega

theorem plain_cons (other : b ≠ 37) : Plain (b::rest) ↔ Plain rest := by
  cases rest with
  | nil => simp [Plain]
  | cons c rest => simp [Plain,other]

-- Printed as it stands, and no argument looked for: the only format that does it is plain.
theorem walk_exact (text : List UInt8) :
    literals (walk text) = text ∧ arguments (walk text) = 0 ↔ Plain text := by
  fun_induction walk text with
  | case1 => simp [Plain,literals,arguments]
  | case2 b rest other ih =>
    rw [plain_cons other,← ih]
    simp [literals,arguments]
  | case3 b rest percent ih =>
    rw [not_not] at percent
    subst percent
    cases rest with
    | nil =>
      have close : directive [] = ([.byte 37],[]) := rfl
      rw [close]
      simp [Plain,literals,arguments,walk]
    | cons c rest =>
      have pair : Plain (37::c::rest) ↔ ¬Special c ∧ Plain (c::rest) := by simp [Plain]
      rw [pair]
      by_cases special : Special c
      · have bound := walk_length (directive (c::rest)).2
        refine iff_of_false ?_ (fun plain => plain.1 special)
        rintro ⟨same,none⟩
        rw [literals_append] at same
        rw [arguments_append] at none
        rcases directive_lossy rest special with read | short
        · exact read (by omega)
        · have length := congrArg List.length same
          rw [List.length_append,List.length_cons] at length
          omega
      · have apart : c ≠ 37 := by
          rintro rfl
          exact special (by decide)
        rw [directive_plain rest special] at ih ⊢
        rw [plain_cons apart,← ih]
        simp [special,literals,arguments]

end FormatSyntax
