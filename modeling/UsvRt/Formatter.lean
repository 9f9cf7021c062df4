import UsvRt.BoundedText
import UsvRt.FormatSyntax
import UsvRt.MachineWord

-- rt_vsnprintf with its arguments. What it prints goes into a sink it only puts bytes
-- into: the buffer of the caller, or a list.
namespace Formatter
open BoundedText FormatSyntax MachineWord

variable {σ : Type}

structure Flags where
  zeropad : Bool
  sign : Bool
  plus : Bool
  space : Bool
  left : Bool
  large : Bool
  deriving DecidableEq

-- RT_PRINTF_SPECIAL is not configured, so '#' is skipped and sets nothing that is read.
def readFlags (bytes : List UInt8) : Flags :=
  {zeropad:=decide (48 ∈ bytes),sign:=false,plus:=decide (43 ∈ bytes),space:=decide (32 ∈ bytes),
    left:=decide (45 ∈ bytes),large:=false}

def smallDigits : List UInt8 := [48,49,50,51,52,53,54,55,56,57,97,98,99,100,101,102]
def largeDigits : List UInt8 := [48,49,50,51,52,53,54,55,56,57,65,66,67,68,69,70]
def digits (large : Bool) (n : Nat) : UInt8 := (if large then largeDigits else smallDigits).getD n 0

-- Every base but ten is taken for sixteen.
def divide (n base : Nat) : Nat × Nat := if base = 10 then (n%10,n/10) else (n%16,n/16)

theorem divide_less (base : Nat) (positive : n ≠ 0) : (divide n base).2 < n := by
  unfold divide
  split <;> exact Nat.div_lt_self (Nat.pos_of_ne_zero positive) (by decide)

-- tmp, least digit first.
def collect (large : Bool) (base num : Nat) : List UInt8 :=
  if _zero : num = 0 then [] else digits large (divide num base).1::collect large base (divide num base).2
termination_by num
decreasing_by exact divide_less base _zero

def tmp (large : Bool) (base num : Nat) : List UInt8 := if num = 0 then [48] else collect large base num

def signByte (type : Flags) (num : UInt32) : Option UInt8 :=
  if type.sign then
    if asInt num < 0 then some 45 else if type.plus then some 43 else if type.space then some 32 else none
  else none

-- The negative of the least integer is itself, and divides as 2^31.
def absolute (type : Flags) (num : UInt32) : Nat :=
  if type.sign = true ∧ asInt num < 0 then (-num).toNat else num.toNat

-- print_number's cursor and what is left of its field; a loop `while (size-- > 0)`
-- leaves -1, or one less than it found.
structure Field (σ : Type) where
  buf : σ
  size : Int

def Field.pad (put : σ → UInt8 → σ) (b : UInt8) (f : Field σ) : Field σ :=
  ⟨fill put b f.size.toNat f.buf,min f.size 0 - 1⟩

def Field.sign (put : σ → UInt8 → σ) (f : Field σ) : Option UInt8 → Field σ
  | some b => ⟨put f.buf b,f.size-1⟩
  | none => f

-- print_number from where its sign and its digits are known.
def putNumber (put : σ → UInt8 → σ) (buf : σ) (sign : Option UInt8) (tmp : List UInt8) (s precision : Int)
    (zeropad left : Bool) : σ :=
  let digits := max precision tmp.length
  let f : Field σ := ⟨buf,s-digits⟩
  let f := if !zeropad && !left then
      Field.pad put 32 {f with size:=if sign.isSome && decide (f.size > 0) then f.size-1 else f.size}
    else f
  let f := f.sign put sign
  let f := if !left then f.pad put (if zeropad then 48 else 32) else f
  let buf := fill put 48 (digits-tmp.length).toNat f.buf
  let buf := if precision ≠ 0 then tmp.reverse.foldl put buf else buf
  fill put 32 f.size.toNat buf

def printNumber (put : σ → UInt8 → σ) (buf : σ) (num : UInt32) (base : Nat) (s precision : Int) (type : Flags) : σ :=
  putNumber put buf (signByte type num) (tmp type.large base (absolute type num)) s precision
    (type.zeropad && !type.left) type.left

-- The same text written down at once: how much room is left, and where the blanks go.
def layout (sign tmp : List UInt8) (s precision : Int) (zeropad left : Bool) : List UInt8 :=
  let digits := max precision tmp.length
  let room := (s-digits-sign.length).toNat
  let body := List.replicate (digits-tmp.length).toNat 48 ++ (if precision ≠ 0 then tmp.reverse else [])
  if left then sign++body++List.replicate room 32
  else if zeropad then sign++List.replicate room 48++body
  else List.replicate room 32++sign++body

def numberText (num : UInt32) (base : Nat) (s precision : Int) (type : Flags) : List UInt8 :=
  layout (signByte type num).toList (tmp type.large base (absolute type num)) s precision
    (type.zeropad && !type.left) type.left

@[simp] theorem pad_buf (put : σ → UInt8 → σ) (b : UInt8) (f : Field σ) :
    (f.pad put b).buf = (List.replicate f.size.toNat b).foldl put f.buf := fill_puts put b _ _

@[simp] theorem pad_size (put : σ → UInt8 → σ) (b : UInt8) (f : Field σ) : (f.pad put b).size = min f.size 0 - 1 := rfl

theorem sign_field (put : σ → UInt8 → σ) (f : Field σ) (sign : Option UInt8) :
    f.sign put sign = ⟨sign.toList.foldl put f.buf,f.size-sign.toList.length⟩ := by
  cases sign with
  | none => simp [Field.sign]
  | some b => rfl

theorem digits_put (put : σ → UInt8 → σ) (buf : σ) (tmp : List UInt8) (precision : Int) :
    (if precision ≠ 0 then tmp.reverse.foldl put buf else buf) =
      (if precision ≠ 0 then tmp.reverse else []).foldl put buf := by
  split <;> rfl

theorem front_room (sign : Option UInt8) (size : Int) :
    (if sign.isSome && decide (size > 0) then size-1 else size).toNat = (size-sign.toList.length).toNat := by
  cases sign with
  | none => simp
  | some b =>
    simp only [Option.isSome_some,Bool.true_and,decide_eq_true_eq,Option.toList_some,List.length_singleton]
    split <;> omega

-- The two later loops of a field that was padded in front find nothing left.
theorem nothing_left (size : Int) (used : Nat) : (min size 0 - 1 - used).toNat = 0 := by omega

theorem putNumber_layout (put : σ → UInt8 → σ) (buf : σ) (sign : Option UInt8) (tmp : List UInt8) (s precision : Int)
    (zeropad left : Bool) : putNumber put buf sign tmp s precision zeropad left =
      (layout sign.toList tmp s precision zeropad left).foldl put buf := by
  unfold putNumber layout
  cases left with
  | true => simp only [sign_field,fill_puts,digits_put,Bool.not_true,Bool.and_false,Bool.false_eq_true,if_false,if_true,
      List.foldl_append]
  | false =>
    cases zeropad with
    | true =>
      have none := nothing_left (s-max precision tmp.length-sign.toList.length) 0
      rw [Int.natCast_zero,Int.sub_zero] at none
      simp only [sign_field,fill_puts,digits_put,pad_buf,pad_size,Bool.not_true,Bool.not_false,Bool.false_and,
        Bool.false_eq_true,if_false,if_true,List.foldl_append,none,List.replicate_zero,List.foldl_nil]
    | false =>
      have last := fun size : Int => nothing_left size 0
      simp only [Int.natCast_zero,Int.sub_zero] at last
      simp only [sign_field,fill_puts,digits_put,pad_buf,pad_size,Bool.not_false,Bool.and_self,Bool.false_eq_true,if_false,
        if_true,List.foldl_append,front_room,nothing_left,last,List.replicate_zero,List.foldl_nil]

theorem printNumber_text (put : σ → UInt8 → σ) (buf : σ) (num : UInt32) (base : Nat) (s precision : Int) (type : Flags) :
    printNumber put buf num base s precision type = (numberText num base s precision type).foldl put buf :=
  putNumber_layout put buf _ _ s precision _ _

-- A directive as it stands at its letter. `args` is what va_start found: the arguments
-- passed, and whatever follows them.
structure Directive where
  flags : Flags
  fieldWidth : Int
  precision : Int
  qualifier : Option UInt8
  fmt : List UInt8
  args : List UInt32

def countValue (args : List UInt32) : Option Count → Int × List UInt32
  | none => (-1,args)
  | some (.fixed n) => (wrap n,args)
  | some .argument => (asInt (args.headD 0),args.tail)

def parse (text : List UInt8) (args : List UInt32) : Directive :=
  let flags := readFlags (text.takeWhile isFlag)
  let width := readCount (text.dropWhile isFlag)
  let fieldWidth := countValue args width.1
  let backward := decide (width.1 = some .argument) && decide (fieldWidth.1 < 0)
  let precision := readPrecision width.2
  let digits := countValue fieldWidth.2 precision.1
  let qualifier := readQualifier precision.2
  {flags:=if backward then {flags with left:=true} else flags
   fieldWidth:=if backward then wrap (-fieldWidth.1) else fieldWidth.1
   precision:=if precision.1.isSome then max digits.1 0 else digits.1
   qualifier:=qualifier.1,fmt:=qualifier.2,args:=digits.2}

theorem parse_shorter (text : List UInt8) (args : List UInt32) : (parse text args).fmt.length ≤ text.length :=
  ((qualifier_shorter _).trans (precision_shorter _)).trans ((count_shorter _).trans (List.dropWhile_sublist _).length_le)

-- va_arg for an integer letter: an 'h' keeps 16 bits, with their sign if it has one.
def integerArgument (qualifier : Option UInt8) (sign : Bool) (word : UInt32) : UInt32 :=
  if qualifier = some 104 then
    let half := word % 65536
    if sign && decide (half ≥ 32768) then half-65536 else half
  else word

def printInteger (put : σ → UInt8 → σ) (d : Directive) (base : Nat) (flags : Flags) (str : σ) : σ×List UInt32 :=
  (printNumber put str (integerArgument d.qualifier flags.sign (d.args.headD 0)) base d.fieldWidth d.precision flags,
    d.args.tail)

def printChar (put : σ → UInt8 → σ) (d : Directive) (str : σ) : σ×List UInt32 :=
  let fieldWidth := if d.flags.left then d.fieldWidth else min (d.fieldWidth-1) 0
  let str := if d.flags.left then str else fill put 32 (d.fieldWidth-1).toNat str
  let str := put str (d.args.headD 0).toUInt8
  (fill put 32 (fieldWidth-1).toNat str,d.args.tail)

-- "(NULL)"
def nullText : List UInt8 := [40,78,85,76,76,41]

-- A precision of 0 does not shorten the string.
def stringArgument (memory : UInt32 → List UInt8) (d : Directive) : List UInt8 :=
  let s := if d.args.headD 0 = 0 then nullText else TextScan.cString (memory (d.args.headD 0))
  if d.precision > 0 ∧ (s.length : Int) > d.precision then s.take d.precision.toNat else s

def printString (put : σ → UInt8 → σ) (memory : UInt32 → List UInt8) (d : Directive) (str : σ) : σ×List UInt32 :=
  let s := stringArgument memory d
  let fieldWidth := if d.flags.left then d.fieldWidth else min d.fieldWidth s.length - 1
  let str := if d.flags.left then str else fill put 32 (d.fieldWidth-s.length).toNat str
  let str := s.foldl put str
  (fill put 32 (fieldWidth-s.length).toNat str,d.args.tail)

def printPointer (put : σ → UInt8 → σ) (d : Directive) (str : σ) : σ×List UInt32 :=
  let bare := d.fieldWidth = -1
  let flags := if bare then {d.flags with zeropad:=true} else d.flags
  (printNumber put str (d.args.headD 0) 16 (if bare then 8 else d.fieldWidth) d.precision flags,d.args.tail)

def printLetter (put : σ → UInt8 → σ) (memory : UInt32 → List UInt8) (d : Directive) (str : σ) : UInt8 → σ×List UInt32
  | 99 => printChar put d str
  | 115 => printString put memory d str
  | 112 => printPointer put d str
  | 37 => (put str 37,d.args)
  | 111 => printInteger put d 8 d.flags str
  | 88 => printInteger put d 16 {d.flags with large:=true} str
  | 120 => printInteger put d 16 d.flags str
  | 100 => printInteger put d 10 {d.flags with sign:=true} str
  | 105 => printInteger put d 10 {d.flags with sign:=true} str
  | 117 => printInteger put d 10 d.flags str
  | letter => (put (put str 37) letter,d.args)

-- The loop over the format, up to its NUL.
def vsnprintf (put : σ → UInt8 → σ) (memory : UInt32 → List UInt8) (fmt : List UInt8) (args : List UInt32) (str : σ) : σ :=
  match fmt with
  | [] => str
  | b::rest =>
    if b ≠ 37 then vsnprintf put memory rest args (put str b)
    else
      match _at : (parse rest args).fmt with
      | [] => put str 37
      | letter::later =>
        let out := printLetter put memory (parse rest args) str letter
        vsnprintf put memory later out.2 out.1
termination_by fmt.length
decreasing_by
  · exact Nat.lt_succ_self _
  · have shorter := parse_shorter rest args
    rw [_at] at shorter
    exact Nat.lt_succ_of_lt shorter

-- What is printed, as texts.
def aligned (left : Bool) (room : Int) (body : List UInt8) : List UInt8 :=
  if left then body++List.replicate room.toNat 32 else List.replicate room.toNat 32++body

def integerText (d : Directive) (base : Nat) (flags : Flags) : List UInt8 :=
  numberText (integerArgument d.qualifier flags.sign (d.args.headD 0)) base d.fieldWidth d.precision flags

def letterText (memory : UInt32 → List UInt8) (d : Directive) : UInt8 → List UInt8
  | 99 => aligned d.flags.left (d.fieldWidth-1) [(d.args.headD 0).toUInt8]
  | 115 => aligned d.flags.left (d.fieldWidth-(stringArgument memory d).length) (stringArgument memory d)
  | 112 => numberText (d.args.headD 0) 16 (if d.fieldWidth = -1 then 8 else d.fieldWidth) d.precision
      (if d.fieldWidth = -1 then {d.flags with zeropad:=true} else d.flags)
  | 37 => [37]
  | 111 => integerText d 8 d.flags
  | 88 => integerText d 16 {d.flags with large:=true}
  | 120 => integerText d 16 d.flags
  | 100 => integerText d 10 {d.flags with sign:=true}
  | 105 => integerText d 10 {d.flags with sign:=true}
  | 117 => integerText d 10 d.flags
  | letter => [37,letter]

-- A letter that converts consumes one argument.
def letterArgs (d : Directive) (letter : UInt8) : List UInt32 := if letter ∈ letters then d.args.tail else d.args

def text (memory : UInt32 → List UInt8) (fmt : List UInt8) (args : List UInt32) : List UInt8 :=
  match fmt with
  | [] => []
  | b::rest =>
    if b ≠ 37 then b::text memory rest args
    else
      match _at : (parse rest args).fmt with
      | [] => [37]
      | letter::later =>
        letterText memory (parse rest args) letter++text memory later (letterArgs (parse rest args) letter)
termination_by fmt.length
decreasing_by
  · exact Nat.lt_succ_self _
  · have shorter := parse_shorter rest args
    rw [_at] at shorter
    exact Nat.lt_succ_of_lt shorter

theorem char_text (put : σ → UInt8 → σ) (d : Directive) (str : σ) :
    printChar put d str = ((aligned d.flags.left (d.fieldWidth-1) [(d.args.headD 0).toUInt8]).foldl put str,d.args.tail) := by
  have none : (min (d.fieldWidth-1) 0 - 1).toNat = 0 := by omega
  unfold printChar aligned
  cases d.flags.left with
  | true => simp [fill_puts]
  | false => simp [fill_puts,none]

theorem string_text (put : σ → UInt8 → σ) (memory : UInt32 → List UInt8) (d : Directive) (str : σ) :
    printString put memory d str =
      ((aligned d.flags.left (d.fieldWidth-(stringArgument memory d).length) (stringArgument memory d)).foldl put str,
        d.args.tail) := by
  generalize same : stringArgument memory d = s
  have none : (min d.fieldWidth s.length - 1 - s.length).toNat = 0 := by omega
  unfold printString aligned
  rw [same]
  cases d.flags.left with
  | true => simp [fill_puts]
  | false => simp [fill_puts,none]

theorem integer_text (put : σ → UInt8 → σ) (d : Directive) (base : Nat) (flags : Flags) (str : σ) :
    printInteger put d base flags str = ((integerText d base flags).foldl put str,d.args.tail) := by
  unfold printInteger
  rw [printNumber_text]
  rfl

theorem letter_text (put : σ → UInt8 → σ) (memory : UInt32 → List UInt8) (d : Directive) (str : σ) (letter : UInt8) :
    printLetter put memory d str letter = ((letterText memory d letter).foldl put str,letterArgs d letter) := by
  unfold printLetter
  split
  case h_1 => exact char_text put d str
  case h_2 => exact string_text put memory d str
  case h_3 =>
    simp only [printPointer,printNumber_text]
    rfl
  case h_4 => rfl
  case h_11 =>
    have kept : letterArgs d letter = d.args := by
      refine if_neg ?_
      simp_all [letters]
    rw [kept]
    unfold letterText
    split <;> first | contradiction | rfl
  all_goals exact integer_text put d _ _ str

theorem vsnprintf_text (put : σ → UInt8 → σ) (memory : UInt32 → List UInt8) (fmt : List UInt8) (args : List UInt32) (str : σ) :
    vsnprintf put memory fmt args str = (text memory fmt args).foldl put str := by
  fun_induction text memory fmt args generalizing str with
  | case1 => rw [vsnprintf]; rfl
  | case2 args b rest other ih => rw [vsnprintf,if_pos other,ih]; rfl
  | case3 args b rest percent close =>
    rw [vsnprintf,if_neg percent]
    split
    · rfl
    · rename_i shape
      rw [close] at shape
      cases shape
  | case4 args b rest percent letter later open_ ih =>
    rw [vsnprintf,if_neg percent]
    split
    · rename_i shape
      rw [open_] at shape
      cases shape
    · rename_i shape
      rw [open_] at shape
      cases shape
      simp only [letter_text,ih,List.foldl_append]

-- rt_vsnprintf into a buffer of `size` cells; what it returns counts the whole text.
def rtVsnprintf (memory : UInt32 → List UInt8) (cells : Nat → UInt8) (size : Nat) (fmt : List UInt8) (args : List UInt32) :
    (Nat → UInt8)×Nat :=
  let c := vsnprintf (Cursor.put size) memory fmt args ⟨cells,0⟩
  if size > 0 then (Function.update c.cells (if c.str < size then c.str else size-1) 0,c.str) else (c.cells,c.str)

-- rt_kprintf: what it hands to the console out of its static buffer of 256 cells.
def rtKprintf (memory : UInt32 → List UInt8) (rtLogBuf : Nat → UInt8) (fmt : List UInt8) (args : List UInt32) : List UInt8 :=
  let out := rtVsnprintf memory rtLogBuf (256-1) fmt args
  (List.range (if out.2 > 256-1 then 256-1 else out.2)).map out.1

variable (memory : UInt32 → List UInt8)

theorem vsnprintf_length (cells : Nat → UInt8) (size : Nat) (fmt : List UInt8) (args : List UInt32) :
    (rtVsnprintf memory cells size fmt args).2 = (text memory fmt args).length := by
  unfold rtVsnprintf
  simp only [vsnprintf_text]
  split <;> simp [puts_str]

theorem vsnprintf_cells (cells : Nat → UInt8) (size : Nat) (fmt : List UInt8) (args : List UInt32) (i : Nat) :
    (rtVsnprintf memory cells size fmt args).1 i =
      if i < min (text memory fmt args).length (size-1) then (text memory fmt args).getD i 0
      else if 0 < size ∧ i = min (text memory fmt args).length (size-1) then 0
      else cells i := by
  unfold rtVsnprintf
  simp only [vsnprintf_text,puts_str,Nat.zero_add]
  generalize text memory fmt args = printed
  have stored := puts_cell size ⟨cells,0⟩ printed i (0 : UInt8)
  simp only [Nat.zero_le,Nat.zero_add,Nat.sub_zero,true_and] at stored
  by_cases room : size > 0
  · rw [if_pos room]
    have last : (if printed.length < size then printed.length else size-1) = min printed.length (size-1) := by
      split <;> omega
    rw [last]
    dsimp only
    by_cases close : i = min printed.length (size-1)
    · rw [close,Function.update_self,if_neg (Nat.lt_irrefl _),if_pos ⟨room,rfl⟩]
    · rw [Function.update_of_ne close,stored,if_neg (fun both : 0 < size ∧ _ => close both.2)]
      by_cases inside : i < min printed.length (size-1)
      · rw [if_pos inside,if_pos (by omega)]
      · rw [if_neg inside,if_neg (by omega)]
  · rw [if_neg room,if_neg (by omega),if_neg (fun both => room both.1)]
    exact stored.trans (if_neg (by omega))

-- Reading the first cells back: the text, or its front and the terminator.
theorem map_cells (cells : Nat → UInt8) (printed : List UInt8) (count : Nat)
    (same : ∀ i < count, cells i = printed.getD i 0) (inside : count ≤ printed.length) :
    (List.range count).map cells = printed.take count := by
  refine List.ext_getElem (by simp [inside]) ?_
  intro i below other
  have near : i < count := by simpa using below
  rw [List.getElem_map,List.getElem_range,same i near,List.getElem_take]
  exact List.getD_eq_getElem _ _ (by omega)

theorem kprintf_text (rtLogBuf : Nat → UInt8) (fmt : List UInt8) (args : List UInt32) :
    rtKprintf memory rtLogBuf fmt args =
      if (text memory fmt args).length < 255 then text memory fmt args else (text memory fmt args).take 254++[0] := by
  unfold rtKprintf
  simp only [vsnprintf_length]
  have cells := vsnprintf_cells memory rtLogBuf (256-1) fmt args
  generalize (rtVsnprintf memory rtLogBuf (256-1) fmt args).1 = stored at cells ⊢
  generalize text memory fmt args = printed at cells ⊢
  have front : ∀ i < min printed.length 254, stored i = printed.getD i 0 := fun i below => by
    rw [cells i]
    exact if_pos below
  by_cases short : printed.length < 255
  · have whole := map_cells stored printed printed.length (fun i below => front i (by omega)) (Nat.le_refl _)
    rw [if_pos short,if_neg (by omega),whole,List.take_length]
  · have last : stored 254 = 0 := by
      rw [cells 254,if_neg (by omega),if_pos ⟨by decide,by omega⟩]
    have most := map_cells stored printed 254 (fun i below => front i (by omega)) (by omega)
    have size : (if printed.length > 256-1 then 256-1 else printed.length) = 254+1 := by split <;> omega
    rw [if_neg short,size,List.range_succ,List.map_append,most,List.map_singleton,last]

-- Against the pieces of a format: where no argument is read, its literal bytes.
theorem countValue_kept (args : List UInt32) (count : Option Count) (none : arguments (countPieces count) = 0) :
    (countValue args count).2 = args := by
  cases count with
  | none => rfl
  | some count =>
    cases count with
    | fixed n => rfl
    | argument => cases none

theorem letterText_unknown (d : Directive) (unknown : letter ∉ letters) (percent : letter ≠ 37) :
    letterText memory d letter = [37,letter] := by
  unfold letterText
  split
  case h_11 => rfl
  all_goals simp [letters] at unknown percent

theorem directive_parse (rest : List UInt8) (args : List UInt32) :
    ∃ counts spec, directive rest =
        (counts++(convertLetter spec (parse rest args).fmt).1,(convertLetter spec (parse rest args).fmt).2) ∧
      literals counts = [] ∧ (arguments counts = 0 → (parse rest args).args = args) := by
  let width := readCount (rest.dropWhile isFlag)
  let precision := readPrecision width.2
  refine ⟨countPieces width.1++countPieces precision.1,
    ⟨rest.takeWhile isFlag,width.1,precision.1,(readQualifier precision.2).1⟩,?_,by simp,?_⟩
  · unfold directive afterFlags afterWidth afterPrecision
    rw [List.append_assoc]
    rfl
  · intro none
    rw [arguments_append] at none
    change (countValue (countValue args width.1).2 precision.1).2 = args
    rw [countValue_kept args width.1 (by omega),countValue_kept args precision.1 (by omega)]

theorem text_pieces (fmt : List UInt8) (args : List UInt32) (none : arguments (walk fmt) = 0) :
    text memory fmt args = literals (walk fmt) := by
  fun_induction walk fmt with
  | case1 => rw [text]; rfl
  | case2 b rest other ih =>
    have later : arguments (walk rest) = 0 := by simpa [arguments] using none
    rw [text,if_pos other,ih later]
    rfl
  | case3 b rest percent ih =>
    obtain ⟨counts,spec,shape,bare,kept⟩ := directive_parse rest args
    rw [shape] at none ih ⊢
    rw [arguments_append,arguments_append] at none
    dsimp only at none ih ⊢
    specialize kept (by omega)
    specialize ih (by omega)
    rw [text,if_neg percent,literals_append,literals_append,bare,List.nil_append]
    split
    · rename_i close
      rw [close]
      simp [convertLetter,literals,walk]
    · rename_i letter later open_
      rw [open_] at none ih ⊢
      rw [convert_cons] at none ih ⊢
      by_cases close : letter = 37
      · subst close
        rw [if_pos rfl] at ih ⊢
        rw [letterArgs,if_neg (by decide),kept,ih]
        rfl
      · rw [if_neg close] at none ih ⊢
        by_cases known : letter ∈ letters
        · rw [if_pos known] at none
          simp [arguments] at none
        · rw [if_neg known] at ih ⊢
          rw [letterArgs,if_neg known,kept,ih,letterText_unknown memory _ known close]
          rfl

-- A format that fits the buffer comes out as it went in, and no argument is looked for.
theorem kprintf_exact (rtLogBuf : Nat → UInt8) (fmt : List UInt8) (args : List UInt32) (short : fmt.length < 255) :
    rtKprintf memory rtLogBuf fmt args = fmt ∧ arguments (walk fmt) = 0 ↔ Plain fmt := by
  have bound := walk_length fmt
  rw [← walk_exact]
  refine and_congr_left fun none => ?_
  rw [kprintf_text,text_pieces memory fmt args none,if_pos (by omega)]

end Formatter
