import UsvRt.Decimal
import UsvRt.Formatter

-- What print_number prints, read by atoi.
namespace Formatter
open TextScan MachineWord

theorem digits_decimal (large : Bool) (digit : Fin 10) : digits large digit.val = digitByte digit := by
  revert large digit
  decide

theorem number_snoc (ds : List (Fin 10)) (digit : Fin 10) : number (ds++[digit]) = 10*number ds+digit.val := by
  unfold number
  rw [List.reverse_append,List.map_append]
  simp [Nat.ofDigits_cons,Nat.add_comm]

theorem number_zeros (count : Nat) (ds : List (Fin 10)) : number (List.replicate count 0++ds) = number ds := by
  induction count with
  | zero => rfl
  | succ count ih => simpa [List.replicate_succ,number_cons] using ih

theorem collect_step (large : Bool) (base : Nat) (positive : num ≠ 0) :
    collect large base num = digits large (divide num base).1::collect large base (divide num base).2 := by
  rw [collect,dif_neg positive]

theorem collect_decimal (large : Bool) (num : Nat) :
    ∃ ds, (collect large 10 num).reverse = digitsText ds ∧ number ds = num := by
  induction num using Nat.strongRecOn with
  | ind num ih =>
    by_cases zero : num = 0
    · subst zero
      exact ⟨[],by rw [collect]; rfl,rfl⟩
    · obtain ⟨ds,shape,value⟩ := ih (num/10) (Nat.div_lt_self (Nat.pos_of_ne_zero zero) (by decide))
      refine ⟨ds++[⟨num%10,Nat.mod_lt _ (by decide)⟩],?_,?_⟩
      · have last : digits large (num%10) = digitByte ⟨num%10,_⟩ := digits_decimal large ⟨num%10,Nat.mod_lt _ (by decide)⟩
        rw [collect_step large 10 zero,List.reverse_cons]
        change (collect large 10 (num/10)).reverse++[digits large (num%10)] = _
        rw [shape,last]
        simp [digitsText]
      · rw [number_snoc,value]
        exact Nat.div_add_mod num 10

theorem tmp_decimal (large : Bool) (num : Nat) :
    ∃ ds, ds ≠ [] ∧ (tmp large 10 num).reverse = digitsText ds ∧ number ds = num := by
  unfold tmp
  by_cases zero : num = 0
  · subst zero
    exact ⟨[0],List.cons_ne_nil _ _,rfl,rfl⟩
  · obtain ⟨ds,shape,value⟩ := collect_decimal large num
    rw [if_neg zero]
    refine ⟨ds,?_,shape,value⟩
    rintro rfl
    exact zero value.symm

-- tmp has sixteen cells.
theorem collect_length (large : Bool) (base count : Nat) (small : num < 10^count) :
    (collect large base num).length ≤ count := by
  induction count generalizing num with
  | zero =>
    have zero : num = 0 := by omega
    rw [collect,dif_pos zero]
    exact Nat.le_refl _
  | succ count ih =>
    by_cases zero : num = 0
    · rw [collect,dif_pos zero]
      exact Nat.zero_le _
    · rw [collect_step large base zero,List.length_cons]
      refine Nat.succ_le_succ (ih ?_)
      unfold divide
      rw [Nat.pow_succ] at small
      split
      · dsimp only
        omega
      · dsimp only
        omega

theorem tmp_length (large : Bool) (base : Nat) (num : UInt32) : (tmp large base num.toNat).length ≤ 10 := by
  unfold tmp
  split
  · decide
  · exact collect_length large base 10 (Nat.lt_trans num.toNat_lt (by decide))

-- Bases eight and sixteen print alike.
theorem collect_octal (large : Bool) (num : Nat) : collect large 8 num = collect large 16 num := by
  induction num using Nat.strongRecOn with
  | ind num ih =>
    by_cases zero : num = 0
    · rw [collect,dif_pos zero,collect,dif_pos zero]
    · have same : divide num 8 = divide num 16 := rfl
      rw [collect_step large 8 zero,collect_step large 16 zero,same,ih _ (divide_less 16 zero)]

theorem octal_hex (num : UInt32) (s precision : Int) (type : Flags) :
    numberText num 8 s precision type = numberText num 16 s precision type := by
  unfold numberText tmp
  rw [collect_octal]

-- Every layout is blanks, the sign, zeros, the digits unless the precision is 0, blanks.
theorem layout_shape (sign tmp : List UInt8) (s precision : Int) (zeropad left : Bool) :
    ∃ front zeros back, layout sign tmp s precision zeropad left =
      List.replicate front 32++(sign++(List.replicate zeros 48++((if precision ≠ 0 then tmp.reverse else [])++
        List.replicate back 32))) := by
  let room := (s-max precision tmp.length-sign.length).toNat
  let zeros := (max precision tmp.length-tmp.length).toNat
  unfold layout
  cases left with
  | true => exact ⟨0,zeros,room,by simp [room,zeros]⟩
  | false =>
    cases zeropad with
    | true => exact ⟨0,room+zeros,0,by simp [room,zeros,← List.replicate_append_replicate]⟩
    | false => exact ⟨room,zeros,0,by simp [room,zeros]⟩

theorem atoi_blank (rest : List UInt8) : atoi (32::rest) = atoi rest := by
  unfold atoi
  rw [List.dropWhile_cons_of_pos (by decide)]

theorem atoi_blanks (count : Nat) (rest : List UInt8) : atoi (List.replicate count 32++rest) = atoi rest := by
  induction count with
  | zero => rfl
  | succ count ih => rw [List.replicate_succ,List.cons_append,atoi_blank,ih]

theorem magnitude_blanks (ds : List (Fin 10)) (back : Nat) :
    magnitude (digitsText ds++List.replicate back 32) = number ds := by
  rw [← magnitude_digits ds]
  have stop : (List.replicate back (32 : UInt8)).takeWhile isDigit = [] := by cases back <;> rfl
  unfold magnitude
  rw [List.takeWhile_append_of_pos (digitsText_digits ds),stop,List.append_nil,
    List.takeWhile_eq_self_iff.mpr (digitsText_digits ds)]

theorem atoi_unsigned (ds : List (Fin 10)) (back : Nat) :
    atoi (digitsText ds++List.replicate back 32) = saturate (number ds) := by
  cases ds with
  | nil =>
    have all := atoi_blanks back []
    rw [List.append_nil] at all
    exact all
  | cons digit rest =>
    have apart : ∀ d : Fin 10, isSpace (digitByte d) = false ∧ digitByte d ≠ 45 ∧ digitByte d ≠ 43 := by decide
    obtain ⟨solid,minus,plus⟩ := apart digit
    have same : digitsText (digit::rest)++List.replicate back 32 =
        digitByte digit::(digitsText rest++List.replicate back 32) := rfl
    rw [← magnitude_blanks (digit::rest) back]
    unfold atoi
    rw [same,List.dropWhile_cons_of_neg (by rw [solid]; decide)]
    split
    · rename_i shape; exact absurd (List.cons.inj shape).1 minus
    · rename_i shape; exact absurd (List.cons.inj shape).1 plus
    · rfl

theorem atoi_minus (ds : List (Fin 10)) (back : Nat) :
    atoi (45::(digitsText ds++List.replicate back 32)) = saturate (-(number ds : Int)) := by
  rw [← magnitude_blanks ds back]
  rfl

theorem atoi_plus (ds : List (Fin 10)) (back : Nat) :
    atoi (43::(digitsText ds++List.replicate back 32)) = saturate (number ds) := by
  rw [← magnitude_blanks ds back]
  rfl

-- With a sign to show, the digits are those of the magnitude and the sign says the rest.
theorem signed_value (num : UInt32) (type : Flags) (signed : type.sign = true) :
    (asInt num < 0 ∧ signByte type num = some 45 ∧ (absolute type num : Int) = -asInt num) ∨
      (0 ≤ asInt num ∧ signByte type num ∈ [some 43,some 32,none] ∧ (absolute type num : Int) = asInt num) := by
  have bound := num.toNat_lt
  by_cases negative : asInt num < 0
  · refine .inl ⟨negative,?_,?_⟩
    · simp [signByte,signed,negative]
    · rw [absolute,if_pos ⟨signed,negative⟩,UInt32.toNat_neg]
      unfold asInt at *
      split at negative
      · omega
      · rename_i high
        rw [if_neg high]
        change (((2^32-num.toNat)%2^32 : Nat) : Int) = _
        omega
  · refine .inr ⟨Int.not_lt.mp negative,?_,?_⟩
    · simp only [signByte,signed,if_true,negative,if_false]
      split <;> [skip; split] <;> simp
    · rw [absolute,if_neg fun both => negative both.2]
      unfold asInt at *
      split at negative
      · rename_i low
        rw [if_pos low]
      · omega

theorem word_range (num : UInt32) : -2^31 ≤ asInt num ∧ asInt num < 2^31 := by
  have bound := num.toNat_lt
  unfold asInt
  split <;> omega

theorem word_zero (num : UInt32) : asInt num = 0 ↔ num = 0 := by
  have bound := num.toNat_lt
  rw [← UInt32.toNat_inj]
  change _ ↔ num.toNat = 0
  unfold asInt
  split <;> omega

-- A signed field of print_number, read by atoi: its sign and the digits it has.
theorem atoi_field (num : UInt32) (s precision : Int) (type : Flags) (signed : type.sign = true) :
    atoi (numberText num 10 s precision type) = if precision ≠ 0 then asInt num else 0 := by
  obtain ⟨ds,_,shape,value⟩ := tmp_decimal type.large (absolute type num)
  obtain ⟨front,zeros,back,whole⟩ := layout_shape (signByte type num).toList
    (tmp type.large 10 (absolute type num)) s precision (type.zeropad && !type.left) type.left
  have range := word_range num
  have filler : List.replicate zeros (48 : UInt8) = digitsText (List.replicate zeros 0) := by
    rw [digitsText,List.map_replicate]
    rfl
  have body : ∃ es : List (Fin 10), List.replicate zeros 48++((if precision ≠ 0 then
      (tmp type.large 10 (absolute type num)).reverse else [])++List.replicate back 32) =
      digitsText es++List.replicate back 32 ∧ number es = if precision ≠ 0 then absolute type num else 0 := by
    by_cases shown : precision ≠ 0
    · refine ⟨List.replicate zeros 0++ds,?_,?_⟩
      · rw [if_pos shown,filler,shape,digitsText,digitsText,digitsText,List.map_append,List.append_assoc]
      · rw [if_pos shown,number_zeros,value]
    · refine ⟨List.replicate zeros 0,?_,?_⟩
      · rw [if_neg shown,filler,List.nil_append]
      · have none := number_zeros zeros []
        rw [List.append_nil] at none
        rw [if_neg shown,none]
        rfl
  obtain ⟨es,text,number_es⟩ := body
  unfold numberText
  rw [whole,atoi_blanks,text]
  rcases signed_value num type signed with ⟨negative,sign,size⟩ | ⟨positive,sign,size⟩
  · rw [sign]
    change atoi (45::(digitsText es++List.replicate back 32)) = _
    rw [atoi_minus,number_es]
    split
    · rw [size,Int.neg_neg]
      exact saturate_exact range.1 range.2
    · rfl
  · have read : atoi ((signByte type num).toList++(digitsText es++List.replicate back 32)) = saturate (number es) := by
      simp only [List.mem_cons,List.not_mem_nil,or_false] at sign
      rcases sign with same | same | same <;> rw [same]
      · exact atoi_plus es back
      · exact (atoi_blank _).trans (atoi_unsigned es back)
      · exact atoi_unsigned es back
    rw [read,number_es]
    split
    · rw [size]
      exact saturate_exact range.1 range.2
    · rfl

theorem collected (text start : List UInt8) : text.foldl (fun printed b => printed++[b]) start = start++text := by
  induction text generalizing start with
  | nil => exact (List.append_nil _).symm
  | cons b text ih => rw [List.foldl_cons,ih,List.append_assoc]; rfl

-- One directive ending in 'd': atoi returns the argument, unless a precision of 0
-- swallowed its digits.
theorem decimal_reads_back (memory : UInt32 → List UInt8) (spec : List UInt8) (args : List UInt32)
    (closes : (parse spec args).fmt = [100]) (whole : (parse spec args).qualifier ≠ some 104) :
    atoi (vsnprintf (fun printed b => printed++[b]) memory (37::spec) args []) = asInt ((parse spec args).args.headD 0) ↔
      (parse spec args).precision ≠ 0 ∨ (parse spec args).args.headD 0 = 0 := by
  rw [vsnprintf_text,collected,List.nil_append,text,if_neg (by decide)]
  split
  · rename_i none
    rw [none] at closes
    cases closes
  · rename_i letter later open_
    rw [open_] at closes
    cases closes
    have field : letterText memory (parse spec args) 100 =
        integerText (parse spec args) 10 {(parse spec args).flags with sign:=true} := rfl
    have argument : integerArgument (parse spec args).qualifier true ((parse spec args).args.headD 0) =
        (parse spec args).args.headD 0 := if_neg whole
    rw [field,text,List.append_nil,integerText,argument,atoi_field _ _ _ _ rfl]
    split
    · rename_i shown
      exact ⟨fun _ => .inl shown,fun _ => rfl⟩
    · rename_i hidden
      rw [eq_comm,word_zero,or_iff_right hidden]

-- "%+08d" and "%.0d"
theorem padded_reads_back :
    atoi (vsnprintf (fun printed b => printed++[b]) (fun _ => []) [37,43,48,56,100] [2147483648] []) = -2147483648 ∧
      atoi (vsnprintf (fun printed b => printed++[b]) (fun _ => []) [37,46,48,100] [7] []) ≠ 7 := by
  have padded := decimal_reads_back (fun _ => []) [43,48,56,100] [2147483648] (by decide) (by decide)
  have bare := decimal_reads_back (fun _ => []) [46,48,100] [7] (by decide) (by decide)
  exact ⟨padded.mpr (.inl (by decide)),fun same => absurd (bare.mp same) (by decide)⟩

end Formatter
