/-
  Exact money amounts as decimal texts (`billing-amendment/money-decimal.ts`, BR-RUA-047).
-/
import RefundStudy.Foundation.Digits
import RefundStudy.Record.Text
import Mathlib.Algebra.Order.Field.Basic
import Mathlib.Data.Rat.Cast.Order
import Mathlib.Algebra.BigOperators.Group.List.Basic
import Mathlib.Data.List.DropRight
import Mathlib.Tactic.FieldSimp

set_option autoImplicit false

namespace RefundStudy.Billing

open Record

/-! ## Money texts -/

def isCanonicalInteger : List Char → Bool
  | [] => false
  | first :: rest => (first == '0' && rest.isEmpty) ||
      (first != '0' && (first :: rest).all Char.isDigit)

variable (text : List Char)

def integerPart : List Char := text.takeWhile (· != '.')

/-- The text after the point; `none` without a point. -/
def fractionPart : Option (List Char) := (text.dropWhile (· != '.')).tail?

/-- `MONEY_DECIMAL_PATTERN`, `/^(0|[1-9][0-9]*)(\.[0-9]+)?$/`. -/
def isMoneyDecimal : Bool :=
  isCanonicalInteger (integerPart text) &&
    match fractionPart text with
    | none => true
    | some fraction => !fraction.isEmpty && fraction.all Char.isDigit

structure MoneyDecimal where
  text : List Char
  valid : isMoneyDecimal text = true
  deriving DecidableEq

/-- `units` times ten to the power of minus `scale`. -/
structure ScaledAmount where
  units : Nat
  scale : Int

def ScaledAmount.value (amount : ScaledAmount) : ℚ := amount.units * (10 : ℚ) ^ (-amount.scale)

def digitsValue (digits : List Char) : Nat := Nat.ofDigitChars 10 digits 0

def toScaled (amount : MoneyDecimal) : ScaledAmount :=
  let fraction := (fractionPart amount.text).getD []
  ⟨digitsValue (integerPart amount.text ++ fraction), fraction.length⟩

def MoneyDecimal.value (amount : MoneyDecimal) : ℚ := (toScaled amount).value

def rescale (amount : ScaledAmount) (scale : Int) : Nat :=
  amount.units * 10 ^ (scale - amount.scale).toNat

/-- The text `formatScaled` writes. -/
def scaledText (amount : ScaledAmount) : List Char :=
  if amount.scale ≤ 0 then Nat.toDigits 10 (amount.units * 10 ^ (-amount.scale).toNat)
  else
    let scale := amount.scale.toNat
    let digits := (Nat.toDigits 10 amount.units).leftpad (scale + 1) '0'
    let integer := digits.take (digits.length - scale)
    let fraction := (digits.drop (digits.length - scale)).rdropWhile (· == '0')
    if fraction.isEmpty then integer else integer ++ '.' :: fraction

/-! ## Digits -/

section Digits

variable {digits : List Char}

theorem not_point_of_isDigit {c : Char} (h : c.isDigit = true) : (c != '.') = true := by
  rw [bne_iff_ne]
  rintro rfl
  exact absurd h (by decide)

theorem isCanonicalInteger_digit {c : Char} (h : c.isDigit = true) :
    isCanonicalInteger [c] = true := by
  by_cases hzero : c = '0' <;> simp [isCanonicalInteger, hzero, h]

theorem isCanonicalInteger_take {number count : Nat} (hnumber : 0 < number) (hcount : 0 < count) :
    isCanonicalInteger ((Nat.toDigits 10 number).take count) = true := by
  obtain ⟨c, rest, hdigits, hhead⟩ := Foundation.toDigits_head_ne_zero hnumber
  have hall := Foundation.toDigits_isDigit number
  rw [hdigits] at hall ⊢
  obtain ⟨count, rfl⟩ : ∃ n, count = n + 1 := ⟨count - 1, by omega⟩
  rw [List.take_succ_cons]
  simp only [isCanonicalInteger, Bool.or_eq_true, Bool.and_eq_true, bne_iff_ne, ne_eq,
    List.all_eq_true]
  refine .inr ⟨hhead, fun d hd => hall d ?_⟩
  rcases List.mem_cons.mp hd with rfl | hrest
  · exact List.mem_cons_self
  · exact List.mem_cons_of_mem _ (List.mem_of_mem_take hrest)

theorem isCanonicalInteger_toDigits (number : Nat) :
    isCanonicalInteger (Nat.toDigits 10 number) = true := by
  by_cases hzero : number = 0
  · subst hzero
    decide
  · have hfront := @isCanonicalInteger_take number (Nat.toDigits 10 number).length (by omega)
      Nat.length_toDigits_pos
    rwa [List.take_length] at hfront

theorem integerPart_of_digits (h : ∀ c ∈ digits, c.isDigit = true) : integerPart digits = digits :=
  List.takeWhile_eq_self_iff.mpr fun c hmem => not_point_of_isDigit (h c hmem)

theorem fractionPart_of_digits (h : ∀ c ∈ digits, c.isDigit = true) :
    fractionPart digits = none := by
  have hnil : digits.dropWhile (· != '.') = [] :=
    List.dropWhile_eq_nil_iff.mpr fun c hmem => not_point_of_isDigit (h c hmem)
  rw [fractionPart, hnil]
  rfl

theorem integerPart_point (h : ∀ c ∈ digits, c.isDigit = true) (fraction : List Char) :
    integerPart (digits ++ '.' :: fraction) = digits := by
  rw [integerPart, List.takeWhile_append_of_pos fun c hmem => not_point_of_isDigit (h c hmem)]
  simp

theorem fractionPart_point (h : ∀ c ∈ digits, c.isDigit = true) (fraction : List Char) :
    fractionPart (digits ++ '.' :: fraction) = some fraction := by
  rw [fractionPart, List.dropWhile_append_of_pos fun c hmem => not_point_of_isDigit (h c hmem)]
  simp

theorem digitsValue_append (first second : List Char) :
    digitsValue (first ++ second) = 10 ^ second.length * digitsValue first + digitsValue second := by
  unfold digitsValue
  rw [Nat.ofDigitChars_append, Nat.ofDigitChars_eq_ofDigitChars_zero]

theorem digitsValue_replicate (count : Nat) : digitsValue (List.replicate count '0') = 0 := by
  simp [digitsValue]

theorem digitsValue_toDigits (number : Nat) : digitsValue (Nat.toDigits 10 number) = number :=
  Nat.ofDigitChars_ten_toDigits

theorem digitsValue_leftpad (width number : Nat) :
    digitsValue ((Nat.toDigits 10 number).leftpad width '0') = number := by
  rw [List.leftpad, digitsValue_append, digitsValue_replicate, digitsValue_toDigits, Nat.mul_zero,
    Nat.zero_add]

theorem rdropWhile_zeros (digits : List Char) : ∃ zeros,
    digits = digits.rdropWhile (· == '0') ++ List.replicate zeros '0' := by
  refine ⟨(digits.rtakeWhile (· == '0')).length, ?_⟩
  have hall : digits.rtakeWhile (· == '0') =
      List.replicate (digits.rtakeWhile (· == '0')).length '0' := by
    rw [List.eq_replicate_iff]
    refine ⟨rfl, fun c hmem => ?_⟩
    have hzero := List.mem_rtakeWhile_imp hmem
    simpa using hzero
  rw [← hall, List.rdropWhile_append_rtakeWhile]

theorem isDigit_leftpad (width number : Nat) :
    ∀ c ∈ (Nat.toDigits 10 number).leftpad width '0', c.isDigit = true := by
  intro c hmem
  rw [List.leftpad, List.mem_append] at hmem
  rcases hmem with hpad | hdigit
  · rw [List.eq_of_mem_replicate hpad]
    decide
  · exact Foundation.toDigits_isDigit _ c hdigit

end Digits

/-! ## Formatting is exact -/

section Formatting

variable {amount : ScaledAmount}

/-- The parts of a positive scale: the integer digits, the kept fraction and its trailing zeros. -/
theorem scaledText_parts (h : 0 < amount.scale) : ∃ integer fraction zeros,
    (Nat.toDigits 10 amount.units).leftpad (amount.scale.toNat + 1) '0' =
      integer ++ (fraction ++ List.replicate zeros '0') ∧
    fraction.length + zeros = amount.scale.toNat ∧
    isCanonicalInteger integer = true ∧
    scaledText amount = if fraction.isEmpty then integer else integer ++ '.' :: fraction := by
  have hneg : ¬ amount.scale ≤ 0 := by omega
  generalize hdigits : (Nat.toDigits 10 amount.units).leftpad (amount.scale.toNat + 1) '0' = digits
  have hlength : digits.length = max (amount.scale.toNat + 1) (Nat.toDigits 10 amount.units).length := by
    rw [← hdigits, List.length_leftpad]
  generalize hcut : digits.length - amount.scale.toNat = cut
  obtain ⟨zeros, hzeros⟩ := rdropWhile_zeros (digits.drop cut)
  refine ⟨digits.take cut, (digits.drop cut).rdropWhile (· == '0'), zeros, ?_, ?_, ?_, ?_⟩
  · rw [← hzeros, List.take_append_drop]
  · have hcount := congrArg List.length hzeros
    rw [List.length_append, List.length_replicate, List.length_drop] at hcount
    omega
  · by_cases hshort : (Nat.toDigits 10 amount.units).length ≤ amount.scale.toNat + 1
    · -- one integer digit, a padding zero perhaps
      obtain rfl : cut = 1 := by omega
      cases hcases : digits with
      | nil =>
        rw [hcases, List.length_nil] at hlength
        omega
      | cons c rest =>
        rw [List.take_succ_cons, List.take_zero]
        apply isCanonicalInteger_digit
        apply isDigit_leftpad (amount.scale.toNat + 1) amount.units
        rw [hdigits, hcases]
        exact List.mem_cons_self
    · have hsame : digits = Nat.toDigits 10 amount.units := by
        rw [← hdigits, List.leftpad, Nat.sub_eq_zero_of_le (by omega), List.replicate_zero,
          List.nil_append]
      have hpositive : 0 < amount.units := by
        by_contra hzero
        obtain hunits : amount.units = 0 := by omega
        rw [hunits] at hshort
        exact hshort (by simp)
      rw [hsame]
      exact isCanonicalInteger_take hpositive (by omega)
  · simp only [scaledText, if_neg hneg, hdigits, hcut]

theorem digits_of_parts {integer fraction : List Char} {zeros : Nat}
    (hparts : (Nat.toDigits 10 amount.units).leftpad (amount.scale.toNat + 1) '0' =
      integer ++ (fraction ++ List.replicate zeros '0')) :
    (∀ c ∈ integer, c.isDigit = true) ∧ ∀ c ∈ fraction, c.isDigit = true := by
  have hall := isDigit_leftpad (amount.scale.toNat + 1) amount.units
  rw [hparts] at hall
  constructor
  · exact fun c hmem => hall c (List.mem_append_left _ hmem)
  · exact fun c hmem => hall c (List.mem_append_right _ (List.mem_append_left _ hmem))

theorem isMoneyDecimal_scaledText (amount : ScaledAmount) :
    isMoneyDecimal (scaledText amount) = true := by
  by_cases h : 0 < amount.scale
  · obtain ⟨integer, fraction, zeros, hparts, -, hcanonical, htext⟩ := scaledText_parts h
    obtain ⟨hinteger, hfraction⟩ := digits_of_parts hparts
    rw [htext]
    split
    · rw [isMoneyDecimal, integerPart_of_digits hinteger, fractionPart_of_digits hinteger,
        hcanonical]
      rfl
    · rename_i hnonempty
      rw [isMoneyDecimal, integerPart_point hinteger, fractionPart_point hinteger, hcanonical]
      simpa [hnonempty] using hfraction
  · have hdigits : scaledText amount =
        Nat.toDigits 10 (amount.units * 10 ^ (-amount.scale).toNat) := by
      rw [scaledText, if_pos (by omega)]
    have hall := Foundation.toDigits_isDigit (amount.units * 10 ^ (-amount.scale).toNat)
    rw [hdigits, isMoneyDecimal, integerPart_of_digits hall, fractionPart_of_digits hall,
      isCanonicalInteger_toDigits]
    rfl

def formatScaled (amount : ScaledAmount) : MoneyDecimal :=
  ⟨scaledText amount, isMoneyDecimal_scaledText amount⟩

theorem formatScaled_value (amount : ScaledAmount) : (formatScaled amount).value = amount.value := by
  by_cases h : 0 < amount.scale
  · obtain ⟨integer, fraction, zeros, hparts, hlength, -, htext⟩ := scaledText_parts h
    obtain ⟨hinteger, hfraction⟩ := digits_of_parts hparts
    have hunits : amount.units = 10 ^ zeros * digitsValue (integer ++ fraction) := by
      have hvalue := congrArg digitsValue hparts
      rw [digitsValue_leftpad, ← List.append_assoc, digitsValue_append, digitsValue_replicate,
        List.length_replicate, Nat.add_zero] at hvalue
      exact hvalue
    have hscaled : toScaled (formatScaled amount) =
        ⟨digitsValue (integer ++ fraction), fraction.length⟩ := by
      unfold toScaled formatScaled
      simp only [htext]
      split
      · rename_i hempty
        rw [List.isEmpty_iff] at hempty
        rw [integerPart_of_digits hinteger, fractionPart_of_digits hinteger, hempty]
        rfl
      · rw [integerPart_point hinteger, fractionPart_point hinteger]
        rfl
    have hscale : amount.scale = (fraction.length : Int) + zeros := by omega
    rw [MoneyDecimal.value, hscaled, ScaledAmount.value, ScaledAmount.value, hunits, hscale]
    push_cast
    rw [neg_add, zpow_add₀ (by norm_num), zpow_neg, zpow_neg, zpow_natCast, zpow_natCast]
    field_simp
  · have hdigits : scaledText amount =
        Nat.toDigits 10 (amount.units * 10 ^ (-amount.scale).toNat) := by
      rw [scaledText, if_pos (by omega)]
    have hall := Foundation.toDigits_isDigit (amount.units * 10 ^ (-amount.scale).toNat)
    have hscaled : toScaled (formatScaled amount) =
        ⟨amount.units * 10 ^ (-amount.scale).toNat, 0⟩ := by
      unfold toScaled formatScaled
      simp only [hdigits]
      rw [integerPart_of_digits hall, fractionPart_of_digits hall]
      simp [digitsValue_toDigits]
    rw [MoneyDecimal.value, hscaled, ScaledAmount.value, ScaledAmount.value]
    obtain ⟨power, hpower⟩ : ∃ power : Nat, -amount.scale = power := ⟨(-amount.scale).toNat, by omega⟩
    rw [hpower]
    push_cast
    simp

end Formatting

/-! ## Sums and comparisons -/

def sumMoney (amounts : List MoneyDecimal) : MoneyDecimal :=
  let scaled := amounts.map toScaled
  let scale := scaled.foldl (fun widest amount => max widest amount.scale) 0
  formatScaled ⟨scaled.foldl (fun total amount => total + rescale amount scale) 0, scale⟩

def compareMoney (first second : MoneyDecimal) : Ordering :=
  let left := toScaled first
  let right := toScaled second
  let scale := max left.scale right.scale
  compare (rescale left scale) (rescale right scale)

section Exact

theorem rescale_value {amount : ScaledAmount} {scale : Int} (h : amount.scale ≤ scale) :
    (rescale amount scale : ℚ) * (10 : ℚ) ^ (-scale) = amount.value := by
  obtain ⟨power, hpower⟩ : ∃ power : Nat, scale - amount.scale = power :=
    ⟨(scale - amount.scale).toNat, by omega⟩
  have hscale : scale = amount.scale + power := by omega
  rw [rescale, hpower, ScaledAmount.value, hscale]
  push_cast
  rw [neg_add, zpow_add₀ (by norm_num), zpow_neg (10 : ℚ) (power : ℤ), zpow_natCast, Int.toNat_natCast]
  field_simp

theorem le_widest (amounts : List ScaledAmount) (start : Int) :
    start ≤ amounts.foldl (fun widest amount => max widest amount.scale) start ∧
      ∀ amount ∈ amounts,
        amount.scale ≤ amounts.foldl (fun widest amount => max widest amount.scale) start := by
  induction amounts generalizing start with
  | nil => exact ⟨Int.le_refl _, fun amount hmem => absurd hmem List.not_mem_nil⟩
  | cons head rest ih =>
    obtain ⟨hstart, hrest⟩ := ih (max start head.scale)
    refine ⟨by simp only [List.foldl_cons]; omega, fun amount hmem => ?_⟩
    rcases List.mem_cons.mp hmem with rfl | htail
    · simp only [List.foldl_cons]
      omega
    · exact hrest amount htail

theorem sumMoney_value (amounts : List MoneyDecimal) :
    (sumMoney amounts).value = (amounts.map MoneyDecimal.value).sum := by
  unfold sumMoney
  rw [formatScaled_value]
  generalize hscale : (amounts.map toScaled).foldl (fun widest amount => max widest amount.scale) 0 =
    scale
  have hbound : ∀ amount ∈ amounts.map toScaled, amount.scale ≤ scale := by
    rw [← hscale]
    exact (le_widest _ _).2
  clear hscale
  have hfold : ∀ (rest : List ScaledAmount) (start : Nat), (∀ amount ∈ rest, amount.scale ≤ scale) →
      ((rest.foldl (fun total amount => total + rescale amount scale) start : Nat) : ℚ) *
          (10 : ℚ) ^ (-scale) =
        start * (10 : ℚ) ^ (-scale) + (rest.map ScaledAmount.value).sum := by
    intro rest
    induction rest with
    | nil => simp
    | cons head rest ih =>
      intro start hrest
      rw [List.foldl_cons, ih _ fun amount hmem => hrest amount (List.mem_cons_of_mem _ hmem),
        List.map_cons, List.sum_cons, ← rescale_value (hrest head List.mem_cons_self)]
      push_cast
      rw [add_mul, add_assoc]
  rw [ScaledAmount.value, hfold _ 0 hbound, List.map_map]
  simp only [Nat.cast_zero, zero_mul, zero_add]
  rfl

theorem compareMoney_le_iff (first second : MoneyDecimal) :
    compareMoney first second ≠ .gt ↔ first.value ≤ second.value := by
  unfold compareMoney
  simp only
  generalize hscale : max (toScaled first).scale (toScaled second).scale = scale
  have hleft : (toScaled first).scale ≤ scale := by omega
  have hright : (toScaled second).scale ≤ scale := by omega
  rw [MoneyDecimal.value, MoneyDecimal.value, ← rescale_value hleft, ← rescale_value hright,
    Nat.compare_ne_gt]
  have hpositive : (0 : ℚ) < (10 : ℚ) ^ (-scale) := zpow_pos (by norm_num) _
  rw [mul_le_mul_iff_left₀ hpositive, Nat.cast_le]

end Exact

/-! ## Cost cells -/

def costTextMaxLength : Nat := 64

def costExponentMax : Nat := 64

/-- `[eE]`. -/
def isExponentMark (c : Char) : Bool := c == 'e' || c == 'E'

def mantissaPart : List Char := text.takeWhile fun c => !isExponentMark c

/-- The text after the exponent mark; `none` without one. -/
def exponentPart : Option (List Char) :=
  (text.dropWhile fun c => !isExponentMark c).tail?

/-- `[+-]?[0-9]+` with the number it denotes. -/
def readExponent : List Char → Option Int
  | '+' :: digits => if !digits.isEmpty && digits.all Char.isDigit then some (digitsValue digits)
      else none
  | '-' :: digits => if !digits.isEmpty && digits.all Char.isDigit then some (-digitsValue digits)
      else none
  | digits => if !digits.isEmpty && digits.all Char.isDigit then some (digitsValue digits) else none

/-- The number after the exponent mark: zero without one, `none` when it is no number. -/
def costExponent : Option Int :=
  match exponentPart text with
  | none => some 0
  | some digits => readExponent digits

/-- The mantissa of `COST_TEXT_PATTERN`, `[0-9]*(\.[0-9]*)?`. -/
def isCostMantissa (mantissa : List Char) : Bool :=
  (integerPart mantissa).all Char.isDigit &&
    ((fractionPart mantissa).getD []).all Char.isDigit

def parseCurCost : Option MoneyDecimal :=
  if costTextMaxLength < utf16Length text then none
  else if h : isMoneyDecimal text = true then some ⟨text, h⟩
  else
    let mantissa := mantissaPart text
    match costExponent text with
    | none => none
    | some exponent =>
      if isCostMantissa mantissa then
        let integer := integerPart mantissa
        let fraction := (fractionPart mantissa).getD []
        if integer.length + fraction.length = 0 ∨ costExponentMax < exponent.natAbs then none
        else some (formatScaled ⟨digitsValue (integer ++ fraction), fraction.length - exponent⟩)
      else none

/-- The number a cost text denotes: its mantissa times ten to the power of its exponent. -/
def costTextValue : ℚ :=
  let mantissa := mantissaPart text
  let fraction := (fractionPart mantissa).getD []
  ScaledAmount.value ⟨digitsValue (integerPart mantissa ++ fraction),
    fraction.length - (costExponent text).getD 0⟩

theorem isDigit_of_isCanonicalInteger {digits : List Char} (h : isCanonicalInteger digits = true) :
    ∀ c ∈ digits, c.isDigit = true := by
  cases digits with
  | nil => exact fun c hmem => absurd hmem List.not_mem_nil
  | cons first rest =>
    simp only [isCanonicalInteger, Bool.or_eq_true, Bool.and_eq_true, beq_iff_eq,
      List.isEmpty_iff, List.all_eq_true] at h
    rcases h with ⟨rfl, rfl⟩ | ⟨-, hall⟩
    · intro c hmem
      rw [List.mem_singleton.mp hmem]
      decide
    · exact hall

/-- A text is its part before the first character that fails the test and what follows it. -/
theorem split_at_mark (keep : Char → Bool) (text : List Char) :
    (text.dropWhile keep = [] ∧ text.takeWhile keep = text) ∨
      ∃ mark rest, keep mark = false ∧ text.dropWhile keep = mark :: rest ∧
        text = text.takeWhile keep ++ mark :: rest := by
  have hsplit := List.takeWhile_append_dropWhile (p := keep) (l := text)
  cases hrest : text.dropWhile keep with
  | nil =>
    rw [hrest, List.append_nil] at hsplit
    exact .inl ⟨rfl, hsplit⟩
  | cons mark rest =>
    have hhead := List.head?_dropWhile_not keep text
    rw [hrest] at hhead
    refine .inr ⟨mark, rest, by simpa using hhead, rfl, ?_⟩
    rw [hrest] at hsplit
    exact hsplit.symm

theorem point_split (mantissa : List Char) :
    integerPart mantissa ++ ((fractionPart mantissa).map fun digits => '.' :: digits).getD [] =
      mantissa := by
  unfold integerPart fractionPart
  rcases split_at_mark (· != '.') mantissa with ⟨hnil, hall⟩ | ⟨mark, rest, hmark, hrest, hsplit⟩
  · rw [hnil, hall]
    simp
  · have hpoint : mark = '.' := by simpa using hmark
    rw [hrest, List.tail?_cons, Option.map_some, Option.getD_some]
    rw [hpoint] at hsplit
    exact hsplit.symm

theorem not_exponentMark_of_isDigit {c : Char} (h : c.isDigit = true) :
    (!isExponentMark c) = true := by
  simp only [isExponentMark, Bool.not_eq_true', Bool.or_eq_false_iff, beq_eq_false_iff_ne]
  constructor
  · intro hc
    rw [hc] at h
    exact absurd h (by decide)
  · intro hc
    rw [hc] at h
    exact absurd h (by decide)

section MoneyText

variable {text : List Char}

theorem isCostMantissa_of_isMoneyDecimal (h : isMoneyDecimal text = true) :
    isCostMantissa text = true := by
  rw [isMoneyDecimal, Bool.and_eq_true] at h
  rw [isCostMantissa, Bool.and_eq_true]
  refine ⟨List.all_eq_true.mpr (isDigit_of_isCanonicalInteger h.1), ?_⟩
  have htail := h.2
  cases hfraction : fractionPart text with
  | none => rfl
  | some digits =>
    rw [hfraction] at htail
    simp only [Bool.and_eq_true] at htail
    exact htail.2

theorem not_exponentMark_of_isMoneyDecimal (h : isMoneyDecimal text = true) :
    ∀ c ∈ text, (!isExponentMark c) = true := by
  have hdigits := isCostMantissa_of_isMoneyDecimal h
  simp only [isCostMantissa, Bool.and_eq_true, List.all_eq_true] at hdigits
  intro c hmem
  rw [← point_split text, List.mem_append] at hmem
  rcases hmem with hinteger | hrest
  · exact not_exponentMark_of_isDigit (hdigits.1 c hinteger)
  · cases hfraction : fractionPart text with
    | none =>
      rw [hfraction] at hrest
      cases hrest
    | some digits =>
      rw [hfraction] at hrest hdigits
      rcases List.mem_cons.mp hrest with hpoint | hdigit
      · rw [hpoint]
        decide
      · exact not_exponentMark_of_isDigit (hdigits.2 c hdigit)

theorem mantissaPart_of_isMoneyDecimal (h : isMoneyDecimal text = true) :
    mantissaPart text = text :=
  List.takeWhile_eq_self_iff.mpr (not_exponentMark_of_isMoneyDecimal h)

theorem costExponent_of_isMoneyDecimal (h : isMoneyDecimal text = true) :
    costExponent text = some 0 := by
  rw [costExponent, exponentPart,
    List.dropWhile_eq_nil_iff.mpr (not_exponentMark_of_isMoneyDecimal h)]
  rfl

end MoneyText

theorem MoneyDecimal.value_eq_costTextValue (amount : MoneyDecimal) :
    amount.value = costTextValue amount.text := by
  rw [costTextValue, mantissaPart_of_isMoneyDecimal amount.valid,
    costExponent_of_isMoneyDecimal amount.valid, MoneyDecimal.value, toScaled]
  simp

theorem parseCurCost_value {text : List Char} {cost : MoneyDecimal}
    (h : parseCurCost text = some cost) : cost.value = costTextValue text := by
  unfold parseCurCost at h
  split at h
  · cases h
  · split at h
    · obtain rfl := Option.some.inj h
      exact MoneyDecimal.value_eq_costTextValue _
    · simp only at h
      split at h
      · cases h
      · rename_i exponent hexponent
        split at h
        · split at h
          · cases h
          · obtain rfl := Option.some.inj h
            rw [formatScaled_value, costTextValue, hexponent]
            rfl
        · cases h

end RefundStudy.Billing
