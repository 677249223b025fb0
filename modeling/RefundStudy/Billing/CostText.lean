/-
  What the texts of the billed-cost check denote (`billing-amendment/money-decimal.ts`,
  BR-RUA-047).
-/
import RefundStudy.Billing.Money
import Mathlib.Tactic.Positivity

set_option autoImplicit false

namespace RefundStudy.Billing

open Record

/-! ## The grammar of a cost -/

/-- `[eE][+-]?[0-9]+`. -/
structure ExponentText where
  mark : Char
  sign : Option Char
  digits : List Char
  mark_valid : isExponentMark mark = true
  sign_valid : ∀ c, sign = some c → c = '+' ∨ c = '-'
  digits_valid : ∀ c ∈ digits, c.isDigit = true
  digits_nonempty : digits ≠ []

/-- `[0-9]*(\.[0-9]*)?([eE][+-]?[0-9]+)?`. -/
structure DecimalText where
  integer : List Char
  fraction : Option (List Char)
  exponent : Option ExponentText
  integer_valid : ∀ c ∈ integer, c.isDigit = true
  fraction_valid : ∀ digits, fraction = some digits → ∀ c ∈ digits, c.isDigit = true

namespace ExponentText

def tail (exponent : ExponentText) : List Char := exponent.sign.toList ++ exponent.digits

def value (exponent : ExponentText) : Int :=
  if exponent.sign = some '-' then -(digitsValue exponent.digits : Int)
  else digitsValue exponent.digits

end ExponentText

namespace DecimalText

variable (decimal : DecimalText)

def fractionDigits : List Char := decimal.fraction.getD []

def mantissa : List Char :=
  decimal.integer ++ (decimal.fraction.map fun digits => '.' :: digits).getD []

def text : List Char :=
  decimal.mantissa ++ (decimal.exponent.map fun e => e.mark :: e.tail).getD []

/-- The power of ten; zero without an exponent. -/
def power : Int := (decimal.exponent.map ExponentText.value).getD 0

def digitCount : Nat :=
  decimal.integer.length + decimal.fractionDigits.length

/-- The number: the integer part and the fraction, times ten to the power of the exponent. -/
def value : ℚ :=
  (digitsValue decimal.integer +
    digitsValue decimal.fractionDigits / 10 ^ decimal.fractionDigits.length) * 10 ^ decimal.power

end DecimalText

/-- The text is a decimal with the number as its value. -/
def Denotes (text : List Char) (number : ℚ) : Prop :=
  ∃ decimal : DecimalText, decimal.text = text ∧ decimal.value = number

/-! ## The readers take a decimal apart -/

section Readers

variable (decimal : DecimalText)

theorem fractionDigits_valid : ∀ c ∈ decimal.fractionDigits, c.isDigit = true := by
  intro c hmem
  unfold DecimalText.fractionDigits at hmem
  cases hfraction : decimal.fraction with
  | none =>
    rw [hfraction] at hmem
    cases hmem
  | some digits =>
    rw [hfraction] at hmem
    exact decimal.fraction_valid digits hfraction c hmem

theorem integerPart_mantissa : integerPart decimal.mantissa = decimal.integer := by
  unfold DecimalText.mantissa
  cases decimal.fraction with
  | none =>
    rw [Option.map_none, Option.getD_none, List.append_nil]
    exact integerPart_of_digits decimal.integer_valid
  | some digits => exact integerPart_point decimal.integer_valid digits

theorem fractionPart_mantissa : fractionPart decimal.mantissa = decimal.fraction := by
  unfold DecimalText.mantissa
  cases decimal.fraction with
  | none =>
    rw [Option.map_none, Option.getD_none, List.append_nil]
    exact fractionPart_of_digits decimal.integer_valid
  | some digits => exact fractionPart_point decimal.integer_valid digits

theorem mantissa_no_mark : ∀ c ∈ decimal.mantissa, (!isExponentMark c) = true := by
  intro c hmem
  rcases List.mem_append.mp hmem with hinteger | hrest
  · exact not_exponentMark_of_isDigit (decimal.integer_valid c hinteger)
  · cases hfraction : decimal.fraction with
    | none =>
      rw [hfraction] at hrest
      cases hrest
    | some digits =>
      rw [hfraction, Option.map_some, Option.getD_some] at hrest
      rcases List.mem_cons.mp hrest with hpoint | hdigit
      · rw [hpoint]
        decide
      · exact not_exponentMark_of_isDigit (decimal.fraction_valid digits hfraction c hdigit)

theorem mantissaPart_text : mantissaPart decimal.text = decimal.mantissa := by
  unfold mantissaPart DecimalText.text
  rw [List.takeWhile_append_of_pos (mantissa_no_mark decimal)]
  cases decimal.exponent with
  | none => simp
  | some e =>
    rw [Option.map_some, Option.getD_some,
      List.takeWhile_cons_of_neg (by simp [e.mark_valid]), List.append_nil]

theorem exponentPart_text :
    exponentPart decimal.text = decimal.exponent.map ExponentText.tail := by
  unfold exponentPart DecimalText.text
  rw [List.dropWhile_append_of_pos (mantissa_no_mark decimal)]
  cases decimal.exponent with
  | none => simp
  | some e =>
    rw [Option.map_some, Option.getD_some, List.dropWhile_cons_of_neg (by simp [e.mark_valid])]
    rfl

theorem readExponent_tail (exponent : ExponentText) :
    readExponent exponent.tail = some exponent.value := by
  have hdigits : (!exponent.digits.isEmpty && exponent.digits.all Char.isDigit) = true := by
    simp only [Bool.and_eq_true, Bool.not_eq_true', List.isEmpty_eq_false_iff, List.all_eq_true]
    exact ⟨exponent.digits_nonempty, exponent.digits_valid⟩
  unfold ExponentText.tail ExponentText.value
  cases hsign : exponent.sign with
  | none =>
    cases hcases : exponent.digits with
    | nil => exact absurd hcases exponent.digits_nonempty
    | cons c rest =>
      have hdigit : c.isDigit = true :=
        exponent.digits_valid c (by rw [hcases]; exact List.mem_cons_self)
      have hplus : c ≠ '+' := by
        intro hc
        rw [hc] at hdigit
        exact absurd hdigit (by decide)
      have hminus : c ≠ '-' := by
        intro hc
        rw [hc] at hdigit
        exact absurd hdigit (by decide)
      rw [hcases] at hdigits
      unfold readExponent
      simp only [Option.toList_none, List.nil_append]
      split
      · rename_i heq
        exact absurd (List.cons.inj heq).1 hplus
      · rename_i heq
        exact absurd (List.cons.inj heq).1 hminus
      · rw [if_pos hdigits, if_neg (by simp)]
  | some c =>
    rcases exponent.sign_valid c hsign with rfl | rfl
    · exact if_pos hdigits
    · exact if_pos hdigits

theorem costExponent_text : costExponent decimal.text = some decimal.power := by
  unfold costExponent DecimalText.power
  rw [exponentPart_text]
  cases decimal.exponent with
  | none => rfl
  | some e => exact readExponent_tail e

theorem costTextValue_text : costTextValue decimal.text = decimal.value := by
  unfold costTextValue DecimalText.value ScaledAmount.value
  have hten : (10 : ℚ) ≠ 0 := by norm_num
  simp only [costExponent_text, mantissaPart_text, integerPart_mantissa, fractionPart_mantissa,
    Option.getD_some]
  change ((digitsValue (decimal.integer ++ decimal.fractionDigits) : Nat) : ℚ) *
    10 ^ (-((decimal.fractionDigits.length : Int) - decimal.power)) = _
  rw [digitsValue_append, neg_sub, zpow_sub₀ hten, zpow_natCast]
  push_cast
  field_simp

end Readers

theorem Denotes.eq_costTextValue {text : List Char} {number : ℚ} (h : Denotes text number) :
    number = costTextValue text := by
  obtain ⟨decimal, rfl, rfl⟩ := h
  exact (costTextValue_text decimal).symm

theorem Denotes.nonneg {text : List Char} {number : ℚ} (h : Denotes text number) : 0 ≤ number := by
  obtain ⟨decimal, -, rfl⟩ := h
  unfold DecimalText.value
  apply mul_nonneg
  · positivity
  · exact zpow_nonneg (by norm_num) _

/-! ## What is read is a decimal -/

section Grammar

variable {text : List Char}

theorem exists_exponentText {mark : Char} (hmark : isExponentMark mark = true) {tail : List Char}
    {power : Int} (h : readExponent tail = some power) :
    ∃ exponent : ExponentText, exponent.mark = mark ∧ exponent.tail = tail := by
  have hread : ∃ (sign : Option Char) (digits : List Char), tail = sign.toList ++ digits ∧
      (∀ c, sign = some c → c = '+' ∨ c = '-') ∧
      (!digits.isEmpty && digits.all Char.isDigit) = true := by
    unfold readExponent at h
    split at h
    · rename_i digits
      refine ⟨some '+', digits, rfl, fun c hc => .inl (Option.some.inj hc).symm, ?_⟩
      by_contra hfail
      rw [if_neg hfail] at h
      cases h
    · rename_i digits
      refine ⟨some '-', digits, rfl, fun c hc => .inr (Option.some.inj hc).symm, ?_⟩
      by_contra hfail
      rw [if_neg hfail] at h
      cases h
    · refine ⟨none, tail, rfl, fun c hc => (by cases hc), ?_⟩
      by_contra hfail
      rw [if_neg hfail] at h
      cases h
  obtain ⟨sign, digits, rfl, hsign, hdigits⟩ := hread
  simp only [Bool.and_eq_true, Bool.not_eq_true', List.isEmpty_eq_false_iff,
    List.all_eq_true] at hdigits
  exact ⟨⟨mark, sign, digits, hmark, hsign, hdigits.2, hdigits.1⟩, rfl, rfl⟩

theorem exists_decimalText (hmantissa : isCostMantissa (mantissaPart text) = true) {power : Int}
    (hpower : costExponent text = some power) : ∃ decimal : DecimalText, decimal.text = text := by
  simp only [isCostMantissa, Bool.and_eq_true, List.all_eq_true] at hmantissa
  have hfraction : ∀ digits, fractionPart (mantissaPart text) = some digits →
      ∀ c ∈ digits, c.isDigit = true := by
    intro digits heq
    have hdigits := hmantissa.2
    rw [heq] at hdigits
    exact hdigits
  have hjoin : ∀ exponent : Option ExponentText,
      (⟨_, _, exponent, hmantissa.1, hfraction⟩ : DecimalText).text =
        mantissaPart text ++ (exponent.map fun e => e.mark :: e.tail).getD [] := by
    intro exponent
    unfold DecimalText.text DecimalText.mantissa
    simp only [point_split]
  unfold costExponent exponentPart at hpower
  rcases split_at_mark (fun c => !isExponentMark c) text with
    ⟨-, hall⟩ | ⟨mark, rest, hmark, hrest, hsplit⟩
  · refine ⟨⟨_, _, none, hmantissa.1, hfraction⟩, ?_⟩
    rw [hjoin, Option.map_none, Option.getD_none, List.append_nil]
    exact hall
  · rw [hrest, List.tail?_cons] at hpower
    obtain ⟨exponent, rfl, rfl⟩ := exists_exponentText (by simpa using hmark) hpower
    refine ⟨⟨_, _, some exponent, hmantissa.1, hfraction⟩, ?_⟩
    rw [hjoin]
    exact hsplit.symm

theorem denotes_costTextValue (hmantissa : isCostMantissa (mantissaPart text) = true) {power : Int}
    (hpower : costExponent text = some power) : Denotes text (costTextValue text) := by
  obtain ⟨decimal, rfl⟩ := exists_decimalText hmantissa hpower
  exact ⟨decimal, rfl, (costTextValue_text decimal).symm⟩

theorem denotes_value (amount : MoneyDecimal) : Denotes amount.text amount.value := by
  rw [amount.value_eq_costTextValue]
  apply denotes_costTextValue _ (costExponent_of_isMoneyDecimal amount.valid)
  rw [mantissaPart_of_isMoneyDecimal amount.valid]
  exact isCostMantissa_of_isMoneyDecimal amount.valid

end Grammar

/-! ## Reading a cost cell -/

section Reading

variable {text : List Char}

theorem parseCurCost_denotes {cost : MoneyDecimal} (h : parseCurCost text = some cost) :
    Denotes text cost.value := by
  have hvalue := parseCurCost_value h
  by_cases hmoney : isMoneyDecimal text = true
  · have hcost : cost = ⟨text, hmoney⟩ := by
      unfold parseCurCost at h
      split at h
      · cases h
      · exact (Option.some.inj h).symm
    rw [hcost]
    exact denotes_value ⟨text, hmoney⟩
  · rw [hvalue]
    unfold parseCurCost at h
    split at h
    · cases h
    · simp only at h
      split at h
      · cases h
      · rename_i power hpower
        split at h
        · rename_i hmantissa
          exact denotes_costTextValue hmantissa hpower
        · cases h

theorem isCostMantissa_mantissa (decimal : DecimalText) :
    isCostMantissa decimal.mantissa = true := by
  simp only [isCostMantissa, Bool.and_eq_true, List.all_eq_true, integerPart_mantissa,
    fractionPart_mantissa]
  exact ⟨decimal.integer_valid, fractionDigits_valid decimal⟩

theorem parseCurCost_isSome (decimal : DecimalText)
    (hlength : utf16Length decimal.text ≤ costTextMaxLength) (hdigits : 0 < decimal.digitCount)
    (hpower : decimal.power.natAbs ≤ costExponentMax) :
    (parseCurCost decimal.text).isSome = true := by
  unfold parseCurCost
  rw [if_neg (by omega)]
  by_cases hmoney : isMoneyDecimal decimal.text = true
  · rw [dif_pos hmoney]
    rfl
  · have hcount : ¬ (decimal.integer.length + decimal.fractionDigits.length = 0 ∨
        costExponentMax < decimal.power.natAbs) := by
      unfold DecimalText.digitCount at hdigits
      omega
    rw [dif_neg hmoney]
    simp only [costExponent_text, mantissaPart_text, isCostMantissa_mantissa, if_true,
      integerPart_mantissa, fractionPart_mantissa]
    rw [DecimalText.fractionDigits] at hcount
    rw [if_neg hcount]
    rfl

end Reading

/-! ## The arithmetic on denoted numbers -/

section Arithmetic

theorem Denotes.eq_value {amount : MoneyDecimal} {number : ℚ} (h : Denotes amount.text number) :
    number = amount.value := by
  rw [amount.value_eq_costTextValue]
  exact h.eq_costTextValue

theorem sumMoney_denotes {amounts : List MoneyDecimal} {numbers : List ℚ}
    (h : List.Forall₂ (fun amount number => Denotes amount.text number) amounts numbers) :
    Denotes (sumMoney amounts).text numbers.sum := by
  have hvalues : numbers = amounts.map MoneyDecimal.value := by
    induction h with
    | nil => rfl
    | cons hhead _ ih => rw [List.map_cons, hhead.eq_value, ih]
  rw [hvalues, ← sumMoney_value]
  exact denotes_value (sumMoney amounts)

theorem compareMoney_eq_compare (first second : MoneyDecimal) :
    compareMoney first second = compare first.value second.value := by
  have hle := compareMoney_le_iff first second
  have hge := compareMoney_le_iff second first
  have hswap : compareMoney second first = (compareMoney first second).swap := by
    unfold compareMoney
    simp only
    rw [max_comm, Nat.compare_swap]
  rw [hswap] at hge
  cases hcompare : compareMoney first second with
  | lt =>
    rw [hcompare] at hge
    have hnot : ¬ second.value ≤ first.value := fun h => hge.mpr h rfl
    exact (compare_lt_iff_lt.mpr (not_le.mp hnot)).symm
  | eq =>
    rw [hcompare] at hle hge
    have hfirst := hle.mp (by decide)
    have hsecond := hge.mp (by decide)
    exact (compare_eq_iff_eq.mpr (le_antisymm hfirst hsecond)).symm
  | gt =>
    rw [hcompare] at hle
    have hnot : ¬ first.value ≤ second.value := fun h => hle.mpr h rfl
    exact (compare_gt_iff_gt.mpr (not_le.mp hnot)).symm

/-- Cost cells are read, summed and compared exactly: a cell that is read denotes the number of the
money decimal it becomes, and every short decimal with a small exponent is read; the sum of money
decimals denotes the sum of their numbers and the comparison is that of their numbers. -/
theorem money_decimals_exact :
    (∀ (text : List Char) (cost : MoneyDecimal), parseCurCost text = some cost →
      isMoneyDecimal cost.text = true ∧
        ∃ number : ℚ, 0 ≤ number ∧ Denotes text number ∧ Denotes cost.text number) ∧
    (∀ decimal : DecimalText, utf16Length decimal.text ≤ costTextMaxLength →
      0 < decimal.digitCount → decimal.power.natAbs ≤ costExponentMax →
      (parseCurCost decimal.text).isSome = true) ∧
    (∀ (text : List Char) (first second : ℚ), Denotes text first → Denotes text second →
      first = second) ∧
    (∀ amount : MoneyDecimal, ∃ number : ℚ, Denotes amount.text number) ∧
    (∀ (amounts : List MoneyDecimal) (numbers : List ℚ),
      List.Forall₂ (fun amount number => Denotes amount.text number) amounts numbers →
      isMoneyDecimal (sumMoney amounts).text = true ∧
        Denotes (sumMoney amounts).text numbers.sum) ∧
    ∀ (first second : MoneyDecimal) (left right : ℚ), Denotes first.text left →
      Denotes second.text right → compareMoney first second = compare left right := by
  refine ⟨?_, parseCurCost_isSome, ?_, ?_, ?_, ?_⟩
  · intro text cost h
    have hread := parseCurCost_denotes h
    exact ⟨cost.valid, cost.value, hread.nonneg, hread, denotes_value cost⟩
  · intro text first second hfirst hsecond
    rw [hfirst.eq_costTextValue, hsecond.eq_costTextValue]
  · intro amount
    exact ⟨amount.value, denotes_value amount⟩
  · intro amounts numbers h
    exact ⟨(sumMoney amounts).valid, sumMoney_denotes h⟩
  · intro first second left right hleft hright
    rw [hleft.eq_value, hright.eq_value]
    exact compareMoney_eq_compare first second

end Arithmetic

end RefundStudy.Billing
