/-
  The numbers of a language whose only number type is IEEE 754 binary64.

  Printing and reading a number are not computed here: `NumberText.Lawful` says that a finite
  value prints as a decimal text that reads back to it, up to the sign of zero.
-/
import Mathlib.Algebra.Order.Field.Rat
import Mathlib.Algebra.Order.Field.Power
import Mathlib.Data.Rat.Cast.Order
import Mathlib.Tactic.Linarith
import Mathlib.Tactic.NormNum
import RefundStudy.Foundation.Digits

set_option autoImplicit false

namespace RefundStudy.Foundation

/-- A finite binary64 value, `± significand * 2 ^ exponent`. -/
structure FiniteDouble where
  negative : Bool
  significand : Nat
  exponent : Int
  significand_lt : significand < 2 ^ 53
  exponent_ge : -1074 ≤ exponent
  exponent_le : exponent ≤ 971
  /-- normal values use all 53 bits; the others have the least exponent -/
  canonical : 2 ^ 52 ≤ significand ∨ exponent = -1074
  deriving DecidableEq

inductive Double where
  | nan
  | infinite (negative : Bool)
  | finite (value : FiniteDouble)
  deriving DecidableEq

namespace FiniteDouble

/-- The magnitude in units of `2 ^ -1074`. -/
def units (value : FiniteDouble) : Nat := value.significand * 2 ^ (value.exponent + 1074).toNat

def unitsOfOne : Nat := 2 ^ 1074

def positiveZero (value : FiniteDouble) : FiniteDouble :=
  if value.significand = 0 then { value with negative := false } else value

@[simp] theorem units_positiveZero (value : FiniteDouble) :
    value.positiveZero.units = value.units := by
  unfold positiveZero
  split <;> rfl

@[simp] theorem positiveZero_positiveZero (value : FiniteDouble) :
    value.positiveZero.positiveZero = value.positiveZero := by
  unfold positiveZero
  split <;> simp_all

theorem eq_of_units_eq {first second : FiniteDouble} (h : first.units = second.units) :
    first.significand = second.significand ∧ first.exponent = second.exponent := by
  -- of two exponents the larger belongs to a value of full width, which is too wide for the other
  have hle : ∀ {a b : FiniteDouble}, a.units = b.units → a.exponent ≤ b.exponent →
      a.significand = b.significand ∧ a.exponent = b.exponent := by
    intro a b hunits hexponent
    have hgea := a.exponent_ge
    obtain ⟨gap, hgap⟩ : ∃ gap : Nat, (b.exponent + 1074).toNat = (a.exponent + 1074).toNat + gap :=
      ⟨(b.exponent - a.exponent).toNat, by omega⟩
    unfold units at hunits
    rw [hgap, Nat.pow_add, Nat.mul_comm (2 ^ _) (2 ^ gap), ← Nat.mul_assoc] at hunits
    have hsame : a.significand = b.significand * 2 ^ gap :=
      Nat.eq_of_mul_eq_mul_right (Nat.two_pow_pos _) hunits
    cases gap with
    | zero =>
      have hgeb := b.exponent_ge
      exact ⟨by simpa using hsame, by omega⟩
    | succ gap =>
      have hwide : 2 ^ 52 ≤ b.significand := by
        rcases b.canonical with hwide | hleast
        · exact hwide
        · omega
      have hbound := a.significand_lt
      have hpow : 2 ≤ 2 ^ (gap + 1) := by
        rw [Nat.pow_succ]
        have := Nat.two_pow_pos gap
        omega
      have := Nat.mul_le_mul hwide hpow
      omega
  rcases Int.le_total first.exponent second.exponent with hexponent | hexponent
  · exact hle h hexponent
  · obtain ⟨hsignificand, hexponent⟩ := hle h.symm hexponent
    exact ⟨hsignificand.symm, hexponent.symm⟩

end FiniteDouble

namespace Double

/-- `Number.isFinite(value)`. -/
def isFinite : Double → Bool
  | .finite _ => true
  | _ => false

/-- `Number.isInteger(value)`. -/
def isInteger : Double → Bool
  | .finite value => decide (value.units % FiniteDouble.unitsOfOne = 0)
  | _ => false

/-- `Number.isSafeInteger(value)`: an integer of magnitude at most `2 ^ 53 - 1`. -/
def isSafeInteger : Double → Bool
  | .finite value =>
    decide (value.units % FiniteDouble.unitsOfOne = 0) &&
      decide (value.units ≤ (2 ^ 53 - 1) * FiniteDouble.unitsOfOne)
  | _ => false

/-- `value === 0`, of either sign. -/
def isZero : Double → Bool
  | .finite value => decide (value.units = 0)
  | _ => false

/-- `Math.abs(value) < bound`, for a finite bound. -/
def magnitudeBelow (bound : FiniteDouble) : Double → Bool
  | .finite value => decide (value.units < bound.units)
  | _ => false

def positiveZero : Double → Double
  | .finite value => .finite value.positiveZero
  | other => other

@[simp] theorem positiveZero_positiveZero (value : Double) :
    value.positiveZero.positiveZero = value.positiveZero := by
  cases value <;> simp [positiveZero]

@[simp] theorem isFinite_positiveZero (value : Double) :
    value.positiveZero.isFinite = value.isFinite := by
  cases value <;> simp [positiveZero, isFinite]

@[simp] theorem isInteger_positiveZero (value : Double) :
    value.positiveZero.isInteger = value.isInteger := by
  cases value <;> simp [positiveZero, isInteger]

@[simp] theorem isSafeInteger_positiveZero (value : Double) :
    value.positiveZero.isSafeInteger = value.isSafeInteger := by
  cases value <;> simp [positiveZero, isSafeInteger]

@[simp] theorem isZero_positiveZero (value : Double) :
    value.positiveZero.isZero = value.isZero := by
  cases value <;> simp [positiveZero, isZero]

@[simp] theorem magnitudeBelow_positiveZero (bound : FiniteDouble) (value : Double) :
    value.positiveZero.magnitudeBelow bound = value.magnitudeBelow bound := by
  cases value <;> simp [positiveZero, magnitudeBelow]

end Double

/-! ## Decimal texts -/

/-- A decimal text in parts: `digits * 10 ^ scale`, with its sign. -/
structure DecimalText where
  negative : Bool
  digits : List Char
  scale : Int

def splitMinus : List Char → Bool × List Char
  | '-' :: rest => (true, rest)
  | chars => (false, chars)

def splitSign : List Char → Bool × List Char
  | '+' :: rest => (false, rest)
  | chars => splitMinus chars

/-- An optional fraction: whether there is a point, its digits and what follows. -/
def splitFraction : List Char → Bool × List Char × List Char
  | '.' :: rest => (true, rest.takeWhile Char.isDigit, rest.dropWhile Char.isDigit)
  | chars => (false, [], chars)

/-- An optional exponent, to the end: its mark, an optional sign and one or more digits. -/
def readExponent : List Char → Option Int
  | [] => some 0
  | mark :: rest =>
    let (negative, digits) := splitSign rest
    if (mark = 'e' ∨ mark = 'E') ∧ digits ≠ [] ∧ digits.all Char.isDigit then
      some (if negative then -(Nat.ofDigitChars 10 digits 0 : Int)
        else Nat.ofDigitChars 10 digits 0)
    else none

/-- `/^-?\d+(\.\d+)?([eE][+-]?\d+)?$/` with the parts it matches.  Each run of digits is taken as
long as it can be; a fraction or an exponent without digits is no match, because nothing else may
follow. -/
def readDecimal (text : String) : Option DecimalText :=
  let (negative, chars) := splitMinus text.toList
  let whole := chars.takeWhile Char.isDigit
  let (point, fraction, rest) := splitFraction (chars.dropWhile Char.isDigit)
  if whole = [] ∨ (point = true ∧ fraction = []) then none
  else
    (readExponent rest).map fun exponent =>
      ⟨negative, whole ++ fraction, exponent - (fraction.length : Int)⟩

def isDecimalNumber (text : String) : Bool := (readDecimal text).isSome

def DecimalText.value (decimal : DecimalText) : ℚ :=
  (if decimal.negative then -1 else 1) * (Nat.ofDigitChars 10 decimal.digits 0 : ℚ) *
    10 ^ decimal.scale

/-- The number a text denotes, when it is a decimal number. -/
def decimalValue (text : String) : Option ℚ := (readDecimal text).map DecimalText.value

/-- `String(value)` and `Number(text)`. -/
structure NumberText where
  print : Double → String
  read : String → Double

/-- A finite value, and no other, prints as a decimal text; it reads back to the value.  The sign
of zero is not printed, and reading looks only at the number a decimal text denotes, up to the sign of zero. -/
structure NumberText.Lawful (text : NumberText) : Prop where
  print_decimal : ∀ value : FiniteDouble, isDecimalNumber (text.print (.finite value)) = true
  print_special : ∀ value : Double, value.isFinite = false →
    isDecimalNumber (text.print value) = false
  print_zero : ∀ value : FiniteDouble,
    text.print (.finite value.positiveZero) = text.print (.finite value)
  read_print : ∀ value : FiniteDouble,
    text.read (text.print (.finite value)) = .finite value.positiveZero
  read_value : ∀ first second, decimalValue first = decimalValue second →
    isDecimalNumber first = true → (text.read first).positiveZero = (text.read second).positiveZero

theorem NumberText.Lawful.print_value_eq_iff {text : NumberText} (law : text.Lawful)
    {first second : FiniteDouble} :
    decimalValue (text.print (.finite first)) = decimalValue (text.print (.finite second)) ↔
      first.positiveZero = second.positiveZero := by
  constructor
  · intro h
    have hread := law.read_value _ _ h (law.print_decimal first)
    rw [law.read_print, law.read_print] at hread
    simpa [Double.positiveZero] using hread
  · intro h
    rw [← law.print_zero first, h, law.print_zero]

/-! ## A printer of exact texts

An integer prints as its digits.  Any other value prints as its magnitude in units with a fixed
exponent, which keeps the texts of different values apart; the reader inverts the printer. -/

def exactDigits (value : FiniteDouble) : List Char :=
  if value.units % FiniteDouble.unitsOfOne = 0 then
    Nat.toDigits 10 (value.units / FiniteDouble.unitsOfOne)
  else Nat.toDigits 10 value.units ++ ['e', '-', '1', '0', '7', '4']

def exactPrint (value : FiniteDouble) : String :=
  String.ofList ((if value.positiveZero.negative then ['-'] else []) ++ exactDigits value)

theorem span_digits {digits tail : List Char} (hdigits : ∀ c ∈ digits, c.isDigit = true)
    (htail : ∀ c rest, tail = c :: rest → c.isDigit = false) :
    (digits ++ tail).takeWhile Char.isDigit = digits ∧
      (digits ++ tail).dropWhile Char.isDigit = tail := by
  rw [List.takeWhile_append_of_pos hdigits, List.dropWhile_append_of_pos hdigits]
  cases tail with
  | nil => simp
  | cons c rest =>
    have hc := htail c rest rfl
    simp [hc]

theorem readDecimal_signed (negative : Bool) {digits tail : List Char} (hne : digits ≠ [])
    (hdigits : ∀ c ∈ digits, c.isDigit = true) (htail : tail = [] ∨ ∃ rest, tail = 'e' :: rest) :
    readDecimal (String.ofList ((if negative then ['-'] else []) ++ (digits ++ tail))) =
      (readExponent tail).map fun exponent => ⟨negative, digits, exponent⟩ := by
  have hsplit := @span_digits digits tail hdigits (by
    intro c rest hc
    rcases htail with rfl | ⟨other, rfl⟩
    · cases hc
    · cases hc
      decide)
  have hsign : splitMinus ((if negative then ['-'] else []) ++ (digits ++ tail)) =
      (negative, digits ++ tail) := by
    cases negative with
    | true => rfl
    | false =>
      cases digits with
      | nil => exact absurd rfl hne
      | cons c rest =>
        have hc := hdigits c List.mem_cons_self
        unfold splitMinus
        split
        · rename_i hminus
          simp only [Bool.false_eq_true, if_false, List.nil_append, List.cons_append,
            List.cons.injEq] at hminus
          rw [hminus.1] at hc
          exact absurd hc (by decide)
        · rfl
  have hfraction : splitFraction tail = (false, [], tail) := by
    rcases htail with rfl | ⟨rest, rfl⟩ <;> rfl
  simp [readDecimal, hsign, hsplit.1, hsplit.2, hfraction, hne]

def signFactor (value : FiniteDouble) : ℚ := if value.positiveZero.negative then -1 else 1

theorem decimalValue_exactPrint_integer {value : FiniteDouble}
    (h : value.units % FiniteDouble.unitsOfOne = 0) :
    decimalValue (exactPrint value) =
      some (signFactor value * (value.units / FiniteDouble.unitsOfOne : ℕ)) := by
  have hread := readDecimal_signed value.positiveZero.negative
    (@Nat.toDigits_ne_nil (value.units / FiniteDouble.unitsOfOne) 10) (toDigits_isDigit _)
    (.inl rfl)
  rw [List.append_nil] at hread
  rw [decimalValue, exactPrint, exactDigits, if_pos h, hread]
  simp [readExponent, DecimalText.value, signFactor, Nat.ofDigitChars_ten_toDigits]

theorem decimalValue_exactPrint_fraction {value : FiniteDouble}
    (h : value.units % FiniteDouble.unitsOfOne ≠ 0) :
    decimalValue (exactPrint value) =
      some (signFactor value * (value.units : ℚ) * 10 ^ (-((1074 : ℕ) : ℤ))) := by
  have hread := readDecimal_signed value.positiveZero.negative
    (@Nat.toDigits_ne_nil value.units 10) (toDigits_isDigit _)
    (.inr ⟨['-', '1', '0', '7', '4'], rfl⟩)
  have hexponent : readExponent ['e', '-', '1', '0', '7', '4'] = some (-1074) := by decide
  rw [decimalValue, exactPrint, exactDigits, if_neg h, hread, hexponent]
  simp [DecimalText.value, signFactor, Nat.ofDigitChars_ten_toDigits]

theorem positiveZero_eq_of_units {first second : FiniteDouble} (hunits : first.units = second.units)
    (hsign : first.units = 0 ∨ signFactor first = signFactor second) :
    first.positiveZero = second.positiveZero := by
  obtain ⟨hsignificand, hexponent⟩ := FiniteDouble.eq_of_units_eq hunits
  have hzero : first.units = 0 ↔ first.significand = 0 := by
    simp [FiniteDouble.units]
  have hnegative : first.positiveZero.negative = second.positiveZero.negative := by
    rcases hsign with hsign | hsign
    · rw [hzero] at hsign
      simp [FiniteDouble.positiveZero, hsign, ← hsignificand]
    · unfold signFactor at hsign
      cases hf : first.positiveZero.negative <;> cases hs : second.positiveZero.negative <;>
        simp [hf, hs] at hsign ⊢ <;> norm_num at hsign
  cases first with
  | mk negative significand exponent _ _ _ _ =>
  cases second with
  | mk negative' significand' exponent' _ _ _ _ =>
  simp only at hsignificand hexponent
  subst hsignificand hexponent
  unfold FiniteDouble.positiveZero at hnegative ⊢
  dsimp only at hnegative ⊢
  split
  · rfl
  · rename_i hz
    rw [if_neg hz, if_neg hz] at hnegative
    rw [show negative = negative' from hnegative]

theorem signFactor_mul_eq {first second : FiniteDouble} {a b : ℚ} (ha : 0 ≤ a) (hb : 0 ≤ b)
    (h : signFactor first * a = signFactor second * b) :
    a = b ∧ (a = 0 ∨ signFactor first = signFactor second) := by
  unfold signFactor at h ⊢
  by_cases hfirst : first.positiveZero.negative = true <;>
    by_cases hsecond : second.positiveZero.negative = true <;>
    simp only [hfirst, hsecond, if_true, if_false, Bool.false_eq_true] at h ⊢
  · exact ⟨by linarith, .inr trivial⟩
  · have hzero : a = 0 := by linarith
    exact ⟨by linarith, .inl hzero⟩
  · have hzero : a = 0 := by linarith
    exact ⟨by linarith, .inl hzero⟩
  · exact ⟨by linarith, .inr trivial⟩

theorem eq_mul_pow_of_eq_mul_zpow {number units : ℚ} (scale : ℕ)
    (h : number = units * 10 ^ (-(scale : ℤ))) : units = number * 10 ^ scale := by
  rw [h, zpow_neg, zpow_natCast, mul_assoc, inv_mul_cancel₀ (by positivity), mul_one]

theorem dvd_of_cast_eq_mul_pow {number units : ℕ} (scale : ℕ)
    (h : (units : ℚ) = number * 10 ^ scale) : 2 ^ scale ∣ units := by
  have hunits : units = number * 10 ^ scale := by exact_mod_cast h
  rw [hunits]
  exact Dvd.dvd.mul_left (pow_dvd_pow_of_dvd (by norm_num) scale) number

theorem exactPrint_value_injective {first second : FiniteDouble}
    (h : decimalValue (exactPrint first) = decimalValue (exactPrint second)) :
    first.positiveZero = second.positiveZero := by
  have hscaled : ∀ units : ℕ, (0 : ℚ) ≤ units * 10 ^ (-((1074 : ℕ) : ℤ)) := fun units =>
    mul_nonneg (Nat.cast_nonneg units) (zpow_nonneg (by norm_num) _)
  -- an integer is no multiple of the unit of the other texts
  have hmixed : ∀ {a b : FiniteDouble}, a.units % FiniteDouble.unitsOfOne = 0 →
      b.units % FiniteDouble.unitsOfOne ≠ 0 →
      decimalValue (exactPrint a) ≠ decimalValue (exactPrint b) := by
    intro a b ha hb heq
    rw [decimalValue_exactPrint_integer ha, decimalValue_exactPrint_fraction hb,
      Option.some.injEq, mul_assoc] at heq
    have hsame := (signFactor_mul_eq (Nat.cast_nonneg _) (hscaled _) heq).1
    have hdvd : FiniteDouble.unitsOfOne ∣ b.units :=
      dvd_of_cast_eq_mul_pow 1074 (eq_mul_pow_of_eq_mul_zpow 1074 hsame)
    exact hb (Nat.mod_eq_zero_of_dvd hdvd)
  by_cases hfirst : first.units % FiniteDouble.unitsOfOne = 0 <;>
    by_cases hsecond : second.units % FiniteDouble.unitsOfOne = 0
  · rw [decimalValue_exactPrint_integer hfirst, decimalValue_exactPrint_integer hsecond,
      Option.some.injEq] at h
    obtain ⟨hsame, hsign⟩ := signFactor_mul_eq (Nat.cast_nonneg _) (Nat.cast_nonneg _) h
    have hquotient := Nat.cast_injective hsame
    have hunits : first.units = second.units := by
      rw [← Nat.div_mul_cancel (Nat.dvd_of_mod_eq_zero hfirst), hquotient,
        Nat.div_mul_cancel (Nat.dvd_of_mod_eq_zero hsecond)]
    refine positiveZero_eq_of_units hunits (hsign.imp_left fun hzero => ?_)
    have hzero : first.units / FiniteDouble.unitsOfOne = 0 := by exact_mod_cast hzero
    rw [← Nat.div_mul_cancel (Nat.dvd_of_mod_eq_zero hfirst), hzero, Nat.zero_mul]
  · exact absurd h (hmixed hfirst hsecond)
  · exact absurd h.symm (hmixed hsecond hfirst)
  · rw [decimalValue_exactPrint_fraction hfirst, decimalValue_exactPrint_fraction hsecond,
      Option.some.injEq, mul_assoc, mul_assoc] at h
    obtain ⟨hsame, hsign⟩ := signFactor_mul_eq (hscaled _) (hscaled _) h
    have hpow : (10 : ℚ) ^ (-((1074 : ℕ) : ℤ)) ≠ 0 := zpow_ne_zero _ (by norm_num)
    have hunits : first.units = second.units :=
      Nat.cast_injective (mul_right_cancel₀ hpow hsame)
    refine positiveZero_eq_of_units hunits (hsign.imp_left fun hzero => ?_)
    exact_mod_cast (mul_eq_zero.mp hzero).resolve_right hpow

open Classical in
noncomputable def readExact (number : Option ℚ) : Double :=
  if h : ∃ value, decimalValue (exactPrint value) = number then .finite h.choose.positiveZero
  else .nan

noncomputable def exactText : NumberText where
  print
    | .nan => "NaN"
    | .infinite negative => if negative then "-Infinity" else "Infinity"
    | .finite value => exactPrint value
  read text := readExact (decimalValue text)

theorem exactText_lawful : exactText.Lawful where
  print_decimal value := by
    have hsome : (decimalValue (exactPrint value)).isSome = true := by
      by_cases h : value.units % FiniteDouble.unitsOfOne = 0
      · rw [decimalValue_exactPrint_integer h]
        rfl
      · rw [decimalValue_exactPrint_fraction h]
        rfl
    rw [decimalValue, Option.isSome_map] at hsome
    exact hsome
  print_special value h := by
    cases value with
    | nan => decide
    | infinite negative => cases negative <;> decide
    | finite value => cases h
  print_zero value := by
    simp [exactText, exactPrint, exactDigits]
  read_print value := by
    have hfound : ∃ other, decimalValue (exactPrint other) = decimalValue (exactPrint value) :=
      ⟨value, rfl⟩
    simp only [exactText, readExact, dif_pos hfound]
    rw [exactPrint_value_injective hfound.choose_spec]
  read_value first second h _ := by
    simp only [exactText, h]

end RefundStudy.Foundation
