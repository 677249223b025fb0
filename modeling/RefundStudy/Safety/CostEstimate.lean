/-
  The admission cost estimate (`safety/cost-estimate.ts`, `safety/usd-amount.ts`;
  BR-RUA-046).
-/
import RefundStudy.Billing.CostText
import RefundStudy.Foundation.Binary64
import Mathlib.Order.Bounds.Basic
import Mathlib.Data.Nat.Cast.Field
import Mathlib.Tactic.Ring

set_option autoImplicit false

namespace RefundStudy.Safety

open Foundation Billing

/-! ## Amounts (`usd-amount.ts`) -/

def usdScaleDigits : Nat := 12

def scale : Nat := 10 ^ usdScaleDigits

def scalePerCent : Nat := scale / 100

def scaledUsd (text : List Char) : Option Nat :=
  if isMoneyDecimal text then
    let fraction := (fractionPart text).getD []
    if usdScaleDigits < fraction.length then none
    else some (digitsValue (integerPart text) * scale +
      digitsValue (fraction.rightpad usdScaleDigits '0'))
  else none

def centsCeiling (scaled : Nat) : List Char :=
  let cents := (scaled + scalePerCent - 1) / scalePerCent
  Nat.toDigits 10 (cents / 100) ++ '.' :: (Nat.toDigits 10 (cents % 100)).leftpad 2 '0'

def exactUsd (scaled : Nat) : List Char :=
  let whole := Nat.toDigits 10 (scaled / scale)
  let fraction := ((Nat.toDigits 10 (scaled % scale)).leftpad usdScaleDigits '0').rdropWhile (· == '0')
  if fraction.isEmpty then whole else whole ++ '.' :: fraction

/-! ## The estimate (`cost-estimate.ts`) -/

inductive PriceMeter where
  | lambdaRequests
  | lambdaGbSeconds
  | lambdaDurableOperations
  | dynamodbWriteRequestUnits
  | dynamodbReadRequestUnits
  | dynamodbStreamReadRequestUnits
  | sqsFifoRequests
  | sqsStandardRequests
  | cloudwatchLogsIngestedMb
  deriving DecidableEq

structure PriceCeiling where
  meter : PriceMeter
  usdPerUnit : List Char

structure PlannedUsage where
  meter : PriceMeter
  quantity : Double

structure ResourcePlan where
  usage : List PlannedUsage
  resourceCounts : List (String × Double)

structure CostLine where
  meter : PriceMeter
  quantity : Double
  usdPerUnit : List Char
  costUsd : List Char

structure CostEstimate where
  estimatedCostUsd : List Char
  lines : List CostLine
  resourceCounts : List (String × Double)

/-- The reasons of a refused estimate, with what their details name. -/
inductive CostReason where
  | priceCeilingMissing (meter : PriceMeter) (ceilings : Nat)
  | priceCeilingInvalid (meter : PriceMeter) (usdPerUnit : List Char)
  | plannedQuantityInvalid (meter : PriceMeter) (quantity : Double)

/-- `quantity < 0`. -/
def isNegative : Double → Bool
  | .nan => false
  | .infinite negative => negative
  | .finite value => value.negative && decide (value.units ≠ 0)

/-- `BigInt(quantity)` of a nonnegative integer. -/
def bigInt : Double → Nat
  | .finite value => value.units / FiniteDouble.unitsOfOne
  | _ => 0

def priceLine (meter : PriceMeter) (quantity : Double) (prices : List PriceCeiling) :
    Except CostReason (CostLine × Nat) :=
  match prices.filter fun price => price.meter = meter with
  | [price] =>
    match scaledUsd price.usdPerUnit with
    | none => .error (.priceCeilingInvalid meter price.usdPerUnit)
    | some unitPrice =>
      if !quantity.isSafeInteger || isNegative quantity then
        .error (.plannedQuantityInvalid meter quantity)
      else
        let scaled := unitPrice * bigInt quantity
        .ok (⟨meter, quantity, price.usdPerUnit, exactUsd scaled⟩, scaled)
  | matching => .error (.priceCeilingMissing meter matching.length)

/-- The `lines`, `reasons` and `total` of the loop. -/
structure Pricing where
  lines : List CostLine := []
  reasons : List CostReason := []
  total : Nat := 0

/-- One round of the loop of `estimateAttributableCost`. -/
def Pricing.add (prices : List PriceCeiling) (pricing : Pricing) (usage : PlannedUsage) : Pricing :=
  match priceLine usage.meter usage.quantity prices with
  | .error reason => { pricing with reasons := pricing.reasons ++ [reason] }
  | .ok (line, scaled) =>
    { pricing with lines := pricing.lines ++ [line], total := pricing.total + scaled }

def estimateAttributableCost (plan : ResourcePlan) (prices : List PriceCeiling) :
    Except (List CostReason) CostEstimate :=
  let pricing := plan.usage.foldl (Pricing.add prices) {}
  if 0 < pricing.reasons.length then .error pricing.reasons
  else .ok ⟨centsCeiling pricing.total, pricing.lines, plan.resourceCounts⟩

def estimateWithinCeiling (estimate ceiling : List Char) : Bool :=
  match scaledUsd ceiling, scaledUsd estimate with
  | some limit, some value => decide (value ≤ limit)
  | _, _ => false

/-! ## What a run of the loop leaves -/

section Loop

variable {prices : List PriceCeiling}

def PricedAs (prices : List PriceCeiling) (usage : PlannedUsage) (priced : CostLine × Nat) : Prop :=
  priceLine usage.meter usage.quantity prices = .ok priced

theorem exists_forall₂ {usages : List PlannedUsage} :
    (∃ priced, List.Forall₂ (PricedAs prices) usages priced) ↔
      ∀ usage ∈ usages, ∃ priced, PricedAs prices usage priced := by
  induction usages with
  | nil => exact iff_of_true ⟨[], .nil⟩ (by simp)
  | cons usage rest ih =>
    rw [List.forall_mem_cons, ← ih]
    constructor
    · rintro ⟨priced, hall⟩
      cases hall with
      | cons hhead hrest => exact ⟨⟨_, hhead⟩, _, hrest⟩
    · rintro ⟨⟨line, hhead⟩, priced, hrest⟩
      exact ⟨line :: priced, .cons hhead hrest⟩

theorem foldl_priced {usages : List PlannedUsage} {priced : List (CostLine × Nat)}
    (h : List.Forall₂ (PricedAs prices) usages priced) (pricing : Pricing) :
    usages.foldl (Pricing.add prices) pricing =
      ⟨pricing.lines ++ priced.map Prod.fst, pricing.reasons,
        pricing.total + (priced.map Prod.snd).sum⟩ := by
  induction h generalizing pricing with
  | nil => simp
  | cons hhead _ ih =>
    have hadd := hhead
    unfold PricedAs at hadd
    rw [List.foldl_cons, ih, Pricing.add, hadd]
    simp [Nat.add_assoc]

theorem reasons_grow (usages : List PlannedUsage) (pricing : Pricing) :
    pricing.reasons.length ≤ (usages.foldl (Pricing.add prices) pricing).reasons.length := by
  induction usages generalizing pricing with
  | nil => rfl
  | cons usage rest ih =>
    refine le_trans ?_ (ih (Pricing.add prices pricing usage))
    unfold Pricing.add
    split <;> simp

theorem reasons_of_refused {usages : List PlannedUsage} {usage : PlannedUsage}
    {reason : CostReason} (hmem : usage ∈ usages)
    (h : priceLine usage.meter usage.quantity prices = .error reason) (pricing : Pricing) :
    0 < (usages.foldl (Pricing.add prices) pricing).reasons.length := by
  induction usages generalizing pricing with
  | nil => cases hmem
  | cons first rest ih =>
    rw [List.foldl_cons]
    rcases List.mem_cons.mp hmem with rfl | hrest
    · refine lt_of_lt_of_le ?_ (reasons_grow rest _)
      simp [Pricing.add, h]
    · exact ih hrest _

/-- An estimate is made exactly when every usage is priced, and holds the priced lines. -/
theorem estimateAttributableCost_eq_ok (plan : ResourcePlan) (estimate : CostEstimate) :
    estimateAttributableCost plan prices = .ok estimate ↔
      ∃ priced, List.Forall₂ (PricedAs prices) plan.usage priced ∧
        estimate = ⟨centsCeiling (priced.map Prod.snd).sum, priced.map Prod.fst,
          plan.resourceCounts⟩ := by
  unfold estimateAttributableCost
  constructor
  · intro h
    by_cases hall : ∀ usage ∈ plan.usage, ∃ priced, PricedAs prices usage priced
    · obtain ⟨priced, hpriced⟩ := exists_forall₂.mpr hall
      rw [foldl_priced hpriced] at h
      refine ⟨priced, hpriced, ?_⟩
      simpa using h.symm
    · push Not at hall
      obtain ⟨usage, hmem, hnone⟩ := hall
      cases hline : priceLine usage.meter usage.quantity prices with
      | ok priced => exact absurd hline (hnone priced)
      | error reason =>
        rw [if_pos (reasons_of_refused hmem hline {})] at h
        cases h
  · rintro ⟨priced, hall, rfl⟩
    rw [foldl_priced hall]
    simp

end Loop

/-! ## Amounts are exact -/

section Amounts

def usd (scaled : Nat) : ℚ := scaled / 10 ^ usdScaleDigits

/-- A price `scaledUsd` can read. -/
def ReadablePrice (text : List Char) : Prop :=
  isMoneyDecimal text = true ∧ ((fractionPart text).getD []).length ≤ usdScaleDigits

theorem scaledUsd_isSome (text : List Char) :
    (∃ scaled, scaledUsd text = some scaled) ↔ ReadablePrice text := by
  unfold scaledUsd ReadablePrice
  by_cases hmoney : isMoneyDecimal text = true
  · by_cases hlong : usdScaleDigits < ((fractionPart text).getD []).length
    · simp [hmoney, hlong]
    · simp [hmoney, hlong, Nat.not_lt.mp hlong]
  · simp [hmoney]

theorem scaledUsd_denotes {text : List Char} {scaled : Nat} (h : scaledUsd text = some scaled) :
    Denotes text (usd scaled) := by
  obtain ⟨hmoney, hshort⟩ := (scaledUsd_isSome text).mp ⟨scaled, h⟩
  have hvalue := denotes_value ⟨text, hmoney⟩
  unfold scaledUsd at h
  simp only [hmoney, if_true, if_neg (Nat.not_lt.mpr hshort), Option.some.injEq, List.rightpad,
    digitsValue_append, digitsValue_replicate, List.length_replicate, Nat.add_zero] at h
  convert hvalue using 1
  generalize hfraction : (fractionPart text).getD [] = fraction at h hshort
  obtain ⟨zeros, hzeros⟩ := Nat.exists_eq_add_of_le hshort
  rw [hzeros, Nat.add_sub_cancel_left] at h
  simp only [MoneyDecimal.value, toScaled, ScaledAmount.value, hfraction, digitsValue_append]
  rw [usd, ← h, scale, hzeros, zpow_neg, zpow_natCast]
  push_cast
  rw [pow_add]
  field_simp

theorem denotes_whole (whole : Nat) : Denotes (Nat.toDigits 10 whole) whole := by
  have hdigits := toDigits_isDigit whole
  have hmoney : isMoneyDecimal (Nat.toDigits 10 whole) = true := by
    rw [isMoneyDecimal, integerPart_of_digits hdigits, fractionPart_of_digits hdigits,
      isCanonicalInteger_toDigits]
    rfl
  have hvalue := denotes_value ⟨_, hmoney⟩
  simpa [MoneyDecimal.value, toScaled, ScaledAmount.value, fractionPart_of_digits hdigits,
    integerPart_of_digits hdigits, digitsValue_toDigits] using hvalue

theorem denotes_pointed (whole : Nat) {fraction : List Char} (hne : fraction ≠ [])
    (hfraction : ∀ c ∈ fraction, c.isDigit = true) :
    Denotes (Nat.toDigits 10 whole ++ '.' :: fraction)
      (whole + digitsValue fraction / 10 ^ fraction.length) := by
  have hdigits := toDigits_isDigit whole
  have hmoney : isMoneyDecimal (Nat.toDigits 10 whole ++ '.' :: fraction) = true := by
    rw [isMoneyDecimal, integerPart_point hdigits, fractionPart_point hdigits,
      isCanonicalInteger_toDigits]
    simpa [hne] using hfraction
  have hvalue := denotes_value ⟨_, hmoney⟩
  convert hvalue using 1
  simp only [MoneyDecimal.value, toScaled, ScaledAmount.value, fractionPart_point hdigits,
    integerPart_point hdigits, Option.getD_some, digitsValue_append, digitsValue_toDigits]
  rw [zpow_neg, zpow_natCast]
  push_cast
  field_simp

theorem length_leftpad_digits {width : Nat} (hwidth : 0 < width) {number : Nat}
    (h : number < 10 ^ width) : ((Nat.toDigits 10 number).leftpad width '0').length = width := by
  rw [List.length_leftpad, Nat.max_eq_left]
  exact (Nat.length_toDigits_le_iff (by omega) hwidth).mpr h

/-- The cents `centsCeiling` writes. -/
theorem centsCeiling_denotes (scaled : Nat) :
    Denotes (centsCeiling scaled) (((scaled + scalePerCent - 1) / scalePerCent : ℕ) / 100) := by
  unfold centsCeiling
  generalize (scaled + scalePerCent - 1) / scalePerCent = cents
  have hlength := length_leftpad_digits (show 0 < 2 by omega)
    (show cents % 100 < 10 ^ 2 by omega)
  have hne : (Nat.toDigits 10 (cents % 100)).leftpad 2 '0' ≠ [] := by
    intro hempty
    rw [hempty] at hlength
    cases hlength
  have hvalue := denotes_pointed (cents / 100) hne (isDigit_leftpad 2 (cents % 100))
  convert hvalue using 1
  rw [digitsValue_leftpad, hlength]
  have hsplit := Nat.div_add_mod cents 100
  have hcast : (100 : ℚ) * (cents / 100 : ℕ) + (cents % 100 : ℕ) = cents := by exact_mod_cast hsplit
  rw [← hcast]
  ring

theorem exactUsd_denotes (scaled : Nat) : Denotes (exactUsd scaled) (usd scaled) := by
  unfold exactUsd
  have hlength := length_leftpad_digits (show 0 < usdScaleDigits by decide)
    (show scaled % scale < 10 ^ usdScaleDigits from Nat.mod_lt scaled (by decide))
  have hdigits := isDigit_leftpad usdScaleDigits (scaled % scale)
  have hvalue := digitsValue_leftpad usdScaleDigits (scaled % scale)
  generalize (Nat.toDigits 10 (scaled % scale)).leftpad usdScaleDigits '0' = padded at *
  obtain ⟨zeros, hzeros⟩ := rdropWhile_zeros padded
  generalize padded.rdropWhile (· == '0') = fraction at *
  subst hzeros
  rw [digitsValue_append, digitsValue_replicate, List.length_replicate, Nat.add_zero] at hvalue
  rw [List.length_append, List.length_replicate] at hlength
  have hnumber : usd scaled =
      (scaled / scale : ℕ) + (digitsValue fraction : ℚ) / 10 ^ fraction.length := by
    have hsplit := Nat.div_add_mod scaled scale
    have hcast : (scaled : ℚ) = scale * (scaled / scale : ℕ) + 10 ^ zeros * digitsValue fraction := by
      rw [← hvalue] at hsplit
      exact_mod_cast hsplit.symm
    have hscale : (scale : ℚ) = 10 ^ fraction.length * 10 ^ zeros := by
      rw [scale, ← hlength]
      push_cast
      exact pow_add _ _ _
    rw [usd, hcast, ← hlength, hscale, pow_add]
    field_simp
  rw [hnumber]
  dsimp only
  split
  · rename_i hempty
    rw [List.isEmpty_iff.mp hempty]
    simpa [digitsValue] using denotes_whole (scaled / scale)
  · rename_i hnonempty
    refine denotes_pointed _ (by simpa using hnonempty) ?_
    exact fun c hmem => hdigits c (List.mem_append_left _ hmem)

end Amounts

/-! ## The estimate is exact -/

def HasValue (value : Double) (number : ℚ) : Prop :=
  ∃ finite, value = .finite finite ∧
    number = signFactor finite * finite.units / FiniteDouble.unitsOfOne

/-- One ceiling with a readable price, and a nonnegative safe integer. -/
def Priceable (prices : List PriceCeiling) (usage : PlannedUsage) : Prop :=
  (∃ price, (prices.filter fun price => price.meter = usage.meter) = [price] ∧
    ReadablePrice price.usdPerUnit) ∧
  ∃ count : Nat, count ≤ 2 ^ 53 - 1 ∧ HasValue usage.quantity count

structure ExactLine (prices : List PriceCeiling) (usage : PlannedUsage)
    (entry : CostLine × ℚ) : Prop where
  meter : entry.1.meter = usage.meter
  quantity : entry.1.quantity = usage.quantity
  ceiling : ∃ price, (prices.filter fun price => price.meter = usage.meter) = [price] ∧
    price.usdPerUnit = entry.1.usdPerUnit
  product : ∃ quantity price, HasValue usage.quantity quantity ∧
    Denotes entry.1.usdPerUnit price ∧ entry.2 = quantity * price
  denotes : Denotes entry.1.costUsd entry.2

section Quantities

theorem unitsOfOne_pos : 0 < FiniteDouble.unitsOfOne := Nat.two_pow_pos _

/-- A nonnegative safe integer is the number `BigInt` makes of it. -/
theorem bigInt_hasValue {quantity : Double} (hsafe : quantity.isSafeInteger = true)
    (hsign : isNegative quantity = false) :
    bigInt quantity ≤ 2 ^ 53 - 1 ∧ HasValue quantity (bigInt quantity) := by
  cases quantity with
  | nan => cases hsafe
  | infinite negative => cases hsafe
  | finite value =>
    rw [Double.isSafeInteger, Bool.and_eq_true, decide_eq_true_eq, decide_eq_true_eq] at hsafe
    constructor
    · exact Nat.div_le_of_le_mul (by rw [Nat.mul_comm]; exact hsafe.2)
    · refine ⟨value, rfl, ?_⟩
      have hfactor : signFactor value * value.units = value.units := by
        by_cases hzero : value.units = 0
        · simp [hzero]
        · have hnegative : value.negative = false := by
            simpa [isNegative, hzero] using hsign
          have hpositive : value.positiveZero.negative = false := by
            unfold FiniteDouble.positiveZero
            split <;> simp [hnegative]
          rw [signFactor, hpositive]
          simp
      have hdivides := Nat.dvd_of_mod_eq_zero hsafe.1
      rw [hfactor, bigInt, Nat.cast_div hdivides (Nat.cast_ne_zero.mpr unitsOfOne_pos.ne')]

theorem safeInteger_of_hasValue {quantity : Double} {count : Nat} (hcount : count ≤ 2 ^ 53 - 1)
    (h : HasValue quantity count) :
    quantity.isSafeInteger = true ∧ isNegative quantity = false := by
  obtain ⟨value, rfl, hvalue⟩ := h
  have hone : (FiniteDouble.unitsOfOne : ℚ) ≠ 0 := Nat.cast_ne_zero.mpr unitsOfOne_pos.ne'
  have hproduct : (count : ℚ) * FiniteDouble.unitsOfOne = signFactor value * value.units := by
    rw [hvalue]
    field_simp
  have hunits : value.units = count * FiniteDouble.unitsOfOne ∧ isNegative (.finite value) = false := by
    unfold signFactor at hproduct
    split at hproduct
    · -- a negative number is no count but zero
      have hsum : (count * FiniteDouble.unitsOfOne + value.units : ℚ) = 0 := by linarith
      have hzero : count * FiniteDouble.unitsOfOne + value.units = 0 := by exact_mod_cast hsum
      have hnone : value.units = 0 := by omega
      exact ⟨by omega, by simp [isNegative, hnone]⟩
    · rename_i hpositive
      rw [one_mul] at hproduct
      refine ⟨by exact_mod_cast hproduct.symm, ?_⟩
      unfold FiniteDouble.positiveZero at hpositive
      by_cases hzero : value.significand = 0
      · simp [isNegative, FiniteDouble.units, hzero]
      · rw [if_neg hzero] at hpositive
        simp [isNegative, hpositive]
  refine ⟨?_, hunits.2⟩
  rw [Double.isSafeInteger, Bool.and_eq_true, decide_eq_true_eq, decide_eq_true_eq, hunits.1]
  exact ⟨Nat.mul_mod_left _ _, Nat.mul_le_mul_right _ hcount⟩

end Quantities

theorem priced_iff (prices : List PriceCeiling) (usage : PlannedUsage) :
    (∃ priced, PricedAs prices usage priced) ↔ Priceable prices usage := by
  unfold PricedAs priceLine Priceable
  constructor
  · rintro ⟨priced, h⟩
    split at h
    · rename_i price hprice
      split at h
      · cases h
      · rename_i unitPrice hunit
        split at h
        · cases h
        · rename_i hquantity
          rw [Bool.or_eq_true, not_or, Bool.not_eq_true, Bool.not_eq_false', Bool.not_eq_true]
            at hquantity
          exact ⟨⟨price, hprice, (scaledUsd_isSome _).mp ⟨_, hunit⟩⟩, _,
            bigInt_hasValue hquantity.1 hquantity.2⟩
    · cases h
  · rintro ⟨⟨price, hprice, hreadable⟩, count, hcount, hvalue⟩
    obtain ⟨unitPrice, hunit⟩ := (scaledUsd_isSome _).mpr hreadable
    obtain ⟨hsafe, hsign⟩ := safeInteger_of_hasValue hcount hvalue
    simp [hprice, hunit, hsafe, hsign]

theorem PricedAs.exact {prices : List PriceCeiling} {usage : PlannedUsage}
    {priced : CostLine × Nat} (h : PricedAs prices usage priced) :
    ExactLine prices usage (priced.1, usd priced.2) := by
  unfold PricedAs priceLine at h
  split at h
  · rename_i price hprice
    split at h
    · cases h
    · rename_i unitPrice hunit
      split at h
      · cases h
      · rename_i hquantity
        rw [Bool.or_eq_true, not_or, Bool.not_eq_true, Bool.not_eq_false', Bool.not_eq_true]
          at hquantity
        obtain rfl := Except.ok.inj h
        refine ⟨rfl, rfl, ⟨price, hprice, rfl⟩, ⟨_, _, (bigInt_hasValue hquantity.1 hquantity.2).2,
          scaledUsd_denotes hunit, ?_⟩, exactUsd_denotes _⟩
        simp only [usd]
        push_cast
        ring
  · cases h

theorem centsCeiling_least (scaled : Nat) :
    IsLeast {cents : Nat | usd scaled ≤ cents / 100} ((scaled + scalePerCent - 1) / scalePerCent) := by
  have hcovers : ∀ cents : Nat, usd scaled ≤ cents / 100 ↔ scaled ≤ cents * scalePerCent := by
    intro cents
    have hscale : (10 ^ usdScaleDigits : ℚ) = scalePerCent * 100 := by
      norm_num [usdScaleDigits, scalePerCent, scale]
    have hcent : (0 : ℚ) < scalePerCent := by norm_num [usdScaleDigits, scalePerCent, scale]
    rw [usd, hscale, div_le_div_iff₀ (by positivity) (by norm_num)]
    rw [← mul_assoc, mul_le_mul_iff_of_pos_right (by norm_num)]
    exact_mod_cast Iff.rfl
  have hpositive : 0 < scalePerCent := by decide
  constructor
  · rw [Set.mem_ofPred_eq, hcovers]
    have hmod := Nat.lt_mul_div_succ (scaled + scalePerCent - 1) hpositive
    rw [Nat.mul_comm, Nat.add_mul, Nat.one_mul] at hmod
    omega
  · intro cents hmem
    rw [Set.mem_ofPred_eq, hcovers] at hmem
    apply Nat.le_of_lt_succ
    apply Nat.div_lt_of_lt_mul
    rw [Nat.mul_comm, Nat.succ_mul]
    omega

theorem sum_usd (amounts : List Nat) : (amounts.map usd).sum = usd amounts.sum := by
  induction amounts with
  | nil => simp [usd]
  | cons amount rest ih =>
    rw [List.map_cons, List.sum_cons, ih, List.sum_cons]
    simp only [usd]
    push_cast
    ring

/-- An estimate is made exactly for priceable plans; its lines are exact, its sum is rounded up to
the least number of cents that covers it, and within a ceiling so is the exact sum. -/
theorem cost_estimate_exact (plan : ResourcePlan) (prices : List PriceCeiling) :
    ((∃ estimate, estimateAttributableCost plan prices = .ok estimate) ↔
      ∀ usage ∈ plan.usage, Priceable prices usage) ∧
    ∀ estimate, estimateAttributableCost plan prices = .ok estimate →
      ∃ exact : List (CostLine × ℚ), exact.map Prod.fst = estimate.lines ∧
        List.Forall₂ (ExactLine prices) plan.usage exact ∧
        (∃ cents : Nat, Denotes estimate.estimatedCostUsd (cents / 100) ∧
          IsLeast {cents : Nat | (exact.map Prod.snd).sum ≤ cents / 100} cents) ∧
        ∀ ceiling, estimateWithinCeiling estimate.estimatedCostUsd ceiling = true →
          ∃ limit, Denotes ceiling limit ∧ (exact.map Prod.snd).sum ≤ limit := by
  constructor
  · constructor
    · rintro ⟨estimate, h⟩ usage hmem
      obtain ⟨priced, hall, -⟩ := (estimateAttributableCost_eq_ok plan estimate).mp h
      exact (priced_iff prices usage).mp (exists_forall₂.mp ⟨priced, hall⟩ usage hmem)
    · intro hall
      obtain ⟨priced, hpriced⟩ := exists_forall₂.mpr fun usage hmem =>
        (priced_iff prices usage).mpr (hall usage hmem)
      exact ⟨_, (estimateAttributableCost_eq_ok plan _).mpr ⟨priced, hpriced, rfl⟩⟩
  · intro estimate h
    obtain ⟨priced, hall, rfl⟩ := (estimateAttributableCost_eq_ok plan estimate).mp h
    have hsum : ((priced.map fun entry => (entry.1, usd entry.2)).map Prod.snd).sum =
        usd (priced.map Prod.snd).sum := by
      rw [← sum_usd, List.map_map, List.map_map]
      rfl
    refine ⟨priced.map fun entry => (entry.1, usd entry.2), by simp, ?_, ?_, ?_⟩
    · rw [List.forall₂_map_right_iff]
      exact hall.imp fun _ _ hpriced => hpriced.exact
    · rw [hsum]
      exact ⟨_, centsCeiling_denotes _, centsCeiling_least _⟩
    · intro ceiling hwithin
      rw [hsum]
      unfold estimateWithinCeiling at hwithin
      split at hwithin
      · rename_i limit value hlimit hvalue
        refine ⟨usd limit, scaledUsd_denotes hlimit, ?_⟩
        have hcovered := (centsCeiling_least (priced.map Prod.snd).sum).1
        rw [Set.mem_ofPred_eq, (centsCeiling_denotes _).eq_costTextValue,
          ← (scaledUsd_denotes hvalue).eq_costTextValue] at hcovered
        refine hcovered.trans ?_
        unfold usd
        gcongr
        simpa using hwithin
      · cases hwithin

end RefundStudy.Safety
