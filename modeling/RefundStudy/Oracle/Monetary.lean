/-
  The monetary rules of the trial oracle (`trial-oracle/monetary-basis.ts`,
  `monetary-rules.ts`, `oracle-inputs.ts`, `record-contract/decimal.ts`; design 8.5, D-15).
-/
import RefundStudy.Fidelity.View
import RefundStudy.Foundation.Digits

set_option autoImplicit false

namespace RefundStudy.Oracle

open Foundation Record Package Ingestion
open Fidelity (subjectArtifactState expectedPath)

/-! ## Decimal strings (`decimal.ts`) -/

abbrev DecimalString : Type := String

/-- `toString()` of a nonnegative integer. -/
def decimalText (value : Nat) : DecimalString := Nat.repr value

/-- Digits, without a leading zero. -/
def isDecimalString (text : String) : Bool :=
  match text.toList with
  | [] => false
  | first :: rest =>
    first.isDigit && rest.all Char.isDigit && (decide (first ≠ '0') || rest.isEmpty)

/-- The loop of `sumMinorUnits`. -/
def addMinorUnits (total : Nat) : List Nat → Except String Nat
  | [] => .ok total
  | amount :: rest =>
    if amount ≤ maxSafeInteger then addMinorUnits (total + amount) rest
    else
      .error ("amount " ++ toString amount ++
        " is not a nonnegative safe integer; expected 0..9007199254740991")

def sumMinorUnits (amounts : List Nat) : Except String DecimalString :=
  (addMinorUnits 0 amounts).map decimalText

def toBigInt (text : DecimalString) : Except String Nat :=
  if isDecimalString text then .ok (Nat.ofDigitChars 10 text.toList 0)
  else .error (boundedJsonText text ++ " is not a decimal string; expected ^(0|[1-9][0-9]*)$")

def compareDecimal (a b : DecimalString) : Except String Ordering :=
  (toBigInt a).bind fun left => (toBigInt b).map fun right => compare left right

theorem addMinorUnits_safe {amounts : List Nat} (h : ∀ amount ∈ amounts, amount ≤ maxSafeInteger)
    (total : Nat) : addMinorUnits total amounts = .ok (total + amounts.sum) := by
  induction amounts generalizing total with
  | nil => rfl
  | cons amount rest ih =>
    rw [addMinorUnits, if_pos (h amount (by simp)), ih (fun other hother => h other (by simp [hother])),
      List.sum_cons, Nat.add_assoc]

theorem addMinorUnits_eq_ok {amounts : List Nat} {total sum : Nat}
    (h : addMinorUnits total amounts = .ok sum) : sum = total + amounts.sum := by
  induction amounts generalizing total with
  | nil => exact (Except.ok.inj h).symm
  | cons amount rest ih =>
    rw [addMinorUnits] at h
    split at h
    · rw [ih h, List.sum_cons, Nat.add_assoc]
    · cases h

theorem sumMinorUnits_safe {amounts : List Nat} (h : ∀ amount ∈ amounts, amount ≤ maxSafeInteger) :
    sumMinorUnits amounts = .ok (decimalText amounts.sum) := by
  rw [sumMinorUnits, addMinorUnits_safe h, Nat.zero_add]
  rfl

theorem sumMinorUnits_eq_ok {amounts : List Nat} {text : DecimalString}
    (h : sumMinorUnits amounts = .ok text) : text = decimalText amounts.sum := by
  rw [sumMinorUnits] at h
  cases hsum : addMinorUnits 0 amounts with
  | error message =>
    rw [hsum] at h
    cases h
  | ok sum =>
    rw [hsum] at h
    rw [← Except.ok.inj h, addMinorUnits_eq_ok hsum, Nat.zero_add]

theorem isDecimalString_decimalText (value : Nat) : isDecimalString (decimalText value) = true := by
  have hdigits := Foundation.toDigits_isDigit value
  rw [isDecimalString, decimalText, Nat.toList_repr]
  cases hvalue : Nat.toDigits 10 value with
  | nil => exact absurd hvalue Nat.toDigits_ne_nil
  | cons first rest =>
    rw [hvalue] at hdigits
    have hfirst := hdigits first (by simp)
    have hrest : rest.all Char.isDigit = true :=
      List.all_eq_true.mpr fun c hc => hdigits c (by simp [hc])
    have hzero : (decide (first ≠ '0') || rest.isEmpty) = true := by
      by_cases hpos : 0 < value
      · obtain ⟨_, _, hsame, hhead⟩ := Foundation.toDigits_head_ne_zero hpos
        rw [hvalue] at hsame
        simp [(List.cons.inj hsame).1, hhead]
      · have hnil : value = 0 := by omega
        rw [hnil, Nat.toDigits_of_lt_base (by omega)] at hvalue
        cases hvalue
        rfl
    simp only [hfirst, hrest, hzero, Bool.and_self]

theorem toBigInt_decimalText (value : Nat) : toBigInt (decimalText value) = .ok value := by
  rw [toBigInt, if_pos (isDecimalString_decimalText value), decimalText, Nat.toList_repr,
    Nat.ofDigitChars_ten_toDigits]

theorem compareDecimal_decimalText (left right : Nat) :
    compareDecimal (decimalText left) (decimalText right) = .ok (compare left right) := by
  rw [compareDecimal, toBigInt_decimalText, toBigInt_decimalText]
  rfl

/-! ## The business inputs (`oracle-inputs.ts`) -/

structure BusinessInputState (α : Type) where
  artifactClass : Ingestion.ArtifactClass
  path : String
  ref : Option EvidenceRef
  record : Option α

structure BusinessInputs where
  payment : BusinessInputState Payment
  decision : BusinessInputState ApprovedDecision

def inputState {α : Type} (evidence : IngestedEvidence) (artifactClass : Ingestion.ArtifactClass)
    (record : Option α) : BusinessInputState α where
  artifactClass := artifactClass
  path := ((subjectArtifact evidence.artifacts artifactClass).map IngestedArtifact.path).getD
    (expectedPath evidence artifactClass)
  ref := (subjectArtifact evidence.artifacts artifactClass).map artifactRef
  record := record

variable (evidence : IngestedEvidence)

def businessInputs : BusinessInputs where
  payment := inputState evidence .payment (evidence.observations.payment.map LocatedRecord.record)
  decision := inputState evidence .approvedDecision
    (evidence.observations.approvedDecision.map LocatedRecord.record)

/-! ## The basis (`monetary-basis.ts`) -/

structure MonetaryInput where
  given : Bool
  present : Bool
  path : String

structure MonetaryInputs where
  ledger : MonetaryInput
  payment : MonetaryInput
  decision : MonetaryInput

inductive MonetaryBasis where
  | conclusive
  | inconclusive (reasons : List StructuredReason)
  deriving DecidableEq

def gateReasons : List (GateId × String × String) :=
  [(.independentOracle, "LEDGER_NOT_INDEPENDENT",
      "the ledger snapshot is not proven independent (G1)"),
    (.ledgerAccess, "LEDGER_INCOMPLETE", "the ledger snapshot is not proven complete (G5)"),
    (.settlement, "SETTLEMENT_NOT_ESTABLISHED", "settlement is not established (G6)")]

def gateValueText : GateValue → String
  | .verified => "verified"
  | .unverified => "unverified"
  | .invalid => "invalid"
  | .notApplicable => "not_applicable"

/-- `SUBJECT` of the monetary basis. -/
def monetarySubject : String := "BR-RUA-005"

def ledgerCode (ledger : MonetaryInput) : String :=
  if ledger.given then "ARTIFACT_INCOMPLETE" else "ARTIFACT_MISSING"

def missingReason (code path input : String) : StructuredReason where
  code := code
  subject := monetarySubject
  artifactPath := some path
  detail := path ++ " gives no usable " ++ input ++ "; expected it for the monetary rules"

def missingInput (input : MonetaryInput) (code name : String) : List StructuredReason :=
  if input.present then [] else [missingReason code input.path name]

/-- The reasons of `deriveMonetaryBasis`: the gates that are not verified, then what is missing. -/
def basisReasons (gates : GateId → Option GateValue) (inputs : MonetaryInputs) :
    List StructuredReason :=
  (if inputs.ledger.present then
    (gateReasons.filter fun gate => decide (gates gate.1 ≠ some .verified)).map fun gate =>
      { code := gate.2.1
        subject := monetarySubject
        artifactPath := some inputs.ledger.path
        detail := gate.2.2 ++ ": the gate is " ++
          ((gates gate.1).map gateValueText).getD "absent" ++ "; expected verified" }
  else []) ++
    (missingInput inputs.ledger (ledgerCode inputs.ledger) "ledger snapshot" ++
      missingInput inputs.payment "INPUT_MISSING" "payment" ++
      missingInput inputs.decision "INPUT_MISSING" "approved decision")

def deriveMonetaryBasis (gates : GateId → Option GateValue) (inputs : MonetaryInputs) :
    MonetaryBasis :=
  match basisReasons gates inputs with
  | [] => .conclusive
  | reasons => .inconclusive reasons

/-- `monetaryInputs` of `evaluate-trial.ts`. -/
def monetaryInputs (inputs : BusinessInputs) : MonetaryInputs where
  ledger :=
    { given := (subjectArtifactState evidence .ledgerSnapshot).ref.isSome
      present := evidence.ledger.snapshot.isSome
      path := (subjectArtifactState evidence .ledgerSnapshot).path }
  payment := ⟨inputs.payment.ref.isSome, inputs.payment.record.isSome, inputs.payment.path⟩
  decision := ⟨inputs.decision.ref.isSome, inputs.decision.record.isSome, inputs.decision.path⟩

theorem missingInput_eq_nil {input : MonetaryInput} {code name : String} :
    missingInput input code name = [] ↔ input.present = true := by
  unfold missingInput
  split <;> simp [*]

theorem deriveMonetaryBasis_conclusive {gates : GateId → Option GateValue}
    {inputs : MonetaryInputs} :
    deriveMonetaryBasis gates inputs = .conclusive ↔
      (inputs.ledger.present = true ∧ inputs.payment.present = true ∧
        inputs.decision.present = true) ∧
      gates .independentOracle = some .verified ∧ gates .ledgerAccess = some .verified ∧
      gates .settlement = some .verified := by
  have hreasons : deriveMonetaryBasis gates inputs = .conclusive ↔ basisReasons gates inputs = [] := by
    unfold deriveMonetaryBasis
    split
    · rename_i hnil
      simp [hnil]
    · rename_i hne
      exact ⟨fun h => (by cases h), fun h => absurd h hne⟩
  rw [hreasons, basisReasons, List.append_eq_nil_iff, List.append_eq_nil_iff,
    List.append_eq_nil_iff, missingInput_eq_nil, missingInput_eq_nil, missingInput_eq_nil]
  constructor
  · intro h
    obtain ⟨hgates, ⟨hledger, hpayment⟩, hdecision⟩ := h
    rw [if_pos hledger, List.map_eq_nil_iff, List.filter_eq_nil_iff] at hgates
    simp only [gateReasons, List.forall_mem_cons, decide_eq_true_eq, not_not] at hgates
    exact ⟨⟨hledger, hpayment, hdecision⟩, hgates.1, hgates.2.1, hgates.2.2.1⟩
  · intro h
    obtain ⟨⟨hledger, hpayment, hdecision⟩, horacle, haccess, hsettlement⟩ := h
    refine ⟨?_, ⟨hledger, hpayment⟩, hdecision⟩
    rw [if_pos hledger, List.map_eq_nil_iff, List.filter_eq_nil_iff]
    simp [gateReasons, horacle, haccess, hsettlement]

/-! ## The rules (`monetary-rules.ts`) -/

/-- `ORACLE_RULE_IDS`. -/
inductive OracleRuleId where
  | brRua001
  | brRua002
  | brRua003
  | brRua004
  | brRua005
  | brRua007
  | brRua008
  | brRua009
  | invRua001
  | brRua025
  deriving DecidableEq

def OracleRuleId.text : OracleRuleId → String
  | .brRua001 => "BR-RUA-001"
  | .brRua002 => "BR-RUA-002"
  | .brRua003 => "BR-RUA-003"
  | .brRua004 => "BR-RUA-004"
  | .brRua005 => "BR-RUA-005"
  | .brRua007 => "BR-RUA-007"
  | .brRua008 => "BR-RUA-008"
  | .brRua009 => "BR-RUA-009"
  | .invRua001 => "INV-RUA-001"
  | .brRua025 => "BR-RUA-025"

inductive RuleOutcome where
  | pass
  | fail
  | indeterminate
  | notApplicable
  deriving DecidableEq

/-- The JSON of the members `expected` and `observed` of a rule result. -/
inductive RuleJson where
  | null
  | number (value : Nat)
  | text (value : String)
  | list (items : List RuleJson)
  | record (members : List (String × RuleJson))

def textOrNull (value : Option String) : RuleJson := (value.map RuleJson.text).getD .null

def numberOrNull (value : Option Nat) : RuleJson := (value.map RuleJson.number).getD .null

structure RuleResult where
  ruleId : OracleRuleId
  result : RuleOutcome
  expected : RuleJson
  observed : RuleJson
  evidenceRefs : List EvidenceRef
  indeterminateReasons : List StructuredReason

/-- A verdict is conclusive only on a conclusive basis. -/
def ruleResult (ruleId : OracleRuleId) (basis : MonetaryBasis) (holds : Bool)
    (expected observed : RuleJson) (refs : List EvidenceRef) : RuleResult :=
  match basis with
  | .inconclusive reasons =>
    { ruleId := ruleId
      result := .indeterminate
      expected := expected
      observed := observed
      evidenceRefs := canonicalRefs refs
      indeterminateReasons := reasons.map fun reason => { reason with subject := ruleId.text } }
  | .conclusive =>
    { ruleId := ruleId
      result := if holds then .pass else .fail
      expected := expected
      observed := observed
      evidenceRefs := canonicalRefs refs
      indeterminateReasons := [] }

structure CitedTransaction where
  transaction : LedgerTransaction
  ref : EvidenceRef

def citedTransactions (transactions : List LedgerTransaction) (ledgerRef : Option EvidenceRef) :
    List CitedTransaction :=
  match ledgerRef with
  | none => []
  | some ref =>
    transactions.zipIdx.map fun entry =>
      ⟨entry.1, { ref with jsonPointer := some ("/transactions/" ++ toString entry.2) }⟩

/-- Its status is `SUCCEEDED`. -/
structure AuthorizedEffect where
  refundRequestId : Option String
  paymentId : Option String
  amountMinor : Option Nat
  currency : Option String

def authorizedEffect (inputs : BusinessInputs) : AuthorizedEffect where
  refundRequestId := inputs.decision.record.map ApprovedDecision.refundRequestId
  paymentId := inputs.payment.record.map Payment.paymentId
  amountMinor := inputs.decision.record.map ApprovedDecision.approvedAmountMinor
  currency := inputs.decision.record.map ApprovedDecision.currency

inductive TupleField where
  | refundRequestId
  | paymentId
  | amountMinor
  | currency
  | status

def TupleField.text : TupleField → String
  | .refundRequestId => "refund_request_id"
  | .paymentId => "payment_id"
  | .amountMinor => "amount_minor"
  | .currency => "currency"
  | .status => "status"

/-- A known value that the transaction does not have; the ledger holds `SUCCEEDED` only. -/
def mismatches (transaction : LedgerTransaction) (effect : AuthorizedEffect) : TupleField → Bool
  | .refundRequestId => effect.refundRequestId.any (decide <| transaction.refundRequestId ≠ ·)
  | .paymentId => effect.paymentId.any (decide <| transaction.paymentId ≠ ·)
  | .amountMinor => effect.amountMinor.any (decide <| transaction.amountMinor ≠ ·)
  | .currency => effect.currency.any (decide <| transaction.currency ≠ ·)
  | .status => false

def mismatchesOf (transaction : LedgerTransaction) (effect : AuthorizedEffect) : List TupleField :=
  [TupleField.refundRequestId, .paymentId, .amountMinor, .currency, .status].filter
    (mismatches transaction effect)

def transactionObservation (transaction : LedgerTransaction) (fields : List TupleField) : RuleJson :=
  .record
    [("provider_transaction_id", .text (uuidString transaction.providerTransactionId)),
      ("refund_request_id", .text transaction.refundRequestId),
      ("payment_id", .text transaction.paymentId),
      ("amount_minor", .number transaction.amountMinor),
      ("currency", .text transaction.currency), ("status", .text "SUCCEEDED"),
      ("mismatches", .list (fields.map fun field => .text field.text))]

structure MonetaryObservations where
  successfulTransactionCount : Nat
  refundedTotalMinor : DecimalString
  providerTransactionIds : List Uuid4
  ledgerComplete : Bool

def monetaryObservations : Except String MonetaryObservations :=
  (sumMinorUnits (evidence.ledger.transactions.map LedgerTransaction.amountMinor)).map fun total =>
    { successfulTransactionCount := evidence.ledger.transactions.length
      refundedTotalMinor := total
      providerTransactionIds :=
        evidence.ledger.transactions.map LedgerTransaction.providerTransactionId
      ledgerComplete := evidence.ledger.paginationComplete }

structure MonetaryRuleResults where
  oneEffect : RuleResult
  paymentLimit : RuleResult
  exactEffect : RuleResult
  observations : MonetaryObservations

def snapshotTransactions : List LedgerTransaction :=
  (evidence.ledger.snapshot.map fun located => located.record.transactions).getD []

variable (cited : List CitedTransaction)

variable (effect : AuthorizedEffect)

/-- BR-RUA-001: one transaction of the request. -/
def oneEffectRule (basis : MonetaryBasis) (sourceRefs : List EvidenceRef) : RuleResult :=
  let forRequest := cited.filter fun entry =>
    decide (some entry.transaction.refundRequestId = effect.refundRequestId)
  ruleResult .brRua001 basis (decide (forRequest.length = 1))
    (.record [("count", .number 1), ("refund_request_id", textOrNull effect.refundRequestId)])
    (.record
      [("count", if effect.refundRequestId.isNone then .null else .number forRequest.length),
        ("provider_transaction_ids", .list (forRequest.map fun entry =>
          .text (uuidString entry.transaction.providerTransactionId)))])
    (sourceRefs ++ forRequest.map CitedTransaction.ref)

def transactionsForPayment : List CitedTransaction :=
  cited.filter fun entry =>
    effect.paymentId.isNone || decide (some entry.transaction.paymentId = effect.paymentId)

/-- The sum is at most the captured amount. -/
def withinCap (paid : DecimalString) (cap : Option Nat) : Except String Bool :=
  match cap with
  | none => .ok false
  | some captured => (compareDecimal paid (decimalText captured)).map fun order =>
    decide (order ≠ .gt)

/-- BR-RUA-002: the transactions of the payment sum to at most the captured amount. -/
def paymentLimitRule (cap : Option Nat)
    (basis : MonetaryBasis) (sourceRefs : List EvidenceRef) : Except String RuleResult :=
  let forPayment := transactionsForPayment cited effect
  (sumMinorUnits (forPayment.map fun entry => entry.transaction.amountMinor)).bind fun paid =>
    (withinCap paid cap).map fun within =>
      ruleResult .brRua002 basis within
        (.record [("max_total_minor", numberOrNull cap), ("payment_id", textOrNull effect.paymentId)])
        (.record [("total_minor", .text paid), ("transaction_count", .number forPayment.length)])
        (sourceRefs ++ forPayment.map CitedTransaction.ref)

/-- BR-RUA-009: the ledger holds one transaction, and it is the authorized one. -/
def exactEffectRule (basis : MonetaryBasis) (sourceRefs : List EvidenceRef) : RuleResult :=
  ruleResult .brRua009 basis
    (decide (cited.length = 1) && cited.all fun entry =>
      (mismatchesOf entry.transaction effect).isEmpty)
    (.list [.record
      [("refund_request_id", textOrNull effect.refundRequestId),
        ("payment_id", textOrNull effect.paymentId),
        ("amount_minor", numberOrNull effect.amountMinor),
        ("currency", textOrNull effect.currency), ("status", .text "SUCCEEDED")]])
    (.record [("transactions", .list (cited.map fun entry =>
      transactionObservation entry.transaction (mismatchesOf entry.transaction effect)))])
    (sourceRefs ++ cited.map CitedTransaction.ref)

/-- An error is a `RangeError`. -/
def evaluateMonetaryRules (inputs : BusinessInputs)
    (basis : MonetaryBasis) : Except String MonetaryRuleResults :=
  let ledgerRef := (subjectArtifactState evidence .ledgerSnapshot).ref
  let cited := citedTransactions (snapshotTransactions evidence) ledgerRef
  let sourceRefs := [ledgerRef, inputs.decision.ref, inputs.payment.ref].filterMap id
  let effect := authorizedEffect inputs
  let cap := inputs.payment.record.map Payment.capturedAmountMinor
  (paymentLimitRule cited effect cap basis sourceRefs).bind fun paymentLimit =>
    (monetaryObservations evidence).map fun observations =>
      { oneEffect := oneEffectRule cited effect basis sourceRefs
        paymentLimit := paymentLimit
        exactEffect := exactEffectRule cited effect basis sourceRefs
        observations := observations }

end RefundStudy.Oracle
