/-
  The trial oracle (`trial-oracle/evaluate-trial.ts`, `validity-gates.ts`, `trial-validity.ts`,
  `business-rules.ts`, `oracle-vocabulary.ts`, `preservation-verdict.ts`,
  `oracle-result-assembly.ts`; design 8.3 to 8.8).
-/
import RefundStudy.Oracle.JournalRules
import RefundStudy.Oracle.MonetaryVerdicts
import RefundStudy.Fidelity.ControlIntegrity
import RefundStudy.Fidelity.TreatmentFidelity

set_option autoImplicit false

namespace RefundStudy.Oracle

open Foundation Record Package Ingestion
open Fidelity

/-! ## Validity (`validity-gates.ts`, `trial-validity.ts`) -/

inductive TreatmentAssessment where
  | control
  | commitThenTimeout (conditions : List ConditionResult) (fidelity : FidelityAssessment)

variable (evidence : IngestedEvidence)

def assessTreatment : TreatmentAssessment :=
  match buildTreatmentView evidence with
  | .error _ => .control
  | .ok view =>
    let conditions := evaluateTreatmentConditions view
    .commitThenTimeout conditions (deriveTreatmentFidelity conditions view)

def treatmentGate : TreatmentAssessment → GateAssessment
  | .control => ⟨.treatmentFidelity, .notApplicable, [], []⟩
  | .commitThenTimeout _ fidelity =>
    ⟨.treatmentFidelity, fidelity.treatmentFidelity, fidelity.reasons, fidelity.evidenceRefs⟩

structure NineGates where
  independentOracle : GateAssessment
  traceability : GateAssessment
  identityIntegrity : GateAssessment
  controlIntegrity : GateAssessment
  treatmentFidelity : GateAssessment
  ledgerAccess : GateAssessment
  settlement : GateAssessment
  ruleEvidence : GateAssessment
  evidenceIntegrity : GateAssessment

def NineGates.toList (gates : NineGates) : List GateAssessment :=
  [gates.independentOracle, gates.traceability, gates.identityIntegrity, gates.controlIntegrity,
    gates.treatmentFidelity, gates.ledgerAccess, gates.settlement, gates.ruleEvidence,
    gates.evidenceIntegrity]

def assessValidityGates (treatment : TreatmentAssessment) : NineGates :=
  let settlement := readTrialSettlement evidence
  { independentOracle := assessIndependentOracle evidence settlement
    traceability := assessTraceability evidence
    identityIntegrity := assessIdentityIntegrity evidence
    controlIntegrity := deriveControlIntegrity evidence
    treatmentFidelity := treatmentGate treatment
    ledgerAccess := assessLedgerAccess evidence
    settlement := assessSettlementGate settlement (deriveProcessingTerminalReason evidence)
    ruleEvidence := assessRuleEvidence evidence
    evidenceIntegrity := assessEvidenceIntegrity evidence }

inductive TrialValidity where
  | valid
  | invalid
  | indeterminate
  deriving DecidableEq

def deriveTrialValidity (gates : List GateAssessment) : TrialValidity :=
  let applicable := gates.filter fun gate => decide (gate.value ≠ .notApplicable)
  if applicable.any fun gate => decide (gate.value = .invalid) then .invalid
  else if applicable.any fun gate => decide (gate.value = .unverified) then .indeterminate
  else .valid

theorem deriveTrialValidity_valid {gates : List GateAssessment} :
    deriveTrialValidity gates = .valid ↔
      ∀ gate ∈ gates, gate.value ≠ .notApplicable → gate.value = .verified := by
  unfold deriveTrialValidity
  dsimp only
  constructor
  · intro h gate hmem happlicable
    have hin : gate ∈ gates.filter fun gate => decide (gate.value ≠ .notApplicable) :=
      List.mem_filter.mpr ⟨hmem, decide_eq_true happlicable⟩
    split at h
    · cases h
    · rename_i hinvalid
      split at h
      · cases h
      · rename_i hunverified
        cases hvalue : gate.value with
        | verified => rfl
        | notApplicable => exact absurd hvalue happlicable
        | invalid =>
          exact absurd (List.any_eq_true.mpr ⟨gate, hin, decide_eq_true hvalue⟩) hinvalid
        | unverified =>
          exact absurd (List.any_eq_true.mpr ⟨gate, hin, decide_eq_true hvalue⟩) hunverified
  · intro h
    have hverified : ∀ gate ∈ gates.filter fun gate => decide (gate.value ≠ .notApplicable),
        gate.value = .verified := by
      intro gate hin
      obtain ⟨hmem, happlicable⟩ := List.mem_filter.mp hin
      exact h gate hmem (of_decide_eq_true happlicable)
    have hnone : ∀ value : GateValue, value ≠ .verified →
        ¬ ((gates.filter fun gate => decide (gate.value ≠ .notApplicable)).any fun gate =>
          decide (gate.value = value)) = true := by
      intro value hne hany
      obtain ⟨gate, hin, hvalue⟩ := List.any_eq_true.mp hany
      exact hne ((of_decide_eq_true hvalue).symm.trans (hverified gate hin))
    rw [if_neg (hnone .invalid (by simp)), if_neg (hnone .unverified (by simp))]

/-! ## The rules (`business-rules.ts`) -/

def gateValues (gates : NineGates) (gate : GateId) : Option GateValue :=
  (gates.toList.find? fun found => decide (found.gate = gate)).map GateAssessment.value

structure TenRules where
  oneEffect : RuleResult
  paymentLimit : RuleResult
  logicalIdentity : RuleResult
  unknownOutcome : RuleResult
  independentOracle : RuleResult
  equalTreatment : RuleResult
  traceability : RuleResult
  exactEffect : RuleResult
  identityIntegrity : RuleResult
  scenario : RuleResult

def TenRules.toList (rules : TenRules) : List RuleResult :=
  [rules.oneEffect, rules.paymentLimit, rules.logicalIdentity, rules.unknownOutcome,
    rules.independentOracle, rules.equalTreatment, rules.traceability, rules.exactEffect,
    rules.identityIntegrity, rules.scenario]

structure BusinessRuleResults where
  rules : TenRules
  monetaryObservations : MonetaryObservations

def scenarioGate (gates : NineGates) : GateAssessment :=
  if gates.controlIntegrity.value = .notApplicable then gates.treatmentFidelity
  else gates.controlIntegrity

def evaluateBusinessRules (basis : MonetaryBasis)
    (gates : NineGates) (inputs : BusinessInputs) (attempts : List AttemptFacts) :
    Except String BusinessRuleResults :=
  (evaluateMonetaryRules evidence inputs basis).map fun monetary =>
    { rules :=
        { oneEffect := monetary.oneEffect
          paymentLimit := monetary.paymentLimit
          logicalIdentity :=
            evaluateLogicalIdentity evidence attempts inputs gates.identityIntegrity.value
          unknownOutcome := evaluateUnknownOutcome evidence attempts
          independentOracle := mirrorRule .brRua005 gates.independentOracle
          equalTreatment := equalTreatmentRule
          traceability := mirrorRule .brRua008 gates.traceability
          exactEffect := monetary.exactEffect
          identityIntegrity := mirrorRule .invRua001 gates.identityIntegrity
          scenario := mirrorRule .brRua025 (scenarioGate gates) }
      monetaryObservations := monetary.observations }

/-! ## The verdict (`preservation-verdict.ts`, `oracle-result-assembly.ts`) -/

def verdictBusinessRules : List OracleRuleId :=
  [.brRua001, .brRua002, .brRua003, .brRua004, .brRua009]

def isVerdictBusinessRule (ruleId : OracleRuleId) : Bool := verdictBusinessRules.contains ruleId

def applicableBusinessRules (rules : List RuleResult) : List RuleResult :=
  rules.filter fun rule =>
    isVerdictBusinessRule rule.ruleId && decide (rule.result ≠ .notApplicable)

def derivePreservationVerdict (validity : TrialValidity) (rules : List RuleResult) :
    PreservationVerdict :=
  if validity ≠ .valid then .indeterminate
  else if (applicableBusinessRules rules).any fun rule => decide (rule.result = .fail) then .fail
  else if (applicableBusinessRules rules).any fun rule => decide (rule.result = .indeterminate) then
    .indeterminate
  else .pass

def deriveCorrectCompletion (verdict : PreservationVerdict)
    (terminal : Option ProcessingTerminalReason) : Option Bool :=
  match verdict, terminal with
  | .indeterminate, _ => none
  | .fail, _ => some false
  | .pass, none => none
  | .pass, some reason => some (decide (reason = .succeeded))

structure VerdictOutcome where
  preservationVerdict : PreservationVerdict
  correctCompletion : Option Bool
  processingTerminalReason : Option ProcessingTerminalReason

/-- A conclusive verdict without a terminal reason would be demoted. -/
def verdictOutcome (verdict : PreservationVerdict) (terminal : Option ProcessingTerminalReason) :
    VerdictOutcome :=
  match terminal, deriveCorrectCompletion verdict terminal with
  | some reason, some _ =>
    if verdict = .fail then ⟨.fail, some false, some reason⟩
    else if reason = .succeeded then ⟨.pass, some true, some reason⟩
    else ⟨.pass, some false, some reason⟩
  | _, _ => ⟨.indeterminate, none, terminal⟩

theorem verdictOutcome_verdict {verdict : PreservationVerdict}
    {terminal : Option ProcessingTerminalReason}
    (hterminal : verdict = .indeterminate ∨ terminal.isSome = true) :
    (verdictOutcome verdict terminal).preservationVerdict = verdict := by
  cases terminal with
  | none =>
    obtain rfl : verdict = .indeterminate := by simpa using hterminal
    rfl
  | some reason =>
    cases verdict with
    | indeterminate => rfl
    | fail => rfl
    | pass =>
      simp only [verdictOutcome, deriveCorrectCompletion]
      rw [if_neg (by simp)]
      split <;> rfl

def applicableGateValue : GateValue → GateValue
  | .notApplicable => .unverified
  | value => value

/-- The basis and clock assumption of a treatment are constants. -/
inductive ScenarioAssessment where
  | control (controlIntegrity : GateValue)
  | commitThenTimeout (treatmentFidelity : GateValue) (conditions : List ConditionResult)

def scenarioAssessment (treatment : TreatmentAssessment) (controlIntegrity : GateAssessment) :
    ScenarioAssessment :=
  match treatment with
  | .control => .control (applicableGateValue controlIntegrity.value)
  | .commitThenTimeout conditions fidelity =>
    .commitThenTimeout fidelity.treatmentFidelity conditions

def reasonSortKey (reason : StructuredReason) : String :=
  String.intercalate "\x00" [reason.subject, reason.code, reason.artifactPath.getD "",
    (reason.eventId.map uuidString).getD "", reason.detail]

def indeterminateReasons (gates : List GateAssessment) (rules : List RuleResult) :
    List StructuredReason :=
  let reasons :=
    ((gates.filter fun gate =>
      decide (gate.value = .invalid ∨ gate.value = .unverified)).flatMap GateAssessment.reasons) ++
    ((rules.filter fun rule => decide (rule.result = .indeterminate)).flatMap
      RuleResult.indeterminateReasons)
  let unique : InsertionMap String StructuredReason :=
    reasons.foldl (fun found reason => found.set (reasonSortKey reason) reason) []
  (unique.insertionSort fun first second => codeUnitsLe first.1 second.1).map Prod.snd

def emptySha256 : Sha256Hex := "e3b0c44298fc1c149afbf4c8996fb92427ae41e4649b934ca495991b7852b855"

def ledgerSnapshotRef : String × Sha256Hex :=
  let state := subjectArtifactState evidence .ledgerSnapshot
  match state.ref with
  | none => (state.path, emptySha256)
  | some ref => (ref.artifactPath, ref.artifactSha256)

/-! ## The evaluation (`evaluate-trial.ts`) -/

structure OracleResult where
  execution : ScopedExecution
  executionManifestSha256 : Sha256Hex
  trial : SubjectTrial
  outcome : VerdictOutcome
  trialValidity : TrialValidity
  validityGates : NineGates
  identityIntegrity : GateValue
  scenario : ScenarioAssessment
  ruleResults : TenRules
  indeterminateReasons : List StructuredReason
  ledgerSnapshotRef : String × Sha256Hex
  monetaryObservations : MonetaryObservations
  checkedAt : UtcMillis

/-- How `evaluateTrial` ends without a result: refused, or with the `RangeError` of a sum. -/
inductive EvaluationFailure where
  | refused (reasons : List StructuredReason)
  | rangeError (message : String)

def executionKindText : ExecutionKind → String
  | .run => "RUN"
  | .transportProbe => "TRANSPORT_PROBE"
  | .variantValidation => "VARIANT_VALIDATION"

/-- The refusal of evidence that names no trial execution. -/
def executionUnknown (execution : Option ScopedExecution) : EvaluationFailure :=
  .refused
    [{ code := "TRIAL_EXECUTION_UNKNOWN"
       subject := "CTR-RUA-001"
       detail := "the evidence names execution kind " ++
        (execution.map fun named => executionKindText named.kind).getD "(none)" ++
        "; expected a RUN or VARIANT_VALIDATION execution manifest" }]

def trialUnknown : EvaluationFailure :=
  .refused
    [{ code := "TRIAL_UNKNOWN"
       subject := "CTR-RUA-001"
       detail := "the evidence names no trial (its trial manifest is missing or unusable); " ++
        "expected one trial manifest" }]

/-- `trialExecutionIdentity`: the execution of a trial, or the refusal. -/
def trialScope (scope : EvidenceScope) :
    Except EvaluationFailure (ScopedExecution × Sha256Hex × SubjectTrial) :=
  match scope.execution, scope.executionManifestSha256 with
  | some execution, some manifest =>
    if execution.kind = .transportProbe then .error (executionUnknown scope.execution)
    else
      match scope.trial with
      | none => .error trialUnknown
      | some trial => .ok (execution, manifest, trial)
  | execution, _ => .error (executionUnknown execution)

def trialGates : NineGates :=
  assessValidityGates evidence (assessTreatment evidence)

def trialBasis : MonetaryBasis :=
  deriveMonetaryBasis (gateValues (trialGates evidence))
    (monetaryInputs evidence (businessInputs evidence))

def trialRules : Except String BusinessRuleResults :=
  evaluateBusinessRules evidence (trialBasis evidence) (trialGates evidence)
    (businessInputs evidence) (readAttempts evidence)

def evaluateTrial (checkedAt : UtcMillis) : Except EvaluationFailure OracleResult :=
  (trialScope evidence.scope).bind fun scope =>
    match trialRules evidence with
    | .error message => .error (.rangeError message)
    | .ok business =>
      let gates := trialGates evidence
      let validity := deriveTrialValidity gates.toList
      let verdict := derivePreservationVerdict validity business.rules.toList
      .ok
        { execution := scope.1
          executionManifestSha256 := scope.2.1
          trial := scope.2.2
          outcome := verdictOutcome verdict (deriveProcessingTerminalReason evidence).reason
          trialValidity := validity
          validityGates := gates
          identityIntegrity := applicableGateValue gates.identityIntegrity.value
          scenario := scenarioAssessment (assessTreatment evidence) gates.controlIntegrity
          ruleResults := business.rules
          indeterminateReasons := indeterminateReasons gates.toList business.rules.toList
          ledgerSnapshotRef := ledgerSnapshotRef evidence
          monetaryObservations := business.monetaryObservations
          checkedAt := checkedAt }

end RefundStudy.Oracle
