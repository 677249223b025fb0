/-
  What the preservation verdict of a trial says.
-/
import RefundStudy.Foundation.Program
import RefundStudy.Oracle.TrialEvaluation

set_option autoImplicit false

namespace RefundStudy.Oracle

open Foundation Record Package Ingestion
open Fidelity Settlement

/-! ## The gates of a trial -/

structure NineGates.Named (gates : NineGates) : Prop where
  independentOracle : gates.independentOracle.gate = .independentOracle
  traceability : gates.traceability.gate = .traceability
  identityIntegrity : gates.identityIntegrity.gate = .identityIntegrity
  controlIntegrity : gates.controlIntegrity.gate = .controlIntegrity
  treatmentFidelity : gates.treatmentFidelity.gate = .treatmentFidelity
  ledgerAccess : gates.ledgerAccess.gate = .ledgerAccess
  settlement : gates.settlement.gate = .settlement

variable (evidence : IngestedEvidence)

theorem trialGates_named : (trialGates evidence).Named where
  independentOracle := by
    simp only [trialGates, assessValidityGates, assessIndependentOracle]
    split <;> exact assembleGate_gate _ _ _
  traceability := assembleGate_gate _ _ _
  identityIntegrity := assembleGate_gate _ _ _
  controlIntegrity := by
    simp only [trialGates, assessValidityGates, deriveControlIntegrity]
    split
    · rfl
    · exact assembleGate_gate _ _ _
  treatmentFidelity := by
    simp only [trialGates, assessValidityGates]
    cases assessTreatment evidence <;> rfl
  ledgerAccess := by
    simp only [trialGates, assessValidityGates, assessLedgerAccess]
    split <;> exact assembleGate_gate _ _ _
  settlement := by
    simp only [trialGates, assessValidityGates, assessSettlementGate]
    split <;> exact assembleGate_gate _ _ _

theorem NineGates.Named.basisValues {gates : NineGates} (h : gates.Named) :
    gateValues gates .independentOracle = some gates.independentOracle.value ∧
      gateValues gates .ledgerAccess = some gates.ledgerAccess.value ∧
      gateValues gates .settlement = some gates.settlement.value := by
  simp [gateValues, NineGates.toList, h.independentOracle, h.traceability,
    h.identityIntegrity, h.controlIntegrity, h.treatmentFidelity, h.ledgerAccess, h.settlement]

theorem trialGates_applicable : (trialGates evidence).independentOracle.value ≠ .notApplicable ∧
      (trialGates evidence).ledgerAccess.value ≠ .notApplicable ∧
      (trialGates evidence).settlement.value ≠ .notApplicable ∧
      (trialGates evidence).ruleEvidence.value ≠ .notApplicable := by
  refine ⟨?_, ?_, ?_, assembleGate_applicable _ _ _⟩
  · simp only [trialGates, assessValidityGates, assessIndependentOracle]
    split <;> exact assembleGate_applicable _ _ _
  · simp only [trialGates, assessValidityGates, assessLedgerAccess]
    split <;> exact assembleGate_applicable _ _ _
  · simp only [trialGates, assessValidityGates, assessSettlementGate]
    split <;> exact assembleGate_applicable _ _ _

theorem valid_guarantees {evidence : IngestedEvidence}
    (hvalid : deriveTrialValidity (trialGates evidence).toList = .valid) :
    trialBasis evidence = .conclusive ∧
      (deriveProcessingTerminalReason evidence).reason.isSome = true := by
  have hverified := deriveTrialValidity_valid.mp hvalid
  obtain ⟨horacle, haccess, hsettlement, hevidence⟩ := trialGates_applicable evidence
  have horacle := hverified _ (by simp [NineGates.toList]) horacle
  have haccess := hverified _ (by simp [NineGates.toList]) haccess
  have hsettlement := hverified _ (by simp [NineGates.toList]) hsettlement
  have hevidence := hverified _ (by simp [NineGates.toList]) hevidence
  obtain ⟨-, hledger, hpayment, hdecision⟩ := inputs_of_ruleEvidence hevidence
  obtain ⟨hreadsOracle, hreadsAccess, hreadsSettlement⟩ := (trialGates_named evidence).basisValues
  refine ⟨?_, terminal_of_settlement hsettlement⟩
  refine deriveMonetaryBasis_conclusive.mpr ⟨⟨hledger, hpayment, hdecision⟩, ?_, ?_, ?_⟩
  · rw [hreadsOracle, horacle]
  · rw [hreadsAccess, haccess]
  · rw [hreadsSettlement, hsettlement]

/-! ## The verdict -/

theorem valid_of_conclusive {validity : TrialValidity} {rules : List RuleResult}
    (h : derivePreservationVerdict validity rules ≠ .indeterminate) : validity = .valid := by
  by_contra hnot
  rw [derivePreservationVerdict, if_pos hnot] at h
  exact h rfl

/-- A business rule holds: it passes or does not apply. -/
def RuleResult.Holds (rule : RuleResult) : Prop :=
  rule.result = .pass ∨ rule.result = .notApplicable

theorem derivePreservationVerdict_fail {validity : TrialValidity} {rules : List RuleResult} :
    derivePreservationVerdict validity rules = .fail ↔
      validity = .valid ∧
        ∃ rule ∈ rules, isVerdictBusinessRule rule.ruleId = true ∧ rule.result = .fail := by
  have hfails : (applicableBusinessRules rules).any (fun rule => decide (rule.result = .fail)) =
      true ↔ ∃ rule ∈ rules, isVerdictBusinessRule rule.ruleId = true ∧ rule.result = .fail := by
    rw [List.any_eq_true]
    constructor
    · intro h
      obtain ⟨rule, hmem, hfail⟩ := h
      obtain ⟨hmem, hbusiness⟩ := List.mem_filter.mp hmem
      exact ⟨rule, hmem, (Bool.and_eq_true_iff.mp hbusiness).1, of_decide_eq_true hfail⟩
    · intro h
      obtain ⟨rule, hmem, hbusiness, hfail⟩ := h
      refine ⟨rule, List.mem_filter.mpr ⟨hmem, ?_⟩, decide_eq_true hfail⟩
      rw [hbusiness, hfail]
      rfl
  constructor
  · intro h
    have hvalid : validity = .valid := @valid_of_conclusive validity rules (by simp [h])
    refine ⟨hvalid, ?_⟩
    rw [derivePreservationVerdict, if_neg (not_not.mpr hvalid)] at h
    split at h
    · rename_i hany
      exact hfails.mp hany
    · split at h <;> cases h
  · intro h
    rw [derivePreservationVerdict, if_neg (not_not.mpr h.1), if_pos (hfails.mpr h.2)]

theorem derivePreservationVerdict_pass {validity : TrialValidity} {rules : List RuleResult} :
    derivePreservationVerdict validity rules = .pass ↔
      validity = .valid ∧
        ∀ rule ∈ rules, isVerdictBusinessRule rule.ruleId = true → rule.Holds := by
  constructor
  · intro h
    have hvalid : validity = .valid := @valid_of_conclusive validity rules (by simp [h])
    refine ⟨hvalid, ?_⟩
    intro rule hmem hbusiness
    rw [derivePreservationVerdict, if_neg (not_not.mpr hvalid)] at h
    split at h
    · cases h
    · rename_i hfail
      split at h
      · cases h
      · rename_i hindeterminate
        have hin : rule.result ≠ .notApplicable → rule ∈ applicableBusinessRules rules :=
          fun hne => List.mem_filter.mpr ⟨hmem, by simp [hbusiness, hne]⟩
        cases hresult : rule.result with
        | pass => exact .inl hresult
        | notApplicable => exact .inr hresult
        | fail =>
          exact absurd (List.any_eq_true.mpr
            ⟨rule, hin (by simp [hresult]), decide_eq_true hresult⟩) hfail
        | indeterminate =>
          exact absurd (List.any_eq_true.mpr
            ⟨rule, hin (by simp [hresult]), decide_eq_true hresult⟩) hindeterminate
  · intro h
    obtain ⟨hvalid, hholds⟩ := h
    have hnone : ∀ outcome : RuleOutcome, outcome ≠ .pass → outcome ≠ .notApplicable →
        ¬ ((applicableBusinessRules rules).any fun rule => decide (rule.result = outcome)) =
          true := by
      intro outcome hpass hnot hany
      obtain ⟨rule, hin, hresult⟩ := List.any_eq_true.mp hany
      obtain ⟨hmem, hbusiness⟩ := List.mem_filter.mp hin
      have hresult := of_decide_eq_true hresult
      rcases hholds rule hmem (Bool.and_eq_true_iff.mp hbusiness).1 with h | h
      · exact hpass (hresult.symm.trans h)
      · exact hnot (hresult.symm.trans h)
    rw [derivePreservationVerdict, if_neg (not_not.mpr hvalid),
      if_neg (hnone .fail (by simp) (by simp)), if_neg (hnone .indeterminate (by simp) (by simp))]

/-! ## The rules of a trial -/

theorem exists_of_map_eq_ok {ε α β : Type} {f : α → β} {first : Except ε α} {value : β}
    (h : first.map f = .ok value) : ∃ middle, first = .ok middle ∧ f middle = value := by
  cases first with
  | error e => cases h
  | ok middle => exact ⟨middle, rfl, Except.ok.inj h⟩

theorem monetaryRules_ids {evidence : IngestedEvidence} {inputs : BusinessInputs}
    {basis : MonetaryBasis} {results : MonetaryRuleResults}
    (h : evaluateMonetaryRules evidence inputs basis = .ok results) :
    results.oneEffect.ruleId = .brRua001 ∧ results.paymentLimit.ruleId = .brRua002 ∧
      results.exactEffect.ruleId = .brRua009 := by
  have hid : ∀ ruleId holds expected observed refs,
      (ruleResult ruleId basis holds expected observed refs).ruleId = ruleId := by
    intro ruleId holds expected observed refs
    cases basis <;> rfl
  unfold evaluateMonetaryRules at h
  dsimp only at h
  obtain ⟨limit, hlimit, h⟩ := exists_of_bind_eq_ok h
  obtain ⟨observations, -, rfl⟩ := exists_of_map_eq_ok h
  refine ⟨hid _ _ _ _ _, ?_, hid _ _ _ _ _⟩
  unfold paymentLimitRule at hlimit
  dsimp only at hlimit
  obtain ⟨paid, -, hlimit⟩ := exists_of_bind_eq_ok hlimit
  obtain ⟨within, -, rfl⟩ := exists_of_map_eq_ok hlimit
  exact hid _ _ _ _ _

theorem evaluateLogicalIdentity_id (attempts : List AttemptFacts)
    (inputs : BusinessInputs) (identityIntegrity : GateValue) :
    (evaluateLogicalIdentity evidence attempts inputs identityIntegrity).ruleId = .brRua003 := by
  unfold evaluateLogicalIdentity
  dsimp only
  split
  · rfl
  · split
    · rfl
    · split
      · rfl
      · split
        · rfl
        · split <;> rfl

theorem evaluateUnknownOutcome_id (attempts : List AttemptFacts) :
    (evaluateUnknownOutcome evidence attempts).ruleId = .brRua004 := by
  unfold evaluateUnknownOutcome
  dsimp only
  split
  · rfl
  · split
    · rfl
    · split
      · rfl
      · split <;> rfl

/-- The rules of a trial: the monetary ones are the evaluated ones, and of the ten only five decide
the verdict. -/
theorem trialRules_business {evidence : IngestedEvidence} {business : BusinessRuleResults}
    (h : trialRules evidence = .ok business) :
    ∃ monetary, evaluateMonetaryRules evidence (businessInputs evidence) (trialBasis evidence) =
        .ok monetary ∧
      business.rules.oneEffect = monetary.oneEffect ∧
      business.rules.paymentLimit = monetary.paymentLimit ∧
      business.rules.exactEffect = monetary.exactEffect ∧
      business.monetaryObservations = monetary.observations ∧
      ∀ P : RuleResult → Prop,
        (∀ rule ∈ business.rules.toList, isVerdictBusinessRule rule.ruleId = true → P rule) ↔
          P business.rules.oneEffect ∧ P business.rules.paymentLimit ∧
            P business.rules.logicalIdentity ∧ P business.rules.unknownOutcome ∧
            P business.rules.exactEffect := by
  obtain ⟨monetary, hmonetary, rfl⟩ := exists_of_map_eq_ok h
  obtain ⟨hone, hlimit, hexact⟩ := monetaryRules_ids hmonetary
  refine ⟨monetary, hmonetary, rfl, rfl, rfl, rfl, ?_⟩
  intro P
  simp only [TenRules.toList, List.forall_mem_cons, List.not_mem_nil, false_implies,
    implies_true, and_true, hone, hlimit, hexact, evaluateLogicalIdentity_id,
    evaluateUnknownOutcome_id, mirrorRule, equalTreatmentRule]
  simp [isVerdictBusinessRule, verdictBusinessRules]

/-- The ledger holds one transaction, the authorized refund, and what it pays of the payment is
within the captured amount. -/
def OneExactRefund : Prop :=
  ∃ payment decision transaction,
    (businessInputs evidence).payment.record = some payment ∧
    (businessInputs evidence).decision.record = some decision ∧
    evidence.ledger.transactions = [transaction] ∧
    IsAuthorized transaction payment decision ∧
    totalForPayment evidence.ledger.transactions payment.paymentId ≤ payment.capturedAmountMinor

theorem monetary_hold_iff {validator : RecordValidator} {input : IngestionInput}
    {monetary : MonetaryRuleResults}
    (hbasis : trialBasis (ingestEvidence validator input) = .conclusive)
    (hmonetary : evaluateMonetaryRules (ingestEvidence validator input)
      (businessInputs (ingestEvidence validator input)) .conclusive = .ok monetary) :
    (monetary.oneEffect.Holds ∧ monetary.paymentLimit.Holds ∧ monetary.exactEffect.Holds) ↔
      OneExactRefund (ingestEvidence validator input) := by
  obtain ⟨payment, decision, hinputs⟩ := conclusiveInputs_of_basis hbasis
  have hverdicts := verdicts_of_rules hinputs hmonetary
  rw [← hinputs.ledger] at hverdicts
  -- on a conclusive basis a rule passes or fails
  have hpass : ∀ rule : RuleResult, rule.result ≠ .notApplicable →
      (rule.Holds ↔ rule.result = .pass) := by
    intro rule hne
    exact ⟨fun h => h.resolve_right hne, .inl⟩
  have hone : monetary.oneEffect.result ≠ .notApplicable := by
    rw [hverdicts.oneEffect]
    split <;> simp
  have hlimit : monetary.paymentLimit.result ≠ .notApplicable := by
    rw [hverdicts.paymentLimit]
    split <;> simp
  have hexact : monetary.exactEffect.result ≠ .notApplicable := by
    rcases hverdicts.exactConclusive with h | h <;> simp [h]
  rw [hpass _ hone, hpass _ hlimit, hpass _ hexact]
  constructor
  · intro h
    obtain ⟨-, hpaid, heffect⟩ := h
    obtain ⟨transaction, hledger, hauthorized⟩ := hverdicts.exactEffect.mp heffect
    refine ⟨payment, decision, transaction, hinputs.payment, hinputs.decision, hledger,
      hauthorized, ?_⟩
    by_contra hover
    rw [hverdicts.paymentLimit, if_neg hover] at hpaid
    cases hpaid
  · intro h
    obtain ⟨payment', decision', transaction, hpayment, hdecision, hledger, hauthorized, hwithin⟩ := h
    obtain rfl := Option.some.inj (hinputs.payment.symm.trans hpayment)
    obtain rfl := Option.some.inj (hinputs.decision.symm.trans hdecision)
    have heffect := hverdicts.exactEffect.mpr ⟨transaction, hledger, hauthorized⟩
    refine ⟨hverdicts.one_of_exact heffect, ?_, heffect⟩
    rw [hverdicts.paymentLimit, if_pos hwithin]

/-- Every applicable gate is verified, the ledger holds the one authorized refund, and the journal
rules hold. -/
def Preserves (result : OracleResult) : Prop :=
  (∀ gate ∈ result.validityGates.toList, gate.value ≠ .notApplicable → gate.value = .verified) ∧
    OneExactRefund evidence ∧
    result.ruleResults.logicalIdentity.Holds ∧ result.ruleResults.unknownOutcome.Holds

/-- The trial is valid and a business rule fails. -/
def Violates (result : OracleResult) : Prop :=
  result.trialValidity = .valid ∧
    ∃ rule ∈ result.ruleResults.toList,
      isVerdictBusinessRule rule.ruleId = true ∧ rule.result = .fail

/-- The verdict of every evaluated trial: it passes exactly when the trial preserves the refund,
fails exactly when a business rule of a valid trial fails, and is indeterminate otherwise; and the
outcome carries the derived verdict, never a demoted one. -/
theorem preservation_verdict_characterized (validator : RecordValidator) (input : IngestionInput)
    (checkedAt : UtcMillis) {result : OracleResult}
    (h : evaluateTrial (ingestEvidence validator input) checkedAt = .ok result) :
    (result.outcome.preservationVerdict = .pass ↔
      Preserves (ingestEvidence validator input) result) ∧
    (result.outcome.preservationVerdict = .fail ↔ Violates result) ∧
    (result.outcome.preservationVerdict = .indeterminate ↔
      ¬ Preserves (ingestEvidence validator input) result ∧ ¬ Violates result) ∧
    result.outcome.preservationVerdict =
      derivePreservationVerdict result.trialValidity result.ruleResults.toList := by
  obtain ⟨scope, -, h⟩ := exists_of_bind_eq_ok h
  cases hrules : trialRules (ingestEvidence validator input) with
  | error message =>
    rw [hrules] at h
    cases h
  | ok business =>
    rw [hrules] at h
    obtain rfl := Except.ok.inj h
    dsimp only
    have hdemoted : (verdictOutcome (derivePreservationVerdict
          (deriveTrialValidity (trialGates (ingestEvidence validator input)).toList)
          business.rules.toList)
        (deriveProcessingTerminalReason (ingestEvidence validator input)).reason).preservationVerdict =
        derivePreservationVerdict
          (deriveTrialValidity (trialGates (ingestEvidence validator input)).toList)
          business.rules.toList := by
      apply verdictOutcome_verdict
      by_cases hconclusive : derivePreservationVerdict
          (deriveTrialValidity (trialGates (ingestEvidence validator input)).toList)
          business.rules.toList = .indeterminate
      · exact .inl hconclusive
      · exact .inr (valid_guarantees (valid_of_conclusive hconclusive)).2
    obtain ⟨monetary, hmonetary, hone, hlimit, hexact, -, hbusiness⟩ := trialRules_business hrules
    have hpasses : derivePreservationVerdict
          (deriveTrialValidity (trialGates (ingestEvidence validator input)).toList)
          business.rules.toList = .pass ↔
        (∀ gate ∈ (trialGates (ingestEvidence validator input)).toList,
          gate.value ≠ .notApplicable → gate.value = .verified) ∧
        OneExactRefund (ingestEvidence validator input) ∧
        business.rules.logicalIdentity.Holds ∧ business.rules.unknownOutcome.Holds := by
      rw [derivePreservationVerdict_pass, hbusiness, ← deriveTrialValidity_valid, hone, hlimit,
        hexact]
      constructor
      · intro hpass
        obtain ⟨hvalid, hholdsOne, hholdsLimit, hidentity, hunknown, hholdsExact⟩ := hpass
        have hbasis := (valid_guarantees hvalid).1
        rw [hbasis] at hmonetary
        exact ⟨hvalid, (monetary_hold_iff hbasis hmonetary).mp
          ⟨hholdsOne, hholdsLimit, hholdsExact⟩, hidentity, hunknown⟩
      · intro hpass
        obtain ⟨hvalid, hrefund, hidentity, hunknown⟩ := hpass
        have hbasis := (valid_guarantees hvalid).1
        rw [hbasis] at hmonetary
        obtain ⟨hholdsOne, hholdsLimit, hholdsExact⟩ :=
          (monetary_hold_iff hbasis hmonetary).mpr hrefund
        exact ⟨hvalid, hholdsOne, hholdsLimit, hidentity, hunknown, hholdsExact⟩
    have hfails := @derivePreservationVerdict_fail
      (deriveTrialValidity (trialGates (ingestEvidence validator input)).toList)
      business.rules.toList
    rw [hdemoted]
    unfold Preserves Violates
    dsimp only
    refine ⟨hpasses, hfails, ?_, rfl⟩
    rw [← hpasses, ← hfails]
    generalize derivePreservationVerdict _ _ = verdict
    cases verdict <;> simp

/-! ## What the monetary rules read -/

/-- Two evidences hold the same artifact of a class, or miss it at the same path. -/
def SameArtifact (first second : IngestedEvidence) (artifactClass : Ingestion.ArtifactClass) : Prop :=
  subjectArtifact first.artifacts artifactClass = subjectArtifact second.artifacts artifactClass ∧
    (subjectArtifact second.artifacts artifactClass = none →
      expectedPath first artifactClass = expectedPath second artifactClass)

section Agreement

variable {first second : IngestedEvidence} {artifactClass : Ingestion.ArtifactClass}

theorem SameArtifact.state (h : SameArtifact first second artifactClass) :
    (subjectArtifactState first artifactClass).ref = (subjectArtifactState second artifactClass).ref ∧
      (subjectArtifactState first artifactClass).path =
        (subjectArtifactState second artifactClass).path := by
  unfold subjectArtifactState
  rw [h.1]
  cases hfound : subjectArtifact second.artifacts artifactClass with
  | none => exact ⟨rfl, h.2 hfound⟩
  | some artifact => exact ⟨rfl, rfl⟩

theorem SameArtifact.inputState (h : SameArtifact first second artifactClass) {α : Type}
    (record : Option α) : Oracle.inputState first artifactClass record =
      Oracle.inputState second artifactClass record := by
  unfold Oracle.inputState
  rw [h.1]
  cases hfound : subjectArtifact second.artifacts artifactClass with
  | none => rw [h.2 hfound]
  | some artifact => rfl

theorem trialBasis_congr (hgates : ∀ gate ∈ gateReasons,
      gateValues (trialGates first) gate.1 = gateValues (trialGates second) gate.1)
    (hledger : SameArtifact first second .ledgerSnapshot) (hview : first.ledger = second.ledger)
    (hinputs : businessInputs first = businessInputs second) :
    trialBasis first = trialBasis second := by
  unfold trialBasis monetaryInputs deriveMonetaryBasis basisReasons
  rw [hledger.state.1, hledger.state.2, hview, hinputs,
    List.filter_congr fun gate hgate => by rw [hgates gate hgate],
    List.map_congr_left fun gate hgate => by rw [hgates gate (List.mem_of_mem_filter hgate)]]

end Agreement

/-- The ledger, the payment, the decision and the gates G1, G5 and G6 fix the monetary part of an
evaluation: nothing a journal says reaches it by another way. -/
theorem monetary_rules_ignore_journals (validator validator' : RecordValidator)
    (input other : IngestionInput) {first second : IngestedEvidence}
    (hfirst : first = ingestEvidence validator input)
    (hsecond : second = ingestEvidence validator' other)
    (hledger : SameArtifact first second .ledgerSnapshot)
    (hpayment : SameArtifact first second .payment)
    (hdecision : SameArtifact first second .approvedDecision)
    (horacle : (trialGates first).independentOracle = (trialGates second).independentOracle)
    (haccess : (trialGates first).ledgerAccess = (trialGates second).ledgerAccess)
    (hsettlement : (trialGates first).settlement = (trialGates second).settlement)
    {checkedAt : UtcMillis} (checkedAt' : UtcMillis) {result : OracleResult}
    {named : ScopedExecution × Sha256Hex × SubjectTrial}
    (hresult : evaluateTrial first checkedAt = .ok result)
    (hnamed : trialScope second.scope = .ok named) :
    ∃ result', evaluateTrial second checkedAt' = .ok result' ∧
      result'.ruleResults.oneEffect = result.ruleResults.oneEffect ∧
      result'.ruleResults.paymentLimit = result.ruleResults.paymentLimit ∧
      result'.ruleResults.exactEffect = result.ruleResults.exactEffect ∧
      result'.monetaryObservations = result.monetaryObservations := by
  have hview : first.ledger = second.ledger := by
    subst hfirst hsecond
    show ledgerView (ingestEvidence validator input).artifacts =
      ledgerView (ingestEvidence validator' other).artifacts
    unfold ledgerView soleRecord
    rw [hledger.1]
  have hinputs : businessInputs first = businessInputs second := by
    subst hfirst hsecond
    have hrecords : ∀ {α : Type} (read : RecordBody → Option α) {artifactClass},
        SameArtifact (ingestEvidence validator input) (ingestEvidence validator' other)
          artifactClass → soleRecord read (ingestEvidence validator input).artifacts artifactClass =
            soleRecord read (ingestEvidence validator' other).artifacts artifactClass := by
      intro α read artifactClass hsame
      unfold soleRecord
      rw [hsame.1]
    have hpaid : (ingestEvidence validator input).observations.payment = _ := hrecords _ hpayment
    have hdecided : (ingestEvidence validator input).observations.approvedDecision = _ :=
      hrecords _ hdecision
    unfold businessInputs
    rw [hpayment.inputState, hdecision.inputState, hpaid, hdecided]
    rfl
  have hbasis : trialBasis first = trialBasis second := by
    have hvalues := (trialGates_named first).basisValues
    have hvalues' := (trialGates_named second).basisValues
    rw [horacle, haccess, hsettlement] at hvalues
    refine trialBasis_congr ?_ hledger hview hinputs
    simp [gateReasons, hvalues, hvalues']
  obtain ⟨scope, -, hresult⟩ := exists_of_bind_eq_ok hresult
  cases hrules : trialRules first with
  | error message =>
    rw [hrules] at hresult
    cases hresult
  | ok business =>
    rw [hrules] at hresult
    obtain rfl := Except.ok.inj hresult
    obtain ⟨monetary, hmonetary, hone, hlimit, hexact, hobserved, -⟩ := trialRules_business hrules
    unfold evaluateMonetaryRules snapshotTransactions monetaryObservations at hmonetary
    rw [hledger.state.1, hview, hinputs, hbasis] at hmonetary
    unfold evaluateTrial
    rw [hnamed, Except.bind, trialRules, evaluateBusinessRules, evaluateMonetaryRules,
      snapshotTransactions, monetaryObservations, hmonetary]
    exact ⟨_, rfl, hone.symm, hlimit.symm, hexact.symm, hobserved.symm⟩

/-! ## A control trial -/

def controlRecord (body : RecordBody) : RecordValue where
  correlation := { runId := .text "run", trialId := .text "trial" }
  body := body

def controlEvent (source : EventSource) (sequence eventId : Nat) (causes : List Nat)
    (body : ReadBody) : RecordValue :=
  controlRecord (.event ⟨eventId, eventId, source, 1, sequence, causes, body⟩)

def controlCommit : CommittedTransaction := { probeCommit with targeted := false }

def quietSample (observedAt : UtcMillis) (phase : SettlementSamplePhase) : RecordValue :=
  controlRecord (.settlementSample
    { observedAt := observedAt
      phase := phase
      publicationStopped := true
      processingTerminal := true
      innerExecutionsTerminal := none
      providerActiveCalls := 0
      providerHeldBarriers := 0
      providerPendingReleases := 0
      treatmentTerminal := none
      ledgerSnapshotPossible := true
      sourceQueue := .counters ⟨0, 0, 0⟩
      dlq := .counters ⟨0, 0, 0⟩
      correlatedDlqMessageIds := []
      dlqCapturedMessageIds := []
      correlatedEventWatermark := 4
      ledgerItemCount := 1 })

def controlInput (transactions : List LedgerTransaction) : IngestionInput where
  artifacts :=
    [jsonFile "manifests/execution-manifest.json" "manifest"
        { correlation := { runId := .text "run" }, body := .executionManifest .run },
      jsonFile "trials/trial/trial-manifest.json" "trial"
        (controlRecord (.trialManifest ⟨.control, "resources", "payment", "decision"⟩)),
      jsonFile "trials/trial/inputs/payment.json" "payment"
        { correlation := {}, body := .payment ⟨"payment", 100, "EUR"⟩ },
      jsonFile "trials/trial/inputs/approved-decision.json" "decision"
        { correlation := {}, body := .approvedDecision ⟨"request", "payment", 100, "EUR"⟩ },
      jsonlFile "trials/trial/journals/caller-journal.jsonl" "caller"
        [controlEvent .conventionalCaller 1 1 [] (.attemptRegistered probeAttempt),
          controlEvent .conventionalCaller 2 2 [1] (.dispatchStarted probeAttempt),
          controlEvent .conventionalCaller 3 7 [2]
            (.attemptOutcomeRecorded probeAttempt .succeeded (some 62) (some 61)),
          controlEvent .conventionalCaller 4 8 [7] (.requestStateRecorded
            ⟨1, .oneEffectConfirmed, [50], .finished, some .succeeded, some "request"⟩)],
      jsonlFile "trials/trial/journals/provider-journal.jsonl" "provider"
        [controlEvent .refundProvider 1 3 [] (.providerCallReceived 62),
          controlEvent .refundProvider 2 4 [3] (.providerCallAccepted 62 probeAttempt),
          controlEvent .refundProvider 3 5 [4] (.providerTransactionCommitted controlCommit),
          controlEvent .refundProvider 4 6 [5] (.providerCommitConfirmed ⟨60, 61, 62⟩ 20)],
      jsonFile "trials/trial/state/provider-trial-configuration.json" "configuration"
        (controlRecord (.providerTrialConfiguration .control)),
      jsonFile "trials/trial/state/treatment-state-snapshot.json" "snapshot"
        (controlRecord (.treatmentStateSnapshot ⟨true, none⟩)),
      jsonFile "trials/trial/ledger/ledger-snapshot.json" "ledger"
        (controlRecord (.ledgerSnapshot
          { writer := .evidenceCollector
            consistentRead := true
            capturedAt := 120500
            complete := true
            pages := [⟨1, transactions.length, none, none⟩]
            transactions := transactions })),
      jsonlFile "trials/trial/settlement/settlement-samples.jsonl" "samples"
        [quietSample 200 .observation, quietSample 120200 .observation,
          quietSample 121000 .preFreezeRecheck],
      jsonlFile "runner/runner-journal.jsonl" "runner"
        [controlEvent .runner 1 9 [] (.trialMessagePublished "message" "body"),
          controlEvent .runner 2 10 [9] (.settlementAssessed (some ⟨200, 120200, 121000⟩))]]
  expected :=
    [⟨"manifests/execution-manifest.json", .executionManifest, .required⟩,
      ⟨"trials/trial/trial-manifest.json", .trialManifest, .required⟩,
      ⟨"trials/trial/inputs/payment.json", .payment, .required⟩,
      ⟨"trials/trial/inputs/approved-decision.json", .approvedDecision, .required⟩,
      ⟨"trials/trial/journals/caller-journal.jsonl", .callerJournal, .required⟩,
      ⟨"trials/trial/journals/provider-journal.jsonl", .providerJournal, .required⟩,
      ⟨"trials/trial/state/provider-trial-configuration.json", .providerTrialConfiguration,
        .required⟩,
      ⟨"trials/trial/state/treatment-state-snapshot.json", .treatmentStateSnapshot, .required⟩,
      ⟨"trials/trial/ledger/ledger-snapshot.json", .ledgerSnapshot, .required⟩,
      ⟨"trials/trial/settlement/settlement-samples.jsonl", .settlementSamples, .required⟩,
      ⟨"runner/runner-journal.jsonl", .runnerJournal, .required⟩]
  executionScopeArtifacts := []

theorem preservation_verdict_characterized_control :
    ∃ result, evaluateTrial (ingestEvidence acceptingValidator
        (controlInput [probeTransaction])) 0 = .ok result ∧
      result.outcome.preservationVerdict = .pass ∧
      Preserves (ingestEvidence acceptingValidator (controlInput [probeTransaction])) result := by
  have hpass : ((evaluateTrial (ingestEvidence acceptingValidator
      (controlInput [probeTransaction])) 0).toOption.map fun result =>
        result.outcome.preservationVerdict) = some .pass := by
    decide +kernel
  cases hresult : evaluateTrial (ingestEvidence acceptingValidator
      (controlInput [probeTransaction])) 0 with
  | error failure =>
    rw [hresult] at hpass
    cases hpass
  | ok result =>
    rw [hresult] at hpass
    have hverdict : result.outcome.preservationVerdict = .pass := Option.some.inj hpass
    refine ⟨result, rfl, hverdict, ?_⟩
    exact (preservation_verdict_characterized _ _ _ hresult).1.mp hverdict

def briefNames : List String :=
  ["a", "b", "c", "d", "e.jsonl", "f.jsonl", "g", "h", "i", "j.jsonl", "k.jsonl"]

/-- The evidence of the control trial under shorter paths. -/
def briefControl : IngestionInput where
  artifacts := (controlInput [probeTransaction]).artifacts.zipWith
    (fun raw path => { raw with path := path }) briefNames
  expected := (controlInput [probeTransaction]).expected.zipWith
    (fun entry path => { entry with path := path }) briefNames
  executionScopeArtifacts := []

/-- The same with no event in the provider's journal. -/
def silentControl : IngestionInput :=
  { briefControl with artifacts := briefControl.artifacts.set 5 (jsonlFile "f.jsonl" "silent" []) }

theorem provider_journal_changes_no_rule : ∃ result result',
    evaluateTrial (ingestEvidence acceptingValidator silentControl) 0 = .ok result ∧
    trialBasis (ingestEvidence acceptingValidator silentControl) = .conclusive ∧
    evaluateTrial (ingestEvidence acceptingValidator briefControl) 0 = .ok result' ∧
    result'.ruleResults.exactEffect = result.ruleResults.exactEffect := by
  obtain ⟨result, hresult⟩ : ∃ result,
      evaluateTrial (ingestEvidence acceptingValidator silentControl) 0 = .ok result := ⟨_, rfl⟩
  obtain ⟨named, hnamed⟩ : ∃ named,
      trialScope (ingestEvidence acceptingValidator briefControl).scope = .ok named := ⟨_, rfl⟩
  obtain ⟨horacle, haccess, hsettlement⟩ :
      (trialGates (ingestEvidence acceptingValidator silentControl)).independentOracle =
        (trialGates (ingestEvidence acceptingValidator briefControl)).independentOracle ∧
      (trialGates (ingestEvidence acceptingValidator silentControl)).ledgerAccess =
        (trialGates (ingestEvidence acceptingValidator briefControl)).ledgerAccess ∧
      (trialGates (ingestEvidence acceptingValidator silentControl)).settlement =
        (trialGates (ingestEvidence acceptingValidator briefControl)).settlement := by
    decide +kernel
  obtain ⟨result', hresult', -, -, hexact, -⟩ := monetary_rules_ignore_journals
    acceptingValidator acceptingValidator silentControl briefControl rfl rfl
    ⟨rfl, fun _ => rfl⟩ ⟨rfl, fun _ => rfl⟩ ⟨rfl, fun _ => rfl⟩ horacle haccess hsettlement 0
    hresult hnamed
  exact ⟨result, result', hresult, rfl, hresult', hexact⟩

end RefundStudy.Oracle
