/-
  What the monetary rules decide.
-/
import RefundStudy.Oracle.Monetary
import RefundStudy.Fidelity.TreatmentFidelity

set_option autoImplicit false

namespace RefundStudy.Oracle

open Foundation Record Package Ingestion
open Fidelity (subjectArtifactState expectedPath jsonFile probeDocument probeTransaction
  acceptingValidator)

/-! ## The rules over the plain transactions -/

def countForRequest (transactions : List LedgerTransaction) (request : String) : Nat :=
  transactions.countP fun transaction => decide (transaction.refundRequestId = request)

def totalForPayment (transactions : List LedgerTransaction) (paymentId : String) : Nat :=
  ((transactions.filter fun transaction => decide (transaction.paymentId = paymentId)).map
    LedgerTransaction.amountMinor).sum

def IsAuthorized (transaction : LedgerTransaction) (payment : Payment)
    (decision : ApprovedDecision) : Prop :=
  transaction.refundRequestId = decision.refundRequestId ∧
    transaction.paymentId = payment.paymentId ∧
    transaction.amountMinor = decision.approvedAmountMinor ∧
    transaction.currency = decision.currency

def effectOf (payment : Payment) (decision : ApprovedDecision) : AuthorizedEffect :=
  ⟨some decision.refundRequestId, some payment.paymentId, some decision.approvedAmountMinor,
    some decision.currency⟩

theorem citedTransactions_map (transactions : List LedgerTransaction) (ref : EvidenceRef) :
    (citedTransactions transactions (some ref)).map CitedTransaction.transaction = transactions := by
  rw [citedTransactions, List.map_map]
  exact List.zipIdx_map_fst 0 transactions

theorem length_filter_cited {cited : List CitedTransaction} {transactions : List LedgerTransaction}
    (hcited : cited.map CitedTransaction.transaction = transactions)
    (keep : LedgerTransaction → Bool) :
    (cited.filter fun entry => keep entry.transaction).length = transactions.countP keep := by
  rw [← hcited, List.countP_map, ← List.countP_eq_length_filter]
  rfl

theorem map_filter_cited {cited : List CitedTransaction} {transactions : List LedgerTransaction}
    (hcited : cited.map CitedTransaction.transaction = transactions)
    (keep : LedgerTransaction → Bool) :
    (cited.filter fun entry => keep entry.transaction).map (fun entry => entry.transaction) =
      transactions.filter keep := by
  rw [← hcited, List.filter_map]
  rfl

section Rules

variable {cited : List CitedTransaction} {transactions : List LedgerTransaction}
  {payment : Payment} {decision : ApprovedDecision}

theorem oneEffect_result (hcited : cited.map CitedTransaction.transaction = transactions)
    (refs : List EvidenceRef) :
    (oneEffectRule cited (effectOf payment decision) .conclusive refs).result =
      if countForRequest transactions decision.refundRequestId = 1 then .pass else .fail := by
  have hcount := length_filter_cited hcited fun transaction =>
    decide (some transaction.refundRequestId = (effectOf payment decision).refundRequestId)
  have hsame : transactions.countP (fun transaction =>
      decide (some transaction.refundRequestId = (effectOf payment decision).refundRequestId)) =
      countForRequest transactions decision.refundRequestId := by
    simp only [countForRequest, effectOf, Option.some.injEq]
  rw [hsame] at hcount
  simp only [oneEffectRule, ruleResult, hcount, decide_eq_true_eq]

/-- BR-RUA-002 sums and compares exactly. -/
theorem paymentLimit_result (hcited : cited.map CitedTransaction.transaction = transactions)
    {refs : List EvidenceRef} {result : RuleResult}
    (h : paymentLimitRule cited (effectOf payment decision) (some payment.capturedAmountMinor)
      .conclusive refs = .ok result) :
    result.result =
      (if totalForPayment transactions payment.paymentId ≤ payment.capturedAmountMinor then .pass
        else .fail) ∧
    result.observed = .record
      [("total_minor", .text (decimalText (totalForPayment transactions payment.paymentId))),
        ("transaction_count", .number (transactions.countP fun transaction =>
          decide (transaction.paymentId = payment.paymentId)))] := by
  have hkeep : ∀ entry : CitedTransaction,
      ((effectOf payment decision).paymentId.isNone ||
        decide (some entry.transaction.paymentId = (effectOf payment decision).paymentId)) =
      decide (entry.transaction.paymentId = payment.paymentId) := by
    intro entry
    simp only [effectOf, Option.isNone_some, Bool.false_or, Option.some.injEq]
  have hfor : transactionsForPayment cited (effectOf payment decision) =
      cited.filter fun entry => decide (entry.transaction.paymentId = payment.paymentId) := by
    simp only [transactionsForPayment, hkeep]
  have hlength := length_filter_cited hcited fun transaction =>
    decide (transaction.paymentId = payment.paymentId)
  have hamounts : (transactionsForPayment cited (effectOf payment decision)).map
      (fun entry => entry.transaction.amountMinor) =
      (transactions.filter fun transaction =>
        decide (transaction.paymentId = payment.paymentId)).map LedgerTransaction.amountMinor := by
    rw [hfor, ← map_filter_cited hcited, List.map_map]
    rfl
  rw [← hfor] at hlength
  unfold paymentLimitRule at h
  dsimp only at h
  rw [hamounts] at h
  cases hsum : sumMinorUnits ((transactions.filter fun transaction =>
      decide (transaction.paymentId = payment.paymentId)).map LedgerTransaction.amountMinor) with
  | error message =>
    rw [hsum] at h
    cases h
  | ok paid =>
    have hpaid : paid = decimalText (totalForPayment transactions payment.paymentId) :=
      sumMinorUnits_eq_ok hsum
    rw [hsum, hpaid] at h
    simp only [Except.bind, withinCap, compareDecimal_decimalText, Except.map] at h
    rw [← Except.ok.inj h]
    refine ⟨?_, ?_⟩
    · simp only [ruleResult, ne_eq, Nat.compare_ne_gt, decide_eq_true_eq]
    · simp only [ruleResult, hlength]

theorem paymentLimit_returns (hcited : cited.map CitedTransaction.transaction = transactions)
    (hsafe : ∀ transaction ∈ transactions, transaction.amountMinor ≤ maxSafeInteger)
    (effect : AuthorizedEffect) (captured : Nat) (basis : MonetaryBasis) (refs : List EvidenceRef) :
    ∃ result, paymentLimitRule cited effect (some captured) basis refs = .ok result := by
  have hamounts : ∀ amount ∈ (transactionsForPayment cited effect).map
      (fun entry => entry.transaction.amountMinor), amount ≤ maxSafeInteger := by
    intro amount hmem
    obtain ⟨entry, hentry, rfl⟩ := List.mem_map.mp hmem
    apply hsafe
    rw [← hcited]
    exact List.mem_map_of_mem (List.mem_of_mem_filter hentry)
  unfold paymentLimitRule
  dsimp only
  rw [sumMinorUnits_safe hamounts]
  simp only [Except.bind, withinCap, compareDecimal_decimalText, Except.map]
  exact ⟨_, rfl⟩

theorem mismatchesOf_eq_nil {transaction : LedgerTransaction} :
    mismatchesOf transaction (effectOf payment decision) = [] ↔
      IsAuthorized transaction payment decision := by
  rw [mismatchesOf, List.filter_eq_nil_iff]
  simp [mismatches, effectOf, IsAuthorized]

/-- BR-RUA-009 passes for a ledger of the authorized transaction alone. -/
theorem exactEffect_pass (hcited : cited.map CitedTransaction.transaction = transactions)
    (refs : List EvidenceRef) :
    (exactEffectRule cited (effectOf payment decision) .conclusive refs).result = .pass ↔
      ∃ transaction, transactions = [transaction] ∧ IsAuthorized transaction payment decision := by
  have hpass : (exactEffectRule cited (effectOf payment decision) .conclusive refs).result = .pass ↔
      cited.length = 1 ∧ ∀ entry ∈ cited,
        mismatchesOf entry.transaction (effectOf payment decision) = [] := by
    unfold exactEffectRule ruleResult
    dsimp only
    split
    · rename_i hholds
      simpa using hholds
    · rename_i hholds
      simpa using hholds
  rw [hpass, ← hcited]
  constructor
  · intro h
    obtain ⟨entry, hentry⟩ := List.length_eq_one_iff.mp h.1
    rw [hentry]
    refine ⟨entry.transaction, rfl, mismatchesOf_eq_nil.mp (h.2 entry (by simp [hentry]))⟩
  · intro h
    obtain ⟨transaction, hmap, hauthorized⟩ := h
    obtain ⟨entry, hentry, hsame⟩ := List.map_eq_singleton_iff.mp hmap
    rw [hentry]
    refine ⟨rfl, fun other hother => ?_⟩
    rw [List.mem_singleton.mp hother, hsame]
    exact mismatchesOf_eq_nil.mpr hauthorized

theorem exactEffect_result (refs : List EvidenceRef) :
    (exactEffectRule cited (effectOf payment decision) .conclusive refs).result = .pass ∨
    (exactEffectRule cited (effectOf payment decision) .conclusive refs).result = .fail := by
  unfold exactEffectRule ruleResult
  dsimp only
  split
  · exact .inl rfl
  · exact .inr rfl

end Rules

/-! ## Ingested evidence -/

theorem ledgerView_snapshot {artifacts : List IngestedArtifact} {located : LocatedRecord LedgerSnapshot}
    (h : (ledgerView artifacts).snapshot = some located) :
    (subjectArtifact artifacts .ledgerSnapshot).isSome = true ∧
      (ledgerView artifacts).transactions = located.record.transactions := by
  unfold ledgerView at h ⊢
  cases hsole : soleRecord RecordBody.asLedgerSnapshot artifacts .ledgerSnapshot with
  | none =>
    rw [hsole] at h
    cases h
  | some snapshot =>
    rw [hsole] at h
    refine ⟨?_, congrArg (fun found => found.record.transactions) (Option.some.inj h)⟩
    cases hartifact : subjectArtifact artifacts .ledgerSnapshot with
    | none =>
      rw [soleRecord, hartifact] at hsole
      cases hsole
    | some artifact => rfl

/-- What the monetary rules read on a conclusive basis. -/
structure ConclusiveInputs (evidence : IngestedEvidence) (payment : Payment)
    (decision : ApprovedDecision) : Prop where
  cited : ∃ ref, (subjectArtifactState evidence .ledgerSnapshot).ref = some ref
  payment : (businessInputs evidence).payment.record = some payment
  decision : (businessInputs evidence).decision.record = some decision
  ledger : evidence.ledger.transactions = snapshotTransactions evidence

theorem conclusiveInputs_of_basis {validator : RecordValidator} {input : IngestionInput}
    {gates : GateId → Option GateValue}
    (h : deriveMonetaryBasis gates (monetaryInputs (ingestEvidence validator input)
      (businessInputs (ingestEvidence validator input))) = .conclusive) :
    ∃ payment decision, ConclusiveInputs (ingestEvidence validator input) payment decision := by
  obtain ⟨⟨hledger, hpayment, hdecision⟩, -⟩ := deriveMonetaryBasis_conclusive.mp h
  obtain ⟨payment, hpayment⟩ := Option.isSome_iff_exists.mp hpayment
  obtain ⟨decision, hdecision⟩ := Option.isSome_iff_exists.mp hdecision
  obtain ⟨located, hlocated⟩ := Option.isSome_iff_exists.mp hledger
  obtain ⟨hgiven, htransactions⟩ := ledgerView_snapshot hlocated
  refine ⟨payment, decision, ?_, hpayment, hdecision, ?_⟩
  · obtain ⟨artifact, hartifact⟩ := Option.isSome_iff_exists.mp hgiven
    refine ⟨artifactRef artifact, ?_⟩
    rw [subjectArtifactState]
    rw [show subjectArtifact (ingestEvidence validator input).artifacts .ledgerSnapshot =
      some artifact from hartifact]
  · rw [snapshotTransactions, hlocated]
    exact htransactions

section Verdicts

variable {evidence : IngestedEvidence} {payment : Payment} {decision : ApprovedDecision}
  {results : MonetaryRuleResults}

/-- The outcomes and totals of the rules on a conclusive basis. -/
structure Verdicts (transactions : List LedgerTransaction) (payment : Payment)
    (decision : ApprovedDecision) (results : MonetaryRuleResults) : Prop where
  oneEffect : results.oneEffect.result =
    if countForRequest transactions decision.refundRequestId = 1 then .pass else .fail
  paymentLimit : results.paymentLimit.result =
    if totalForPayment transactions payment.paymentId ≤ payment.capturedAmountMinor then .pass
    else .fail
  paid : results.paymentLimit.observed = .record
    [("total_minor", .text (decimalText (totalForPayment transactions payment.paymentId))),
      ("transaction_count", .number (transactions.countP fun transaction =>
        decide (transaction.paymentId = payment.paymentId)))]
  exactEffect : results.exactEffect.result = .pass ↔
    ∃ transaction, transactions = [transaction] ∧ IsAuthorized transaction payment decision
  exactConclusive : results.exactEffect.result = .pass ∨ results.exactEffect.result = .fail
  refunded : results.observations.refundedTotalMinor =
    decimalText (transactions.map LedgerTransaction.amountMinor).sum

theorem authorizedEffect_eq (h : ConclusiveInputs evidence payment decision) :
    authorizedEffect (businessInputs evidence) = effectOf payment decision := by
  rw [authorizedEffect, h.payment, h.decision]
  rfl

theorem verdicts_of_rules (h : ConclusiveInputs evidence payment decision)
    (hrules : evaluateMonetaryRules evidence (businessInputs evidence) .conclusive = .ok results) :
    Verdicts (snapshotTransactions evidence) payment decision results := by
  obtain ⟨ref, href⟩ := h.cited
  have hcited := citedTransactions_map (snapshotTransactions evidence) ref
  unfold evaluateMonetaryRules at hrules
  simp only [href, authorizedEffect_eq h, h.payment, Option.map_some] at hrules
  generalize citedTransactions (snapshotTransactions evidence) (some ref) = cited at hrules hcited
  generalize List.filterMap id _ = refs at hrules
  cases hlimit : paymentLimitRule cited (effectOf payment decision)
      (some payment.capturedAmountMinor) .conclusive refs with
  | error message =>
    rw [hlimit] at hrules
    cases hrules
  | ok limit =>
    rw [hlimit] at hrules
    simp only [Except.bind, monetaryObservations, h.ledger] at hrules
    cases hsum : sumMinorUnits ((snapshotTransactions evidence).map
        LedgerTransaction.amountMinor) with
    | error message =>
      rw [hsum] at hrules
      cases hrules
    | ok total =>
      rw [hsum] at hrules
      rw [← Except.ok.inj hrules]
      obtain ⟨hresult, hobserved⟩ := paymentLimit_result hcited hlimit
      exact ⟨oneEffect_result hcited refs, hresult, hobserved, exactEffect_pass hcited refs,
        exactEffect_result refs, sumMinorUnits_eq_ok hsum⟩

theorem rules_return (h : ConclusiveInputs evidence payment decision)
    (hsafe : ∀ transaction ∈ snapshotTransactions evidence,
      transaction.amountMinor ≤ maxSafeInteger) :
    ∃ results, evaluateMonetaryRules evidence (businessInputs evidence) .conclusive =
      .ok results := by
  obtain ⟨ref, href⟩ := h.cited
  have hcited := citedTransactions_map (snapshotTransactions evidence) ref
  have hamounts : ∀ amount ∈ (snapshotTransactions evidence).map LedgerTransaction.amountMinor,
      amount ≤ maxSafeInteger := by
    intro amount hmem
    obtain ⟨transaction, hledger, rfl⟩ := List.mem_map.mp hmem
    exact hsafe transaction hledger
  unfold evaluateMonetaryRules
  simp only [href, h.payment, Option.map_some]
  obtain ⟨limit, hlimit⟩ := paymentLimit_returns hcited hsafe
    (authorizedEffect (businessInputs evidence)) payment.capturedAmountMinor .conclusive
    ([some ref, (businessInputs evidence).decision.ref,
      (businessInputs evidence).payment.ref].filterMap id)
  rw [hlimit]
  simp only [Except.bind, monetaryObservations, h.ledger, sumMinorUnits_safe hamounts]
  exact ⟨_, rfl⟩

end Verdicts

/-! ## What the rules imply of one another -/

section Implications

variable {transactions others : List LedgerTransaction} {payment : Payment}
  {decision : ApprovedDecision} {results later : MonetaryRuleResults}

theorem Verdicts.one_of_exact (h : Verdicts transactions payment decision results)
    (hexact : results.exactEffect.result = .pass) : results.oneEffect.result = .pass := by
  obtain ⟨transaction, rfl, hauthorized⟩ := h.exactEffect.mp hexact
  rw [h.oneEffect, if_pos]
  simp [countForRequest, hauthorized.1]

theorem Verdicts.limit_of_exact (h : Verdicts transactions payment decision results)
    (hexact : results.exactEffect.result = .pass)
    (hamount : decision.approvedAmountMinor ≤ payment.capturedAmountMinor) :
    results.paymentLimit.result = .pass := by
  obtain ⟨transaction, rfl, hauthorized⟩ := h.exactEffect.mp hexact
  rw [h.paymentLimit, if_pos]
  simpa [totalForPayment, hauthorized.2.1, hauthorized.2.2.1] using hamount

theorem totalForPayment_perm (hperm : others.Perm transactions) (paymentId : String) :
    totalForPayment others paymentId = totalForPayment transactions paymentId :=
  ((hperm.filter _).map _).sum_nat

theorem Verdicts.perm (h : Verdicts transactions payment decision results)
    (hother : Verdicts others payment decision later) (hperm : others.Perm transactions) :
    later.oneEffect.result = results.oneEffect.result ∧
      later.paymentLimit.result = results.paymentLimit.result ∧
      later.exactEffect.result = results.exactEffect.result := by
  refine ⟨?_, ?_, ?_⟩
  · rw [h.oneEffect, hother.oneEffect, countForRequest, countForRequest, hperm.countP_eq]
  · rw [h.paymentLimit, hother.paymentLimit, totalForPayment_perm hperm]
  · have hpass : later.exactEffect.result = .pass ↔ results.exactEffect.result = .pass := by
      rw [h.exactEffect, hother.exactEffect]
      constructor
      · intro hsole
        obtain ⟨transaction, rfl, hauthorized⟩ := hsole
        exact ⟨transaction, List.perm_singleton.mp hperm.symm, hauthorized⟩
      · intro hsole
        obtain ⟨transaction, rfl, hauthorized⟩ := hsole
        exact ⟨transaction, List.perm_singleton.mp hperm, hauthorized⟩
    obtain hp | hf := h.exactConclusive
    · rw [hp, hpass.mpr hp]
    · obtain hp' | hf' := hother.exactConclusive
      · rw [hpass.mp hp'] at hf
        cases hf
      · rw [hf, hf']

theorem Verdicts.limit_stays (h : Verdicts transactions payment decision results)
    (hother : Verdicts others payment decision later) {transaction : LedgerTransaction}
    (hperm : others.Perm (transaction :: transactions))
    (hfail : results.paymentLimit.result = .fail) : later.paymentLimit.result = .fail := by
  have htotal : totalForPayment transactions payment.paymentId ≤
      totalForPayment others payment.paymentId := by
    rw [totalForPayment_perm hperm, totalForPayment, totalForPayment, List.filter_cons]
    split
    · rw [List.map_cons, List.sum_cons]
      omega
    · exact Nat.le_refl _
  rw [h.paymentLimit] at hfail
  split at hfail
  · cases hfail
  · rename_i hover
    rw [hother.paymentLimit, if_neg (by omega)]

end Implications

/-- The monetary rules of ingested evidence on a conclusive basis: safe amounts give results; the
exact effect implies the one effect, and the payment limit when the approved amount is within the
captured one; the totals are the exact sums; permuting the ledger changes no outcome, and adding
to it never mends the payment limit. -/
theorem monetary_rules_agree (validator : RecordValidator) (input : IngestionInput)
    (gates : GateId → Option GateValue)
    (hbasis : deriveMonetaryBasis gates (monetaryInputs (ingestEvidence validator input)
      (businessInputs (ingestEvidence validator input))) = .conclusive) :
    ∃ payment decision,
      (businessInputs (ingestEvidence validator input)).payment.record = some payment ∧
      (businessInputs (ingestEvidence validator input)).decision.record = some decision ∧
      ((∀ transaction ∈ snapshotTransactions (ingestEvidence validator input),
          transaction.amountMinor ≤ maxSafeInteger) →
        ∃ results, evaluateMonetaryRules (ingestEvidence validator input)
          (businessInputs (ingestEvidence validator input)) .conclusive = .ok results) ∧
      ∀ results, evaluateMonetaryRules (ingestEvidence validator input)
          (businessInputs (ingestEvidence validator input)) .conclusive = .ok results →
        (results.exactEffect.result = .pass → results.oneEffect.result = .pass ∧
          (decision.approvedAmountMinor ≤ payment.capturedAmountMinor →
            results.paymentLimit.result = .pass)) ∧
        (results.paymentLimit.observed = .record
          [("total_minor", .text (decimalText
              (totalForPayment (snapshotTransactions (ingestEvidence validator input))
                payment.paymentId))),
            ("transaction_count", .number ((snapshotTransactions
              (ingestEvidence validator input)).countP fun transaction =>
                decide (transaction.paymentId = payment.paymentId)))] ∧
          results.observations.refundedTotalMinor = decimalText
            ((snapshotTransactions (ingestEvidence validator input)).map
              LedgerTransaction.amountMinor).sum) ∧
        ∀ (validator' : RecordValidator) (input' : IngestionInput)
          (gates' : GateId → Option GateValue) (later : MonetaryRuleResults),
          deriveMonetaryBasis gates' (monetaryInputs (ingestEvidence validator' input')
            (businessInputs (ingestEvidence validator' input'))) = .conclusive →
          (businessInputs (ingestEvidence validator' input')).payment.record = some payment →
          (businessInputs (ingestEvidence validator' input')).decision.record = some decision →
          evaluateMonetaryRules (ingestEvidence validator' input')
            (businessInputs (ingestEvidence validator' input')) .conclusive = .ok later →
          ((snapshotTransactions (ingestEvidence validator' input')).Perm
              (snapshotTransactions (ingestEvidence validator input)) →
            later.oneEffect.result = results.oneEffect.result ∧
            later.paymentLimit.result = results.paymentLimit.result ∧
            later.exactEffect.result = results.exactEffect.result) ∧
          ∀ transaction, (snapshotTransactions (ingestEvidence validator' input')).Perm
              (transaction :: snapshotTransactions (ingestEvidence validator input)) →
            results.paymentLimit.result = .fail → later.paymentLimit.result = .fail := by
  obtain ⟨payment, decision, hinputs⟩ := conclusiveInputs_of_basis hbasis
  refine ⟨payment, decision, hinputs.payment, hinputs.decision, rules_return hinputs, ?_⟩
  intro results hresults
  have hverdicts := verdicts_of_rules hinputs hresults
  refine ⟨fun hexact => ⟨hverdicts.one_of_exact hexact, hverdicts.limit_of_exact hexact⟩,
    ⟨hverdicts.paid, hverdicts.refunded⟩, ?_⟩
  intro validator' input' gates' later hbasis' hpayment hdecision hlater
  obtain ⟨payment', decision', hinputs'⟩ := conclusiveInputs_of_basis hbasis'
  have hverdicts' := verdicts_of_rules hinputs' hlater
  rw [hinputs'.payment] at hpayment
  rw [hinputs'.decision] at hdecision
  cases hpayment
  cases hdecision
  exact ⟨fun hperm => hverdicts.perm hverdicts' hperm,
    fun transaction hperm hfail => hverdicts.limit_stays hverdicts' hperm hfail⟩

/-! ## A ledger whose sum is no double -/

def largeTransaction (id : Nat) : LedgerTransaction :=
  { probeTransaction with
    providerTransactionId := id, amountMinor := maxSafeInteger, currency := "BRL" }

def twiceRefunded : IngestionInput where
  artifacts :=
    [jsonFile "probe/ledger/ledger-snapshot.json" "ledger"
        (probeDocument (.ledgerSnapshot
          { writer := .runner
            consistentRead := true
            capturedAt := 4000
            complete := true
            pages := [⟨1, 2, none, none⟩]
            transactions := [largeTransaction 61, largeTransaction 62] })),
      jsonFile "probe/inputs/payment.json" "payment"
        (probeDocument (.payment ⟨"payment", maxSafeInteger, "BRL"⟩)),
      jsonFile "probe/inputs/approved-decision.json" "decision"
        (probeDocument (.approvedDecision ⟨"request", "payment", maxSafeInteger, "BRL"⟩))]
  expected :=
    [⟨"probe/ledger/ledger-snapshot.json", .ledgerSnapshot, .required⟩,
      ⟨"probe/inputs/payment.json", .payment, .required⟩,
      ⟨"probe/inputs/approved-decision.json", .approvedDecision, .required⟩]
  executionScopeArtifacts := []

theorem twiceRefunded_total :
    ∃ results, evaluateMonetaryRules (ingestEvidence acceptingValidator twiceRefunded)
        (businessInputs (ingestEvidence acceptingValidator twiceRefunded)) .conclusive =
      .ok results ∧
      results.observations.refundedTotalMinor = decimalText 18014398509481982 := by
  have hbasis : deriveMonetaryBasis (fun _ => some .verified)
      (monetaryInputs (ingestEvidence acceptingValidator twiceRefunded)
        (businessInputs (ingestEvidence acceptingValidator twiceRefunded))) = .conclusive := by
    decide +kernel
  have hledger : snapshotTransactions (ingestEvidence acceptingValidator twiceRefunded) =
      [largeTransaction 61, largeTransaction 62] := by
    decide +kernel
  obtain ⟨payment, decision, -, -, hreturn, hresults⟩ :=
    monetary_rules_agree acceptingValidator twiceRefunded (fun _ => some .verified) hbasis
  rw [hledger] at hreturn hresults
  obtain ⟨results, hok⟩ := hreturn (by decide)
  refine ⟨results, hok, ?_⟩
  rw [(hresults results hok).2.1.2]
  rfl

end RefundStudy.Oracle
