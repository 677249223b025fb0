/-
  The validity gates the oracle owns (`trial-oracle/trial-settlement.ts`,
  `processing-terminal-reason.ts`, `independent-oracle-gate.ts`, `ledger-access-gate.ts`,
  `settlement-gate.ts`, `rule-evidence-gate.ts`; design 8.3 and 8.7): G1 independent oracle, G5
  ledger access, G6 settlement and G7 rule evidence.
-/
import RefundStudy.Oracle.Monetary
import RefundStudy.Ingestion.ValidityGates
import RefundStudy.Journal.SortKey

set_option autoImplicit false

namespace RefundStudy.Oracle

open Foundation Record Package Ingestion
open Settlement Fidelity Journal

/-! ## Instants in details -/

def civilDate (days : Nat) : Nat × Nat × Nat :=
  let shifted := days + 719468
  let dayOfEra := shifted % 146097
  let yearOfEra := (dayOfEra - dayOfEra / 1460 + dayOfEra / 36524 - dayOfEra / 146096) / 365
  let dayOfYear := dayOfEra - (365 * yearOfEra + yearOfEra / 4 - yearOfEra / 100)
  let shiftedMonth := (5 * dayOfYear + 2) / 153
  let month := if shiftedMonth < 10 then shiftedMonth + 3 else shiftedMonth - 9
  (shifted / 146097 * 400 + yearOfEra + (if month ≤ 2 then 1 else 0), month,
    dayOfYear - (153 * shiftedMonth + 2) / 5 + 1)

def paddedText (width value : Nat) : String :=
  String.ofList ((Nat.toDigits 10 value).leftpad width '0')

def utcText (instant : UtcMillis) : String :=
  let date := civilDate (instant / 86400000)
  let millis := instant % 86400000
  paddedText 4 date.1 ++ "-" ++ paddedText 2 date.2.1 ++ "-" ++ paddedText 2 date.2.2 ++ "T" ++
    paddedText 2 (millis / 3600000) ++ ":" ++ paddedText 2 (millis / 60000 % 60) ++ ":" ++
    paddedText 2 (millis / 1000 % 60) ++ "." ++ paddedText 3 (millis % 1000) ++ "Z"

example : utcText 1709210096789 = "2024-02-29T12:34:56.789Z" := by decide +kernel

/-! ## The settlement facts -/

/-- `trial_message_published`. -/
structure PublishedMessage where
  messageId : String
  messageBodySha256 : String

def asPublished : ReadBody → Option PublishedMessage
  | .trialMessagePublished messageId bodySha256 => some ⟨messageId, bodySha256⟩
  | _ => none

/-- `settlement_assessed`: the window of an established assessment. -/
def asAssessed : ReadBody → Option (Option AssessedWindow)
  | .settlementAssessed window => some window
  | _ => none

structure TrialSettlement where
  samples : SubjectArtifactState
  runnerJournal : SubjectArtifactState
  published : Option (EventOf PublishedMessage)
  assessed : Option (EventOf (Option AssessedWindow))
  derived : Option SettlementAssessment

variable (evidence : IngestedEvidence)

/-- Settlement is derived again only from complete samples of a known publication. -/
def readTrialSettlement : TrialSettlement :=
  let events := partitionEvents evidence
  let samples := subjectArtifactState evidence .settlementSamples
  let published := (eventsOfType asPublished events).getLast?
  { samples := samples
    runnerJournal := subjectArtifactState evidence .runnerJournal
    published := published
    assessed := (eventsOfType asAssessed events).getLast?
    derived :=
      if samples.complete then
        published.map fun found =>
          evaluateSettlement (evidence.observations.settlementSamples.map LocatedRecord.record)
            trialSettlementPolicy found.event.record.occurredAt
      else none }

/-! ## The processing terminal reason -/

def maxReceiveCount : Nat := 2

/-- `SUBJECT` of the terminal reason. -/
def terminalSubject : String := "BR-RUA-030"

def terminalReasonText : ProcessingTerminalReason → String
  | .succeeded => "SUCCEEDED"
  | .retriesExhausted => "RETRIES_EXHAUSTED"
  | .messageRejected => "MESSAGE_REJECTED"
  | .providerRejected => "PROVIDER_REJECTED"
  | .interrupted => "INTERRUPTED"
  | .safetyDeadline => "SAFETY_DEADLINE"

def interruptionReason : Ingestion.InterruptionCause → ProcessingTerminalReason
  | .leaseLost => .interrupted
  | .operatorAbort => .interrupted
  | .interrupted => .interrupted
  | .safetyDeadline => .safetyDeadline

structure TerminalReasonDerivation where
  reason : Option ProcessingTerminalReason
  reasons : List StructuredReason
  evidenceRefs : List EvidenceRef

/-- Its schema requires the terminal reason. -/
structure FinishedState where
  version : Nat
  terminalReason : ProcessingTerminalReason

def asFinished : ReadBody → Option FinishedState
  | .requestStateRecorded state =>
    if state.processingState = .finished then
      state.processingTerminalReason.map (FinishedState.mk state.version)
    else none
  | _ => none

def asInvocation : ReadBody → Option (Option Nat)
  | .callerInvocationStarted receiveCount => some receiveCount
  | _ => none

def asInterrupted : ReadBody → Option Ingestion.InterruptionCause
  | .trialInterrupted cause => some cause
  | _ => none

variable (events : List IndexedEvent)

/-- The queue-driven invocation started in the same source instance. -/
def decidingInvocation (state : EventOf FinishedState) : Option (EventOf (Option Nat)) :=
  (eventsOfType asInvocation events).find? fun invocation =>
    decide (invocation.event.record.source ≠ .probeCaller) &&
      decide (invocation.event.record.source = state.event.record.source) &&
      decide (invocation.event.record.sourceInstanceId = state.event.record.sourceInstanceId)

def dlqMessageRef : Option EvidenceRef :=
  match evidence.observations.dlqSnapshot, (eventsOfType asPublished events).getLast? with
  | some snapshot, some published =>
    (snapshot.record.findIdx? fun message =>
      decide (message.messageId = published.body.messageId ∨
        message.bodySha256 = published.body.messageBodySha256)).map fun index =>
      { artifactPath := snapshot.artifactPath
        artifactSha256 := snapshot.artifactSha256
        jsonPointer := some ("/messages/" ++ toString index) }
  | _, _ => none

def terminalConflict (detail : String) (at' : EventOf FinishedState) (refs : List EvidenceRef) :
    TerminalReasonDerivation where
  reason := none
  reasons := [reasonAt terminalSubject "PROCESSING_TERMINAL_CONFLICT" detail
    (some (eventRef at'.event))]
  evidenceRefs := refs

/-- A claimed `RETRIES_EXHAUSTED` stands when its invocation received the message for the last
time. -/
def exhaustedBy (last : EventOf FinishedState) (invocation : Option (EventOf (Option Nat)))
    (refs : List EvidenceRef) : TerminalReasonDerivation :=
  let receiveCount := invocation.bind EventOf.body
  let cited := refs ++ (invocation.map fun found => eventRef found.event).toList
  if receiveCount.any fun count => decide (maxReceiveCount ≤ count) then
    ⟨some last.body.terminalReason, [], cited⟩
  else
    { reason := none
      reasons := [reasonAt "BR-RUA-024" "TERMINALITY_BEFORE_LAST_LAYER"
        ("RETRIES_EXHAUSTED was recorded by an invocation with receive count " ++
          (receiveCount.map fun count => toString count).getD "(unknown)" ++
          "; expected the last receive (" ++ toString maxReceiveCount ++
          ") before the request finishes")
        (some (eventRef last.event))]
      evidenceRefs := cited }

def fromFinishedState (finished : List (EventOf FinishedState))
    (last : EventOf FinishedState) (dlqRef : Option EvidenceRef) : TerminalReasonDerivation :=
  let claimed := last.body.terminalReason
  let refs := eventRef last.event :: dlqRef.toList
  match finished.find? fun state => decide (state.body.terminalReason ≠ claimed) with
  | some disagreeing =>
    terminalConflict
      ("FINISHED states " ++ uuidString disagreeing.event.record.eventId ++ " (" ++
        terminalReasonText disagreeing.body.terminalReason ++ ") and " ++
        uuidString last.event.record.eventId ++ " (" ++ terminalReasonText claimed ++
        ") disagree; expected one terminal reason")
      last (refs ++ [eventRef disagreeing.event])
  | none =>
    if dlqRef.isSome then
      if claimed = .retriesExhausted then ⟨some claimed, [], refs⟩
      else
        terminalConflict
          ("the DLQ holds the trial message but the request state finished " ++
            terminalReasonText claimed ++ "; expected RETRIES_EXHAUSTED") last refs
    else if claimed ≠ .retriesExhausted then ⟨some claimed, [], refs⟩
    else exhaustedBy last (decidingInvocation events last) refs

def unknownTerminal : TerminalReasonDerivation :=
  let caller := subjectArtifactState evidence .callerJournal
  match caller.ref with
  | none => ⟨none, [incompleteArtifactReason caller terminalSubject], []⟩
  | some ref =>
    ⟨none, [reasonAt terminalSubject "PROCESSING_NOT_TERMINAL"
      ("no FINISHED request state, DLQ capture of the trial message or trial interruption is " ++
        "recorded; expected a terminal processing state") (some ref)], [ref]⟩

/-- The `FINISHED` states of the callers, by version. -/
def finishedStates : List (EventOf FinishedState) :=
  ((eventsOfType asFinished events).filter fun found => isCallerEvent found.event).insertionSort
    fun first second => first.body.version ≤ second.body.version

def deriveProcessingTerminalReason : TerminalReasonDerivation :=
  let events := partitionEvents evidence
  let finished := finishedStates events
  let dlqRef := dlqMessageRef evidence events
  match finished.getLast? with
  | some last => fromFinishedState events finished last dlqRef
  | none =>
    match dlqRef with
    | some ref => ⟨some .retriesExhausted, [], [ref]⟩
    | none =>
      match (eventsOfType asInterrupted events).getLast? with
      | some interrupted =>
        ⟨some (interruptionReason interrupted.body), [], [eventRef interrupted.event]⟩
      | none => unknownTerminal evidence

theorem terminal_reason_derived : (deriveProcessingTerminalReason evidence).reasons = [] ↔
      (deriveProcessingTerminalReason evidence).reason.isSome = true := by
  unfold deriveProcessingTerminalReason
  dsimp only
  split
  · -- a finished state: its claim stands or is refused with a reason
    unfold fromFinishedState
    dsimp only
    split
    · simp [terminalConflict]
    · split
      · split <;> simp [terminalConflict]
      · split
        · simp
        · unfold exhaustedBy
          dsimp only
          split <;> simp
  · split
    · simp
    · split
      · simp
      · unfold unknownTerminal
        dsimp only
        split <;> simp

/-! ## G1 independent oracle -/

def ledgerCollector : EventSource := .evidenceCollector

def captureCauses (capturedAt : UtcMillis) (derived : Option SettlementAssessment)
    (ledgerRef : Option EvidenceRef) : List GateCause :=
  match derived with
  | some (.established settled) =>
    if settled.establishedAt ≤ capturedAt ∧ capturedAt ≤ settled.recheckedAt then []
    else
      [⟨.unverified, reasonAt monetarySubject "LEDGER_CAPTURED_OUTSIDE_SETTLED_WINDOW"
        ("the ledger snapshot was captured at " ++ utcText capturedAt ++
          "; expected an instant in [" ++ utcText settled.establishedAt ++ ", " ++
          utcText settled.recheckedAt ++ "]") ledgerRef, ledgerRef.toList⟩]
  | _ =>
    [⟨.unverified, reasonAt monetarySubject "SETTLEMENT_NOT_ESTABLISHED"
      ("the ledger snapshot captured at " ++ utcText capturedAt ++
        " has no settled window to lie in; expected a capture after settlement was established")
      ledgerRef, ledgerRef.toList⟩]

def independenceCauses (snapshot : LedgerSnapshot) (derived : Option SettlementAssessment)
    (ledgerRef : Option EvidenceRef) : List GateCause :=
  (if snapshot.consistentRead then []
    else
      [⟨.invalid, reasonAt monetarySubject "LEDGER_READ_NOT_CONSISTENT"
        ("the ledger snapshot declares consistent_read false; expected a strongly consistent " ++
          "read") ledgerRef, ledgerRef.toList⟩]) ++
  (if snapshot.writer = ledgerCollector then []
    else
      [⟨.invalid, reasonAt monetarySubject "LEDGER_NOT_INDEPENDENT"
        ("the ledger snapshot was written by " ++ sourceText snapshot.writer ++ "; expected " ++
          sourceText ledgerCollector) ledgerRef, ledgerRef.toList⟩]) ++
  captureCauses snapshot.capturedAt derived ledgerRef

def assessIndependentOracle (settlement : TrialSettlement) : GateAssessment :=
  let state := subjectArtifactState evidence .ledgerSnapshot
  match evidence.ledger.snapshot with
  | none =>
    assembleGate .independentOracle
      [⟨.unverified, incompleteArtifactReason state monetarySubject, state.ref.toList⟩] []
  | some snapshot =>
    assembleGate .independentOracle
      (independenceCauses snapshot.record settlement.derived state.ref) state.ref.toList

/-! ## G5 ledger access -/

/-- `SUBJECT` of the ledger access gate. -/
def ledgerAccessSubject : String := "BR-RUA-034"

def accessCauses (ledger : LedgerView) (snapshot : LedgerSnapshot)
    (ledgerRef : Option EvidenceRef) : List GateCause :=
  (match ledger.duplicateTransactionIds with
    | [] => []
    | duplicate :: _ =>
      [⟨.invalid, reasonAt ledgerAccessSubject "DUPLICATE_LEDGER_TRANSACTION_ID"
        (aggregatedDetail ("provider_transaction_id " ++ uuidString duplicate ++
          " appears more than once; expected unique ids") ledger.duplicateTransactionIds.length)
        ledgerRef, ledgerRef.toList⟩]) ++
  (match ledger.paginationProblems with
    | [] => []
    | problem :: _ =>
      [⟨.unverified, reasonAt ledgerAccessSubject "LEDGER_PAGINATION_INCOMPLETE"
        (aggregatedDetail ("pagination is incomplete (" ++ problem ++
          "); expected every page read") ledger.paginationProblems.length)
        ledgerRef, ledgerRef.toList⟩]) ++
  (if snapshot.consistentRead then []
    else
      [⟨.unverified, reasonAt ledgerAccessSubject "LEDGER_READ_NOT_CONSISTENT"
        "the ledger snapshot declares consistent_read false; expected a consistent read"
        ledgerRef, ledgerRef.toList⟩])

def assessLedgerAccess : GateAssessment :=
  let state := subjectArtifactState evidence .ledgerSnapshot
  match evidence.ledger.snapshot with
  | none =>
    assembleGate .ledgerAccess
      [⟨.unverified, incompleteArtifactReason state ledgerAccessSubject, state.ref.toList⟩] []
  | some snapshot =>
    assembleGate .ledgerAccess (accessCauses evidence.ledger snapshot.record state.ref)
      state.ref.toList

/-! ## G6 settlement -/

/-- `SUBJECT` of the settlement gate. -/
def settlementSubject : String := "BR-RUA-032"

def restartCauseText : SettlementRestartCause → String
  | .sourceVisible => "SOURCE_VISIBLE"
  | .sourceInFlight => "SOURCE_IN_FLIGHT"
  | .sourceDelayed => "SOURCE_DELAYED"
  | .newCorrelatedDlqMessage => "NEW_CORRELATED_DLQ_MESSAGE"
  | .uncapturedDlqMessage => "UNCAPTURED_DLQ_MESSAGE"
  | .correlatedJournalActivity => "CORRELATED_JOURNAL_ACTIVITY"
  | .ledgerActivity => "LEDGER_ACTIVITY"
  | .providerActive => "PROVIDER_ACTIVE"
  | .processingNotTerminal => "PROCESSING_NOT_TERMINAL"
  | .innerExecutionActive => "INNER_EXECUTION_ACTIVE"
  | .treatmentNotTerminal => "TREATMENT_NOT_TERMINAL"
  | .queueUnavailable => "QUEUE_UNAVAILABLE"
  | .preFreezeActivity => "PRE_FREEZE_ACTIVITY"

/-- The code and detail of an unsettled unit's reason. -/
def unsettledText (policy : SettlementPolicy) (publishedAt : UtcMillis) :
    UnsettledReason → String × String
  | .deadline =>
    ("DEADLINE", "no such window was observed; expected " ++ windowText)
  | .notQuiet cause observedAt =>
    (restartCauseText cause, "the sample at " ++ utcText observedAt ++ " was not quiet (" ++
      restartCauseText cause ++ "); expected " ++ windowText)
where
  windowText : String :=
    "a quiet window of " ++ toString policy.stabilizationMs ++
      " ms and a quiet pre-freeze recheck within " ++ toString policy.observationDeadlineMs ++
      " ms of publication at " ++ utcText publishedAt

/-- `incompleteCause` of the settlement gate. -/
def settlementIncompleteCause (state : SubjectArtifactState) : GateCause :=
  ⟨.unverified, incompleteArtifactReason state settlementSubject, state.ref.toList⟩

def runnerCause (runner : SubjectArtifactState) (code recordType : String) : GateCause :=
  match runner.ref with
  | none => settlementIncompleteCause runner
  | some ref =>
    ⟨.unverified, reasonAt settlementSubject code
      ("the runner journal has no " ++ recordType ++ " for the trial; expected the runner's " ++
        "record") (some ref), [ref]⟩

def settlementMissingCauses (settlement : TrialSettlement) : List GateCause :=
  (if settlement.samples.complete then [] else [settlementIncompleteCause settlement.samples]) ++
  (if settlement.published.isSome then []
    else [runnerCause settlement.runnerJournal "PUBLICATION_NOT_RECORDED"
      "trial_message_published"]) ++
  (if settlement.assessed.isSome then []
    else [runnerCause settlement.runnerJournal "SETTLEMENT_NOT_ASSESSED" "settlement_assessed"])

/-- The re-derivation agrees with the runner's window. -/
def agreesWith (derived : SettlementAssessment) (window : AssessedWindow) : Bool :=
  match derived with
  | .established settled =>
    decide (settled.windowStart = window.windowStart ∧
      settled.establishedAt = window.establishedAt ∧ settled.recheckedAt = window.recheckedAt)
  | .notEstablished _ _ => false

def settledText (windowStart establishedAt recheckedAt : UtcMillis) : String :=
  "established " ++ utcText windowStart ++ ".." ++ utcText establishedAt ++ ", rechecked " ++
    utcText recheckedAt

/-- What the samples re-derive, in a detail. -/
def rederivedText : SettlementAssessment → String
  | .established settled =>
    settledText settled.windowStart settled.establishedAt settled.recheckedAt
  | .notEstablished _ _ => "not established"

def judgementCauses (derived : SettlementAssessment) (publishedAt : UtcMillis)
    (assessed : EventOf (Option AssessedWindow)) (refs : List EvidenceRef) : List GateCause :=
  let location := some (eventRef assessed.event)
  match assessed.body with
  | some window =>
    if agreesWith derived window then []
    else
      [⟨.invalid, reasonAt settlementSubject "SETTLEMENT_REDERIVATION_MISMATCH"
        ("the runner assessed " ++
          settledText window.windowStart window.establishedAt window.recheckedAt ++
          "; the frozen samples re-derive " ++ rederivedText derived ++
          "; expected the same judgement") location, refs⟩]
  | none =>
    match derived with
    | .established settled =>
      [⟨.unverified, reasonAt settlementSubject "SETTLEMENT_NOT_ESTABLISHED"
        ("the runner assessed not_established although the samples re-derive established at " ++
          utcText settled.establishedAt ++ "; expected an established assessment")
        location, refs⟩]
    | .notEstablished reasons _ =>
      reasons.map fun reason =>
        let text := unsettledText trialSettlementPolicy publishedAt reason
        ⟨.unverified, reasonAt settlementSubject text.1 text.2 location, refs⟩

def terminalCauses (terminal : TerminalReasonDerivation) : List GateCause :=
  terminal.reasons.map fun reason => ⟨.unverified, reason, terminal.evidenceRefs⟩

def assessSettlementGate (settlement : TrialSettlement) (terminal : TerminalReasonDerivation) :
    GateAssessment :=
  match settlement.derived, settlement.published, settlement.assessed with
  | some derived, some published, some assessed =>
    let refs := settlement.samples.ref.toList ++ [eventRef published.event,
      eventRef assessed.event]
    assembleGate .settlement
      (judgementCauses derived published.event.record.occurredAt assessed refs ++
        terminalCauses terminal)
      (refs ++ terminal.evidenceRefs)
  | _, _, _ =>
    assembleGate .settlement (settlementMissingCauses settlement ++ terminalCauses terminal) []

theorem terminal_of_settlement {settlement : TrialSettlement} {evidence : IngestedEvidence}
    (hverified : (assessSettlementGate settlement
      (deriveProcessingTerminalReason evidence)).value = .verified) :
    (deriveProcessingTerminalReason evidence).reason.isSome = true := by
  have hcauses : terminalCauses (deriveProcessingTerminalReason evidence) = [] := by
    unfold assessSettlementGate at hverified
    split at hverified
    · exact (List.append_eq_nil_iff.mp (assembleGate_verified.mp hverified)).2
    · exact (List.append_eq_nil_iff.mp (assembleGate_verified.mp hverified)).2
  rw [terminalCauses, List.map_eq_nil_iff] at hcauses
  exact (terminal_reason_derived evidence).mp hcauses

/-! ## G7 rule evidence -/

/-- `SUBJECT` of the rule evidence gate. -/
def ruleEvidenceSubject : String := "BR-RUA-029"

def inputMissingReason {α : Type} (state : BusinessInputState α) (subject : String) :
    StructuredReason where
  code := "INPUT_MISSING"
  subject := subject
  artifactPath := some state.path
  detail := state.path ++ " has no usable " ++ state.artifactClass.text ++
    "; expected the trial's " ++ state.artifactClass.text ++ " document"

def artifactCauses (state : SubjectArtifactState) (usable : Bool) : List GateCause :=
  if usable then []
  else [⟨.unverified, incompleteArtifactReason state ruleEvidenceSubject, state.ref.toList⟩]

def inputCauses {α : Type} (state : BusinessInputState α) : List GateCause :=
  if state.record.isSome then []
  else [⟨.unverified, inputMissingReason state ruleEvidenceSubject, state.ref.toList⟩]

def assessRuleEvidence : GateAssessment :=
  let caller := subjectArtifactState evidence .callerJournal
  let ledger := subjectArtifactState evidence .ledgerSnapshot
  let inputs := businessInputs evidence
  assembleGate .ruleEvidence
    (artifactCauses caller caller.complete ++
      artifactCauses ledger evidence.ledger.snapshot.isSome ++
      inputCauses inputs.payment ++ inputCauses inputs.decision)
    ([caller.ref, ledger.ref, inputs.payment.ref, inputs.decision.ref].filterMap id)

theorem inputs_of_ruleEvidence {evidence : IngestedEvidence}
    (hverified : (assessRuleEvidence evidence).value = .verified) :
    (subjectArtifactState evidence .callerJournal).complete = true ∧
      evidence.ledger.snapshot.isSome = true ∧
      (businessInputs evidence).payment.record.isSome = true ∧
      (businessInputs evidence).decision.record.isSome = true := by
  have hcauses := assembleGate_verified.mp hverified
  rw [List.append_eq_nil_iff, List.append_eq_nil_iff, List.append_eq_nil_iff] at hcauses
  obtain ⟨⟨⟨hcaller, hledger⟩, hpayment⟩, hdecision⟩ := hcauses
  unfold artifactCauses at hcaller hledger
  unfold inputCauses at hpayment hdecision
  refine ⟨?_, ?_, ?_, ?_⟩
  · by_contra hnot
    rw [if_neg hnot] at hcaller
    cases hcaller
  · by_contra hnot
    rw [if_neg hnot] at hledger
    cases hledger
  · by_contra hnot
    rw [if_neg hnot] at hpayment
    cases hpayment
  · by_contra hnot
    rw [if_neg hnot] at hdecision
    cases hdecision

end RefundStudy.Oracle
