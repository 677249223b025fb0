/-
  The records ingestion reads (`evidence-ingestion/ingestion-model.ts`, `record-correlation.ts`,
  `artifact-roles.ts`, `record-contract/records/`).

  Every member some reader uses is a member of its own; all others are kept together in `rest`, so
  that two records are equal here exactly when `sameJsonValue` calls them so.
-/
import RefundStudy.Record.Event
import RefundStudy.Record.Item
import RefundStudy.Record.Text
import RefundStudy.Package.Layout
import RefundStudy.Settlement.Evaluation

set_option autoImplicit false

namespace RefundStudy.Ingestion

open Record Package Settlement

/-! ## Correlation members -/

/-- A member of a parsed record: absent, a text, or some other JSON value. -/
inductive Member where
  | absent
  | text (value : String)
  | other (json : String)
  deriving DecidableEq

def Member.ownString : Member → Option String
  | .text value => some value
  | _ => none

/-- `Object.hasOwn`: whatever its value. -/
def Member.present : Member → Bool
  | .absent => false
  | _ => true

/-- The envelope members that correlate a record to its execution and trial. -/
structure Correlation where
  runId : Member := .absent
  variantValidationId : Member := .absent
  transportProbeId : Member := .absent
  executionManifestSha256 : Member := .absent
  trialId : Member := .absent
  trialManifestSha256 : Member := .absent
  deriving DecidableEq

/-- `EXECUTION_ID_FIELDS`, in their order. -/
inductive ExecutionIdField where
  | runId
  | variantValidationId
  | transportProbeId
  deriving DecidableEq

def executionIdFields : List ExecutionIdField := [.runId, .variantValidationId, .transportProbeId]

def Correlation.executionId (correlation : Correlation) : ExecutionIdField → Member
  | .runId => correlation.runId
  | .variantValidationId => correlation.variantValidationId
  | .transportProbeId => correlation.transportProbeId

/-- The execution a manifest names (`ExecutionIdentity`), its id as the records spell it. -/
structure ScopedExecution where
  kind : ExecutionKind
  id : String

def executionIdField : ExecutionKind → ExecutionIdField
  | .run => .runId
  | .transportProbe => .transportProbeId
  | .variantValidation => .variantValidationId

/-- The first id member that names another execution. -/
def otherExecutionField (correlation : Correlation) (active : ScopedExecution) :
    Option ExecutionIdField :=
  executionIdFields.find? fun field =>
    match (correlation.executionId field).ownString with
    | none => false
    | some named => decide (field ≠ executionIdField active.kind ∨ named ≠ active.id)

def hasExecutionId (correlation : Correlation) : Bool :=
  executionIdFields.any fun field => (correlation.executionId field).present

def executionPartition : String := "execution"

/-- The record's `trial_id`, or `execution`. -/
def partitionOf (correlation : Correlation) : String :=
  correlation.trialId.ownString.getD executionPartition

/-! ## Events as ingestion reads them -/

structure CommitTriple where
  providerCommitId : Uuid4
  providerTransactionId : Uuid4
  providerCallId : Uuid4
  deriving DecidableEq

inductive InterruptionCause where
  | leaseLost
  | operatorAbort
  | safetyDeadline
  | interrupted
  deriving DecidableEq

/-- The instants of an established `settlement_assessed`. -/
structure AssessedWindow where
  windowStart : UtcMillis
  establishedAt : UtcMillis
  recheckedAt : UtcMillis
  deriving DecidableEq

/-- The record types of the journals, with the members the readers use. -/
inductive ReadBody where
  -- the callers
  | callerInvocationStarted (approximateReceiveCount : Option Nat)
  | trialMessageRejected (reason : TrialMessageRejectionReason)
  | attemptRegistered (correlation : AttemptCorrelation)
  | attemptNotDispatched (correlation : AttemptCorrelation)
  | dispatchStarted (correlation : AttemptCorrelation)
  | callerTimeoutRecorded (correlation : AttemptCorrelation) (timeout : RecordedTimeout)
  | transportSettledAfterTimeout (correlation : AttemptCorrelation)
      (settlementKind : TransportSettlementKind)
  | attemptOutcomeRecorded (correlation : AttemptCorrelation) (outcome : AttemptOutcome)
      (providerCallId providerTransactionId : Option Uuid4)
  | requestStateRecorded (state : RecordedRequestState)
  -- the provider
  | providerCallReceived (providerCallId : Uuid4)
  | providerCallRejected (providerCallId : Uuid4)
  | providerCallAccepted (providerCallId : Uuid4) (correlation : AttemptCorrelation)
  | providerTransactionCommitted (commit : CommittedTransaction)
  | providerCommitConfirmed (triple : CommitTriple) (committedAt : UtcMillis)
  | providerCommitFailed (triple : CommitTriple)
  | providerResponseReturned (triple : CommitTriple) (attemptId providerRequestId : Uuid4)
  | providerWarmupCompleted (providerCallId : Uuid4)
  | treatmentTimeoutObserved (commit : CommitRefs) (signalEventId : Uuid4)
  | treatmentResponseReleased (commit : CommitRefs)
  | treatmentSafetyReleased (commit : Option CommitRefs)
  -- the controller
  | timeoutSignalRecorded (signal : RecordedSignal)
  | timeoutSignalConflictRecorded (refs : CallerEventRefs) (existingCallerEventId : Uuid4)
  -- the runner
  | treatmentArmed
  | trialMessagePublished (messageId messageBodySha256 : String)
  | settlementAssessed (window : Option AssessedWindow)
  | trialInterrupted (cause : InterruptionCause)
  /-- An event type whose members beyond the envelope no reader uses. -/
  | other (recordType : String)
  deriving DecidableEq

def ReadBody.recordType : ReadBody → String
  | .callerInvocationStarted _ => "caller_invocation_started"
  | .trialMessageRejected _ => "trial_message_rejected"
  | .attemptRegistered _ => "attempt_registered"
  | .attemptNotDispatched _ => "attempt_not_dispatched"
  | .dispatchStarted _ => "dispatch_started"
  | .callerTimeoutRecorded _ _ => "caller_timeout_recorded"
  | .transportSettledAfterTimeout _ _ => "transport_settled_after_timeout"
  | .attemptOutcomeRecorded _ _ _ _ => "attempt_outcome_recorded"
  | .requestStateRecorded _ => "request_state_recorded"
  | .providerCallReceived _ => "provider_call_received"
  | .providerCallRejected _ => "provider_call_rejected"
  | .providerCallAccepted _ _ => "provider_call_accepted"
  | .providerTransactionCommitted _ => "provider_transaction_committed"
  | .providerCommitConfirmed _ _ => "provider_commit_confirmed"
  | .providerCommitFailed _ => "provider_commit_failed"
  | .providerResponseReturned _ _ _ => "provider_response_returned"
  | .providerWarmupCompleted _ => "provider_warmup_completed"
  | .treatmentTimeoutObserved _ _ => "treatment_timeout_observed"
  | .treatmentResponseReleased _ => "treatment_response_released"
  | .treatmentSafetyReleased _ => "treatment_safety_released"
  | .timeoutSignalRecorded _ => "timeout_signal_recorded"
  | .timeoutSignalConflictRecorded _ _ => "timeout_signal_conflict_recorded"
  | .treatmentArmed => "treatment_armed"
  | .trialMessagePublished _ _ => "trial_message_published"
  | .settlementAssessed _ => "settlement_assessed"
  | .trialInterrupted _ => "trial_interrupted"
  | .other recordType => recordType

/-- A journal event: the BR-RUA-033 envelope over a body. -/
structure EventRecord where
  eventId : Uuid4
  occurredAt : UtcMillis
  source : EventSource
  sourceInstanceId : Uuid4
  sourceSequence : Nat
  causationEventIds : List Uuid4
  body : ReadBody
  deriving DecidableEq

inductive IdentityKind where
  | attemptId
  | providerRequestId
  | providerCallId
  | providerTransactionId
  | providerCommitId
  deriving DecidableEq

def correlationIdentity (correlation : AttemptCorrelation) : IdentityKind → Option Uuid4
  | .attemptId => some correlation.attemptId
  | .providerRequestId => some correlation.providerRequestId
  | _ => none

def tripleIdentity (triple : CommitTriple) : IdentityKind → Option Uuid4
  | .providerCallId => some triple.providerCallId
  | .providerTransactionId => some triple.providerTransactionId
  | .providerCommitId => some triple.providerCommitId
  | _ => none

def commitRefsIdentity (commit : CommitRefs) : IdentityKind → Option Uuid4
  | .attemptId => some commit.attemptId
  | .providerCallId => some commit.providerCallId
  | .providerCommitId => some commit.providerCommitId
  | _ => none

def committedIdentity (commit : CommittedTransaction) : IdentityKind → Option Uuid4
  | .attemptId => some commit.attemptId
  | .providerRequestId => some commit.providerRequestId
  | .providerCallId => some commit.providerCallId
  | .providerTransactionId => some commit.providerTransactionId
  | .providerCommitId => some commit.providerCommitId

/-- `eventString` of an identity member: `none` when the event has none. -/
def ReadBody.identity (body : ReadBody) (kind : IdentityKind) : Option Uuid4 :=
  match body with
  | .attemptRegistered correlation => correlationIdentity correlation kind
  | .attemptNotDispatched correlation => correlationIdentity correlation kind
  | .dispatchStarted correlation => correlationIdentity correlation kind
  | .callerTimeoutRecorded correlation _ => correlationIdentity correlation kind
  | .transportSettledAfterTimeout correlation _ => correlationIdentity correlation kind
  | .attemptOutcomeRecorded correlation _ providerCallId providerTransactionId =>
    match kind with
    | .providerCallId => providerCallId
    | .providerTransactionId => providerTransactionId
    | ofCaller => correlationIdentity correlation ofCaller
  | .providerCallReceived providerCallId =>
    if kind = .providerCallId then some providerCallId else none
  | .providerCallRejected providerCallId =>
    if kind = .providerCallId then some providerCallId else none
  | .providerWarmupCompleted providerCallId =>
    if kind = .providerCallId then some providerCallId else none
  | .providerCallAccepted providerCallId correlation =>
    if kind = .providerCallId then some providerCallId
    else correlationIdentity correlation kind
  | .providerTransactionCommitted commit => committedIdentity commit kind
  | .providerCommitConfirmed triple _ => tripleIdentity triple kind
  | .providerCommitFailed triple => tripleIdentity triple kind
  | .providerResponseReturned triple attemptId providerRequestId =>
    match kind with
    | .attemptId => some attemptId
    | .providerRequestId => some providerRequestId
    | ofCommit => tripleIdentity triple ofCommit
  | .treatmentTimeoutObserved commit _ => commitRefsIdentity commit kind
  | .treatmentResponseReleased commit => commitRefsIdentity commit kind
  | .treatmentSafetyReleased commit => commit.bind fun refs => commitRefsIdentity refs kind
  | .timeoutSignalRecorded signal =>
    match kind with
    | .attemptId => some signal.attemptId
    | .providerCommitId => some signal.providerCommitId
    | _ => none
  | .timeoutSignalConflictRecorded refs _ =>
    if kind = .attemptId then some refs.attemptId else none
  | .callerInvocationStarted _ | .trialMessageRejected _ | .requestStateRecorded _
  | .treatmentArmed | .trialMessagePublished _ _ | .settlementAssessed _ | .trialInterrupted _
  | .other _ => none

/-! ## Documents -/

structure TrialManifest where
  scenario : Scenario
  resourceManifestSha256 : Sha256Hex
  paymentSha256 : Sha256Hex
  approvedDecisionSha256 : Sha256Hex
  deriving DecidableEq

structure Payment where
  paymentId : String
  capturedAmountMinor : Nat
  currency : String
  deriving DecidableEq

structure ApprovedDecision where
  refundRequestId : String
  paymentId : String
  approvedAmountMinor : Nat
  currency : String
  deriving DecidableEq

/-- `item_present` says whether there is a treatment item. -/
structure TreatmentStateSnapshot where
  consistentRead : Bool
  treatment : Option TreatmentItem
  deriving DecidableEq

structure LedgerPage where
  pageNumber : Nat
  itemCount : Nat
  startCursor : Option String
  nextCursor : Option String
  deriving DecidableEq

/-- Its schema admits only `SUCCEEDED` transactions. -/
structure LedgerSnapshot where
  writer : EventSource
  consistentRead : Bool
  capturedAt : UtcMillis
  complete : Bool
  pages : List LedgerPage
  transactions : List LedgerTransaction
  deriving DecidableEq

structure DlqMessage where
  messageId : String
  bodySha256 : Sha256Hex
  deriving DecidableEq

inductive RecordBody where
  | event (record : EventRecord)
  | executionManifest (kind : ExecutionKind)
  | trialManifest (manifest : TrialManifest)
  | payment (payment : Payment)
  | approvedDecision (decision : ApprovedDecision)
  | providerTrialConfiguration (scenario : Scenario)
  | treatmentStateSnapshot (snapshot : TreatmentStateSnapshot)
  | ledgerSnapshot (snapshot : LedgerSnapshot)
  | dlqSnapshot (messages : List DlqMessage)
  | settlementSample (sample : SettlementSample)
  /-- A catalogued document whose members no reader uses. -/
  | document (recordType : String)
  /-- A JSON object without a catalogued `record_type`. -/
  | uncatalogued
  /-- Any JSON value that is no object. -/
  | notObject
  deriving DecidableEq

/-- One entry of a record's `evidence_refs`, its texts. -/
structure ReferenceEntry where
  artifactPath : Option String
  artifactSha256 : Option String
  packageIndexSha256 : Option String
  deriving DecidableEq

structure RecordValue where
  correlation : Correlation
  body : RecordBody
  evidenceRefs : List ReferenceEntry := []
  rest : String := ""
  deriving DecidableEq

def RecordValue.asEvent (value : RecordValue) : Option EventRecord :=
  match value.body with
  | .event record => some record
  | _ => none

/-! ## Artifact classes -/

inductive ArtifactClass where
  | executionManifest
  | resourceManifest
  | runnerJournal
  | trialManifest
  | payment
  | approvedDecision
  | publishedMessage
  | providerTrialConfiguration
  | treatmentStateSnapshot
  | trialRegistration
  | callerJournal
  | providerJournal
  | controllerJournal
  | ledgerSnapshot
  | sourceObservations
  | dlqObservations
  | dlqSnapshot
  | settlementSamples
  | durableExecutionMetadata
  | telemetryAvailability
  deriving DecidableEq

def ArtifactClass.text : ArtifactClass → String
  | .executionManifest => "execution_manifest"
  | .resourceManifest => "resource_manifest"
  | .runnerJournal => "runner_journal"
  | .trialManifest => "trial_manifest"
  | .payment => "payment"
  | .approvedDecision => "approved_decision"
  | .publishedMessage => "published_message"
  | .providerTrialConfiguration => "provider_trial_configuration"
  | .treatmentStateSnapshot => "treatment_state_snapshot"
  | .trialRegistration => "trial_registration"
  | .callerJournal => "caller_journal"
  | .providerJournal => "provider_journal"
  | .controllerJournal => "controller_journal"
  | .ledgerSnapshot => "ledger_snapshot"
  | .sourceObservations => "source_observations"
  | .dlqObservations => "dlq_observations"
  | .dlqSnapshot => "dlq_snapshot"
  | .settlementSamples => "settlement_samples"
  | .durableExecutionMetadata => "durable_execution_metadata"
  | .telemetryAvailability => "telemetry_availability"

inductive ExpectedRecordShape where
  | anyEvent
  | recordType (name : String)

def recordShapeByClass : ArtifactClass → ExpectedRecordShape
  | .runnerJournal | .callerJournal | .providerJournal | .controllerJournal => .anyEvent
  | .publishedMessage => .recordType "trial_message"
  | .sourceObservations | .dlqObservations => .recordType "queue_observation"
  | .settlementSamples => .recordType "settlement_sample"
  | other => .recordType other.text

/-- `record_type` of a body; `none` when it is not catalogued. -/
def RecordBody.recordType : RecordBody → Option String
  | .event record => some record.body.recordType
  | .executionManifest _ => some "execution_manifest"
  | .trialManifest _ => some "trial_manifest"
  | .payment _ => some "payment"
  | .approvedDecision _ => some "approved_decision"
  | .providerTrialConfiguration _ => some "provider_trial_configuration"
  | .treatmentStateSnapshot _ => some "treatment_state_snapshot"
  | .ledgerSnapshot _ => some "ledger_snapshot"
  | .dlqSnapshot _ => some "dlq_snapshot"
  | .settlementSample _ => some "settlement_sample"
  | .document recordType => some recordType
  | .uncatalogued => none
  | .notObject => none

def executionLevelClasses : List ArtifactClass :=
  [.executionManifest, .resourceManifest, .runnerJournal]

end RefundStudy.Ingestion
