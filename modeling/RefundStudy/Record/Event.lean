/-
  The journal events of one trial partition.

  The execution identity, the manifest digests and the trial identity are the same in every event
  of one partition and are not repeated in each of them; free diagnostic texts (`detail`) are left
  out.
-/
import RefundStudy.Record.Vocabulary
import Mathlib.Data.List.Sort
import Mathlib.Data.List.Dedup
import Mathlib.Order.Defs.LinearOrder

set_option autoImplicit false

namespace RefundStudy.Record

/-! ## Shared shapes -/

/-- `PROVIDER_CALLER_IDS`. -/
inductive ProviderCallerId where
  | conventional
  | durable
  | probe
  deriving DecidableEq

/-- `AcceptedCall` (acceptance.ts): a call that passed every check. -/
structure AcceptedCall where
  callerId : ProviderCallerId
  attemptId : Uuid4
  providerRequestId : Uuid4
  refundRequestId : String
  paymentId : String
  amountMinor : Nat
  currency : String
  deriving DecidableEq

/-- The commit an event of the treatment barrier belongs to (`commitRefs`). -/
structure CommitRefs where
  providerCommitId : Uuid4
  providerCallId : Uuid4
  attemptId : Uuid4
  deriving DecidableEq

/-- The caller event a controller decision answers (`CallerEventRefs`). -/
structure CallerEventRefs where
  callerTimeoutEventId : Uuid4
  attemptId : Uuid4
  deriving DecidableEq

structure AttemptCorrelation where
  attemptId : Uuid4
  providerRequestId : Uuid4
  refundRequestId : String
  deriving DecidableEq

/-- The body of `provider_transaction_committed` (`commitEventBody`). -/
structure CommittedTransaction where
  providerCommitId : Uuid4
  providerTransactionId : Uuid4
  providerCallId : Uuid4
  attemptId : Uuid4
  providerRequestId : Uuid4
  refundRequestId : String
  paymentId : String
  amountMinor : Nat
  currency : String
  targeted : Bool
  commitRequestedAt : UtcMillis
  deriving DecidableEq

/-- The body of `timeout_signal_recorded` (`prepareSignalRecord`). -/
structure RecordedSignal where
  providerCommitId : Uuid4
  attemptId : Uuid4
  callerTimeoutEventId : Uuid4
  providerCommitEventId : Uuid4
  deriving DecidableEq

/-- Diagnostics a provider response carried (`ResponseDiagnostics`). -/
structure ResponseDiagnostics where
  executedVersion : Option String := none
  functionError : Option String := none
  deriving DecidableEq

/-- `AttemptResolution` (attempt-resolution.ts): how one attempt ended.  Only a
failed attempt may be anything but dispatched. -/
inductive AttemptResolution where
  | succeeded (providerCallId providerTransactionId : Uuid4)
      (dispatchToSettlementNs : DecimalNs) (diagnostics : ResponseDiagnostics)
  | rejected (providerCallId : Uuid4) (rejectionReason : ProviderRejectionReason)
      (dispatchToSettlementNs : DecimalNs) (diagnostics : ResponseDiagnostics)
  | timedOut (dispatchToSettlementNs : DecimalNs)
  | failed (dispatchState : DispatchState) (failure : AttemptFailureCode)
      (dispatchToSettlementNs : Option DecimalNs) (diagnostics : ResponseDiagnostics)
  deriving DecidableEq

/-- The `outcome` member of a resolution. -/
def AttemptResolution.outcome : AttemptResolution → AttemptOutcome
  | .succeeded .. => .succeeded
  | .rejected .. => .rejected
  | .timedOut .. => .timedOut
  | .failed .. => .failed

/-- The `dispatch_state` member of a resolution. -/
def AttemptResolution.dispatchState : AttemptResolution → DispatchState
  | .succeeded .. => .dispatched
  | .rejected .. => .dispatched
  | .timedOut .. => .dispatched
  | .failed dispatchState .. => dispatchState

/-- The body of `request_state_recorded`. -/
structure RecordedRequestState where
  version : Nat
  effectKnowledge : EffectKnowledge
  attemptIds : List Uuid4
  processingState : ProcessingState
  processingTerminalReason : Option ProcessingTerminalReason
  refundRequestId : Option String
  deriving DecidableEq

/-- The body of `caller_timeout_recorded` after its correlation. -/
structure RecordedTimeout where
  elapsedNs : DecimalNs
  monotonicOriginEventId : Uuid4
  dispatchAt : UtcMillis
  deadlineAt : UtcMillis
  timerFiredAt : UtcMillis
  abortRequestedAt : UtcMillis
  recordedAt : UtcMillis
  arbiterWinner : ArbiterWinner
  transportSettledAtClaim : Bool
  deriving DecidableEq

/-! ## Event bodies -/

/-- The record types of the partition's journals with their bodies. -/
inductive EventBody where
  -- refund_provider
  | providerCallReceived (providerCallId : Uuid4) (rawRequestSha256 : String)
  | providerCallAccepted (providerCallId : Uuid4) (call : AcceptedCall)
  | providerCallRejected (providerCallId : Uuid4) (reason : ProviderRejectionReason)
  | providerTransactionCommitted (commit : CommittedTransaction)
  | providerCommitConfirmed (providerCommitId providerTransactionId providerCallId : Uuid4)
      (committedAt : UtcMillis)
  | providerCommitFailed (providerCommitId providerTransactionId providerCallId : Uuid4)
      (targeted : Bool) (errorCode : String)
  | providerResponseReturned (providerCommitId providerTransactionId providerCallId
      attemptId providerRequestId : Uuid4)
  | treatmentTimeoutObserved (commit : CommitRefs) (signalEventId : Uuid4)
  | treatmentResponseReleased (commit : CommitRefs)
  | treatmentSafetyReleased (cause : SafetyReleaseCause) (fromState : CommittedWaitState)
      (commit : CommitRefs) (elapsedSinceCommitNs : DecimalNs)
  -- treatment_controller
  | timeoutSignalRecorded (signal : RecordedSignal)
  | callerTimeoutRejected (reason : CallerTimeoutRejectionReason)
      (callerTimeoutEventId attemptId : Option Uuid4) (treatmentState : Option TreatmentState)
  | lateTimeoutSignalRejected (refs : CallerEventRefs) (treatmentState : TreatmentState)
  | timeoutSignalDuplicateObserved (refs : CallerEventRefs)
      (treatmentState : SignalledTreatmentState)
  | timeoutSignalConflictRecorded (refs : CallerEventRefs) (existingCallerEventId : Uuid4)
      (treatmentState : SignalledTreatmentState)
  -- conventional_caller, durable_caller
  | callerInvocationStarted (lambdaRequestId messageId : String)
      (approximateReceiveCount : Nat) (durableExecutionArn : Option String)
      (stepAttempt : Option Nat)
  | trialMessageRejected (reason : TrialMessageRejectionReason)
      (refundRequestId : Option String) (messageId messageBodySha256 : String)
  | attemptRegistered (correlation : AttemptCorrelation) (paymentId : String)
      (amountMinor : Nat) (currency providerQualifier : String)
  | attemptNotDispatched (correlation : AttemptCorrelation) (failure : AttemptFailureCode)
  | dispatchStarted (correlation : AttemptCorrelation) (dispatchAt deadlineAt : UtcMillis)
      (deadlineNs : DecimalNs)
  | callerTimeoutRecorded (correlation : AttemptCorrelation) (timeout : RecordedTimeout)
  | transportSettledAfterTimeout (correlation : AttemptCorrelation)
      (settlementKind : TransportSettlementKind) (observedAfterElapsedNs : DecimalNs)
  | attemptOutcomeRecorded (correlation : AttemptCorrelation) (resolution : AttemptResolution)
  | requestStateRecorded (state : RecordedRequestState)
  | innerExecutionExhausted (refundRequestId durableExecutionArn : String)
      (stepAttempts approximateReceiveCount : Nat) (lastAttemptId : Uuid4)
  deriving DecidableEq

/-! ## The envelope -/

/-- `causationIds` (envelope.ts): the predecessors in their serialized form,
duplicate-free and ascending.  No predecessor is the empty list, which the
record omits. -/
def causationIds (ids : List Uuid4) : List Uuid4 :=
  ids.dedup.insertionSort (· ≤ ·)

@[simp] theorem mem_causationIds (ids : List Uuid4) (id : Uuid4) :
    id ∈ causationIds ids ↔ id ∈ ids := by
  simp [causationIds]

@[simp] theorem causationIds_singleton (id : Uuid4) : causationIds [id] = [id] := by
  simp [causationIds]

theorem causationIds_ascending (ids : List Uuid4) :
    (causationIds ids).Pairwise (· < ·) := by
  have hsorted : (causationIds ids).Pairwise (· ≤ ·) :=
    List.pairwise_insertionSort _ _
  have hnodup : (causationIds ids).Nodup :=
    (List.perm_insertionSort _ _).nodup_iff.mpr ids.nodup_dedup
  exact hsorted.imp₂ (fun _ _ hle hne => lt_of_le_of_ne hle hne) hnodup

/-- One event with the envelope members the writer owns. -/
structure JournalEvent where
  eventId : Uuid4
  occurredAt : UtcMillis
  source : EventSource
  sourceInstanceId : Uuid4
  sourceSequence : Nat
  causationEventIds : List Uuid4
  body : EventBody
  deriving DecidableEq

end RefundStudy.Record
