/-
  The closed vocabularies of the study's records and the attempt-lifecycle tables over
  them.

  Source: `record-contract/records/group-b/vocabulary.ts`, `record-contract/envelope.ts` and
  `attempt-lifecycle/`. Every string enumeration of the source is an inductive type here, in the
  source's order.
-/
import Mathlib.Data.List.Lex
import Mathlib.Algebra.Order.Ring.Nat

set_option autoImplicit false

namespace RefundStudy.Record

/-- A UUIDv4.  Lowercase UUID texts all have one shape, so their order is the
order of the 128-bit numbers they denote. -/
abbrev Uuid4 : Type := Nat

abbrev UtcMillis : Type := Nat

/-- A nonnegative number of nanoseconds, which the records hold as a decimal string. -/
abbrev DecimalNs : Type := Nat

/-- `Number.MAX_SAFE_INTEGER`. -/
def maxSafeInteger : Nat := 9007199254740991

/-- A nonnegative integer a JavaScript number holds exactly, at least `1`. -/
def isPositiveSafeInteger (value : Nat) : Bool := decide (1 ≤ value ∧ value ≤ maxSafeInteger)

/-! ## Executions, sources, scenarios and treatment -/

/-- `EXECUTION_KINDS` (primitives.ts). -/
inductive ExecutionKind where
  | run
  | transportProbe
  | variantValidation
  deriving DecidableEq

/-- `EVENT_SOURCES` (envelope.ts). -/
inductive EventSource where
  | conventionalCaller
  | durableCaller
  | probeCaller
  | refundProvider
  | treatmentController
  | runner
  | coordinationLease
  | cleanup
  | evidenceCollector
  deriving DecidableEq

/-- The position of a source in byte order of its name. -/
def EventSource.rank : EventSource → Nat
  | .cleanup => 0
  | .conventionalCaller => 1
  | .coordinationLease => 2
  | .durableCaller => 3
  | .evidenceCollector => 4
  | .probeCaller => 5
  | .refundProvider => 6
  | .runner => 7
  | .treatmentController => 8

def callerEventSources : List EventSource := [.conventionalCaller, .durableCaller, .probeCaller]

inductive Scenario where
  | control
  | commitThenTimeout
  deriving DecidableEq

/-- `TREATMENT_STATES` (BR-RUA-025). -/
inductive TreatmentState where
  | armed
  | committedWaiting
  | timeoutSignalled
  | timeoutObserved
  | responseReleased
  | safetyReleased
  deriving DecidableEq

/-- `COMMITTED_WAIT_STATES`: the nonterminal states a committed wait can be in. -/
inductive CommittedWaitState where
  | committedWaiting
  | timeoutSignalled
  | timeoutObserved
  deriving DecidableEq

def CommittedWaitState.toTreatmentState : CommittedWaitState → TreatmentState
  | .committedWaiting => .committedWaiting
  | .timeoutSignalled => .timeoutSignalled
  | .timeoutObserved => .timeoutObserved

/-- `SIGNALLED_TREATMENT_STATES`: states in which a signal already exists. -/
inductive SignalledTreatmentState where
  | timeoutSignalled
  | timeoutObserved
  | responseReleased
  deriving DecidableEq

/-- `NONTERMINAL_TREATMENT_STATES`: the waits a safety release can leave. -/
def nonterminalTreatmentStates : List TreatmentState :=
  [.armed, .committedWaiting, .timeoutSignalled, .timeoutObserved]

theorem CommittedWaitState.nonterminal (state : CommittedWaitState) :
    state.toTreatmentState ∈ nonterminalTreatmentStates := by
  cases state <;> simp [toTreatmentState, nonterminalTreatmentStates]

inductive SafetyReleaseCause where
  | safetyDeadline
  | cleanupRequest
  deriving DecidableEq

inductive CallerTimeoutRejectionReason where
  | beforeCommit
  | notTargeted
  | invalidEvent
  | controlTrial
  deriving DecidableEq

/-- `PROVIDER_REJECTION_REASONS` (BR-RUA-018). -/
inductive ProviderRejectionReason where
  | authorizationFailed
  | schemaInvalid
  | executionIdentityMismatch
  | identityStructureInvalid
  | paymentNotFound
  | amountInvalid
  | currencyMismatch
  deriving DecidableEq

/-- `TRIAL_MESSAGE_REJECTION_REASONS` (BR-RUA-036). -/
inductive TrialMessageRejectionReason where
  | schemaInvalid
  | correlationMissing
  | executionIdentityMismatch
  | trialManifestDigestMismatch
  | noActiveTrial
  deriving DecidableEq

/-! ## Attempts and requests -/

/-- `ATTEMPT_OUTCOMES` (BR-RUA-021). -/
inductive AttemptOutcome where
  | succeeded
  | rejected
  | timedOut
  | failed
  deriving DecidableEq

/-- `DISPATCH_STATES` (BR-RUA-021). -/
inductive DispatchState where
  | notDispatched
  | dispatched
  | unknown
  deriving DecidableEq

/-- `ATTEMPT_PHASES` (attempt-state-port.ts): the durable phases of one attempt. -/
inductive AttemptPhase where
  | preDispatch
  | notDispatched
  | dispatched
  deriving DecidableEq

/-- `ATTEMPT_FAILURE_CODES`. -/
inductive AttemptFailureCode where
  | callBuildFailed
  | dispatchTransitionRejected
  | dispatchTransitionConditionFailed
  | dispatchTransitionAmbiguous
  | functionError
  | versionMismatch
  | malformedResponse
  | abortedWithoutDeadline
  | transportError
  | timeoutRecordNotDurable
  deriving DecidableEq

/-- `PROCESSING_STATES` (BR-RUA-022). -/
inductive ProcessingState where
  | notStarted
  | running
  | finished
  deriving DecidableEq

/-- `PROCESSING_TERMINAL_REASONS` (BR-RUA-022). -/
inductive ProcessingTerminalReason where
  | succeeded
  | retriesExhausted
  | messageRejected
  | providerRejected
  | interrupted
  | safetyDeadline
  deriving DecidableEq

/-- `TRANSPORT_SETTLEMENT_KINDS` (D-26). -/
inductive TransportSettlementKind where
  | aborted
  | resolved
  | rejected
  deriving DecidableEq

/-- `ARBITER_WINNERS` (BR-RUA-023). -/
inductive ArbiterWinner where
  | timer
  | transport
  deriving DecidableEq

/-! ## The coordination lease -/

/-- `LEASE_HEALTH_STATES` (BR-RUA-045). -/
inductive LeaseHealth where
  | confirmed
  | uncertain
  | lostOwnershipMismatch
  | lostStale
  deriving DecidableEq

inductive LeaseEvent where
  | acquired
  | acquisitionFailed
  | heartbeatConfirmed
  | heartbeatFailed
  | recovered
  | lostOwnershipMismatch
  | lostStale
  | released
  | releaseFailed
  | recoveryRequired
  | stateUnverified

/-- `LEASE_STATUSES` of a finished execution. -/
inductive LeaseStatus where
  | released
  | recoveryRequired
  | unverified

/-! ## Outcome classes and effect knowledge (`attempt-lifecycle/`) -/

/-- `OUTCOME_CLASSES`: the columns of the BR-RUA-022 table. -/
inductive OutcomeClass where
  | preDispatchFailure
  | rejection
  | success
  | ambiguous
  deriving DecidableEq

/-- `EFFECT_KNOWLEDGE_STATES`: the rows of the BR-RUA-022 table. -/
inductive EffectKnowledge where
  | notAttempted
  | noEffectConfirmed
  | oneEffectConfirmed
  | multipleEffectsConfirmed
  | unknown
  deriving DecidableEq

/-- The `StructuredReason.code` of an outcome that claims a forbidden dispatch state. -/
inductive ClassificationError where
  | outcomeDispatchContradiction

/-- The class of one attempt outcome with its dispatch state. Only a proven `NOT_DISPATCHED`
contradicts an outcome that implies a dispatch. -/
def classifyOutcome (outcome : AttemptOutcome) (dispatch : DispatchState) :
    Except ClassificationError OutcomeClass :=
  match outcome with
  | .failed => .ok (if dispatch = .notDispatched then .preDispatchFailure else .ambiguous)
  | .succeeded =>
    if dispatch = .notDispatched then .error .outcomeDispatchContradiction else .ok .success
  | .rejected =>
    if dispatch = .notDispatched then .error .outcomeDispatchContradiction else .ok .rejection
  | .timedOut =>
    if dispatch = .notDispatched then .error .outcomeDispatchContradiction else .ok .ambiguous

/-- Present, proven absent, or unknown: one member of `DispatchEvidence`. -/
inductive Evidence where
  | present
  | absent
  | unknown
  deriving DecidableEq

/-- Dispatch from durable evidence. The absence of a record proves nothing, so it never yields
`NOT_DISPATCHED`. -/
def classifyDispatch (preDispatchRegistered notDispatchedTransitionRecorded
    dispatchStartedRecorded : Evidence) : DispatchState :=
  if dispatchStartedRecorded = .present then .dispatched
  else if notDispatchedTransitionRecorded = .present ∧ preDispatchRegistered ≠ .absent then
    .notDispatched
  else .unknown

/-- `EFFECT_KNOWLEDGE_TABLE` as a function, `nextEffectKnowledge`. -/
def nextEffectKnowledge : EffectKnowledge → OutcomeClass → EffectKnowledge
  | .notAttempted, .preDispatchFailure => .notAttempted
  | .notAttempted, .rejection => .noEffectConfirmed
  | .notAttempted, .success => .oneEffectConfirmed
  | .notAttempted, .ambiguous => .unknown
  | .noEffectConfirmed, .preDispatchFailure => .noEffectConfirmed
  | .noEffectConfirmed, .rejection => .noEffectConfirmed
  | .noEffectConfirmed, .success => .oneEffectConfirmed
  | .noEffectConfirmed, .ambiguous => .unknown
  | .oneEffectConfirmed, .preDispatchFailure => .oneEffectConfirmed
  | .oneEffectConfirmed, .rejection => .oneEffectConfirmed
  | .oneEffectConfirmed, .success => .multipleEffectsConfirmed
  | .oneEffectConfirmed, .ambiguous => .unknown
  | .multipleEffectsConfirmed, .preDispatchFailure => .multipleEffectsConfirmed
  | .multipleEffectsConfirmed, .rejection => .multipleEffectsConfirmed
  | .multipleEffectsConfirmed, .success => .multipleEffectsConfirmed
  | .multipleEffectsConfirmed, .ambiguous => .unknown
  | .unknown, .preDispatchFailure => .unknown
  | .unknown, .rejection => .unknown
  | .unknown, .success => .unknown
  | .unknown, .ambiguous => .unknown

def initialEffectKnowledge : EffectKnowledge := .notAttempted

def foldEffectKnowledge (classes : List OutcomeClass) : EffectKnowledge :=
  classes.foldl nextEffectKnowledge initialEffectKnowledge

/-- Nothing leaves `UNKNOWN` (BR-RUA-004). -/
@[simp] theorem nextEffectKnowledge_unknown (cls : OutcomeClass) :
    nextEffectKnowledge .unknown cls = .unknown := by
  cases cls <;> rfl

@[simp] theorem nextEffectKnowledge_ambiguous (from_ : EffectKnowledge) :
    nextEffectKnowledge from_ .ambiguous = .unknown := by
  cases from_ <;> rfl

theorem foldEffectKnowledge_append (first rest : List OutcomeClass) :
    foldEffectKnowledge (first ++ rest) =
      rest.foldl nextEffectKnowledge (foldEffectKnowledge first) := by
  simp [foldEffectKnowledge, List.foldl_append]

end RefundStudy.Record
