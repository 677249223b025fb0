/-
  The shared provider client (`provider-client/`, BR-RUA-028).

  A timer firing too early re-arms: those loops take fuel. A monotonic reading before the origin
  makes the settlement callback throw after the arbiter was claimed, so the race never resolves;
  the model halts there.
-/
import RefundStudy.Attempt.Response
import RefundStudy.Journal.Writer

set_option autoImplicit false

namespace RefundStudy.Attempt

open Foundation Record RefundStudy.Runtime Journal

/-! ## Inputs and the call (`attempt-input.ts`, `provider-call.ts`) -/

/-- An amount that is not a nonnegative integer, and a causation id that is not a UUID, have no
value here. -/
structure AttemptInput where
  callerId : ProviderCallerId
  refundRequestId : String
  paymentId : String
  amountMinor : Nat
  currency : String
  providerQualifier : String
  causationEventIds : List Uuid4

/-- `assertValidAttemptInput` passes. -/
def isValidAttemptInput (input : AttemptInput) : Bool :=
  isNonemptyTrimmed input.refundRequestId && isNonemptyTrimmed input.paymentId &&
    isPositiveSafeInteger input.amountMinor && isProviderVersion input.providerQualifier

/-- The kind of a `JournalPartition`. -/
inductive PartitionKind where
  | trial
  | probe
  | canary
  | warmup
  | provider
  | execution
  deriving DecidableEq

structure JournalScope where
  execution : ExecutionKind
  partition : PartitionKind

/-- `callScopeFor` finds a scope: the probe calls from the probe partition, everybody else
from a trial partition. -/
def callScopeFor (callerId : ProviderCallerId) (scope : JournalScope) : Bool :=
  match callerId with
  | .probe => decide (scope.execution = .transportProbe ∧ scope.partition = .probe)
  | .conventional | .durable =>
    decide (scope.execution ≠ .transportProbe ∧ scope.partition = .trial)

/-- `none` is its `CALL_BUILD_FAILED`. -/
def buildProviderCall (input : AttemptInput) (correlation : AttemptCorrelation)
    (scope : JournalScope) : Option ProviderRefundCall :=
  if callScopeFor input.callerId scope then
    some
      { callerId := input.callerId
        attemptId := correlation.attemptId
        providerRequestId := correlation.providerRequestId
        refundRequestId := input.refundRequestId
        paymentId := input.paymentId
        amountMinor := input.amountMinor
        currency := input.currency }
  else none

/-! ## Durable transitions (`durable-attempt-state-port.ts`, `durable-transition.ts`) -/

def attemptJournalActionIndex : Nat := 0

def registrationPut (registration : AttemptCorrelation) : WriteAction ItemOf where
  key := .attemptState registration.attemptId
  condition := itemAbsent
  effect := fun _ =>
    ⟨registration.attemptId, registration.providerRequestId, registration.refundRequestId,
      .preDispatch⟩

/-- The phase update of `transition`.  The condition finds an item, so the update creates none. -/
def phaseUpdate (attemptId : Uuid4) (target : AttemptPhase) : WriteAction ItemOf where
  key := .attemptState attemptId
  condition := attributeEquals AttemptStateItem.phase .preDispatch
  effect := fun item => { item.getD ⟨attemptId, 0, "", .preDispatch⟩ with phase := target }

def registerPreDispatch (registration : AttemptCorrelation) (put : JournalEntry) :
    List (WriteAction ItemOf) :=
  [journalPutAction put, registrationPut registration]

def transitionToNotDispatched (attemptId : Uuid4) (put : JournalEntry) :
    List (WriteAction ItemOf) :=
  [journalPutAction put, phaseUpdate attemptId .notDispatched]

def transitionToDispatched (attemptId : Uuid4) (put : JournalEntry) :
    List (WriteAction ItemOf) :=
  [journalPutAction put, phaseUpdate attemptId .dispatched]

inductive TransitionResult where
  | applied (event : JournalEvent)
  | notApplied (failure : RegistrationFailure)

def isDefinitiveFailure : ConfirmResult → Bool
  | .notApplied _ (.definitiveFailure _) => true
  | _ => false

def transitionResultOf : ConfirmResult → TransitionResult
  | .appended event => .applied event
  | .notApplied _ (.definitiveFailure _) => .notApplied .rejected
  | .notApplied _ _ => .notApplied .conditionFailed
  | .stopped reason =>
    .notApplied (if reason = .sequenceConflict then .conditionFailed else .ambiguous)

/-- The tries of `runDurableTransition`, with the retries that are left. -/
def transitionTries (write : JournalEntry → List (WriteAction ItemOf)) (put : JournalEntry) :
    Nat → JournalWriter → Async (TransitionResult × JournalWriter)
  | 0, writer => do
    let outcome ← await (.transact (write put) put.event.eventId)
    let (confirmed, writer) ← sync (writer.confirm put outcome attemptJournalActionIndex)
    pure (transitionResultOf confirmed, writer)
  | retries + 1, writer => do
    let outcome ← await (.transact (write put) put.event.eventId)
    let (confirmed, writer) ← sync (writer.confirm put outcome attemptJournalActionIndex)
    if isDefinitiveFailure confirmed then
      let (prepared, writer) ← sync (writer.prepareRetry put)
      match prepared with
      | .prepared put => transitionTries write put retries writer
      | .stopped _ => pure (.notApplied .ambiguous, writer)
    else pure (transitionResultOf confirmed, writer)

def runDurableTransition (writer : JournalWriter) (maxDefinitiveRetries : Nat) (body : EventBody)
    (causation : List Uuid4) (write : JournalEntry → List (WriteAction ItemOf)) :
    Async (TransitionResult × JournalWriter) := do
  let (prepared, writer) ← writer.prepare body causation
  match prepared with
  | .prepared put => transitionTries write put maxDefinitiveRetries writer
  | .stopped _ => pure (.notApplied .ambiguous, writer)

/-! ## The transport race (`transport-race.ts`, `deadline-timer.ts`) -/

/-- `PROVIDER_CLIENT_TIMING.deadline_ns`. -/
def deadlineNs : Nat := 3000000000

/-- `PROVIDER_CLIENT_TIMING.late_settlement_grace_ns`. -/
def lateSettlementGraceNs : Nat := 2000000000

/-- `NS_PER_MS`. -/
def nsPerMs : Nat := 1000000

/-- The late settlement is observed later, from the same origin. -/
inductive RaceDecision where
  | transport (result : ProviderTransportResult) (settledAfterNs : DecimalNs)
  | timer (originNs : Nat) (elapsedNs : DecimalNs) (timerFiredAt abortRequestedAt : UtcMillis)
  deriving DecidableEq

/-- Waiting for the first of the timer and the transport to claim the arbiter. -/
def raceLoop (originNs : Nat) : Nat → Async RaceDecision
  | 0 => outOfFuel
  | fuel + 1 => do
    let event ← await .awaitRace
    match event with
    | .timerFires => do
      let now ← await .monotonicNow
      if now < originNs + deadlineNs then raceLoop originNs fuel
      else do
        await (.claim .timer)
        let timerFiredAt ← await .wallNow
        let abortRequestedAt ← await .wallNow
        pure (.timer originNs (now - originNs) timerFiredAt abortRequestedAt)
    | .settles result => do
      let now ← await .monotonicNow
      await (.claim .transport)
      if now < originNs then outOfFuel
      else pure (.transport result (now - originNs))

/-- The origin, the timer's own reading, and the invocation. -/
def raceTransportAgainstDeadline (fuel : Nat) (call : ProviderRefundCall) : Async RaceDecision := do
  let originNs ← await .monotonicNow
  let _ ← await .monotonicNow
  await (.invoke call)
  raceLoop originNs fuel

def lateSettlementKind : ProviderTransportResult → TransportSettlementKind
  | .response .. => .resolved
  | .transportError errorName _ _ => if errorName = abortErrorName then .aborted else .rejected

structure LateSettlement where
  settlementKind : TransportSettlementKind
  observedAfterElapsedNs : DecimalNs
  deriving DecidableEq

/-- Waiting for the late settlement until the grace timer fires on time.  A settlement
whose reading precedes the origin is lost, and only the timer is left. -/
def lateLoop (originNs graceStartNs : Nat) : Bool → Nat → Async (Option LateSettlement)
  | _, 0 => outOfFuel
  | pending, fuel + 1 => do
    let event ← await .awaitRace
    match event with
    | .timerFires => do
      let now ← await .monotonicNow
      if now < graceStartNs + lateSettlementGraceNs then
        lateLoop originNs graceStartNs pending fuel
      else pure none
    | .settles result => do
      let now ← await .monotonicNow
      if pending && decide (originNs ≤ now) then
        pure (some ⟨lateSettlementKind result, now - originNs⟩)
      else lateLoop originNs graceStartNs false fuel

def lateSettlementWithin (fuel originNs : Nat) : Async (Option LateSettlement) := do
  let graceStartNs ← await .monotonicNow
  let _ ← await .monotonicNow
  lateLoop originNs graceStartNs true fuel

/-! ## Resolutions and reports (`attempt-resolution.ts`) -/

def resolutionFromResponse (parsed : ParsedProviderResponse) (dispatchToSettlementNs : DecimalNs) :
    AttemptResolution :=
  match parsed with
  | .succeeded providerCallId providerTransactionId diagnostics =>
    .succeeded providerCallId providerTransactionId dispatchToSettlementNs diagnostics
  | .rejected providerCallId rejectionReason diagnostics =>
    .rejected providerCallId rejectionReason dispatchToSettlementNs diagnostics
  | .failed failure diagnostics =>
    .failed .dispatched failure (some dispatchToSettlementNs) diagnostics

structure AttemptReport where
  attemptId : Uuid4
  providerRequestId : Uuid4
  outcome : AttemptOutcome
  dispatchState : DispatchState
  outcomeClass : OutcomeClass
  providerCallId : Option Uuid4
  providerTransactionId : Option Uuid4
  rejectionReason : Option ProviderRejectionReason
  failure : Option AttemptFailureCode
  dispatchToSettlementNs : Option DecimalNs
  outcomeEventId : Option Uuid4

/-- The report of a resolution whose class is known: the response diagnostics stay out. -/
def reportOf (attemptId providerRequestId : Uuid4) (resolution : AttemptResolution)
    (outcomeClass : OutcomeClass) (outcomeEventId : Option Uuid4) : AttemptReport where
  attemptId := attemptId
  providerRequestId := providerRequestId
  outcome := resolution.outcome
  dispatchState := resolution.dispatchState
  outcomeClass := outcomeClass
  providerCallId := match resolution with
    | .succeeded providerCallId .. | .rejected providerCallId .. => some providerCallId
    | .timedOut .. | .failed .. => none
  providerTransactionId := match resolution with
    | .succeeded _ providerTransactionId .. => some providerTransactionId
    | .rejected .. | .timedOut .. | .failed .. => none
  rejectionReason := match resolution with
    | .rejected _ rejectionReason .. => some rejectionReason
    | .succeeded .. | .timedOut .. | .failed .. => none
  failure := match resolution with
    | .failed _ failure .. => some failure
    | .succeeded .. | .rejected .. | .timedOut .. => none
  dispatchToSettlementNs := match resolution with
    | .succeeded _ _ ns _ | .rejected _ _ ns _ | .timedOut ns => some ns
    | .failed _ _ ns _ => ns
  outcomeEventId := outcomeEventId

def toAttemptReport (attemptId providerRequestId : Uuid4) (resolution : AttemptResolution)
    (outcomeEventId : Option Uuid4) : Except Thrown AttemptReport :=
  match classifyOutcome resolution.outcome resolution.dispatchState with
  | .ok outcomeClass =>
    .ok (reportOf attemptId providerRequestId resolution outcomeClass outcomeEventId)
  | .error _ => .error (.resolvedInconsistently attemptId)

/-! ## The client (`provider-client.ts`) -/

/-- `ProviderClient` with the dependencies it decides on. -/
structure ProviderClient where
  scope : JournalScope
  maxDefinitiveRetries : Nat
  parseJsonDocument : List UInt8 → Option JsonValue

structure ResolvedAttempt where
  resolution : AttemptResolution
  cause : JournalEvent

namespace ProviderClient

/-- `#register`: anything but an applied registration throws. -/
def register (client : ProviderClient) (writer : JournalWriter) (input : AttemptInput)
    (correlation : AttemptCorrelation) : Async (JournalEvent × JournalWriter) := do
  let (result, writer) ← runDurableTransition writer client.maxDefinitiveRetries
    (.attemptRegistered correlation input.paymentId input.amountMinor input.currency
      input.providerQualifier)
    input.causationEventIds (registerPreDispatch correlation)
  match result with
  | .applied event => pure (event, writer)
  | .notApplied failure =>
    throwThe Thrown (.attemptNotRegistered correlation.attemptId failure)

/-- `#recordNotDispatched`: only the applied transition proves it. -/
def recordNotDispatched (client : ProviderClient) (writer : JournalWriter)
    (correlation : AttemptCorrelation) (registered : JournalEvent)
    (failure : AttemptFailureCode) : Async (ResolvedAttempt × JournalWriter) := do
  let (result, writer) ← runDurableTransition writer client.maxDefinitiveRetries
    (.attemptNotDispatched correlation failure) [registered.eventId]
    (transitionToNotDispatched correlation.attemptId)
  match result with
  | .applied event => pure (⟨.failed .notDispatched failure none {}, event⟩, writer)
  | .notApplied _ => pure (⟨.failed .unknown failure none {}, registered⟩, writer)

def undispatchedUnknown (registered : JournalEvent) (failure : AttemptFailureCode) :
    ResolvedAttempt :=
  ⟨.failed .unknown failure none {}, registered⟩

def recordLateSettlement (fuel : Nat) (writer : JournalWriter) (correlation : AttemptCorrelation)
    (dispatchStarted : JournalEvent) (originNs : Nat) : Async JournalWriter := do
  let late ← lateSettlementWithin fuel originNs
  match late with
  | none => pure writer
  | some settlement => do
    let (_, writer) ← writer.append
      (.transportSettledAfterTimeout correlation settlement.settlementKind
        settlement.observedAfterElapsedNs)
      [dispatchStarted.eventId]
    pure writer

/-- `#recordTimeout`: only a durable append makes the attempt `TIMED_OUT`. -/
def recordTimeout (fuel : Nat) (writer : JournalWriter) (correlation : AttemptCorrelation)
    (dispatchStarted : JournalEvent) (dispatchAt deadlineAt : UtcMillis)
    (originNs : Nat) (elapsedNs : DecimalNs) (timerFiredAt abortRequestedAt : UtcMillis) :
    Async (ResolvedAttempt × JournalWriter) := do
  let recordedAt ← await .wallNow
  let (timeout, writer) ← writer.append
    (.callerTimeoutRecorded correlation
      { elapsedNs := elapsedNs
        monotonicOriginEventId := dispatchStarted.eventId
        dispatchAt := dispatchAt
        deadlineAt := deadlineAt
        timerFiredAt := timerFiredAt
        abortRequestedAt := abortRequestedAt
        recordedAt := recordedAt
        arbiterWinner := .timer
        transportSettledAtClaim := false })
    [dispatchStarted.eventId]
  match timeout with
  | .appended event => do
    let writer ← recordLateSettlement fuel writer correlation dispatchStarted originNs
    pure (⟨.timedOut elapsedNs, event⟩, writer)
  | .stopped _ =>
    pure (⟨.failed .dispatched .timeoutRecordNotDurable (some elapsedNs) {}, dispatchStarted⟩,
      writer)

def resolve (client : ProviderClient) (fuel : Nat) (writer : JournalWriter) (input : AttemptInput)
    (correlation : AttemptCorrelation) (registered : JournalEvent) :
    Async (ResolvedAttempt × JournalWriter) :=
  match buildProviderCall input correlation client.scope with
  | none => client.recordNotDispatched writer correlation registered .callBuildFailed
  | some call => do
    let dispatchAt ← await .wallNow
    let deadlineAt := dispatchAt + deadlineNs / nsPerMs
    let (dispatched, writer) ← runDurableTransition writer client.maxDefinitiveRetries
      (.dispatchStarted correlation dispatchAt deadlineAt deadlineNs) [registered.eventId]
      (transitionToDispatched correlation.attemptId)
    match dispatched with
    | .notApplied .rejected =>
      client.recordNotDispatched writer correlation registered .dispatchTransitionRejected
    | .notApplied .ambiguous =>
      pure (undispatchedUnknown registered .dispatchTransitionAmbiguous, writer)
    | .notApplied .conditionFailed =>
      pure (undispatchedUnknown registered .dispatchTransitionConditionFailed, writer)
    | .applied event => do
      let decision ← raceTransportAgainstDeadline fuel call
      match decision with
      | .transport result settledAfterNs =>
        let parsed := parseProviderResponse client.parseJsonDocument result
          ⟨input.providerQualifier, correlation.attemptId, correlation.providerRequestId⟩
        pure (⟨resolutionFromResponse parsed settledAfterNs, event⟩, writer)
      | .timer originNs elapsedNs timerFiredAt abortRequestedAt =>
        recordTimeout fuel writer correlation event dispatchAt deadlineAt originNs elapsedNs
          timerFiredAt abortRequestedAt

def performAttempt (client : ProviderClient) (fuel : Nat) (writer : JournalWriter)
    (input : AttemptInput) : Async (AttemptReport × JournalWriter) :=
  if isValidAttemptInput input then do
    let attemptId ← await .nextId
    let providerRequestId ← await .nextId
    let correlation : AttemptCorrelation := ⟨attemptId, providerRequestId, input.refundRequestId⟩
    let (registered, writer) ← client.register writer input correlation
    let (resolved, writer) ← client.resolve fuel writer input correlation registered
    let (outcome, writer) ← writer.append (.attemptOutcomeRecorded correlation resolved.resolution)
      [resolved.cause.eventId]
    let outcomeEventId := match outcome with
      | .appended event => some event.eventId
      | .stopped _ => none
    let report ← sync (toAttemptReport attemptId providerRequestId resolved.resolution
      outcomeEventId)
    pure (report, writer)
  else throwThe Thrown .rangeError

end ProviderClient

end RefundStudy.Attempt
