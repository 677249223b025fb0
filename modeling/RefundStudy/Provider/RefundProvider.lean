/-
  One refund call of the controlled provider (`refund-provider/refund-provider.ts`,
  `commit-plan.ts`, `commit-execution.ts`).

  A call is given by the decision `evaluateAcceptance` leads to for every configuration and
  payment.
-/
import RefundStudy.Provider.Barrier

set_option autoImplicit false

namespace RefundStudy.Provider

open Foundation Record RefundStudy.Runtime Journal

/-! ## Control items (`control-items.ts`) -/

structure ProviderConfigView where
  registeredCallerId : ProviderCallerId
  scenario : Scenario
  paymentId : String

structure PaymentView where
  paymentId : String
  currency : String

/-- A configuration that declares another barrier timing than the coded one is refused. -/
def decodeConfigItem (item : ConfigItem) : Except String ProviderConfigView :=
  if item.safetyReleaseMs = safetyReleaseMs ∧ item.treatmentPollIntervalMs = pollIntervalMs then
    .ok ⟨item.registeredCallerId, item.scenario, item.paymentId⟩
  else .error undecodableItem

def decodePaymentItem (paymentId : String) (item : PaymentItem) : Except String PaymentView :=
  if item.paymentId = paymentId then .ok ⟨item.paymentId, item.currency⟩
  else .error undecodableItem

def readOrFault {View : Type} (read : Except String (Option View)) :
    Except Thrown (Option View) :=
  match read with
  | .ok view => .ok view
  | .error _ => .error (.providerFault .stateUnreadable .beforeCommit)

/-! ## The commit plan (`commit-plan.ts`) -/

inductive CommitKind where
  | targeted
  | untargeted
  deriving DecidableEq

structure CommitIdentities where
  providerCommitId : Uuid4
  providerTransactionId : Uuid4

/-- `COMMIT_JOURNAL_ACTION_INDEX`: the put follows the ledger put. -/
def commitJournalActionIndex : Nat := 1

def commitEventBody (call : AcceptedCall) (providerCallId : Uuid4)
    (identities : CommitIdentities) (targeted : Bool) (requestedAt : UtcMillis) :
    CommittedTransaction where
  providerCommitId := identities.providerCommitId
  providerTransactionId := identities.providerTransactionId
  providerCallId := providerCallId
  attemptId := call.attemptId
  providerRequestId := call.providerRequestId
  refundRequestId := call.refundRequestId
  paymentId := call.paymentId
  amountMinor := call.amountMinor
  currency := call.currency
  targeted := targeted
  commitRequestedAt := requestedAt

structure CommitPlanInput where
  kind : CommitKind
  call : AcceptedCall
  providerCallId : Uuid4
  identities : CommitIdentities
  commitRequestedAt : UtcMillis
  commitEvent : JournalEntry

def ledgerTransactionOf (input : CommitPlanInput) : LedgerTransaction where
  providerTransactionId := input.identities.providerTransactionId
  providerCommitId := input.identities.providerCommitId
  providerCallId := input.providerCallId
  attemptId := input.call.attemptId
  providerRequestId := input.call.providerRequestId
  refundRequestId := input.call.refundRequestId
  paymentId := input.call.paymentId
  amountMinor := input.call.amountMinor
  currency := input.call.currency
  commitRequestedAt := input.commitRequestedAt

def ledgerPut (transaction : LedgerTransaction) : WriteAction ItemOf where
  key := .ledger transaction.providerTransactionId
  condition := itemAbsent
  effect := fun _ => transaction

/-- The attributes the targeted commit sets on the treatment item. -/
def consumedTreatment (input : CommitPlanInput) (item : TreatmentItem) : TreatmentItem :=
  { item with
    state := .committedWaiting
    targetedAttemptId := some input.call.attemptId
    providerRequestId := some input.call.providerRequestId
    providerCallId := some input.providerCallId
    providerCommitId := some input.identities.providerCommitId
    providerTransactionId := some input.identities.providerTransactionId
    commitEventId := some input.commitEvent.event.eventId }

/-- Condition `state = ARMED`. -/
def consumeTreatment (input : CommitPlanInput) : WriteAction ItemOf :=
  updateTreatment (attributeEquals TreatmentItem.state .armed) (consumedTreatment input)

structure CommitPlan where
  kind : CommitKind
  identities : CommitIdentities
  commitEventId : Uuid4
  actions : List (WriteAction ItemOf)
  treatmentActionIndex : Option Nat

/-- Arranges what the caller drew and prepared. -/
def planCommit (input : CommitPlanInput) : CommitPlan :=
  let shared := [ledgerPut (ledgerTransactionOf input), journalPutAction input.commitEvent]
  match input.kind with
  | .untargeted => ⟨input.kind, input.identities, input.commitEvent.event.eventId, shared, none⟩
  | .targeted => ⟨input.kind, input.identities, input.commitEvent.event.eventId,
      shared ++ [consumeTreatment input], some shared.length⟩

/-! ## Executing the commit (`commit-execution.ts`) -/

structure CommitRequest where
  call : AcceptedCall
  providerCallId : Uuid4
  acceptedEventId : Uuid4

/-- A durably committed plan, when its acknowledgement arrived, and the journal
after it (`CommittedPlan`). -/
structure CommittedPlan where
  plan : CommitPlan
  ackNs : Nat
  ackWall : UtcMillis
  journal : JournalWriter

/-- The `error_code` of `provider_commit_failed`. -/
def commitErrorCode : WriteOutcome ItemOf → String
  | .definitiveFailure code => code
  | _ => "TransactionConditionFailed"

def recordCommitFailure {α : Type} (journal : JournalWriter) (request : CommitRequest)
    (plan : CommitPlan) (outcome : WriteOutcome ItemOf) : Async α := do
  let (failed, _) ← journal.append
    (.providerCommitFailed plan.identities.providerCommitId
      plan.identities.providerTransactionId request.providerCallId
      (decide (plan.kind = .targeted)) (commitErrorCode outcome))
    [request.acceptedEventId]
  match failed with
  | .stopped _ => throwThe Thrown (.providerFault .journalStopped .beforeCommit)
  | .appended _ => throwThe Thrown (.providerFault .commitFailed .beforeCommit)

/-- The transaction failed on the treatment condition of a targeted plan. -/
def lostTreatment (plan : CommitPlan) : WriteOutcome ItemOf → Bool
  | .conditionFailed failedActionIndex _ =>
    decide (some failedActionIndex = plan.treatmentActionIndex)
  | _ => false

def commitStoppedFault (reason : JournalStopReason) : Thrown :=
  .providerFault (if reason = .ambiguousAppend then .commitAmbiguous else .journalStopped)
    .commitUnknown

/-- The body of `attemptCommit`; `replan` is its recursive call. -/
def attemptCommitWith (request : CommitRequest) (replan : JournalWriter → Async CommittedPlan)
    (journal : JournalWriter) (kind : CommitKind) : Async CommittedPlan := do
  let providerCommitId ← await .nextId
  let providerTransactionId ← await .nextId
  let requestedAt ← await .wallNow
  let identities : CommitIdentities := ⟨providerCommitId, providerTransactionId⟩
  let (prepared, journal) ← journal.prepare
    (.providerTransactionCommitted (commitEventBody request.call request.providerCallId
      identities (decide (kind = .targeted)) requestedAt)) [request.acceptedEventId]
  match prepared with
  | .stopped _ => throwThe Thrown (.providerFault .journalStopped .beforeCommit)
  | .prepared put => do
    let plan := planCommit ⟨kind, request.call, request.providerCallId, identities,
      requestedAt, put⟩
    let outcome ← await (.transact plan.actions plan.identities.providerCommitId)
    let ackNs ← await .monotonicNow
    let ackWall ← await .wallNow
    let (confirmed, journal) ← sync (journal.confirm put outcome commitJournalActionIndex)
    match confirmed with
    | .appended _ => pure ⟨plan, ackNs, ackWall, journal⟩
    | .stopped reason => throwThe Thrown (commitStoppedFault reason)
    | .notApplied _ _ =>
      if lostTreatment plan outcome then replan journal
      else recordCommitFailure journal request plan outcome

/-- A lost treatment re-plans untargeted with fresh identities, at most `replans` times. -/
def attemptCommit (request : CommitRequest) :
    Nat → JournalWriter → CommitKind → Async CommittedPlan
  | 0, journal, kind => attemptCommitWith request (fun _ => outOfFuel) journal kind
  | replans + 1, journal, kind =>
    attemptCommitWith request
      (fun journal => attemptCommit request replans journal .untargeted) journal kind

structure ConfirmedCommit where
  plan : CommitPlan
  commitAckNs : Nat
  confirmedEventId : Uuid4
  journal : JournalWriter

def executeCommit (journal : JournalWriter) (request : CommitRequest) (kind : CommitKind) :
    Async ConfirmedCommit := do
  let attempt ← attemptCommit request 1 journal kind
  let (confirmed, journal) ← attempt.journal.append
    (.providerCommitConfirmed attempt.plan.identities.providerCommitId
      attempt.plan.identities.providerTransactionId request.providerCallId attempt.ackWall)
    [attempt.plan.commitEventId]
  match confirmed with
  | .stopped _ => throwThe Thrown (.providerFault .journalStopped .afterCommit)
  | .appended event => pure ⟨attempt.plan, attempt.ackNs, event.eventId, journal⟩

/-! ## One call (`refund-provider.ts`) -/

inductive AcceptanceDecision where
  | accepted (call : AcceptedCall)
  | rejected (reason : ProviderRejectionReason)

/-- One received call: the digest of its bytes and how it is judged. -/
structure ReceivedCall where
  rawRequestSha256 : String
  evaluateAcceptance : ProviderConfigView → Option PaymentView → AcceptanceDecision

/-- `unattributed` is the rejection of a call that no trial partition can take, journaled outside
this partition. -/
inductive ProviderRefundResponse where
  | succeeded (providerCallId attemptId providerRequestId providerTransactionId : Uuid4)
  | rejected (providerCallId : Uuid4) (reason : ProviderRejectionReason)
  | unattributed (providerCallId : Uuid4)

def providerJournalDefinitiveRetries : Nat := 2

/-- `openJournal` of the composed provider: a new source instance per call. -/
def openProviderJournal : Async JournalWriter := do
  let instanceId ← await .nextId
  pure { table := .experimentJournal, source := .refundProvider, instanceId := instanceId
         maxDefinitiveRetries := providerJournalDefinitiveRetries }

def appendOrFault (journal : JournalWriter) (body : EventBody) (phase : FaultPhase)
    (causation : List Uuid4) : Async (Uuid4 × JournalWriter) := do
  let (appended, journal) ← journal.append body causation
  match appended with
  | .stopped _ => throwThe Thrown (.providerFault .journalStopped phase)
  | .appended event => pure (event.eventId, journal)

/-- `#finish`: an untargeted call records its response, the targeted one waits at
the barrier. -/
def finish (fuel : Nat) (providerCallId : Uuid4) (call : AcceptedCall)
    (commit : ConfirmedCommit) : Async Unit :=
  let identities := commit.plan.identities
  match commit.plan.kind with
  | .untargeted => do
    let _ ← appendOrFault commit.journal
      (.providerResponseReturned identities.providerCommitId identities.providerTransactionId
        providerCallId call.attemptId call.providerRequestId) .afterCommit
      [commit.confirmedEventId]
    pure ()
  | .targeted => do
    let _ ← TreatmentBarrier.awaitRelease
      ⟨identities.providerCommitId, providerCallId, call.attemptId, commit.plan.commitEventId,
        commit.commitAckNs⟩ fuel ⟨commit.journal, .committedWaiting⟩ none
    pure ()

/-- The accepted branch of `handleCall`. -/
def commitAccepted (fuel : Nat) (providerCallId : Uuid4) (config : ProviderConfigView)
    (treatment : Option TreatmentItem) (journal : JournalWriter) (receivedEventId : Uuid4)
    (call : AcceptedCall) : Async ProviderRefundResponse := do
  let (accepted, journal) ← appendOrFault journal (.providerCallAccepted providerCallId call)
    .beforeCommit [receivedEventId]
  let targeted := decide (config.scenario = .commitThenTimeout ∧
    treatment.map TreatmentItem.state = some .armed)
  let commit ← executeCommit journal ⟨call, providerCallId, accepted⟩
    (if targeted then .targeted else .untargeted)
  let _ ← finish fuel providerCallId call commit
  pure (.succeeded providerCallId call.attemptId call.providerRequestId
    commit.plan.identities.providerTransactionId)

def handleCall (fuel : Nat) (received : ReceivedCall) : Async ProviderRefundResponse := do
  let providerCallId ← await .nextId
  let configRead ← readControl .config decodeConfigItem
  let config ← sync (readOrFault configRead)
  match config with
  | none => pure (.unattributed providerCallId)
  | some config => do
    let paymentRead ← readControl (.payment config.paymentId)
      (decodePaymentItem config.paymentId)
    let payment ← sync (readOrFault paymentRead)
    let treatmentRead ← loadTreatment
    let treatment ← sync (readOrFault treatmentRead)
    let journal ← openProviderJournal
    let (receivedEventId, journal) ← appendOrFault journal
      (.providerCallReceived providerCallId received.rawRequestSha256) .beforeCommit []
    match received.evaluateAcceptance config payment with
    | .rejected reason => do
      let _ ← appendOrFault journal (.providerCallRejected providerCallId reason)
        .beforeCommit [receivedEventId]
      pure (.rejected providerCallId reason)
    | .accepted call =>
      commitAccepted fuel providerCallId config treatment journal receivedEventId call

end RefundStudy.Provider
