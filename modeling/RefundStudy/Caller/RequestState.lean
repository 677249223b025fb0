/-
  The request-state recorder of the callers (`conventional-variant/request-state/`).

  Each recording is one transaction: the put of the event, and the put of the state item on the
  version it replaces.
-/
import RefundStudy.Attempt.Client
import RefundStudy.Caller.EffectKnowledge

set_option autoImplicit false

namespace RefundStudy.Caller

open Foundation Record RefundStudy.Runtime Journal Attempt

/-! ## The state item (`request-state-item.ts`) -/

/-- `requestStateKey` and `rejectedMessageStateKey`. -/
inductive StateKey where
  | request (refundRequestId : String)
  | rejectedMessage (messageId : String)

/-- The put of `toRequestStateItem`. -/
def StateKey.put (condition : Option RequestStateSnapshot → Bool) (next : RequestStateSnapshot) :
    StateKey → WriteAction ItemOf
  | .request refundRequestId => ⟨.requestState refundRequestId, condition, fun _ => next, true⟩
  | .rejectedMessage messageId => ⟨.rejectedMessageState messageId, condition, fun _ => next, true⟩

def StateKey.get : StateKey → Async (Except String (Option RequestStateSnapshot))
  | .request refundRequestId => await (.getConsistent (.requestState refundRequestId))
  | .rejectedMessage messageId => await (.getConsistent (.rejectedMessageState messageId))

def parseRequestStateItem (item : RequestStateSnapshot) : Option RequestStateSnapshot :=
  if isPositiveSafeInteger item.version = true ∧ item.attemptIds.Nodup then some item else none

/-! ## Orphan attempts (`orphan-attempts.ts`) -/

def classOfPhase : AttemptPhase → OutcomeClass
  | .notDispatched => .preDispatchFailure
  | .preDispatch | .dispatched => .ambiguous

def attemptStateOf : Sigma ItemOf → Option AttemptStateItem
  | ⟨.attemptState _, state⟩ => some state
  | _ => none

def outcomeClassOf : Sigma ItemOf → Option (Uuid4 × OutcomeClass)
  | ⟨.journal _, event⟩ =>
    match event.body with
    | .attemptOutcomeRecorded correlation resolution =>
      (classifyOutcome resolution.outcome resolution.dispatchState).toOption.map
        fun outcomeClass => (correlation.attemptId, outcomeClass)
    | _ => none
  | _ => none

/-- A later outcome event of an attempt replaces an earlier one. -/
def recordedOutcomeClasses (items : List (Sigma ItemOf)) : List (Uuid4 × OutcomeClass) :=
  (items.filterMap outcomeClassOf).reverse

def findOrphanAttempts (items : List (Sigma ItemOf)) (refundRequestId : String)
    (accounted : List Uuid4) : List AccountedAttempt :=
  let states := items.filterMap attemptStateOf
  let outcomes := recordedOutcomeClasses items
  let orphans := states.filter fun state =>
    decide (state.refundRequestId = refundRequestId ∧ state.attemptId ∉ accounted)
  orphans.map fun state =>
    ⟨state.attemptId, (outcomes.lookup state.attemptId).getD (classOfPhase state.phase)⟩

/-! ## The recorder (`request-state-recorder.ts`) -/

def requestStateJournalActionIndex : Nat := 0

inductive ProcessingUpdate where
  | running
  | finished (terminalReason : ProcessingTerminalReason)

def ProcessingUpdate.state : ProcessingUpdate → ProcessingState
  | .running => .running
  | .finished _ => .finished

def ProcessingUpdate.terminalReason : ProcessingUpdate → Option ProcessingTerminalReason
  | .running => none
  | .finished terminalReason => some terminalReason

inductive RequestStateFailureCode where
  | stateUnreadable
  | versionConflict
  | rejected
  | journalStopped

inductive RequestStateRecordResult where
  | recorded (event : JournalEvent) (state : RequestStateSnapshot)
  | unchanged
  | notRecorded (code : RequestStateFailureCode)

structure PlannedState where
  snapshot : RequestStateSnapshot
  body : RecordedRequestState

/-- `planState`, and the plan of `recordMessageRejected`, which names the request only if the
message did. -/
def planState (current : Option RequestStateSnapshot) (attempts : List AccountedAttempt)
    (processing : ProcessingUpdate) (request : Option String) : PlannedState :=
  let snapshot := baseOf current attempts processing.state
  ⟨snapshot, ⟨snapshot.version, snapshot.effectKnowledge, snapshot.attemptIds,
    snapshot.processingState, processing.terminalReason, request⟩⟩

/-- The item must be the one that was read. -/
def unchangedSince : Option RequestStateSnapshot → Option RequestStateSnapshot → Bool
  | none => itemAbsent
  | some current => attributeEquals RequestStateSnapshot.version current.version

def stateActions (key : StateKey) (current : Option RequestStateSnapshot)
    (next : RequestStateSnapshot) (put : JournalEntry) : List (WriteAction ItemOf) :=
  [journalPutAction put, key.put (unchangedSince current) next]

def recordResultOf (next : RequestStateSnapshot) : ConfirmResult → RequestStateRecordResult
  | .appended event => .recorded event next
  | .stopped _ => .notRecorded .journalStopped
  | .notApplied _ (.definitiveFailure _) => .notRecorded .rejected
  | .notApplied _ _ => .notRecorded .versionConflict

/-- The tries of `#record`, with the retries that are left. -/
def recordTries (key : StateKey) (current : Option RequestStateSnapshot)
    (next : RequestStateSnapshot) (put : JournalEntry) :
    Nat → JournalWriter → Async (RequestStateRecordResult × JournalWriter)
  | 0, writer => do
    let outcome ← await (.transact (stateActions key current next put) put.event.eventId)
    let (confirmed, writer) ← sync (writer.confirm put outcome requestStateJournalActionIndex)
    pure (recordResultOf next confirmed, writer)
  | retries + 1, writer => do
    let outcome ← await (.transact (stateActions key current next put) put.event.eventId)
    let (confirmed, writer) ← sync (writer.confirm put outcome requestStateJournalActionIndex)
    if isDefinitiveFailure confirmed then
      let (prepared, writer) ← sync (writer.prepareRetry put)
      match prepared with
      | .prepared put => recordTries key current next put retries writer
      | .stopped _ => pure (.notRecorded .journalStopped, writer)
    else pure (recordResultOf next confirmed, writer)

/-- `RequestStateRecorder` with the dependencies it decides on; `fuel` bounds the pages of one
partition query. -/
structure RequestStateRecorder where
  maxDefinitiveRetries : Nat
  fuel : Nat

namespace RequestStateRecorder

variable (recorder : RequestStateRecorder) (writer : JournalWriter)

def record (key : StateKey) (current : Option RequestStateSnapshot) (planned : PlannedState)
    (causation : List Uuid4) : Async (RequestStateRecordResult × JournalWriter) := do
  let (prepared, writer) ← writer.prepare (.requestStateRecorded planned.body) causation
  match prepared with
  | .prepared put =>
    recordTries key current planned.snapshot put recorder.maxDefinitiveRetries writer
  | .stopped _ => pure (.notRecorded .journalStopped, writer)

/-- `#read`: `none` where the item cannot be read. -/
def read (key : StateKey) : Async (Option (Option RequestStateSnapshot)) := do
  let found ← key.get
  match found with
  | .error _ => pure none
  | .ok none => pure (some none)
  | .ok (some item) => pure ((parseRequestStateItem item).map some)

/-- `#partitionItems` from a cursor: `none` where a page cannot be read. -/
def partitionItems : Nat → Option (List Nat) → Async (Option (List (Sigma ItemOf)))
  | 0, _ => outOfFuel
  | fuel + 1, cursor => do
    let page ← await (.queryPartitionPage cursor)
    match page with
    | .error _ => pure none
    | .ok page =>
      match page.nextCursor with
      | none => pure (some page.items)
      | some next => do
        let rest ← partitionItems fuel (some next)
        pure (rest.map fun items => page.items ++ items)

def recordAttemptResult (refundRequestId : String) (attempt : AccountedAttempt)
    (processing : ProcessingUpdate) (causation : List Uuid4) :
    Async (RequestStateRecordResult × JournalWriter) := do
  let current ← read (.request refundRequestId)
  match current with
  | none => pure (.notRecorded .stateUnreadable, writer)
  | some current =>
    recorder.record writer (.request refundRequestId) current
      (planState current [attempt] processing (some refundRequestId)) causation

def reconcileOrphans (refundRequestId : String) (causation : List Uuid4) :
    Async (RequestStateRecordResult × JournalWriter) := do
  let current ← read (.request refundRequestId)
  match current with
  | none => pure (.notRecorded .stateUnreadable, writer)
  | some current => do
    let items ← partitionItems recorder.fuel none
    match items with
    | none => pure (.notRecorded .stateUnreadable, writer)
    | some items =>
      let orphans := findOrphanAttempts items refundRequestId
        ((current.map RequestStateSnapshot.attemptIds).getD [])
      if orphans.isEmpty then pure (.unchanged, writer)
      else
        recorder.record writer (.request refundRequestId) current
          (planState current orphans .running (some refundRequestId)) causation

def recordMessageRejected (request : Option String) (messageId : String)
    (causation : List Uuid4) : Async (RequestStateRecordResult × JournalWriter) := do
  let key := (request.map StateKey.request).getD (.rejectedMessage messageId)
  let current ← read key
  match current with
  | none => pure (.notRecorded .stateUnreadable, writer)
  | some current =>
    recorder.record writer key current
      (planState current [] (.finished .messageRejected) request) causation

end RequestStateRecorder

end RefundStudy.Caller
