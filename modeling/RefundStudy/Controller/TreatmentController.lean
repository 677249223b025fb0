/-
  The controller half of the treatment protocol (`treatment-controller/`).

  An invocation is given by the result of `readCallerTimeout` for every configuration.
-/
import RefundStudy.Provider.Barrier

set_option autoImplicit false

namespace RefundStudy.Controller

open Foundation Record RefundStudy.Runtime Journal
open Provider (readControl undecodableItem updateTreatment)

/-! ## Control items (`controller-control-items.ts`) -/

structure ControllerConfigView where
  registeredCallerId : ProviderCallerId
  scenario : Scenario

structure TreatmentCommit where
  targetedAttemptId : Uuid4
  providerCommitId : Uuid4
  commitEventId : Uuid4

/-- The treatment item with the identities its state implies. -/
inductive ControllerTreatment where
  | armed
  | committedWaiting (commit : TreatmentCommit)
  | signalled (state : SignalledTreatmentState) (commit : TreatmentCommit)
      (signalCallerEventId : Uuid4)
  | safetyReleased

/-- The `state` member of a controller treatment. -/
def ControllerTreatment.state : ControllerTreatment → TreatmentState
  | .armed => .armed
  | .committedWaiting _ => .committedWaiting
  | .signalled .timeoutSignalled _ _ => .timeoutSignalled
  | .signalled .timeoutObserved _ _ => .timeoutObserved
  | .signalled .responseReleased _ _ => .responseReleased
  | .safetyReleased => .safetyReleased

def decodeControllerConfig (item : ConfigItem) : Except String ControllerConfigView :=
  .ok ⟨item.registeredCallerId, item.scenario⟩

def requiredId (id : Option Uuid4) : Except String Uuid4 :=
  match id with
  | some value => .ok value
  | none => .error undecodableItem

def treatmentCommit (item : TreatmentItem) : Except String TreatmentCommit := do
  let targetedAttemptId ← requiredId item.targetedAttemptId
  let providerCommitId ← requiredId item.providerCommitId
  let commitEventId ← requiredId item.commitEventId
  return ⟨targetedAttemptId, providerCommitId, commitEventId⟩

/-- A signalled treatment must also name the caller event that signalled it. -/
def signalledTreatment (state : SignalledTreatmentState) (item : TreatmentItem) :
    Except String ControllerTreatment := do
  let commit ← treatmentCommit item
  let signalCallerEventId ← requiredId item.signalCallerEventId
  return .signalled state commit signalCallerEventId

def decodeControllerTreatment (item : TreatmentItem) : Except String ControllerTreatment :=
  if isPositiveSafeInteger item.version then
    match item.state with
    | .armed => .ok .armed
    | .safetyReleased => .ok .safetyReleased
    | .committedWaiting => do
      let commit ← treatmentCommit item
      return .committedWaiting commit
    | .timeoutSignalled => signalledTreatment .timeoutSignalled item
    | .timeoutObserved => signalledTreatment .timeoutObserved item
    | .responseReleased => signalledTreatment .responseReleased item
  else .error undecodableItem

/-! ## The decision (`signal-decision.ts`) -/

structure CallerTimeoutView where
  eventId : Uuid4
  attemptId : Uuid4

/-- The identities that could still be read. -/
structure InvalidCallerTimeout where
  callerTimeoutEventId : Option Uuid4
  attemptId : Option Uuid4

inductive AppendedDecision where
  | duplicateIgnored (refs : CallerEventRefs) (treatmentState : SignalledTreatmentState)
  | conflict (refs : CallerEventRefs) (existingCallerEventId : Uuid4)
      (treatmentState : SignalledTreatmentState)
  | lateRejected (refs : CallerEventRefs)
  | beforeCommitRejected (refs : CallerEventRefs)
  | notTargetedRejected (refs : CallerEventRefs)
  | controlTrialRejected (refs : CallerEventRefs)
  | invalidEventRejected (event : InvalidCallerTimeout) (treatmentState : Option TreatmentState)

/-- The signal decision: its caller event, its causation and the commit it answers. -/
structure SignalOnlyDecision where
  refs : CallerEventRefs
  causation : List Uuid4
  providerCommitId : Uuid4
  commitEventId : Uuid4

/-- `SignalDecision` in an experiment partition. -/
inductive SignalDecision where
  | signal (decision : SignalOnlyDecision)
  | appended (decision : AppendedDecision)

def sortedPair (a b : Uuid4) : List Uuid4 := if a ≤ b then [a, b] else [b, a]

theorem mem_sortedPair {a b id : Uuid4} : id ∈ sortedPair a b ↔ id = a ∨ id = b := by
  unfold sortedPair
  split
  · simp
  · simp [or_comm]

def decideCommittedWait (refs : CallerEventRefs) (commit : TreatmentCommit) : SignalDecision :=
  if refs.attemptId ≠ commit.targetedAttemptId then .appended (.notTargetedRejected refs)
  else .signal
    { refs := refs
      causation := sortedPair commit.commitEventId refs.callerTimeoutEventId
      providerCommitId := commit.providerCommitId
      commitEventId := commit.commitEventId }

def decideSignalled (refs : CallerEventRefs) (state : SignalledTreatmentState)
    (signalCallerEventId : Uuid4) : SignalDecision :=
  if signalCallerEventId = refs.callerTimeoutEventId then
    .appended (.duplicateIgnored refs state)
  else .appended (.conflict refs signalCallerEventId state)

def decideOnTreatment (refs : CallerEventRefs) : ControllerTreatment → SignalDecision
  | .armed => .appended (.beforeCommitRejected refs)
  | .safetyReleased => .appended (.lateRejected refs)
  | .committedWaiting commit => decideCommittedWait refs commit
  | .signalled state _ signalCallerEventId => decideSignalled refs state signalCallerEventId

/-- `decideSignal` in an experiment partition. -/
def decideSignal (event : Except InvalidCallerTimeout CallerTimeoutView) (scenario : Scenario)
    (treatment : Option ControllerTreatment) : SignalDecision :=
  match event with
  | .error invalid =>
    .appended (.invalidEventRejected invalid (treatment.map ControllerTreatment.state))
  | .ok view =>
    let refs : CallerEventRefs := ⟨view.eventId, view.attemptId⟩
    if scenario = .control then .appended (.controlTrialRejected refs)
    else match treatment with
      | none => .appended (.invalidEventRejected ⟨some view.eventId, some view.attemptId⟩ none)
      | some treatment => decideOnTreatment refs treatment

/-! ## Records (`controller-records.ts`) -/

/-- The event that records a decision which changes no state, and its causes. -/
def decisionRecord : AppendedDecision → EventBody × List Uuid4
  | .invalidEventRejected event treatmentState =>
    (.callerTimeoutRejected .invalidEvent event.callerTimeoutEventId event.attemptId
      treatmentState, [])
  | .controlTrialRejected refs =>
    (.callerTimeoutRejected .controlTrial (some refs.callerTimeoutEventId)
      (some refs.attemptId) none, [refs.callerTimeoutEventId])
  | .beforeCommitRejected refs =>
    (.callerTimeoutRejected .beforeCommit (some refs.callerTimeoutEventId)
      (some refs.attemptId) (some .armed), [refs.callerTimeoutEventId])
  | .notTargetedRejected refs =>
    (.callerTimeoutRejected .notTargeted (some refs.callerTimeoutEventId)
      (some refs.attemptId) (some .committedWaiting), [refs.callerTimeoutEventId])
  | .lateRejected refs =>
    (.lateTimeoutSignalRejected refs .safetyReleased, [refs.callerTimeoutEventId])
  | .duplicateIgnored refs treatmentState =>
    (.timeoutSignalDuplicateObserved refs treatmentState, [refs.callerTimeoutEventId])
  | .conflict refs existing treatmentState =>
    (.timeoutSignalConflictRecorded refs existing treatmentState,
      [refs.callerTimeoutEventId])

/-- The body of the signal record (`prepareSignalRecord`). -/
def signalRecord (decision : SignalOnlyDecision) : RecordedSignal where
  providerCommitId := decision.providerCommitId
  attemptId := decision.refs.attemptId
  callerTimeoutEventId := decision.refs.callerTimeoutEventId
  providerCommitEventId := decision.commitEventId

/-! ## The signal transaction (`controller-state-port.ts`) -/

def signalJournalActionIndex : Nat := 1

/-- `signal`: condition `state = COMMITTED_WAITING` and the targeted attempt. -/
def signalActions (decision : SignalOnlyDecision) (event : JournalEntry) :
    List (WriteAction ItemOf) :=
  [updateTreatment
    (allConditions [attributeEquals TreatmentItem.state .committedWaiting,
      attributeEquals TreatmentItem.targetedAttemptId (some decision.refs.attemptId)])
    (fun item => { item with
      state := .timeoutSignalled
      signalEventId := some event.event.eventId
      signalCallerEventId := some decision.refs.callerTimeoutEventId }),
   journalPutAction event]

/-! ## The controller (`treatment-controller.ts`) -/

structure StreamRecord where
  readCallerTimeout : ControllerConfigView → Except InvalidCallerTimeout CallerTimeoutView

inductive ControllerOutcome where
  | signal
  | recorded (decision : AppendedDecision)
  | recordIgnored

def required {View : Type} (read : Except String (Option View)) : Except Thrown (Option View) :=
  match read with
  | .ok view => .ok view
  | .error _ => .error (.controllerFault .stateUnreadable)

def controllerJournalDefinitiveRetries : Nat := 2

/-- `openJournal` of the composed controller: a new source instance per record. -/
def openControllerJournal : Async JournalWriter := do
  let instanceId ← await .nextId
  pure { table := .experimentJournal, source := .treatmentController, instanceId := instanceId
         maxDefinitiveRetries := controllerJournalDefinitiveRetries }

def appendOrFail (journal : JournalWriter) (decision : AppendedDecision) :
    Async ControllerOutcome := do
  let record := decisionRecord decision
  let (appended, _) ← journal.append record.1 record.2
  match appended with
  | .stopped _ => throwThe Thrown (.controllerFault .journalStopped)
  | .appended _ => pure (.recorded decision)

/-- A second signal decision faults. -/
def redecide (journal : JournalWriter) (event : Except InvalidCallerTimeout CallerTimeoutView)
    (scenario : Scenario) (treatment : Option ControllerTreatment) : Async ControllerOutcome :=
  match decideSignal event scenario treatment with
  | .signal _ => throwThe Thrown (.controllerFault .signalRedecidedToSignal)
  | .appended decision => appendOrFail journal decision

def decodeTreatmentAfterConflict :
    Option (Sigma ItemOf) → Except Thrown (Option ControllerTreatment)
  | none => .ok none
  | some ⟨.treatment, item⟩ =>
    match decodeControllerTreatment item with
    | .ok treatment => .ok (some treatment)
    | .error _ => .error (.controllerFault .stateUnreadable)
  | some _ => .error (.controllerFault .stateUnreadable)

def signalStoppedFault (reason : JournalStopReason) : Thrown :=
  .controllerFault (if reason = .ambiguousAppend then .signalAmbiguous else .journalStopped)

def signal (journal : JournalWriter) (decision : SignalOnlyDecision)
    (event : Except InvalidCallerTimeout CallerTimeoutView) (scenario : Scenario) :
    Async ControllerOutcome := do
  let (prepared, journal) ← journal.prepare (.timeoutSignalRecorded (signalRecord decision))
    decision.causation
  match prepared with
  | .stopped _ => throwThe Thrown (.controllerFault .journalStopped)
  | .prepared put => do
    let token ← await .nextId
    let outcome ← await (.transact (signalActions decision put) token)
    let (confirmed, journal) ← sync (journal.confirm put outcome signalJournalActionIndex)
    match confirmed with
    | .appended _ => pure .signal
    | .stopped reason => throwThe Thrown (signalStoppedFault reason)
    | .notApplied _ _ =>
      match outcome with
      | .conditionFailed 0 existing => do
        let treatment ← sync (decodeTreatmentAfterConflict existing)
        redecide journal event scenario treatment
      | _ => throwThe Thrown (.controllerFault .signalFailed)

def handle (record : StreamRecord) : Async ControllerOutcome := do
  let configRead ← readControl .config decodeControllerConfig
  let configuration ← sync (required configRead)
  match configuration with
  | none => pure .recordIgnored
  | some configuration => do
    let treatmentRead ← readControl .treatment decodeControllerTreatment
    let treatment ← sync (required treatmentRead)
    let event := record.readCallerTimeout configuration
    let journal ← openControllerJournal
    match decideSignal event configuration.scenario treatment with
    | .appended decision => appendOrFail journal decision
    | .signal decision => signal journal decision event configuration.scenario

end RefundStudy.Controller
