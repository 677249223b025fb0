/-
  The cleanup steps and the orchestrator that runs them (`cleanup/consumer-shutdown.ts`,
  `execution-quiescing.ts`, `dlq-cleanup.ts`, `dlq-message-deletion.ts`,
  `cleanup-step-dispatch.ts`, `cleanup-orchestrator.ts`).
-/
import RefundStudy.Cleanup.Deletion

set_option autoImplicit false

namespace RefundStudy.Cleanup

open Foundation Record

/-! ## Step 3: consumers -/

/-- `CONSUMER_POLL_INTERVAL_MS`. -/
def consumerPollIntervalMs : Nat := 5000

def consumerMaxPolls : Nat := 24

inductive DisableResult where
  | disabled
  | absent
  | failed (reason : StructuredReason)

def consumerPollOutcome (mappingId : String) (read : ConsumerStateRead) (poll : Nat) :
    Option DisableResult :=
  let unsettled := if poll < consumerMaxPolls then none
    else some (.failed ⟨"CONSUMER_NOT_DISABLED", mappingId⟩)
  match read with
  | .absent => some .absent
  | .state state => if state = "Disabled" then some .disabled else unsettled
  | .failed _ => unsettled

/-- `awaitDisabled` with `remaining` reads after this one; the last read always settles. -/
def awaitDisabled (mappingId : String) : Nat → CleanupM DisableResult
  | 0 => do
    let read ← callPort (.readState mappingId)
    return (consumerPollOutcome mappingId read consumerMaxPolls).getD
      (.failed ⟨"CONSUMER_NOT_DISABLED", mappingId⟩)
  | remaining + 1 => do
    let read ← callPort (.readState mappingId)
    match consumerPollOutcome mappingId read (consumerMaxPolls - (remaining + 1)) with
    | some settled => return settled
    | none =>
      let _ ← callPort (.sleep consumerPollIntervalMs)
      awaitDisabled mappingId remaining

def disableOne (mappingId : String) : CleanupM DisableResult := do
  let request : ConsumerDisableRequest ← callPort (.requestDisable mappingId)
  match request with
  | .absent => return .absent
  | .failed reason => return .failed reason
  | .requested => awaitDisabled mappingId (consumerMaxPolls - 1)

/-- What `record` is called with for one item of a step. -/
def stepItem (action : ItemActionName) (resourceType identifier : String)
    (reasons : List StructuredReason) : ItemAction :=
  { action := .item action
    resourceType := resourceType
    resourceIdentifier := identifier
    reasons := reasons }

variable (record : ItemAction → CleanupM Unit)

/-- One round of `disableConsumers`. -/
def disableConsumer (mappingId : String) : CleanupM (List StructuredReason) := do
  match ← disableOne mappingId with
  | .failed reason =>
    record (stepItem .consumerDisableFailed eventSourceMappingResourceType mappingId [reason])
    return [reason]
  | .disabled =>
    record (stepItem .consumerDisabled eventSourceMappingResourceType mappingId [])
    return []
  | .absent =>
    record (stepItem .consumerAbsent eventSourceMappingResourceType mappingId [])
    return []

def disableConsumers (mappingIds : List String) (record : ItemAction → CleanupM Unit) :
    CleanupM StepOutcome := do
  return outcomeFromFailures (← collect (disableConsumer record) mappingIds)

/-! ## Steps 5 and 6: barriers and executions -/

def releaseBarrier (partition : String) : CleanupM (List StructuredReason) := do
  let outcome : SafetyReleaseReport ← callPort (.requestSafetyRelease partition)
  match outcome with
  | .released _ =>
    record (stepItem .safetyReleaseApplied treatmentItemResourceType partition [])
    return []
  | .notHeld _ =>
    record (stepItem .safetyReleaseNotHeld treatmentItemResourceType partition [])
    return []
  | .failed reason =>
    record (stepItem .safetyReleaseFailed treatmentItemResourceType partition [reason])
    return [reason]

def stopExecution (arn : String) : CleanupM (List StructuredReason) := do
  let outcome : DurableStopOutcome ← callPort (.stop arn)
  match outcome with
  | .stopped =>
    record (stepItem .durableStopApplied durableExecutionResourceType arn [])
    return []
  | .notRunning =>
    record (stepItem .durableStopNotRunning durableExecutionResourceType arn [])
    return []
  | .failed reason =>
    record (stepItem .durableStopFailed durableExecutionResourceType arn [reason])
    return [reason]

def stopRunningExecutions (functionName : String) : CleanupM (List StructuredReason) := do
  let listing : Except StructuredReason (List String) ← callPort (.listRunning functionName)
  match listing with
  | .error reason =>
    record (stepItem .durableListFailed functionResourceType functionName [reason])
    return [reason]
  | .ok arns => collect (stopExecution record) arns

def releaseBarriersAndStopExecutions (partitions functionNames : List String)
    (record : ItemAction → CleanupM Unit) : CleanupM StepOutcome := do
  let releases ← collect (releaseBarrier record) partitions
  let stops ← collect (stopRunningExecutions record) functionNames
  return outcomeFromFailures (releases ++ stops)

/-- One round of `recordInducedTransitions`: an item with `cleanup_induced: true`. -/
def recordInduced (action : ItemActionName) (resourceType : String)
    (record : ItemAction → CleanupM Unit) (identifier : String) :
    CleanupM (List StructuredReason) := do
  record { stepItem action resourceType identifier [] with cleanupInduced := true }
  return []

def recordInducedTransitions (fold : CleanupFold) (record : ItemAction → CleanupM Unit) :
    CleanupM StepOutcome := do
  let _ ← collect (recordInduced .treatmentSafetyReleased treatmentItemResourceType record)
    (fold.appliedReleases.filter (!fold.recordedSafetyReleases.contains ·))
  let _ ← collect (recordInduced .durableExecutionStopped durableExecutionResourceType record)
    (fold.stoppedDurableExecutionArns.filter (!fold.recordedExecutionStops.contains ·))
  return outcomeFromFailures []

/-! ## Steps 7 and 8: the dead-letter queue -/

def recordCaptured (messageId : String) : CleanupM (List StructuredReason) := do
  record (stepItem .dlqMessageCaptured dlqMessageResourceType messageId [])
  return []

def captureDlqEvidence (mode : CleanupMode) (record : ItemAction → CleanupM Unit) :
    CleanupM StepOutcome := do
  let report : DlqCaptureReport ← callPort (.captureDlqEvidence mode)
  let _ ← collect (recordCaptured record) (sortedSet report.capturedMessageIds)
  return report.outcome

def maxDlqReceivesPerQueue : Nat := 20

structure FailedDlqMessage where
  messageId : String
  reason : StructuredReason

structure SweepState where
  captured : List String
  pending : List String
  deleted : List String
  failed : List FailedDlqMessage

/-- `#settleMessage` once the deletion, if the message was captured, is answered. -/
def SweepState.settle (state : SweepState) (messageId : String)
    (deletion : Option DlqMessageChange) : SweepState :=
  let wasPending := state.pending.contains messageId
  let state := { state with pending := state.pending.filter (· != messageId) }
  match deletion with
  | some .done => if wasPending then { state with deleted := state.deleted ++ [messageId] } else state
  | some (.failed reason) =>
    if wasPending then { state with failed := state.failed ++ [⟨messageId, reason⟩] } else state
  | none => state

/-- `#settleMessage`: a captured message is deleted, any other is held. -/
def settleMessage (queueUrl : String) (state : SweepState × List ReceivedDlqMessage)
    (message : ReceivedDlqMessage) : CleanupM (SweepState × List ReceivedDlqMessage) := do
  if state.1.captured.contains message.messageId then
    let deletion : DlqMessageChange ← callPort (.deleteMessage queueUrl message.receiptHandle)
    let settled := state.1.settle message.messageId (some deletion)
    match deletion with
    | .done => return (settled, state.2)
    | .failed _ => return (settled, state.2 ++ [message])
  else
    return (state.1.settle message.messageId none, state.2 ++ [message])

def settleMessages (queueUrl : String) :
    List ReceivedDlqMessage → SweepState × List ReceivedDlqMessage →
      CleanupM (SweepState × List ReceivedDlqMessage)
  | [], state => pure state
  | message :: rest, state => do
    let state ← settleMessage queueUrl state message
    settleMessages queueUrl rest state

/-- `#receiveUntilEmpty` with this many receives left. -/
def receiveUntilEmpty (queueUrl : String) : Nat → SweepState × List ReceivedDlqMessage →
    CleanupM (Option StructuredReason × SweepState × List ReceivedDlqMessage)
  | 0, state => pure (some ⟨"DLQ_SWEEP_INCOMPLETE", queueUrl⟩, state)
  | receives + 1, state => do
    let received : DlqReceive ← callPort (.receive queueUrl)
    match received with
    | .failed reason => return (some reason, state)
    | .queueAbsent | .messages [] => return (none, state)
    | .messages messages =>
      let state ← settleMessages queueUrl messages state
      if state.1.pending.isEmpty then return (none, state)
      else receiveUntilEmpty queueUrl receives state

/-- One held message is made visible again; how that went is not reported. -/
def releaseHeld (queueUrl : String) (message : ReceivedDlqMessage) :
    CleanupM (List StructuredReason) := do
  let _ ← callPort (.releaseMessage queueUrl message.receiptHandle)
  return []

/-- `#sweep`: why this queue's sweep proves nothing about the ids still pending. -/
def sweepQueue (queueUrl : String) (state : SweepState) :
    CleanupM (Option StructuredReason × SweepState) := do
  let (gap, state, held) ← receiveUntilEmpty queueUrl maxDlqReceivesPerQueue (state, [])
  let _ ← collect (releaseHeld queueUrl) held
  if gap.isSome || held.isEmpty || !".fifo".toList.isSuffixOf queueUrl.toList then
    return (gap, state)
  else
    return (some ⟨"DLQ_FIFO_GROUP_HIDDEN", queueUrl⟩, state)

/-- The loop of `deleteCaptured` over the bound queues; a queue is swept only while ids are
pending. -/
def sweepQueues : List String → List StructuredReason → SweepState →
    CleanupM (List StructuredReason × SweepState)
  | [], gaps, state => pure (gaps, state)
  | queueUrl :: rest, gaps, state => do
    if state.pending.isEmpty then sweepQueues rest gaps state
    else
      let (gap, state) ← sweepQueue queueUrl state
      sweepQueues rest (gaps ++ gap.toList) state

structure DlqDeletionReport where
  deleted : List String
  absent : List String
  failed : List FailedDlqMessage

/-- An id counts as absent only when every bound queue's sweep proved it. -/
def deleteCaptured (queueUrls : List String) (messageIds : List String) :
    CleanupM DlqDeletionReport := do
  let unbound := if queueUrls.isEmpty then [⟨"DLQ_QUEUES_UNBOUND", "BR-RUA-048"⟩] else []
  let (gaps, state) ← sweepQueues queueUrls.eraseDups unbound ⟨messageIds, messageIds.dedup, [], []⟩
  let remaining := state.pending.insertionSort (codeUnitsLe · ·)
  match gaps with
  | [] => return ⟨state.deleted, remaining, state.failed⟩
  | _ :: _ =>
    return ⟨state.deleted, [], state.failed ++
      remaining.map fun messageId => ⟨messageId, ⟨"DLQ_MESSAGE_NOT_PROVEN_ABSENT", messageId⟩⟩⟩

def recordMessage (action : ItemActionName) (record : ItemAction → CleanupM Unit)
    (messageId : String) : CleanupM (List StructuredReason) := do
  record (stepItem action dlqMessageResourceType messageId [])
  return []

def recordMessageFailure (failure : FailedDlqMessage) : CleanupM (List StructuredReason) := do
  record (stepItem .dlqMessageDeleteFailed dlqMessageResourceType failure.messageId
    [failure.reason])
  return []

def deleteCapturedDlqMessages (queueUrls messageIds : List String)
    (record : ItemAction → CleanupM Unit) : CleanupM StepOutcome := do
  if messageIds.isEmpty then return outcomeFromFailures []
  else
    let report ← deleteCaptured queueUrls messageIds
    let _ ← collect (recordMessage .dlqMessageDeleted record) report.deleted
    let _ ← collect (recordMessage .dlqMessageAbsent record) report.absent
    let _ ← collect (recordMessageFailure record) report.failed
    return outcomeFromFailures (report.failed.map (·.reason))

/-! ## The dispatch -/

/-- With the queues the DLQ port is bound to. -/
structure CleanupTargets where
  eventSourceMappingIds : List String
  treatmentPartitions : List String
  durableFunctionNames : List String
  dlqUrls : List String

/-- What earlier runs recorded is `history`. -/
structure CleanupInput where
  ownership : OwnershipContext
  targets : CleanupTargets
  history : List CleanupActionEntry
  findings : List StructuredReason

def pendingDlqMessages (fold : CleanupFold) : List String :=
  fold.capturedDlqMessageIds.filter fun messageId =>
    !(fold.deletedDlqMessageIds ++ fold.absentDlqMessageIds).contains messageId

def earlierDeleteFailures (fold : CleanupFold) : List CleanupResource :=
  fold.resources.filter (·.action = .deleteFailed)

/-- Every surface answered in every pass, and there was a pass. -/
def auditOutcome (audit : LeakAuditResult) : StepOutcome :=
  if !audit.passes.isEmpty && audit.passes.all (·.all (·.queryOk)) then outcomeFromFailures []
  else outcomeFromFailures [⟨"LEAK_AUDIT_QUERY_FAILED", "leak-audit"⟩]

def stableAbsenceOutcome (audit : LeakAuditResult) : StepOutcome :=
  if audit.leakAuditStatus = .clean then outcomeFromFailures []
  else outcomeFromFailures [⟨"STABLE_ABSENCE_NOT_PROVEN", "leak-audit"⟩]

def notAuditedResult : LeakAuditResult := ⟨.inconclusive, []⟩

/-- `#auditTotally` with the assignment to `leakAudit`. -/
def auditTotally : CleanupM LeakAuditResult := do
  let answer : Except Thrown LeakAuditResult ← askPort .audit
  match answer with
  | .ok audit =>
    Stateful.update fun state => { state with leakAudit := audit }
    return audit
  | .error _ =>
    let _ ← clockNow
    Stateful.update fun state => { state with
      carried := state.carried ++ [⟨"LEAK_AUDIT_THREW", "leak-audit"⟩]
      leakAudit := notAuditedResult }
    return notAuditedResult

def runCleanupStep (step : CleanupStep) (mode : CleanupMode) (input : CleanupInput)
    (fold : CleanupFold) (record : ItemAction → CleanupM Unit) : CleanupM StepOutcome :=
  match step with
  | .lateEvidenceCutoff => callPort (.completeLateEvidenceCutoff mode)
  | .lateAssessmentFreeze => callPort (.freezeLateEvidenceAssessment mode)
  | .consumersDisable => disableConsumers input.targets.eventSourceMappingIds record
  | .preCleanupSnapshot => callPort (.capturePreCleanupSnapshot mode)
  | .barriersReleaseAndExecutionsStop =>
    releaseBarriersAndStopExecutions input.targets.treatmentPartitions
      input.targets.durableFunctionNames record
  | .cleanupInducedTransitionsRecord => recordInducedTransitions fold record
  | .dlqEvidenceCapture => captureDlqEvidence mode record
  | .capturedDlqMessagesDelete =>
    deleteCapturedDlqMessages input.targets.dlqUrls (pendingDlqMessages fold) record
  | .ownedResourcesDelete =>
    deleteOwnedResources input.ownership (earlierDeleteFailures fold) record
  | .discoverySurfacesAudit => do return auditOutcome (← auditTotally)
  | .stableAbsenceConfirm => do
    return stableAbsenceOutcome (← Stateful.inspect fun state => state.leakAudit)
  | .resultsFreeze => pure (outcomeFromFailures [])

/-! ## The orchestrator -/

/-- Every action recorded so far, of earlier runs and of this one, folded. -/
def foldedRun (input : CleanupInput) : CleanupM CleanupFold :=
  Stateful.inspect fun state => foldCleanupActions (input.history ++ state.entries)

/-- The carried reasons, which a terminal status takes along. -/
def takeCarried (status : StepStatus) : CleanupM (List StructuredReason) := do
  match status with
  | .started => return []
  | .ended _ =>
    let carried ← Stateful.inspect fun state => state.carried
    Stateful.update fun state => { state with carried := [] }
    return carried

def takeFailure : CleanupM (List StructuredReason) := do
  let failure ← Stateful.inspect fun state => state.pendingFailure
  Stateful.update fun state => { state with pendingFailure := none }
  return failure.toList

def recordStep (mode : CleanupMode) (step : CleanupStep) (status : StepStatus)
    (reasons : List StructuredReason) : CleanupM Unit := do
  let carried ← takeCarried status
  let failure ← takeFailure
  recordAction
    { step := step
      stepStatus := status
      cleanupMode := mode
      cleanupInduced := false
      action := .step step
      reasons := reasons ++ carried ++ failure }

def stepTotally (step : CleanupM StepOutcome) (subject : String) : CleanupM StepOutcome :=
  Stateful.orElse step fun _ => pure ⟨.failed, [⟨"STEP_FAILED_UNEXPECTEDLY", subject⟩]⟩

def CleanupStep.number (step : CleanupStep) : Nat := cleanupSteps.idxOf step + 1

def runStep (mode : CleanupMode) (input : CleanupInput) (step : CleanupStep) : CleanupM Unit := do
  recordStep mode step .started []
  let fold ← foldedRun input
  let outcome ← stepTotally (runCleanupStep step mode input fold (recordItem mode step))
    ("step " ++ toString step.number)
  recordStep mode step (.ended outcome.status) outcome.reasons

/-- One round of the loop of `#run`. -/
def runStepIfNeeded (mode : CleanupMode) (input : CleanupInput) (step : CleanupStep) :
    CleanupM Unit := do
  let fold ← foldedRun input
  if step ≠ .resultsFreeze ∧ mustRunStep step fold.succeededSteps then runStep mode input step
  else pure ()

/-- The loop of `#run`. -/
def runSteps (mode : CleanupMode) (input : CleanupInput) : List CleanupStep → CleanupM Unit
  | [] => pure ()
  | step :: rest => do
    runStepIfNeeded mode input step
    runSteps mode input rest

def deriveCleanupStatus (step9 : Option StepStatus) (resources : List CleanupResource) :
    TerminalCleanupStatus :=
  if resources.any (·.action = .deleteFailed) then .partly
  else if step9 = some (.ended .succeeded) then .succeeded
  else .failed

def buildCleanupResult (mode : CleanupMode) (fold : CleanupFold) (startedAt completedAt : UtcMillis)
    (durationBreach : Bool) : CleanupResult where
  cleanupMode := mode
  cleanupStatus := deriveCleanupStatus (stepStatusOf fold .ownedResourcesDelete) fold.resources
  steps := fold.steps
  resources := fold.resources
  stoppedDurableExecutionArns := fold.stoppedDurableExecutionArns
  deletedDlqMessageIds := sortedSet (fold.deletedDlqMessageIds ++ fold.absentDlqMessageIds)
  durationBreach := durationBreach
  startedAt := startedAt
  completedAt := completedAt

def earliestStart (entries : List CleanupActionEntry) (runStartedAt : UtcMillis) : UtcMillis :=
  entries.foldl (fun earliest entry => min earliest entry.occurredAt) runStartedAt

structure CleanupRunOutcome where
  cleanupResult : CleanupResult
  leakAuditResult : LeakAuditResult
  freeze : StepOutcome

def totalTargetExceeded : CleanupM Bool := Stateful.perform CleanupCall.totalTargetExceeded

def freezeRun (mode : CleanupMode) (input : CleanupInput) (runStartedAt : UtcMillis) :
    CleanupM CleanupRunOutcome := do
  recordStep mode .resultsFreeze .started []
  let fold ← foldedRun input
  let startedAt ← Stateful.inspect fun state =>
    earliestStart (input.history ++ state.entries) runStartedAt
  let completedAt ← clockNow
  let breach ← totalTargetExceeded
  let result := buildCleanupResult mode fold startedAt completedAt breach
  let leakAudit ← Stateful.inspect fun state => state.leakAudit
  let freeze ← stepTotally (callPort (.freezeResults result leakAudit)) "step 12"
  recordStep mode .resultsFreeze (.ended freeze.status) freeze.reasons
  return ⟨result, leakAudit, freeze⟩

/-- `#run`: `runNormal` or `runEmergency`. -/
def runCleanup (mode : CleanupMode) (input : CleanupInput) : CleanupM CleanupRunOutcome := do
  let runStartedAt ← clockNow
  runSteps mode input (cleanupStepOrder mode)
  freezeRun mode input runStartedAt

def RunState.initial (input : CleanupInput) : RunState where
  carried := input.findings
  leakAudit := notAuditedResult

end RefundStudy.Cleanup
