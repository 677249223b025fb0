/-
  The cleanup journal, its fold, and the ports cleanup acts through
  (`cleanup/cleanup-ports.ts`, `cleanup-journal.ts`, `cleanup-action-fold.ts`,
  `cleanup-steps.ts`, `step-recording.ts`).

  Every port is a call whose reply is anything its type allows, or a thrown value.
-/
import RefundStudy.Cleanup.Ownership
import RefundStudy.Foundation.Trace
import Mathlib.Data.List.Dedup
import Mathlib.Data.List.Sort

set_option autoImplicit false

namespace RefundStudy.Cleanup

open Foundation Record

/-! ## Steps and actions -/

/-- `CLEANUP_MODES`. -/
inductive CleanupMode where
  | normal
  | emergency
  deriving DecidableEq

/-- `CLEANUP_STEPS`, each named by its `STEP_ACTIONS` text. -/
inductive CleanupStep where
  | lateEvidenceCutoff
  | lateAssessmentFreeze
  | consumersDisable
  | preCleanupSnapshot
  | barriersReleaseAndExecutionsStop
  | cleanupInducedTransitionsRecord
  | dlqEvidenceCapture
  | capturedDlqMessagesDelete
  | ownedResourcesDelete
  | discoverySurfacesAudit
  | stableAbsenceConfirm
  | resultsFreeze
  deriving DecidableEq

def cleanupSteps : List CleanupStep :=
  [.lateEvidenceCutoff, .lateAssessmentFreeze, .consumersDisable, .preCleanupSnapshot,
    .barriersReleaseAndExecutionsStop, .cleanupInducedTransitionsRecord, .dlqEvidenceCapture,
    .capturedDlqMessagesDelete, .ownedResourcesDelete, .discoverySurfacesAudit,
    .stableAbsenceConfirm, .resultsFreeze]

/-- An emergency disables the consumers first. -/
def cleanupStepOrder : CleanupMode → List CleanupStep
  | .normal => cleanupSteps
  | .emergency =>
    [.consumersDisable, .lateEvidenceCutoff, .lateAssessmentFreeze, .preCleanupSnapshot,
      .barriersReleaseAndExecutionsStop, .cleanupInducedTransitionsRecord, .dlqEvidenceCapture,
      .capturedDlqMessagesDelete, .ownedResourcesDelete, .discoverySurfacesAudit,
      .stableAbsenceConfirm, .resultsFreeze]

def alwaysRerun : CleanupStep → Bool
  | .discoverySurfacesAudit | .stableAbsenceConfirm | .resultsFreeze => true
  | _ => false

def mustRunStep (step : CleanupStep) (succeeded : List CleanupStep) : Bool :=
  alwaysRerun step || !succeeded.contains step

inductive ItemActionName where
  | consumerDisabled
  | consumerAbsent
  | consumerDisableFailed
  | safetyReleaseApplied
  | safetyReleaseNotHeld
  | safetyReleaseFailed
  | durableListFailed
  | durableStopApplied
  | durableStopNotRunning
  | durableStopFailed
  | treatmentSafetyReleased
  | durableExecutionStopped
  | dlqMessageCaptured
  | dlqMessageDeleted
  | dlqMessageAbsent
  | dlqMessageDeleteFailed
  deriving DecidableEq

inductive CleanupResourceAction where
  | deleted
  | alreadyAbsent
  | deleteFailed
  | skippedAmbiguous
  | excludedBaseline
  deriving DecidableEq

/-- `BASES_BY_ACTION`: the decisions an action on a resource can follow from. -/
def basesByAction : CleanupResourceAction → List OwnershipBasis
  | .skippedAmbiguous => [.ambiguous]
  | .excludedBaseline => [.excludedBaseline]
  | .deleted | .alreadyAbsent | .deleteFailed =>
    [.owned .recordedStack, .owned .resourceManifestAndTags,
      .owned .tagsNameTypeCreatedAfterFreeze]

/-- The `action` of a journal entry: of a step, of an item, or of a resource. -/
inductive CleanupAction where
  | step (step : CleanupStep)
  | item (action : ItemActionName)
  | resource (action : CleanupResourceAction)
  deriving DecidableEq

inductive TerminalStatus where
  | succeeded
  | failed
  | skipped
  deriving DecidableEq

inductive StepStatus where
  | started
  | ended (status : TerminalStatus)
  deriving DecidableEq

/-! ## Entries and their fold -/

structure CleanupActionBody where
  step : CleanupStep
  stepStatus : StepStatus
  cleanupMode : CleanupMode
  cleanupInduced : Bool
  action : CleanupAction
  resourceType : Option String := none
  resourceIdentifier : Option String := none
  ownershipBasis : Option OwnershipBasis := none
  reasons : List StructuredReason

structure CleanupActionEntry where
  body : CleanupActionBody
  occurredAt : UtcMillis

/-- `CleanupStep` of the cleanup result. -/
structure FoldedStep where
  step : CleanupStep
  status : StepStatus
  startedAt : Option UtcMillis
  completedAt : Option UtcMillis
  reasons : List StructuredReason

structure CleanupResource where
  resourceType : String
  resourceIdentifier : String
  ownershipBasis : OwnershipBasis
  action : CleanupResourceAction
  reasons : List StructuredReason

structure CleanupFold where
  steps : List FoldedStep
  succeededSteps : List CleanupStep
  resources : List CleanupResource
  appliedReleases : List String
  stoppedDurableExecutionArns : List String
  recordedSafetyReleases : List String
  recordedExecutionStops : List String
  capturedDlqMessageIds : List String
  deletedDlqMessageIds : List String
  absentDlqMessageIds : List String

def stepEntries (step : CleanupStep) (entries : List CleanupActionEntry) :
    List CleanupActionEntry :=
  entries.filter fun entry => entry.body.step = step ∧ entry.body.action = .step step

variable (entries : List CleanupActionEntry)

/-- The latest step-level entry decides. -/
def foldStep (step : CleanupStep) : Option FoldedStep :=
  let own := stepEntries step entries
  match own.getLast? with
  | none => none
  | some latest =>
    match latest.body.stepStatus with
    | .started => some ⟨step, .started, some latest.occurredAt, none, []⟩
    | .ended status =>
      let start := own.reverse.find? (·.body.stepStatus = .started)
      some ⟨step, .ended status, start.map (·.occurredAt), some latest.occurredAt,
        latest.body.reasons⟩

def resourceEntryOf (body : CleanupActionBody) : Option CleanupResource :=
  match body.action, body.resourceType, body.resourceIdentifier, body.ownershipBasis with
  | .resource action, some resourceType, some identifier, some basis =>
    if body.step = .ownedResourcesDelete then
      some ⟨resourceType, identifier, basis, action, body.reasons⟩
    else none
  | _, _, _, _ => none

/-- The latest entry of each resource, in first-seen order. -/
def foldResources : List CleanupResource :=
  InsertionMap.values <| entries.foldl (fun latest entry =>
    match resourceEntryOf entry.body with
    | none => latest
    | some resource =>
      InsertionMap.set latest
        (resourceKey resource.resourceType resource.resourceIdentifier) resource) []

/-- `[...new Set(texts)].sort()`. -/
def sortedSet (texts : List String) : List String :=
  texts.dedup.insertionSort (codeUnitsLe · ·)

theorem mem_sortedSet {texts : List String} {text : String} :
    text ∈ sortedSet texts ↔ text ∈ texts := by
  unfold sortedSet
  rw [List.mem_insertionSort, List.mem_dedup]

/-- The identifier an entry gives to an action of this name. -/
def identifierFor (action : ItemActionName) (entry : CleanupActionEntry) : Option String :=
  if entry.body.action = .item action then entry.body.resourceIdentifier else none

def identifiersOf (action : ItemActionName) : List String :=
  sortedSet (entries.filterMap (identifierFor action))

def foldCleanupActions : CleanupFold :=
  let steps := cleanupSteps.filterMap (foldStep entries)
  { steps := steps
    succeededSteps := (steps.filter (·.status = .ended .succeeded)).map (·.step)
    resources := foldResources entries
    appliedReleases := identifiersOf entries .safetyReleaseApplied
    stoppedDurableExecutionArns := identifiersOf entries .durableStopApplied
    recordedSafetyReleases := identifiersOf entries .treatmentSafetyReleased
    recordedExecutionStops := identifiersOf entries .durableExecutionStopped
    capturedDlqMessageIds := identifiersOf entries .dlqMessageCaptured
    deletedDlqMessageIds := identifiersOf entries .dlqMessageDeleted
    absentDlqMessageIds := identifiersOf entries .dlqMessageAbsent }

def stepStatusOf (fold : CleanupFold) (step : CleanupStep) : Option StepStatus :=
  (fold.steps.find? (·.step = step)).map (·.status)

/-! ## What the ports report -/

/-- A thrown value.  Only the text of a reason describes it. -/
abbrev Thrown : Type := Unit

/-- `StepReport` and `StepOutcome`. -/
structure StepOutcome where
  status : TerminalStatus
  reasons : List StructuredReason

structure DlqCaptureReport where
  outcome : StepOutcome
  capturedMessageIds : List String

inductive ConsumerDisableRequest where
  | requested
  | absent
  | failed (reason : StructuredReason)

inductive ConsumerStateRead where
  | state (state : String)
  | absent
  | failed (reason : StructuredReason)

/-- `BarrierReleaseOutcome` as the port reports it. -/
inductive SafetyReleaseReport where
  | released (fromState : String)
  | notHeld (state : Option String)
  | failed (reason : StructuredReason)

inductive DurableStopOutcome where
  | stopped
  | notRunning
  | failed (reason : StructuredReason)

structure ReceivedDlqMessage where
  messageId : String
  receiptHandle : String

inductive DlqReceive where
  | messages (messages : List ReceivedDlqMessage)
  | queueAbsent
  | failed (reason : StructuredReason)

inductive DlqMessageChange where
  | done
  | failed (reason : StructuredReason)

inductive StackRead where
  | present (status : String)
  | absent
  | failed (reason : StructuredReason)

inductive ResourceDeletion where
  | deleted
  | alreadyAbsent
  | failed (reason : StructuredReason)

inductive PresenceCheck where
  | present
  | absent
  | failed (reason : StructuredReason)

inductive LeakAuditStatus where
  | clean
  | leaksDetected
  | inconclusive
  deriving DecidableEq

structure AuditedSurface where
  surface : LeakAuditSurface
  queryOk : Bool

structure LeakAuditResult where
  leakAuditStatus : LeakAuditStatus
  passes : List (List AuditedSurface)

inductive TerminalCleanupStatus where
  | succeeded
  | partly
  | failed

structure CleanupResult where
  cleanupMode : CleanupMode
  cleanupStatus : TerminalCleanupStatus
  steps : List FoldedStep
  resources : List CleanupResource
  stoppedDurableExecutionArns : List String
  deletedDlqMessageIds : List String
  durationBreach : Bool
  startedAt : UtcMillis
  completedAt : UtcMillis

/-- The result of a journal append: when the event occurred, or that the writer has stopped. -/
inductive AppendResult where
  | appended (occurredAt : UtcMillis)
  | stopped

inductive PortCall where
  | completeLateEvidenceCutoff (mode : CleanupMode)
  | freezeLateEvidenceAssessment (mode : CleanupMode)
  | capturePreCleanupSnapshot (mode : CleanupMode)
  | captureDlqEvidence (mode : CleanupMode)
  | freezeResults (cleanup : CleanupResult) (leakAudit : LeakAuditResult)
  | requestDisable (mappingId : String)
  | readState (mappingId : String)
  | requestSafetyRelease (partition : String)
  | listRunning (functionName : String)
  | stop (executionArn : String)
  | receive (queueUrl : String)
  | deleteMessage (queueUrl receiptHandle : String)
  | releaseMessage (queueUrl receiptHandle : String)
  | describe (stackId : String)
  | requestDelete (stackId : String)
  | query (surface : LeakAuditSurface)
  | confirmPresence (resource : DiscoveredResource)
  | delete (resource : DiscoveredResource)
  | audit
  | sleep (milliseconds : Nat)

/-- What a port reports.  `requestDelete` reports the reason of a failed request. -/
def PortReply : PortCall → Type
  | .completeLateEvidenceCutoff _ | .freezeLateEvidenceAssessment _ | .capturePreCleanupSnapshot _
  | .freezeResults _ _ => StepOutcome
  | .captureDlqEvidence _ => DlqCaptureReport
  | .requestDisable _ => ConsumerDisableRequest
  | .readState _ => ConsumerStateRead
  | .requestSafetyRelease _ => SafetyReleaseReport
  | .listRunning _ => Except StructuredReason (List String)
  | .stop _ => DurableStopOutcome
  | .receive _ => DlqReceive
  | .deleteMessage _ _ | .releaseMessage _ _ => DlqMessageChange
  | .describe _ => StackRead
  | .requestDelete _ => Option StructuredReason
  | .query _ => Except StructuredReason (List DiscoveredResource)
  | .confirmPresence _ => PresenceCheck
  | .delete _ => ResourceDeletion
  | .audit => LeakAuditResult
  | .sleep _ => Unit

/-- Every call cleanup makes.  A port may throw; the journal, the clock and the safety clock
do not. -/
inductive CleanupCall where
  | port (request : PortCall)
  | append (body : CleanupActionBody)
  | now
  | totalTargetExceeded

def CleanupReply : CleanupCall → Type
  | .port request => Except Thrown (PortReply request)
  | .append _ => AppendResult
  | .now => UtcMillis
  | .totalTargetExceeded => Bool

/-! ## The local state of a run -/

/-- `RunState` with the private state of its `CleanupJournal`. -/
structure RunState where
  entries : List CleanupActionEntry := []
  pendingFailure : Option StructuredReason := none
  stopReported : Bool := false
  carried : List StructuredReason
  leakAudit : LeakAuditResult

abbrev CleanupM : Type → Type := Stateful Thrown RunState CleanupCall CleanupReply

abbrev CleanupExchange : Type := Exchange CleanupCall CleanupReply

/-- From the entries `start` the program only adds entries, and its result, what it adds and its
exchanges satisfy `R`. -/
abbrev Logs {Call : Type} {Reply : Call → Type} {α : Type} (start : List CleanupActionEntry)
    (m : Stateful Thrown RunState Call Reply α)
    (R : Except Thrown α → List CleanupActionEntry → List (Exchange Call Reply) → Prop) : Prop :=
  Emits RunState.entries start m R

def askPort (request : PortCall) : CleanupM (Except Thrown (PortReply request)) :=
  Stateful.perform (CleanupCall.port request)

def callPort (request : PortCall) : CleanupM (PortReply request) := do
  match ← askPort request with
  | .ok reply => pure reply
  | .error thrown => throwThe Thrown thrown

def isUpperSnake : List Char → Bool
  | [] => false
  | first :: rest => first.isUpper && rest.all fun c => c.isUpper || c.isDigit || c == '_'

/-- An underscore between a lower-case letter or digit and the capital after it. -/
def breakWords : List Char → List Char
  | first :: second :: rest =>
    if (first.isLower || first.isDigit) && second.isUpper then
      first :: '_' :: breakWords (second :: rest)
    else first :: breakWords (second :: rest)
  | rest => rest

def upperSnakeCode (code : String) : String :=
  if isUpperSnake code.toList then code
  else
    let spelled := (breakWords code.toList).map fun c => if c.isAlphanum then c.toUpper else '_'
    let joined := ['_'].intercalate ((spelled.splitOn '_').filter (!·.isEmpty))
    match joined with
    | [] => "CODE_UNNAMED"
    | first :: _ => if first.isUpper then String.ofList joined else "CODE_" ++ String.ofList joined

def conformingReason (reason : StructuredReason) : StructuredReason :=
  ⟨upperSnakeCode reason.code, if reason.subject = "" then "(empty)" else reason.subject⟩

def RunState.push (state : RunState) (body : CleanupActionBody) (occurredAt : UtcMillis) :
    RunState :=
  { state with entries := state.entries ++ [⟨body, occurredAt⟩] }

/-- The first refused append becomes a failure to attach to a step. -/
def RunState.noteStopped (state : RunState) : RunState :=
  if state.stopReported then state
  else { state with
    stopReported := true
    pendingFailure := some ⟨"CLEANUP_JOURNAL_STOPPED", "cleanup-journal.jsonl"⟩ }

def appendAction (body : CleanupActionBody) : CleanupM AppendResult :=
  Stateful.perform (CleanupCall.append body)

def clockNow : CleanupM UtcMillis := Stateful.perform CleanupCall.now

/-- `CleanupJournal.record`. -/
def recordAction (action : CleanupActionBody) : CleanupM Unit := do
  let body := { action with reasons := action.reasons.map conformingReason }
  match ← appendAction body with
  | .appended occurredAt => Stateful.update fun state => state.push body occurredAt
  | .stopped =>
    let occurredAt ← clockNow
    Stateful.update fun state => (state.push body occurredAt).noteStopped

structure ItemAction where
  action : CleanupAction
  resourceType : String
  resourceIdentifier : String
  ownershipBasis : Option OwnershipBasis := none
  cleanupInduced : Bool := false
  reasons : List StructuredReason := []

def recordItem (mode : CleanupMode) (step : CleanupStep) (item : ItemAction) : CleanupM Unit :=
  recordAction
    { step := step
      stepStatus := .started
      cleanupMode := mode
      cleanupInduced := item.cleanupInduced
      action := item.action
      resourceType := some item.resourceType
      resourceIdentifier := some item.resourceIdentifier
      ownershipBasis := item.ownershipBasis
      reasons := item.reasons }

def outcomeFromFailures (failures : List StructuredReason) : StepOutcome :=
  ⟨if failures.isEmpty then .succeeded else .failed, failures⟩

/-- `for` over a list, collecting what every round returns. -/
def collect {α β : Type} (body : α → CleanupM (List β)) : List α → CleanupM (List β)
  | [] => pure []
  | first :: rest => do
    let here ← body first
    return here ++ (← collect body rest)

/-! ## How the parts of a run account for themselves -/

section Accounts

variable {start : List CleanupActionEntry}

/-- What the program adds to the journal and what it exchanges are related. -/
abbrev KeepsAccount (A : List CleanupActionEntry → List CleanupExchange → Prop) {α : Type}
    (m : CleanupM α) : Prop :=
  Keeps RunState.entries A m

theorem askPort_emits (request : PortCall) :
    Logs start (askPort request) fun result emitted trace =>
      ∃ answer : Except Thrown (PortReply request), result = .ok answer ∧ emitted = [] ∧
        trace = [⟨CleanupCall.port request, answer⟩] :=
  Emits.perform fun answer => ⟨answer, rfl, rfl, rfl⟩

theorem callPort_emits {request : PortCall}
    {R : Except Thrown (PortReply request) → List CleanupActionEntry → List CleanupExchange → Prop}
    (h : ∀ answer : Except Thrown (PortReply request),
      R answer [] [⟨CleanupCall.port request, answer⟩]) :
    Logs start (callPort request) R := by
  refine Emits.andThen (askPort_emits request) ?_
  rintro answer emitted trace ⟨_, heq, rfl, rfl⟩
  obtain rfl := Except.ok.inj heq
  cases answer with
  | ok reply => exact Emits.pure (h (.ok reply))
  | error thrown => exact Emits.throw (h (.error thrown))

def NoPort (trace : List CleanupExchange) : Prop :=
  ∀ exchange ∈ trace, ∀ request, exchange.1 ≠ .port request

theorem recordAction_emits (action : CleanupActionBody) :
    Logs start (recordAction action) fun result emitted trace =>
      result = .ok () ∧ NoPort trace ∧ ∃ occurredAt, emitted =
        [⟨{ action with reasons := action.reasons.map conformingReason }, occurredAt⟩] := by
  have hnote : ∀ state : RunState, state.noteStopped.entries = state.entries := by
    intro state
    unfold RunState.noteStopped
    split <;> rfl
  refine Emits.bind (Emits.perform (R := fun result emitted trace => emitted = [] ∧
    NoPort trace ∧ ∃ reply, result = .ok reply) fun reply => ⟨rfl, ?_, reply, rfl⟩) ?_ ?_
  · intro exchange hmem request
    rw [List.mem_singleton.mp hmem]
    nofun
  · rintro reply emitted trace ⟨rfl, hquiet, -⟩
    cases reply with
    | appended occurredAt =>
      refine Emits.update (fun _ => rfl) ⟨rfl, ?_, occurredAt, rfl⟩
      rwa [List.append_nil]
    | stopped =>
      refine Emits.bind (Emits.perform (R := fun result emitted trace => emitted = [] ∧
        NoPort trace ∧ ∃ reply, result = .ok reply) fun reply => ⟨rfl, ?_, reply, rfl⟩) ?_ ?_
      · intro exchange hmem request
        rw [List.mem_singleton.mp hmem]
        nofun
      · rintro occurredAt emitted trace' ⟨rfl, hquiet', -⟩
        refine Emits.update (fun state => hnote _) ⟨rfl, ?_, occurredAt, rfl⟩
        intro exchange hmem
        rw [List.append_nil, List.mem_append] at hmem
        rcases hmem with hmem | hmem
        · exact hquiet exchange hmem
        · exact hquiet' exchange hmem
      · rintro error _ _ ⟨-, -, _, heq⟩
        cases heq
  · rintro error _ _ ⟨-, -, _, heq⟩
    cases heq

variable {A : List CleanupActionEntry → List CleanupExchange → Prop}

theorem KeepsAccount.callPort {request : PortCall}
    (h : ∀ answer : Except Thrown (PortReply request), A [] [⟨CleanupCall.port request, answer⟩]) :
    KeepsAccount A (callPort request) :=
  fun _ => callPort_emits h

theorem KeepsAccount.askPort {request : PortCall}
    (h : ∀ answer : Except Thrown (PortReply request), A [] [⟨CleanupCall.port request, answer⟩]) :
    KeepsAccount A (askPort request) :=
  fun _ => (askPort_emits request).weaken fun _ _ _ ⟨answer, _, hemitted, htrace⟩ => by
    rw [hemitted, htrace]
    exact h answer

theorem KeepsAccount.recordAction {action : CleanupActionBody}
    (h : ∀ occurredAt trace, NoPort trace →
      A [⟨{ action with reasons := action.reasons.map conformingReason }, occurredAt⟩] trace) :
    KeepsAccount A (recordAction action) :=
  fun _ => (recordAction_emits action).weaken fun _ _ _ ⟨_, hquiet, occurredAt, hemitted⟩ => by
    rw [hemitted]
    exact h occurredAt _ hquiet

theorem KeepsAccount.collect {α β : Type} (hA : Accumulates A) {body : α → CleanupM (List β)}
    {items : List α} (h : ∀ item ∈ items, KeepsAccount A (body item)) :
    KeepsAccount A (collect body items) := by
  induction items with
  | nil => exact Keeps.pure hA
  | cons item rest ih =>
    refine Keeps.bind hA (h item List.mem_cons_self) fun here => ?_
    refine Keeps.bind hA (ih fun other hmem => h other (List.mem_cons_of_mem _ hmem)) fun _ => ?_
    exact Keeps.pure hA

end Accounts

end RefundStudy.Cleanup
