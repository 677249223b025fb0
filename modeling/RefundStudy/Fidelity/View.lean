/-
  The treatment view (`treatment-fidelity/subject-events.ts`, `subject-artifacts.ts`,
  `condition-result.ts`, `treatment-view.ts`; design 8.10).
-/
import RefundStudy.Ingestion.Evidence

set_option autoImplicit false

namespace RefundStudy.Fidelity

open Foundation Record Package Ingestion

/-! ## Subject events -/

/-- An indexed event whose record is of a known type, with that type's members. -/
structure EventOf (α : Type) where
  event : IndexedEvent
  body : α

variable (evidence : IngestedEvidence)

def subjectPartition : String :=
  (evidence.scope.trial.map SubjectTrial.trialId).getD executionPartition

def partitionEvents : List IndexedEvent :=
  evidence.events.subject.filter fun event => decide (event.partition = subjectPartition evidence)

def eventsOfType {α : Type} (read : ReadBody → Option α) (events : List IndexedEvent) :
    List (EventOf α) :=
  events.filterMap fun event => (read event.record.body).map (EventOf.mk event)

theorem mem_eventsOfType {α : Type} {read : ReadBody → Option α} {events : List IndexedEvent}
    {found : EventOf α} :
    found ∈ eventsOfType read events ↔
      found.event ∈ events ∧ read found.event.record.body = some found.body := by
  unfold eventsOfType
  rw [List.mem_filterMap]
  constructor
  · intro h
    obtain ⟨event, hmem, hread⟩ := h
    obtain ⟨body, hbody, rfl⟩ := Option.map_eq_some_iff.mp hread
    exact ⟨hmem, hbody⟩
  · intro h
    exact ⟨found.event, h.1, by rw [h.2]; rfl⟩

def isCallerEvent (event : IndexedEvent) : Bool := callerEventSources.contains event.record.source

def causedBy (later earlier : IndexedEvent) : Bool :=
  later.record.causationEventIds.contains earlier.record.eventId

/-- `provider_commit_confirmed`. -/
structure ConfirmedCommit where
  triple : CommitTriple
  committedAt : UtcMillis

/-- `caller_timeout_recorded`. -/
structure CallerTimeout where
  correlation : AttemptCorrelation
  timeout : RecordedTimeout

/-- `attempt_outcome_recorded`. -/
structure RecordedOutcome where
  correlation : AttemptCorrelation
  outcome : AttemptOutcome
  providerCallId : Option Uuid4
  providerTransactionId : Option Uuid4

/-- `treatment_timeout_observed`. -/
structure ObservedTimeout where
  commit : CommitRefs
  signalEventId : Uuid4

/-- `timeout_signal_conflict_recorded`. -/
structure SignalConflict where
  refs : CallerEventRefs
  existingCallerEventId : Uuid4

structure AcceptedProviderCall where
  providerCallId : Uuid4
  correlation : AttemptCorrelation

def asCommitted : ReadBody → Option CommittedTransaction
  | .providerTransactionCommitted commit => some commit
  | _ => none

def asConfirmed : ReadBody → Option ConfirmedCommit
  | .providerCommitConfirmed triple committedAt => some ⟨triple, committedAt⟩
  | _ => none

def asDispatch : ReadBody → Option AttemptCorrelation
  | .dispatchStarted correlation => some correlation
  | _ => none

def asRegistered : ReadBody → Option AttemptCorrelation
  | .attemptRegistered correlation => some correlation
  | _ => none

def asCallerTimeout : ReadBody → Option CallerTimeout
  | .callerTimeoutRecorded correlation timeout => some ⟨correlation, timeout⟩
  | _ => none

def asOutcome : ReadBody → Option RecordedOutcome
  | .attemptOutcomeRecorded correlation outcome providerCallId providerTransactionId =>
    some ⟨correlation, outcome, providerCallId, providerTransactionId⟩
  | _ => none

def asLateSettlement : ReadBody → Option TransportSettlementKind
  | .transportSettledAfterTimeout _ settlementKind => some settlementKind
  | _ => none

def asSignal : ReadBody → Option RecordedSignal
  | .timeoutSignalRecorded signal => some signal
  | _ => none

def asObservation : ReadBody → Option ObservedTimeout
  | .treatmentTimeoutObserved commit signalEventId => some ⟨commit, signalEventId⟩
  | _ => none

def asRelease : ReadBody → Option CommitRefs
  | .treatmentResponseReleased commit => some commit
  | _ => none

def asSafetyRelease : ReadBody → Option (Option CommitRefs)
  | .treatmentSafetyReleased commit => some commit
  | _ => none

def asConflict : ReadBody → Option SignalConflict
  | .timeoutSignalConflictRecorded refs existing => some ⟨refs, existing⟩
  | _ => none

def asAccepted : ReadBody → Option AcceptedProviderCall
  | .providerCallAccepted providerCallId correlation => some ⟨providerCallId, correlation⟩
  | _ => none

/-! ## Subject artifacts -/

structure SubjectArtifactState where
  artifactClass : Ingestion.ArtifactClass
  path : String
  ref : Option EvidenceRef
  complete : Bool

def benignCodes : List IngestionFindingCode :=
  [.equivalentDuplicateCollapsed, .ledgerLargerThanExpected]

/-- `UNIT_PATHS` of the classes whose path the readers name; the runner journal has none. -/
def layoutFile : Ingestion.ArtifactClass → Option String
  | .callerJournal => some "journals/caller-journal.jsonl"
  | .providerJournal => some "journals/provider-journal.jsonl"
  | .controllerJournal => some "journals/controller-journal.jsonl"
  | .ledgerSnapshot => some "ledger/ledger-snapshot.json"
  | .settlementSamples => some "settlement/settlement-samples.jsonl"
  | .providerTrialConfiguration => some "state/provider-trial-configuration.json"
  | .treatmentStateSnapshot => some "state/treatment-state-snapshot.json"
  | .payment => some "inputs/payment.json"
  | .approvedDecision => some "inputs/approved-decision.json"
  | _ => none

/-- `EXECUTION_PATHS.runnerJournal`. -/
def runnerJournalPath : String := "runner/runner-journal.jsonl"

/-- `PACKAGE_LAYOUT.unitDirectory` of the evaluated subject. -/
def unitDirectory (scope : EvidenceScope) : String :=
  match scope.trial with
  | none => "probe"
  | some trial => "trials/" ++ trial.trialId

def expectedPath (artifactClass : Ingestion.ArtifactClass) : String :=
  match evidence.expected.find? fun entry => decide (entry.artifactClass = artifactClass) with
  | some entry => entry.path
  | none =>
    match layoutFile artifactClass with
    | none => runnerJournalPath
    | some file => unitDirectory evidence.scope ++ "/" ++ file

/-- A missing predecessor concerns the journal that should have held it. -/
def hasIncompletenessFinding (findings : List IngestionFinding) (path : String) : Bool :=
  findings.any fun finding =>
    decide (finding.artifactPath = some path) && !benignCodes.contains finding.code &&
      decide (finding.code ≠ .causalPredecessorMissing)

def subjectArtifactState (artifactClass : Ingestion.ArtifactClass) : SubjectArtifactState :=
  match subjectArtifact evidence.artifacts artifactClass with
  | none => ⟨artifactClass, expectedPath evidence artifactClass, none, false⟩
  | some artifact =>
    { artifactClass := artifactClass
      path := artifact.path
      ref := some (artifactRef artifact)
      complete :=
        artifact.parsed && !hasIncompletenessFinding evidence.findings artifact.path }

def incompleteArtifactReason (state : SubjectArtifactState) (subject : String) :
    StructuredReason :=
  if state.ref.isNone then
    { code := "ARTIFACT_MISSING"
      subject := subject
      artifactPath := some state.path
      detail := state.path ++ " is absent; expected the " ++ state.artifactClass.text ++
        " of the evaluated subject" }
  else
    { code := "ARTIFACT_INCOMPLETE"
      subject := subject
      artifactPath := some state.path
      detail := state.path ++ " is gapped, conflicting or unreadable; expected a complete " ++
        state.artifactClass.text }

/-- A finding touches cited evidence: a finding about one event touches a reference to it, a finding
about a whole artifact every reference into it. -/
def touches (refs : List EvidenceRef) (finding : IngestionFinding) : Bool :=
  !benignCodes.contains finding.code &&
    match finding.eventId with
    | none =>
      match finding.artifactPath with
      | none => false
      | some path => refs.any fun ref => decide (ref.artifactPath = path)
    | some eventId => refs.any fun ref => decide (ref.eventId = some eventId)

def affectingFindings (findings : List IngestionFinding) (refs : List EvidenceRef) :
    List IngestionFinding :=
  findings.filter (touches refs)

/-! ## Condition results -/

/-- Which a condition's result is too. -/
inductive PreservationVerdict where
  | pass
  | fail
  | indeterminate
  deriving DecidableEq

structure ConditionDraft where
  result : PreservationVerdict
  refs : List (Option EvidenceRef)
  reasons : List StructuredReason := []

inductive ConditionId where
  | commitBeforeTimer
  | applicationTimeout
  | continuedExecution
  | causalJoin
  | controlledRelease
  | noCallerSuccess
  deriving DecidableEq

def ConditionId.text : ConditionId → String
  | .commitBeforeTimer => "BR-RUA-010"
  | .applicationTimeout => "BR-RUA-011"
  | .continuedExecution => "BR-RUA-012"
  | .causalJoin => "BR-RUA-013"
  | .controlledRelease => "BR-RUA-014"
  | .noCallerSuccess => "BR-RUA-015"

structure ConditionResult where
  conditionId : ConditionId
  result : PreservationVerdict
  evidenceRefs : List EvidenceRef
  indeterminateReasons : List StructuredReason
  affectedBy : List IngestionFindingCode

def finishCondition (conditionId : ConditionId) (draft : ConditionDraft)
    (findings : List IngestionFinding) : ConditionResult :=
  let refs := canonicalRefs (draft.refs.filterMap id)
  let affecting := affectingFindings findings refs
  let result := if affecting.isEmpty then draft.result else .indeterminate
  { conditionId := conditionId
    result := result
    evidenceRefs := refs
    indeterminateReasons :=
      if result = .indeterminate then (draft.reasons ++ affecting.map findingReason).eraseDups
      else []
    affectedBy := (affecting.map IngestionFinding.code).dedup.insertionSort
      fun first second => codeUnitsLe first.text second.text }

theorem finishCondition_result {conditionId : ConditionId} {draft : ConditionDraft}
    {findings : List IngestionFinding}
    (hconclusive : (finishCondition conditionId draft findings).result ≠ .indeterminate) :
    (finishCondition conditionId draft findings).result = draft.result := by
  unfold finishCondition at hconclusive ⊢
  dsimp only at hconclusive ⊢
  split
  · rfl
  · rename_i hempty
    rw [if_neg hempty] at hconclusive
    exact absurd rfl hconclusive

def refOf {α : Type} (event : Option (EventOf α)) : Option EvidenceRef :=
  event.map fun found => eventRef found.event

def refsOf {α : Type} (events : List (EventOf α)) : List (Option EvidenceRef) :=
  events.map fun found => some (eventRef found.event)

/-! ## The view -/

structure UnitJournals where
  caller : SubjectArtifactState
  provider : SubjectArtifactState
  controller : SubjectArtifactState

structure TreatmentView where
  journals : UnitJournals
  configurationState : SubjectArtifactState
  configuration : Option (LocatedRecord Scenario)
  snapshotState : SubjectArtifactState
  snapshot : Option (LocatedRecord TreatmentStateSnapshot)
  ledgerState : SubjectArtifactState
  ledger : LedgerView
  targetedCommits : List (EventOf CommittedTransaction)
  commit : Option (EventOf CommittedTransaction)
  confirmation : Option (EventOf ConfirmedCommit)
  targetedAttemptId : Option Uuid4
  dispatch : Option (EventOf AttemptCorrelation)
  callerTimeout : Option (EventOf CallerTimeout)
  outcome : Option (EventOf RecordedOutcome)
  attemptEvents : List IndexedEvent
  lateSettlements : List (EventOf TransportSettlementKind)
  signal : Option (EventOf RecordedSignal)
  observation : Option (EventOf ObservedTimeout)
  release : Option (EventOf CommitRefs)
  safetyReleases : List (EventOf (Option CommitRefs))
  conflicts : List (EventOf SignalConflict)
  commits : List (EventOf CommittedTransaction)
  acceptedCalls : List (EventOf AcceptedProviderCall)
  findings : List IngestionFinding

def scenarioRefusal (scope : EvidenceScope) : Option StructuredReason :=
  if !scope.isTrial then none
  else
    match scope.trial.map SubjectTrial.scenario with
    | some .commitThenTimeout => none
    | none =>
      some
        { code := "TREATMENT_NOT_APPLICABLE"
          subject := "BR-RUA-025"
          detail := "the trial scenario is unknown (no usable trial manifest); expected " ++
            "COMMIT_THEN_TIMEOUT" }
    | some .control =>
      some
        { code := "TREATMENT_NOT_APPLICABLE"
          subject := "BR-RUA-025"
          detail := "the trial scenario is CONTROL; expected COMMIT_THEN_TIMEOUT (a CONTROL " ++
            "trial is judged by control integrity)" }

def snapshotItem (snapshot : Option (LocatedRecord TreatmentStateSnapshot)) :
    Option TreatmentItem :=
  snapshot.bind fun located => located.record.treatment

variable (events : List IndexedEvent)

def onlyRegisteredAttempt : Option Uuid4 :=
  match ((eventsOfType asRegistered events).map fun found => found.body.attemptId).dedup with
  | [attemptId] => some attemptId
  | _ => none

def targetedAttempt (commit : Option (EventOf CommittedTransaction))
    (snapshot : Option (LocatedRecord TreatmentStateSnapshot)) : Option Uuid4 :=
  match commit with
  | some found => some found.body.attemptId
  | none =>
    match (snapshotItem snapshot).bind TreatmentItem.targetedAttemptId with
    | some attemptId => some attemptId
    | none => onlyRegisteredAttempt events

/-- The confirmation that names the commit, else one of its transaction. -/
def confirmationOf (commit : EventOf CommittedTransaction) : Option (EventOf ConfirmedCommit) :=
  let confirmations := eventsOfType asConfirmed events
  match confirmations.find? fun found => causedBy found.event commit.event with
  | some found => some found
  | none =>
    confirmations.find? fun found =>
      decide (found.body.triple.providerTransactionId = commit.body.providerTransactionId)

/-- Bound by the commit id when the commit exists, by the attempt otherwise. -/
def commitScoped {α : Type} (read : ReadBody → Option α) (commitIdOf attemptIdOf : α → Uuid4)
    (events : List IndexedEvent) (commit : Option (EventOf CommittedTransaction))
    (attemptId : Option Uuid4) : Option (EventOf α) :=
  match commit, attemptId with
  | some found, _ =>
    (eventsOfType read events).find? fun candidate =>
      decide (commitIdOf candidate.body = found.body.providerCommitId)
  | none, some attempt =>
    (eventsOfType read events).find? fun candidate =>
      decide (attemptIdOf candidate.body = attempt)
  | none, none => none

def callerEventsOf : Option Uuid4 → List IndexedEvent
  | none => []
  | some attemptId =>
    events.filter fun event =>
      isCallerEvent event && decide (event.record.body.identity .attemptId = some attemptId)

def targetedCommitsOf : List (EventOf CommittedTransaction) :=
  (eventsOfType asCommitted events).filter fun found => found.body.targeted

def uniqueCommit : List (EventOf CommittedTransaction) → Option (EventOf CommittedTransaction)
  | [commit] => some commit
  | _ => none

def treatmentView : TreatmentView :=
  let events := partitionEvents evidence
  let targeted := targetedCommitsOf events
  let commit := uniqueCommit targeted
  let snapshot := evidence.observations.treatmentSnapshot
  let attemptId := targetedAttempt events commit snapshot
  let callerEvents := callerEventsOf events attemptId
  { journals :=
      { caller := subjectArtifactState evidence .callerJournal
        provider := subjectArtifactState evidence .providerJournal
        controller := subjectArtifactState evidence .controllerJournal }
    configurationState := subjectArtifactState evidence .providerTrialConfiguration
    configuration := evidence.observations.providerConfiguration
    snapshotState := subjectArtifactState evidence .treatmentStateSnapshot
    snapshot := snapshot
    ledgerState := subjectArtifactState evidence .ledgerSnapshot
    ledger := evidence.ledger
    targetedCommits := targeted
    commit := commit
    confirmation := commit.bind (confirmationOf events)
    targetedAttemptId := attemptId
    dispatch := (eventsOfType asDispatch callerEvents).head?
    callerTimeout := (eventsOfType asCallerTimeout callerEvents).head?
    outcome := (eventsOfType asOutcome callerEvents).head?
    attemptEvents := callerEvents
    lateSettlements := eventsOfType asLateSettlement callerEvents
    signal := commitScoped asSignal RecordedSignal.providerCommitId RecordedSignal.attemptId
      events commit attemptId
    observation := commitScoped asObservation (fun body => body.commit.providerCommitId)
      (fun body => body.commit.attemptId) events commit attemptId
    release := commitScoped asRelease CommitRefs.providerCommitId CommitRefs.attemptId
      events commit attemptId
    safetyReleases := eventsOfType asSafetyRelease events
    conflicts := eventsOfType asConflict events
    commits := eventsOfType asCommitted events
    acceptedCalls := eventsOfType asAccepted events
    findings := evidence.findings }

def buildTreatmentView : Except (List StructuredReason) TreatmentView :=
  match scenarioRefusal evidence.scope with
  | some reason => .error [reason]
  | none => .ok (treatmentView evidence)

end RefundStudy.Fidelity
