/-
  Gate G4a, control integrity (`treatment-fidelity/control-integrity.ts`; BR-RUA-025, design 8.3).
-/
import RefundStudy.Fidelity.Conditions

set_option autoImplicit false

namespace RefundStudy.Fidelity

open Record Package Ingestion

/-- `SUBJECT` of control integrity. -/
def controlSubject : String := "BR-RUA-025"

def treatmentStateText : TreatmentState → String
  | .armed => "ARMED"
  | .committedWaiting => "COMMITTED_WAITING"
  | .timeoutSignalled => "TIMEOUT_SIGNALLED"
  | .timeoutObserved => "TIMEOUT_OBSERVED"
  | .responseReleased => "RESPONSE_RELEASED"
  | .safetyReleased => "SAFETY_RELEASED"

def scenarioText : Scenario → String
  | .control => "CONTROL"
  | .commitThenTimeout => "COMMIT_THEN_TIMEOUT"

/-- `TREATMENT_EVENT_TYPES`. -/
def isTreatmentEvent : ReadBody → Bool
  | .treatmentArmed => true
  | .timeoutSignalRecorded _ => true
  | .timeoutSignalConflictRecorded _ _ => true
  | .treatmentTimeoutObserved _ _ => true
  | .treatmentResponseReleased _ => true
  | .treatmentSafetyReleased _ => true
  | _ => false

def controlIncompleteCause (state : SubjectArtifactState) : GateCause :=
  ⟨.unverified, incompleteArtifactReason state controlSubject, state.ref.toList⟩

def controlInvalidAt (code detail : String) (state : SubjectArtifactState) : GateCause :=
  ⟨.invalid, reasonAt controlSubject code detail state.ref, state.ref.toList⟩

def controlEventCause (code detail : String) (event : IndexedEvent) : GateCause :=
  ⟨.invalid, reasonAt controlSubject code detail (some (eventRef event)), [eventRef event]⟩

variable (evidence : IngestedEvidence)

def unknownScenarioCauses : List GateCause :=
  if evidence.scope.trial.isSome then []
  else
    [⟨.unverified, reasonAt controlSubject "TRIAL_SCENARIO_UNKNOWN"
      ("the trial scenario is unknown (no usable trial manifest); expected a CONTROL trial " ++
        "manifest") none, []⟩]

/-- `configurationCauses` of control integrity. -/
def controlConfigurationCauses (state : SubjectArtifactState) : List GateCause :=
  match evidence.observations.providerConfiguration.map LocatedRecord.record with
  | none => [controlIncompleteCause state]
  | some .control => []
  | some scenario =>
    [controlInvalidAt "CONTROL_SCENARIO_MISMATCH"
      ("provider configuration declares scenario " ++ scenarioText scenario ++
        "; expected CONTROL") state]

def controlSnapshotCauses (state : SubjectArtifactState) : List GateCause :=
  match evidence.observations.treatmentSnapshot.map LocatedRecord.record with
  | none => [controlIncompleteCause state]
  | some snapshot =>
    match snapshot.treatment with
    | some item =>
      [controlInvalidAt "TREATMENT_ITEM_PRESENT"
        ("the partition holds a treatment item in state " ++ treatmentStateText item.state ++
          "; expected no treatment item") state]
    | none =>
      if snapshot.consistentRead then []
      else
        [⟨.unverified, reasonAt controlSubject "SNAPSHOT_NOT_CONSISTENT"
          ("the treatment snapshot declares consistent_read false; expected a consistent read " ++
            "to prove absence") state.ref, state.ref.toList⟩]

variable (events : List IndexedEvent)

def treatmentEventCauses : List GateCause :=
  ((targetedCommitsOf events).map EventOf.event ++
    events.filter fun event => isTreatmentEvent event.record.body).map fun event =>
      controlEventCause "TREATMENT_ACTIVITY"
        (event.record.body.recordType ++ " " ++ uuidString event.record.eventId ++
          " in a control partition; expected no treatment arming, consumption or transition") event

def timeoutCauses : List GateCause :=
  let timeouts := (eventsOfType asCallerTimeout events).filter fun found => isCallerEvent found.event
  let timedOut := (eventsOfType asOutcome events).filter fun found =>
    decide (found.body.outcome = .timedOut)
  (timeouts.map EventOf.event ++ timedOut.map EventOf.event).map fun event =>
    controlEventCause "UNCONTROLLED_TIMEOUT"
      (event.record.body.recordType ++ " " ++ uuidString event.record.eventId ++ " for attempt " ++
        ((event.record.body.identity .attemptId).map uuidString).getD "undefined" ++
        "; expected every accepted call to return before its deadline") event

def callerOutcome (attemptId : Uuid4) : Option AttemptOutcome :=
  ((eventsOfType asOutcome events).find? fun found =>
    decide (found.body.correlation.attemptId = attemptId)).map fun found => found.body.outcome

/-- The cause of an accepted call without a conclusive outcome; a timeout was counted before. -/
def acceptedCallCause (call : EventOf AcceptedProviderCall) : Option GateCause :=
  let outcome := callerOutcome events call.body.correlation.attemptId
  if outcome = some .succeeded ∨ outcome = some .rejected ∨ outcome = some .timedOut then none
  else some
    ⟨.unverified, reasonAt controlSubject "CALLER_OUTCOME_NOT_CONCLUSIVE"
      ("accepted call " ++ uuidString call.body.providerCallId ++ " of attempt " ++
        uuidString call.body.correlation.attemptId ++ " has caller outcome " ++
        (outcome.map outcomeText).getD "(none)" ++ "; expected SUCCEEDED or REJECTED")
      (some (eventRef call.event)), [eventRef call.event]⟩

def acceptedCallCauses : List GateCause :=
  (eventsOfType asAccepted events).filterMap (acceptedCallCause events)

def controlCauses : List GateCause :=
  let events := partitionEvents evidence
  let journals := [subjectArtifactState evidence .callerJournal,
    subjectArtifactState evidence .providerJournal]
  unknownScenarioCauses evidence ++
    controlConfigurationCauses evidence
      (subjectArtifactState evidence .providerTrialConfiguration) ++
    controlSnapshotCauses evidence (subjectArtifactState evidence .treatmentStateSnapshot) ++
    treatmentEventCauses events ++ timeoutCauses events ++
    (journals.filter fun state => !state.complete).map controlIncompleteCause ++
    acceptedCallCauses events

/-- A trial judged by treatment fidelity, or the probe. -/
def isTreatmentSubject (scope : EvidenceScope) : Bool :=
  !scope.isTrial || scope.trial.any fun trial => decide (trial.scenario = .commitThenTimeout)

def deriveControlIntegrity : GateAssessment :=
  if isTreatmentSubject evidence.scope then ⟨.controlIntegrity, .notApplicable, [], []⟩
  else
    assembleGate .controlIntegrity (controlCauses evidence)
      ([subjectArtifactState evidence .providerTrialConfiguration,
        subjectArtifactState evidence .treatmentStateSnapshot,
        subjectArtifactState evidence .callerJournal,
        subjectArtifactState evidence .providerJournal].filterMap SubjectArtifactState.ref)

end RefundStudy.Fidelity
