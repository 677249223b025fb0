/-
  The rules over the caller's journal and the rules that mirror a gate
  (`trial-oracle/attempt-facts.ts`, `logical-identity-rule.ts`, `unknown-outcome-rule.ts`,
  `journal-rule-refs.ts`, `mirror-rules.ts`; design 8.5).
-/
import RefundStudy.Oracle.ValidityGates
import RefundStudy.Fidelity.Conditions

set_option autoImplicit false

namespace RefundStudy.Oracle

open Foundation Record Package Ingestion
open Fidelity

/-! ## Attempts -/

def dispatchText : DispatchState → String
  | .notDispatched => "NOT_DISPATCHED"
  | .dispatched => "DISPATCHED"
  | .unknown => "UNKNOWN"

def contradictionReason (outcome : AttemptOutcome) : StructuredReason where
  code := "OUTCOME_DISPATCH_CONTRADICTION"
  subject := "BR-RUA-021"
  detail := "outcome " ++ outcomeText outcome ++ " with dispatch state NOT_DISPATCHED; expected " ++
    "DISPATCHED or UNKNOWN, because SUCCEEDED, REJECTED and TIMED_OUT imply DISPATCHED"

structure AttemptFacts where
  registered : EventOf AttemptCorrelation
  dispatchState : DispatchState
  outcome : Option (EventOf RecordedOutcome)
  outcomeClass : OutcomeClass
  contradiction : Option StructuredReason

def asNotDispatched : ReadBody → Option AttemptCorrelation
  | .attemptNotDispatched correlation => some correlation
  | _ => none

def recordedEvidence {α : Type} (events : List (EventOf α)) : Evidence :=
  if events.isEmpty then .absent else .present

/-- Every outcome but `FAILED` was produced after the dispatch. -/
def impliesDispatch (outcome : Option (EventOf RecordedOutcome)) : Bool :=
  outcome.any fun found => decide (found.body.outcome ≠ .failed)

def attemptDispatch (ofAttempt : List IndexedEvent) (outcome : Option (EventOf RecordedOutcome)) :
    DispatchState :=
  let recorded := classifyDispatch .present
    (recordedEvidence (eventsOfType asNotDispatched ofAttempt))
    (recordedEvidence (eventsOfType asDispatch ofAttempt))
  if impliesDispatch outcome && decide (recorded = .unknown) then .dispatched else recorded

def eventsOfAttempt (callerEvents : List IndexedEvent) (attemptId : Uuid4) : List IndexedEvent :=
  callerEvents.filter fun event => decide (event.record.body.identity .attemptId = some attemptId)

def attemptFacts (callerEvents : List IndexedEvent) (registered : EventOf AttemptCorrelation) :
    AttemptFacts :=
  let ofAttempt := eventsOfAttempt callerEvents registered.body.attemptId
  let outcome := (eventsOfType asOutcome ofAttempt).head?
  let dispatch := attemptDispatch ofAttempt outcome
  match outcome with
  | none =>
    { registered := registered
      dispatchState := dispatch
      outcome := none
      outcomeClass := if dispatch = .notDispatched then .preDispatchFailure else .ambiguous
      contradiction := none }
  | some recorded =>
    match classifyOutcome recorded.body.outcome dispatch with
    | .ok outcomeClass => ⟨registered, dispatch, some recorded, outcomeClass, none⟩
    | .error .outcomeDispatchContradiction =>
      ⟨registered, dispatch, some recorded, .ambiguous,
        some (contradictionReason recorded.body.outcome)⟩

variable (evidence : IngestedEvidence)

def callerEvents : List IndexedEvent :=
  (partitionEvents evidence).filter isCallerEvent

def registrations (events : List IndexedEvent) : List (EventOf AttemptCorrelation) :=
  (eventsOfType asRegistered events).insertionSort fun first second =>
    first.event.record.occurredAt ≤ second.event.record.occurredAt

def readAttempts : List AttemptFacts :=
  (registrations (callerEvents evidence)).map (attemptFacts (callerEvents evidence))

def withCaller (refs : List EvidenceRef) (callerRef : Option EvidenceRef) : List EvidenceRef :=
  match callerRef with
  | none => refs
  | some ref => canonicalRefs (refs ++ [ref])

/-! ## BR-RUA-003 -/

def attemptRequestIds (attempts : List AttemptFacts) : List String :=
  (attempts.map fun attempt => attempt.registered.body.refundRequestId).dedup.insertionSort
    fun first second => codeUnitsLe first second

def textList (texts : List String) : RuleJson := .list (texts.map RuleJson.text)

/-- What BR-RUA-003 cites. -/
def identityRefs (attempts : List AttemptFacts) (decisionRef : Option EvidenceRef) :
    List EvidenceRef :=
  canonicalRefs ((attempts.map fun attempt => eventRef attempt.registered.event) ++
    decisionRef.toList)

/-- `ruleResult` of BR-RUA-003. -/
def identityResult (result : RuleOutcome) (expectedId : Option String) (observed : RuleJson)
    (refs : List EvidenceRef) (reasons : List StructuredReason) : RuleResult where
  ruleId := .brRua003
  result := result
  expected := .record [("refund_request_ids", .list [textOrNull expectedId])]
  observed := observed
  evidenceRefs := refs
  indeterminateReasons := reasons

def evaluateLogicalIdentity (attempts : List AttemptFacts)
    (inputs : BusinessInputs) (identityIntegrity : GateValue) : RuleResult :=
  let expectedId := inputs.decision.record.map ApprovedDecision.refundRequestId
  let observed := RuleJson.record [("refund_request_ids", textList (attemptRequestIds attempts))]
  let refs := identityRefs attempts inputs.decision.ref
  let caller := subjectArtifactState evidence .callerJournal
  if !caller.complete then
    identityResult .indeterminate expectedId observed (withCaller refs caller.ref)
      [incompleteArtifactReason caller OracleRuleId.brRua003.text]
  else if attempts.isEmpty then
    identityResult .notApplicable expectedId
      (.record [("code", .text "NO_ATTEMPTS"), ("refund_request_ids", .list [])]) refs []
  else
    match expectedId with
    | none =>
      identityResult .indeterminate none observed refs
        [inputMissingReason inputs.decision OracleRuleId.brRua003.text]
    | some expected =>
      if attempts.any fun attempt =>
          decide (attempt.registered.body.refundRequestId ≠ expected) then
        identityResult .fail (some expected) observed refs []
      else if identityIntegrity = .unverified then
        identityResult .indeterminate (some expected) observed refs
          [reasonAt OracleRuleId.brRua003.text "IDENTITY_EVIDENCE_UNVERIFIED"
            ("identity integrity (G3) is unverified, so an unregistered attempt may carry " ++
              "another refund_request_id; expected verified identity evidence") caller.ref]
      else identityResult .pass (some expected) observed refs []

/-! ## BR-RUA-004 -/

def effectKnowledgeText : EffectKnowledge → String
  | .notAttempted => "NOT_ATTEMPTED"
  | .noEffectConfirmed => "NO_EFFECT_CONFIRMED"
  | .oneEffectConfirmed => "ONE_EFFECT_CONFIRMED"
  | .multipleEffectsConfirmed => "MULTIPLE_EFFECTS_CONFIRMED"
  | .unknown => "UNKNOWN"

def asRequestState : ReadBody → Option RecordedRequestState
  | .requestStateRecorded state => some state
  | _ => none

def requestStates (events : List IndexedEvent) : List (EventOf RecordedRequestState) :=
  ((eventsOfType asRequestState events).filter fun found =>
    isCallerEvent found.event).insertionSort fun first second =>
      first.body.version ≤ second.body.version

def ambiguousAttempts (attempts : List AttemptFacts) : List AttemptFacts :=
  attempts.filter fun attempt => decide (attempt.outcomeClass = .ambiguous)

variable (states : List (EventOf RecordedRequestState))

def firstAmbiguousState (ambiguous : List AttemptFacts) : Option (EventOf RecordedRequestState) :=
  states.find? fun state => state.body.attemptIds.any fun id =>
    ambiguous.any fun attempt => decide (attempt.registered.body.attemptId = id)

def coveredStates (ambiguous : List AttemptFacts) : List (EventOf RecordedRequestState) :=
  match firstAmbiguousState states ambiguous with
  | none => []
  | some first => states.filter fun state => decide (first.body.version ≤ state.body.version)

def attemptRef (attempt : AttemptFacts) : EvidenceRef :=
  match attempt.outcome with
  | none => eventRef attempt.registered.event
  | some outcome => eventRef outcome.event

/-- `uncheckableAttemptReasons` of one attempt. -/
def uncheckableReason (attempt : AttemptFacts) : Option StructuredReason :=
  match attempt.contradiction with
  | some contradiction =>
    some (reasonAt OracleRuleId.brRua004.text contradiction.code contradiction.detail
      (some (attemptRef attempt)))
  | none =>
    if attempt.outcome.isSome then none
    else
      some (reasonAt OracleRuleId.brRua004.text "OUTCOME_MISSING"
        ("attempt " ++ uuidString attempt.registered.body.attemptId ++ " has dispatch state " ++
          dispatchText attempt.dispatchState ++ " and no recorded outcome; expected an outcome " ++
          "whose recording can be checked")
        (some (eventRef attempt.registered.event)))

/-- The versions are `1..n`. -/
def versionsDense : Bool :=
  states.zipIdx.all fun entry => decide (entry.1.body.version = entry.2 + 1)

def stateReasons (states covered : List (EventOf RecordedRequestState))
    (callerRef : Option EvidenceRef) : List StructuredReason :=
  (if versionsDense states then []
    else
      [reasonAt OracleRuleId.brRua004.text "REQUEST_STATE_VERSIONS_NOT_DENSE"
        ("request-state versions are " ++
          boundedText (String.intercalate ", "
            (states.map fun state => toString state.body.version)) ++
          "; expected 1.." ++ toString states.length ++ " without gaps or repeats") callerRef]) ++
  (if covered.isEmpty then
    [reasonAt OracleRuleId.brRua004.text "REQUEST_STATE_NOT_RECORDED"
      ("no request state names an ambiguous attempt; expected the knowledge recorded after the " ++
        "first ambiguous outcome") callerRef]
    else [])

/-- What BR-RUA-004 observes of the covered states. -/
def recordedStates (covered : List (EventOf RecordedRequestState)) : RuleJson :=
  .list (covered.map fun state =>
    .record [("version", .number state.body.version),
      ("effect_knowledge", .text (effectKnowledgeText state.body.effectKnowledge))])

def evaluateUnknownOutcome (attempts : List AttemptFacts) : RuleResult :=
  let caller := subjectArtifactState evidence .callerJournal
  let ambiguous := ambiguousAttempts attempts
  let states := requestStates (partitionEvents evidence)
  let covered := coveredStates states ambiguous
  let refs := canonicalRefs (ambiguous.map attemptRef ++
    covered.map fun state => eventRef state.event)
  let result (outcome : RuleOutcome) (reasons : List StructuredReason) (observed : RuleJson)
      (cited : List EvidenceRef) : RuleResult :=
    { ruleId := .brRua004
      result := outcome
      expected := .record
        [("first_ambiguous_attempt_id", textOrNull (ambiguous.head?.map fun attempt =>
            uuidString attempt.registered.body.attemptId)),
          ("effect_knowledge", .text "UNKNOWN")]
      observed := observed
      evidenceRefs := cited
      indeterminateReasons := reasons }
  let observed := RuleJson.record [("recorded", recordedStates covered)]
  if !caller.complete then
    result .indeterminate [incompleteArtifactReason caller OracleRuleId.brRua004.text] observed
      (withCaller refs caller.ref)
  else if ambiguous.isEmpty then
    result .notApplicable []
      (.record [("code", .text "NO_AMBIGUOUS_OUTCOME"), ("recorded", .list [])]) refs
  else if covered.any fun state => decide (state.body.effectKnowledge ≠ .unknown) then
    result .fail [] observed refs
  else
    let reasons := ambiguous.filterMap uncheckableReason ++ stateReasons states covered caller.ref
    if reasons.isEmpty then result .pass [] observed refs
    else result .indeterminate reasons observed refs

/-! ## Mirrors -/

def gateIdText : GateId → String
  | .independentOracle => "independent_oracle"
  | .traceability => "traceability"
  | .identityIntegrity => "identity_integrity"
  | .controlIntegrity => "control_integrity"
  | .treatmentFidelity => "treatment_fidelity"
  | .ledgerAccess => "ledger_access"
  | .settlement => "settlement"
  | .ruleEvidence => "rule_evidence"
  | .evidenceIntegrity => "evidence_integrity"

def mirroredOutcome : GateValue → RuleOutcome
  | .verified => .pass
  | .invalid => .fail
  | .unverified => .indeterminate
  | .notApplicable => .indeterminate

def mirrorRule (ruleId : OracleRuleId) (gate : GateAssessment) : RuleResult where
  ruleId := ruleId
  result := mirroredOutcome gate.value
  expected := .record [("gate", .text (gateIdText gate.gate)), ("value", .text "verified")]
  observed := .record [("gate", .text (gateIdText gate.gate)),
    ("value", .text (gateValueText gate.value))]
  evidenceRefs := gate.evidenceRefs
  indeterminateReasons :=
    if mirroredOutcome gate.value = .indeterminate then gate.reasons else []

def equalTreatmentRule : RuleResult where
  ruleId := .brRua007
  result := .notApplicable
  expected := .record [("evaluated_in", .text "comparison")]
  observed := .record [("code", .text "EVALUATED_IN_COMPARISON")]
  evidenceRefs := []
  indeterminateReasons := []

end RefundStudy.Oracle
