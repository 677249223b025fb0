/-
  Gate G4b (`treatment-fidelity/treatment-fidelity.ts`, `commit-binding.ts`, `applicable-gate.ts`;
  BR-RUA-025, design 8.3).
-/
import RefundStudy.Fidelity.Conditions

set_option autoImplicit false

namespace RefundStudy.Fidelity

open Record Package Ingestion

variable {commit : EventOf CommittedTransaction} {timeout : EventOf CallerTimeout}
  {events : List IndexedEvent}

/-! ## Commit binding -/

structure PartialTriple where
  providerCommitId : Option Uuid4
  providerTransactionId : Option Uuid4
  providerCallId : Option Uuid4

def wholeTriple (triple : CommitTriple) : PartialTriple :=
  ⟨some triple.providerCommitId, some triple.providerTransactionId, some triple.providerCallId⟩

def committedTriple (commit : CommittedTransaction) : CommitTriple :=
  ⟨commit.providerCommitId, commit.providerTransactionId, commit.providerCallId⟩

def transactionTriple (transaction : LedgerTransaction) : CommitTriple :=
  ⟨transaction.providerCommitId, transaction.providerTransactionId, transaction.providerCallId⟩

def itemTriple (item : TreatmentItem) : PartialTriple :=
  ⟨item.providerCommitId, item.providerTransactionId, item.providerCallId⟩

structure TripleSource where
  name : String
  triple : PartialTriple
  ref : Option EvidenceRef

def differs (recorded : Option Uuid4) (expected : Uuid4) : Bool :=
  recorded.any fun id => decide (id ≠ expected)

def tripleDiffers (recorded : PartialTriple) (expected : CommitTriple) : Bool :=
  differs recorded.providerCommitId expected.providerCommitId ||
    differs recorded.providerTransactionId expected.providerTransactionId ||
    differs recorded.providerCallId expected.providerCallId

def commitTransaction (ledger : LedgerView) (commit : CommittedTransaction) :
    Option LedgerTransaction :=
  ledger.transactions.find? fun transaction =>
    decide (transaction.providerTransactionId = commit.providerTransactionId)

variable (view : TreatmentView)

def tripleSources (commit : EventOf CommittedTransaction) : List TripleSource :=
  (match view.confirmation with
    | none => []
    | some confirmation =>
      [⟨"provider_commit_confirmed", wholeTriple confirmation.body.triple,
        some (eventRef confirmation.event)⟩]) ++
  (match commitTransaction view.ledger commit.body with
    | none => []
    | some transaction =>
      [⟨"the ledger transaction", wholeTriple (transactionTriple transaction),
        view.ledgerState.ref⟩]) ++
  (match snapshotItem view.snapshot with
    | none => []
    | some item => [⟨"the treatment item", itemTriple item, view.snapshotState.ref⟩])

/-- One member of a triple, as `JSON.stringify` writes it. -/
def tripleMemberText (name : String) (id : Option Uuid4) : List String :=
  (id.map fun found => "\"" ++ name ++ "\":\"" ++ uuidString found ++ "\"").toList

/-- `JSON.stringify` of a triple. -/
def tripleText (triple : PartialTriple) : String :=
  "\x7b" ++ String.intercalate ","
    (tripleMemberText "provider_commit_id" triple.providerCommitId ++
      tripleMemberText "provider_transaction_id" triple.providerTransactionId ++
      tripleMemberText "provider_call_id" triple.providerCallId) ++ "\x7d"

def existingRefs (refs : List (Option EvidenceRef)) : List EvidenceRef := refs.filterMap id

/-- The cause of a source that records another triple. -/
def mismatchCause (commit : EventOf CommittedTransaction) (source : TripleSource) : GateCause where
  value := .invalid
  reason := reasonAt "BR-RUA-025" "COMMIT_TRIPLE_MISMATCH"
    (source.name ++ " records commit triple " ++ tripleText source.triple ++ "; expected " ++
      tripleText (wholeTriple (committedTriple commit.body)) ++ " as provider_transaction_committed " ++
      uuidString commit.event.record.eventId)
    source.ref
  refs := existingRefs [source.ref, some (eventRef commit.event)]

def commitTripleCauses : List GateCause :=
  match view.commit with
  | none => []
  | some commit =>
    ((tripleSources view commit).filter fun source =>
      tripleDiffers source.triple (committedTriple commit.body)).map (mismatchCause commit) ++
    (if view.ledger.status = .present ∧ commitTransaction view.ledger commit.body = none then
      [{ value := .unverified
         reason := reasonAt "BR-RUA-025" "LEDGER_TRANSACTION_MISSING"
          ("the ledger holds no transaction " ++ uuidString commit.body.providerTransactionId ++
            "; expected the targeted commit's transaction")
          view.ledgerState.ref
         refs := existingRefs [view.ledgerState.ref, some (eventRef commit.event)] }]
    else [])

/-- Equal instants keep journal order. -/
def earliest (calls : List (EventOf AcceptedProviderCall)) : Option (EventOf AcceptedProviderCall) :=
  calls.foldl (fun first call =>
    match first with
    | none => some call
    | some found =>
      if call.event.record.occurredAt < found.event.record.occurredAt then some call
      else some found) none

def firstAcceptedCallCauses : List GateCause :=
  match earliest view.acceptedCalls, view.commit with
  | none, _ =>
    [{ value := .unverified
       reason := reasonAt "BR-RUA-025" "ACCEPTED_CALL_MISSING"
        ("no provider_call_accepted in the partition; expected the targeted call to be the first " ++
          "accepted")
        view.journals.provider.ref
       refs := existingRefs [view.journals.provider.ref] }]
  | some _, none => []
  | some first, some commit =>
    if first.body.providerCallId = commit.body.providerCallId then []
    else
      [{ value := .invalid
         reason := reasonAt "BR-RUA-025" "FIRST_ACCEPTED_CALL_UNTARGETED"
          ("the first accepted call is " ++ uuidString first.body.providerCallId ++
            "; expected the targeted call " ++ uuidString commit.body.providerCallId)
          (some (eventRef first.event))
         refs := [eventRef first.event, eventRef commit.event] }]

/-! ## Causes -/

def verdictText : PreservationVerdict → String
  | .pass => "pass"
  | .fail => "fail"
  | .indeterminate => "indeterminate"

/-- An unaffected failure invalidates, anything else but a pass leaves fidelity unverified. -/
def conditionCauses (condition : ConditionResult) : List GateCause :=
  let name := condition.conditionId.text
  let refs := condition.evidenceRefs
  if condition.result = .pass then []
  else if condition.result = .fail ∧ condition.affectedBy = [] then
    [{ value := .invalid
       reason := reasonAt name "CONDITION_FAILED"
        (name ++ " fails on unaffected evidence; expected pass") refs.head?
       refs := refs }]
  else
    let causes := condition.affectedBy.map IngestionFindingCode.text ++
      condition.indeterminateReasons.map StructuredReason.code
    [{ value := .unverified
       reason := reasonAt name "CONDITION_INDETERMINATE"
        (name ++ " is " ++ verdictText condition.result ++ " (" ++
          String.intercalate ", " causes.eraseDups ++ "); expected pass") refs.head?
       refs := refs }]

def conflictCauses : List GateCause :=
  view.conflicts.map fun conflict =>
    { value := .invalid
      reason := reasonAt "BR-RUA-025" "TIMEOUT_SIGNAL_CONFLICT"
        ("timeout_signal_conflict_recorded for caller event " ++
          uuidString conflict.body.refs.callerTimeoutEventId ++ " against " ++
          uuidString conflict.body.existingCallerEventId ++
          "; expected no conflicting control evidence")
        (some (eventRef conflict.event))
      refs := [eventRef conflict.event] }

def missingCause (state : SubjectArtifactState) : GateCause where
  value := .unverified
  reason := incompleteArtifactReason state "BR-RUA-025"
  refs := existingRefs [state.ref]

def configurationCauses : List GateCause :=
  match view.configuration with
  | none => [missingCause view.configurationState]
  | some configuration =>
    if configuration.record = .commitThenTimeout then []
    else
      [{ value := .invalid
         reason := reasonAt "BR-RUA-025" "SCENARIO_MISMATCH"
          "provider configuration declares scenario CONTROL; expected COMMIT_THEN_TIMEOUT"
          view.configurationState.ref
         refs := existingRefs [view.configurationState.ref] }]

def snapshotReleased : Bool :=
  (snapshotItem view.snapshot).any fun item => decide (item.state = .safetyReleased)

def safetyCauses : List GateCause :=
  if view.safetyReleases.isEmpty && !snapshotReleased view then []
  else
    let refs := existingRefs (refsOf view.safetyReleases ++
      [if snapshotReleased view then view.snapshotState.ref else none])
    [{ value := .unverified
       reason := reasonAt "BR-RUA-025" "SAFETY_RELEASED"
        (toString view.safetyReleases.length ++
          " treatment_safety_released event(s), treatment state " ++
          (if snapshotReleased view then "SAFETY_RELEASED" else "not released") ++
          "; expected no safety release")
        refs.head?
       refs := refs }]

def missingRecordCauses : List GateCause :=
  (if view.snapshot.isNone then [missingCause view.snapshotState] else []) ++
  (if view.commit.isNone then
    [{ value := .unverified
       reason := reasonAt "BR-RUA-025" "TARGETED_COMMIT_NOT_UNIQUE"
        (toString view.targetedCommits.length ++
          " targeted provider_transaction_committed event(s); expected exactly one")
        view.journals.provider.ref
       refs := existingRefs [view.journals.provider.ref] }]
  else [])

def fidelityCauses (conditions : List ConditionResult) (view : TreatmentView) : List GateCause :=
  conditions.flatMap conditionCauses ++ conflictCauses view ++ configurationCauses view ++
    commitTripleCauses view ++ firstAcceptedCallCauses view ++ safetyCauses view ++
    missingRecordCauses view

/-- Its basis is always the causal one with the clock assumption CA-1. -/
structure FidelityAssessment where
  treatmentFidelity : GateValue
  reasons : List StructuredReason
  evidenceRefs : List EvidenceRef

def deriveTreatmentFidelity (conditions : List ConditionResult) (view : TreatmentView) :
    FidelityAssessment :=
  let gate := assembleGate .treatmentFidelity (fidelityCauses conditions view)
    (conditions.flatMap ConditionResult.evidenceRefs ++
      existingRefs [view.configurationState.ref, view.snapshotState.ref])
  ⟨gate.value, gate.reasons, gate.evidenceRefs⟩

/-- The treatment fidelity of ingested evidence; `none` when it has no treatment view. -/
def treatmentFidelityOf (evidence : IngestedEvidence) : Option GateValue :=
  match buildTreatmentView evidence with
  | .error _ => none
  | .ok view =>
    some (deriveTreatmentFidelity (evaluateTreatmentConditions view) view).treatmentFidelity

/-! ## What a verified treatment shows -/

/-- The first event of a type among the caller events of an attempt. -/
def attemptEvent {α : Type} (read : ReadBody → Option α) (evidence : IngestedEvidence)
    (attemptId : Uuid4) : Option (EventOf α) :=
  (eventsOfType read (callerEventsOf (partitionEvents evidence) (some attemptId))).head?

structure TripleAgrees (recorded : PartialTriple) (expected : CommitTriple) : Prop where
  commit : ∀ id, recorded.providerCommitId = some id → id = expected.providerCommitId
  transaction : ∀ id, recorded.providerTransactionId = some id → id = expected.providerTransactionId
  call : ∀ id, recorded.providerCallId = some id → id = expected.providerCallId

/-- The caller side: the attempt of the commit was dispatched, its timer won after three seconds on
unsettled transport, and nothing the caller recorded carries the commit's transaction. -/
structure CallerTimedOut (evidence : IngestedEvidence) (commit : EventOf CommittedTransaction)
    (timeout : EventOf CallerTimeout) : Prop where
  recorded : attemptEvent asCallerTimeout evidence commit.body.attemptId = some timeout
  sameAttempt : timeout.body.correlation.attemptId = commit.body.attemptId
  elapsed : 3000000000 ≤ timeout.body.timeout.elapsedNs
  winner : timeout.body.timeout.arbiterWinner = .timer
  unsettled : timeout.body.timeout.transportSettledAtClaim = false
  dispatched : ∃ dispatch, attemptEvent asDispatch evidence commit.body.attemptId = some dispatch ∧
    dispatch.event.record.eventId ∈ timeout.event.record.causationEventIds ∧
    timeout.body.timeout.monotonicOriginEventId = dispatch.event.record.eventId
  timedOut : ∃ outcome, attemptEvent asOutcome evidence commit.body.attemptId = some outcome ∧
    outcome.body.outcome = .timedOut
  unseen : ∀ event ∈ partitionEvents evidence, isCallerEvent event = true →
    event.record.body.identity .attemptId = some commit.body.attemptId →
    event.record.body.identity .providerTransactionId ≠ some commit.body.providerTransactionId

/-- The causal chain from the commit and the timeout through the signal to the release. -/
structure ReleasedBySignal (evidence : IngestedEvidence) (commit : EventOf CommittedTransaction)
    (timeout : EventOf CallerTimeout) (signal : EventOf RecordedSignal)
    (observation : EventOf ObservedTimeout) (release : EventOf CommitRefs) : Prop where
  signalled : signal ∈ eventsOfType asSignal (partitionEvents evidence)
  signalCommit : signal.body.providerCommitId = commit.body.providerCommitId
  signalCauses : signal.event.record.causationEventIds =
    [commit.event.record.eventId, timeout.event.record.eventId].insertionSort (· ≤ ·)
  signalAttempt : signal.body.attemptId = commit.body.attemptId
  signalTimeout : signal.body.callerTimeoutEventId = timeout.event.record.eventId
  signalCommitEvent : signal.body.providerCommitEventId = commit.event.record.eventId
  observed : observation ∈ eventsOfType asObservation (partitionEvents evidence)
  observationCommit : observation.body.commit.providerCommitId = commit.body.providerCommitId
  observationCause : signal.event.record.eventId ∈ observation.event.record.causationEventIds
  released : release ∈ eventsOfType asRelease (partitionEvents evidence)
  releaseCommit : release.body.providerCommitId = commit.body.providerCommitId
  releaseCause : observation.event.record.eventId ∈ release.event.record.causationEventIds
  sameInstance : release.event.record.sourceInstanceId = observation.event.record.sourceInstanceId
  later : observation.event.record.sourceSequence < release.event.record.sourceSequence

/-- What is absent from a faithful treatment: safety releases and conflicts. -/
structure Undisturbed (evidence : IngestedEvidence) : Prop where
  noSafetyRelease : eventsOfType asSafetyRelease (partitionEvents evidence) = []
  notSafetyReleased : ∀ item, snapshotItem evidence.observations.treatmentSnapshot = some item →
    item.state ≠ .safetyReleased
  noConflict : eventsOfType asConflict (partitionEvents evidence) = []

/-- No source records another commit triple than the commit's. -/
structure TriplesAgree (evidence : IngestedEvidence) (commit : EventOf CommittedTransaction)
    (confirmation : EventOf ConfirmedCommit) : Prop where
  confirmed : confirmation.body.triple = committedTriple commit.body
  ledger : ∀ transaction, commitTransaction evidence.ledger commit.body = some transaction →
    transactionTriple transaction = committedTriple commit.body
  item : ∀ item, snapshotItem evidence.observations.treatmentSnapshot = some item →
    TripleAgrees (itemTriple item) (committedTriple commit.body)

/-- Everything a verified treatment fidelity vouches for. -/
structure FaithfulTreatment (evidence : IngestedEvidence) (commit : EventOf CommittedTransaction)
    (confirmation : EventOf ConfirmedCommit) (timeout : EventOf CallerTimeout)
    (signal : EventOf RecordedSignal) (observation : EventOf ObservedTimeout)
    (release : EventOf CommitRefs) : Prop where
  onlyCommit : targetedCommitsOf (partitionEvents evidence) = [commit]
  confirmed : confirmationOf (partitionEvents evidence) commit = some confirmation
  committedFirst : confirmation.body.committedAt < timeout.body.timeout.timerFiredAt
  caller : CallerTimedOut evidence commit timeout
  chain : ReleasedBySignal evidence commit timeout signal observation release
  undisturbed : Undisturbed evidence
  scenario : ∃ configuration, evidence.observations.providerConfiguration = some configuration ∧
    configuration.record = .commitThenTimeout
  triples : TriplesAgree evidence commit confirmation
  firstAccepted : ∃ first,
    earliest (eventsOfType asAccepted (partitionEvents evidence)) = some first ∧
      first.body.providerCallId = commit.body.providerCallId

section Verified

variable {evidence : IngestedEvidence} {view : TreatmentView}

theorem treatmentFidelityOf_verified (h : treatmentFidelityOf evidence = some .verified) :
    fidelityCauses (evaluateTreatmentConditions (treatmentView evidence))
      (treatmentView evidence) = [] := by
  unfold treatmentFidelityOf buildTreatmentView at h
  cases hrefusal : scenarioRefusal evidence.scope with
  | some reason =>
    rw [hrefusal] at h
    cases h
  | none =>
    rw [hrefusal] at h
    exact assembleGate_verified.mp (Option.some.inj h)

structure NoCause (view : TreatmentView) : Prop where
  conditions : ∀ condition ∈ conditionIds, (conditionDraft view condition).result = .pass
  conflicts : view.conflicts = []
  configuration : configurationCauses view = []
  triples : commitTripleCauses view = []
  accepted : firstAcceptedCallCauses view = []
  safety : safetyCauses view = []
  missing : missingRecordCauses view = []

theorem conditionCauses_nil {result : ConditionResult} (h : conditionCauses result = []) :
    result.result = .pass := by
  unfold conditionCauses at h
  dsimp only at h
  split at h
  · assumption
  · split at h <;> cases h

theorem fidelityCauses_nil (h : fidelityCauses (evaluateTreatmentConditions view) view = []) :
    NoCause view := by
  unfold fidelityCauses at h
  simp only [List.append_eq_nil_iff] at h
  obtain ⟨⟨⟨⟨⟨⟨hconditions, hconflicts⟩, hconfiguration⟩, htriples⟩, haccepted⟩, hsafety⟩, hmissing⟩ := h
  refine ⟨?_, List.map_eq_nil_iff.mp hconflicts, hconfiguration, htriples, haccepted, hsafety,
    hmissing⟩
  intro condition hmem
  rw [List.flatMap_eq_nil_iff] at hconditions
  exact conditionDraft_pass
    (conditionCauses_nil (hconditions _ (List.mem_map.mpr ⟨condition, hmem, rfl⟩)))

theorem uniqueCommit_some {commits : List (EventOf CommittedTransaction)}
    (h : uniqueCommit commits = some commit) :
    commits = [commit] := by
  unfold uniqueCommit at h
  split at h
  · rw [Option.some.inj h]
  · cases h

/-- What the view binds by the commit's id belongs to the partition and carries that id. -/
theorem commitScoped_some {α : Type} {read : ReadBody → Option α} {commitIdOf attemptIdOf : α → Uuid4}
    {attemptId : Option Uuid4}
    {found : EventOf α}
    (h : commitScoped read commitIdOf attemptIdOf events (some commit) attemptId = some found) :
    found ∈ eventsOfType read events ∧ commitIdOf found.body = commit.body.providerCommitId := by
  unfold commitScoped at h
  dsimp only at h
  have hid := List.find?_some h
  exact ⟨List.mem_of_find?_eq_some h, of_decide_eq_true hid⟩

theorem targetedAttempt_commit
    {snapshot : Option (LocatedRecord TreatmentStateSnapshot)} :
    targetedAttempt events (some commit) snapshot = some commit.body.attemptId := rfl

theorem mem_callerEventsOf {attemptId : Uuid4} {event : IndexedEvent} :
    event ∈ callerEventsOf events (some attemptId) ↔
      event ∈ events ∧ isCallerEvent event = true ∧
        event.record.body.identity .attemptId = some attemptId := by
  simp [callerEventsOf, List.mem_filter]

theorem attemptEvent_timeout {attemptId : Uuid4}
    (h : attemptEvent asCallerTimeout evidence attemptId = some timeout) :
    timeout.body.correlation.attemptId = attemptId := by
  have hmem := mem_eventsOfType.mp (List.mem_of_head? h)
  have hattempt := (mem_callerEventsOf.mp hmem.1).2.2
  cases hbody : timeout.event.record.body with
  | callerTimeoutRecorded correlation recorded =>
    have hread : asCallerTimeout timeout.event.record.body = some ⟨correlation, recorded⟩ := by
      rw [hbody]
      rfl
    have hsame : timeout.body = ⟨correlation, recorded⟩ :=
      Option.some.inj (hmem.2.symm.trans hread)
    rw [hbody] at hattempt
    rw [hsame]
    exact Option.some.inj hattempt
  | _ =>
    have hnone := hmem.2
    rw [hbody] at hnone
    cases hnone

theorem tripleDiffers_false {recorded : PartialTriple} {expected : CommitTriple}
    (h : tripleDiffers recorded expected = false) : TripleAgrees recorded expected := by
  have hagree : ∀ (found : Option Uuid4) (id : Uuid4), differs found id = false →
      ∀ other, found = some other → other = id := by
    intro found id hdiffers other hother
    rw [hother] at hdiffers
    simpa [differs] using hdiffers
  simp only [tripleDiffers, Bool.or_eq_false_iff] at h
  exact ⟨hagree _ _ h.1.1, hagree _ _ h.1.2, hagree _ _ h.2⟩

theorem wholeTriple_agrees {triple expected : CommitTriple}
    (h : TripleAgrees (wholeTriple triple) expected) : triple = expected := by
  have hcommit := h.commit _ rfl
  have htransaction := h.transaction _ rfl
  have hcall := h.call _ rfl
  cases triple
  cases expected
  simp_all

/-- Without a triple cause, every source agrees, and a present ledger holds the transaction. -/
theorem commitTripleCauses_nil
    (hcommit : view.commit = some commit) (h : commitTripleCauses view = []) :
    (∀ source ∈ tripleSources view commit,
      TripleAgrees source.triple (committedTriple commit.body)) ∧
    (view.ledger.status = .present → ∃ transaction,
      commitTransaction view.ledger commit.body = some transaction) := by
  unfold commitTripleCauses at h
  rw [hcommit] at h
  dsimp only at h
  rw [List.append_eq_nil_iff, List.map_eq_nil_iff, List.filter_eq_nil_iff] at h
  constructor
  · intro source hsource
    exact tripleDiffers_false (Bool.eq_false_iff.mpr (h.1 source hsource))
  · intro hpresent
    cases hfound : commitTransaction view.ledger commit.body with
    | some transaction => exact ⟨transaction, rfl⟩
    | none =>
      have hcause := h.2
      rw [if_pos ⟨hpresent, hfound⟩] at hcause
      cases hcause

theorem safetyCauses_nil (h : safetyCauses view = []) :
    view.safetyReleases = [] ∧ snapshotReleased view = false := by
  unfold safetyCauses at h
  split at h
  · rename_i hnone
    rw [Bool.and_eq_true, List.isEmpty_iff, Bool.not_eq_true'] at hnone
    exact hnone
  · cases h

theorem notSafetyReleased_of_causes (h : safetyCauses (treatmentView evidence) = [])
    {item : TreatmentItem}
    (hitem : snapshotItem evidence.observations.treatmentSnapshot = some item) :
    item.state ≠ .safetyReleased := by
  intro hstate
  have hany : snapshotReleased (treatmentView evidence) = true := by
    unfold snapshotReleased
    rw [show snapshotItem (treatmentView evidence).snapshot = some item from hitem]
    exact decide_eq_true hstate
  have hreleased := (safetyCauses_nil h).2
  rw [hany] at hreleased
  cases hreleased

theorem missingRecordCauses_nil (h : missingRecordCauses view = []) :
    (∃ snapshot, view.snapshot = some snapshot) ∧ ∃ commit, view.commit = some commit := by
  unfold missingRecordCauses at h
  rw [List.append_eq_nil_iff] at h
  constructor
  · cases hsnapshot : view.snapshot with
    | some snapshot => exact ⟨snapshot, rfl⟩
    | none => simp [hsnapshot] at h
  · cases hcommit : view.commit with
    | some commit => exact ⟨commit, rfl⟩
    | none => simp [hcommit] at h

theorem configurationCauses_nil (h : configurationCauses view = []) :
    ∃ configuration, view.configuration = some configuration ∧
      configuration.record = .commitThenTimeout := by
  unfold configurationCauses at h
  split at h
  · cases h
  · rename_i configuration hconfiguration
    split at h
    · rename_i hscenario
      exact ⟨configuration, hconfiguration, hscenario⟩
    · cases h

theorem firstAcceptedCallCauses_nil
    (hcommit : view.commit = some commit) (h : firstAcceptedCallCauses view = []) :
    ∃ first, earliest view.acceptedCalls = some first ∧
      first.body.providerCallId = commit.body.providerCallId := by
  unfold firstAcceptedCallCauses at h
  rw [hcommit] at h
  cases hfirst : earliest view.acceptedCalls with
  | none =>
    rw [hfirst] at h
    cases h
  | some first =>
    rw [hfirst] at h
    dsimp only at h
    split at h
    · rename_i hsame
      exact ⟨first, rfl, hsame⟩
    · cases h

/-- The sources of the view, each agreeing, are the confirmation, the ledger's transaction and the
snapshot's item. -/
theorem triplesAgree_of_sources
    {confirmation : EventOf ConfirmedCommit}
    (hconfirmation : (treatmentView evidence).confirmation = some confirmation)
    (h : ∀ source ∈ tripleSources (treatmentView evidence) commit,
      TripleAgrees source.triple (committedTriple commit.body)) :
    TriplesAgree evidence commit confirmation := by
  constructor
  · apply wholeTriple_agrees
    apply h ⟨"provider_commit_confirmed", wholeTriple confirmation.body.triple, _⟩
    unfold tripleSources
    rw [hconfirmation]
    exact List.mem_append_left _ (List.mem_append_left _ List.mem_cons_self)
  · intro transaction hledger
    apply wholeTriple_agrees
    apply h ⟨"the ledger transaction", wholeTriple (transactionTriple transaction), _⟩
    unfold tripleSources
    rw [show commitTransaction (treatmentView evidence).ledger commit.body = some transaction from
      hledger]
    exact List.mem_append_left _ (List.mem_append_right _ List.mem_cons_self)
  · intro item hitem
    apply h ⟨"the treatment item", itemTriple item, _⟩
    unfold tripleSources
    rw [show snapshotItem (treatmentView evidence).snapshot = some item from hitem]
    exact List.mem_append_right _ List.mem_cons_self

/-- The caller's part, from BR-RUA-011 and BR-RUA-015. -/
theorem callerTimedOut_of_conditions
    (hcommit : (treatmentView evidence).commit = some commit)
    (htimeout : (treatmentView evidence).callerTimeout = some timeout)
    (happlication : TimedOutApplication (treatmentView evidence) timeout)
    (hcarrying : carryingEvents (treatmentView evidence) = []) :
    CallerTimedOut evidence commit timeout := by
  have hunique : uniqueCommit (targetedCommitsOf (partitionEvents evidence)) = some commit := hcommit
  have hattempt : (treatmentView evidence).attemptEvents =
      callerEventsOf (partitionEvents evidence) (some commit.body.attemptId) := by
    simp only [treatmentView, hunique, targetedAttempt_commit]
  have hhead : ∀ {α : Type} (read : ReadBody → Option α),
      (eventsOfType read (treatmentView evidence).attemptEvents).head? =
        attemptEvent read evidence commit.body.attemptId := by
    intro α read
    rw [hattempt]
    rfl
  have hrecorded : attemptEvent asCallerTimeout evidence commit.body.attemptId = some timeout := by
    rw [← hhead]
    exact htimeout
  obtain ⟨dispatch, hdispatch, hcause, horigin⟩ := happlication.dispatched
  obtain ⟨outcome, houtcome, htimedOut⟩ := Option.map_eq_some_iff.mp happlication.outcome
  refine ⟨hrecorded, attemptEvent_timeout hrecorded, happlication.elapsed, happlication.winner,
    happlication.unsettled, ⟨dispatch, ?_, hcause, horigin⟩, ⟨outcome, ?_, htimedOut⟩, ?_⟩
  · rw [← hhead]
    exact hdispatch
  · rw [← hhead]
    exact houtcome
  · intro event hmem hcaller hattemptId hcarried
    unfold carryingEvents at hcarrying
    rw [hcommit, hattempt] at hcarrying
    dsimp only at hcarrying
    rw [List.filter_eq_nil_iff] at hcarrying
    exact hcarrying event (mem_callerEventsOf.mpr ⟨hmem, hcaller, hattemptId⟩)
      (decide_eq_true hcarried)

/-- The chain's part, from BR-RUA-013 and BR-RUA-014. -/
theorem releasedBySignal_of_conditions
    {signal : EventOf RecordedSignal}
    {observation : EventOf ObservedTimeout} {release : EventOf CommitRefs}
    (hcommit : (treatmentView evidence).commit = some commit)
    (hattempt : timeout.body.correlation.attemptId = commit.body.attemptId)
    (hsignal : (treatmentView evidence).signal = some signal)
    (hobservation : (treatmentView evidence).observation = some observation)
    (hrelease : (treatmentView evidence).release = some release)
    (hjoined : SignalJoins signal commit timeout observation)
    (hcontrolled : ReleasedAfter observation release) :
    ReleasedBySignal evidence commit timeout signal observation release := by
  have hunique : uniqueCommit (targetedCommitsOf (partitionEvents evidence)) = some commit := hcommit
  simp only [treatmentView, hunique] at hsignal hobservation hrelease
  obtain ⟨hsignalled, hsignalCommit⟩ := commitScoped_some hsignal
  obtain ⟨hobserved, hobservedCommit⟩ := commitScoped_some hobservation
  obtain ⟨hreleased, hreleasedCommit⟩ := commitScoped_some hrelease
  exact ⟨hsignalled, hsignalCommit, hjoined.causes, hjoined.attempt.trans hattempt,
    hjoined.timeoutEvent, hjoined.commitEvent, hobserved, hobservedCommit, hjoined.observed,
    hreleased, hreleasedCommit, hcontrolled.caused, hcontrolled.sameInstance, hcontrolled.later⟩

end Verified

/-! ## A treatment of a transport probe -/

def probeEvent (source : EventSource) (sequence eventId : Nat) (causes : List Nat)
    (body : ReadBody) : RecordValue where
  correlation := { transportProbeId := .text "probe" }
  body := .event
    { eventId := eventId
      occurredAt := eventId
      source := source
      sourceInstanceId := 1
      sourceSequence := sequence
      causationEventIds := causes
      body := body }

def probeAttempt : AttemptCorrelation := ⟨50, 51, "request"⟩

def probeCommit : CommittedTransaction where
  providerCommitId := 60
  providerTransactionId := 61
  providerCallId := 62
  attemptId := 50
  providerRequestId := 51
  refundRequestId := "request"
  paymentId := "payment"
  amountMinor := 100
  currency := "EUR"
  targeted := true
  commitRequestedAt := 12

def probeTimeout : RecordedTimeout where
  elapsedNs := 3000000000
  monotonicOriginEventId := 2
  dispatchAt := 10
  deadlineAt := 3010
  timerFiredAt := 3010
  abortRequestedAt := 3010
  recordedAt := 3010
  arbiterWinner := .timer
  transportSettledAtClaim := false

def probeCallerLines : List RecordValue :=
  [probeEvent .probeCaller 1 1 [] (.attemptRegistered probeAttempt),
    probeEvent .probeCaller 2 2 [1] (.dispatchStarted probeAttempt),
    probeEvent .probeCaller 3 7 [2] (.callerTimeoutRecorded probeAttempt probeTimeout),
    probeEvent .probeCaller 4 8 [7] (.attemptOutcomeRecorded probeAttempt .timedOut none none)]

def probeProviderLines : List RecordValue :=
  [probeEvent .refundProvider 1 3 [] (.providerCallReceived 62),
    probeEvent .refundProvider 2 4 [3] (.providerCallAccepted 62 probeAttempt),
    probeEvent .refundProvider 3 5 [4] (.providerTransactionCommitted probeCommit),
    probeEvent .refundProvider 4 6 [5] (.providerCommitConfirmed ⟨60, 61, 62⟩ 20),
    probeEvent .refundProvider 5 10 [9] (.treatmentTimeoutObserved ⟨60, 62, 50⟩ 9),
    probeEvent .refundProvider 6 11 [10] (.treatmentResponseReleased ⟨60, 62, 50⟩)]

def probeControllerLines : List RecordValue :=
  [probeEvent .treatmentController 1 9 [5, 7] (.timeoutSignalRecorded ⟨60, 50, 7, 5⟩)]

def jsonlFile (path : String) (digest : Sha256Hex) (records : List RecordValue) : RawArtifact where
  path := path
  bytes :=
    { sha256 := digest
      document := .error "trailing characters after the first line"
      lines := records.zipIdx.map fun record => (record.2 + 1, .ok record.1) }

def jsonFile (path : String) (digest : Sha256Hex) (record : RecordValue) : RawArtifact where
  path := path
  bytes := ⟨digest, .ok record, [(1, .ok record)]⟩

def probeDocument (body : RecordBody) : RecordValue where
  correlation := { transportProbeId := .text "probe" }
  body := body

def probeExpected : List ExpectedArtifact :=
  [⟨"probe/journals/caller-journal.jsonl", .callerJournal, .required⟩,
    ⟨"probe/journals/provider-journal.jsonl", .providerJournal, .required⟩,
    ⟨"probe/journals/controller-journal.jsonl", .controllerJournal, .required⟩,
    ⟨"probe/state/provider-trial-configuration.json", .providerTrialConfiguration, .required⟩,
    ⟨"probe/state/treatment-state-snapshot.json", .treatmentStateSnapshot, .required⟩,
    ⟨"probe/ledger/ledger-snapshot.json", .ledgerSnapshot, .required⟩]

def probeInput (provider : List RecordValue) (treatment : Option TreatmentItem)
    (more : List RawArtifact) : IngestionInput where
  artifacts :=
    [jsonlFile "probe/journals/caller-journal.jsonl" "caller" probeCallerLines,
      jsonlFile "probe/journals/provider-journal.jsonl" "provider" provider,
      jsonlFile "probe/journals/controller-journal.jsonl" "controller" probeControllerLines,
      jsonFile "probe/state/provider-trial-configuration.json" "configuration"
        (probeDocument (.providerTrialConfiguration .commitThenTimeout)),
      jsonFile "probe/state/treatment-state-snapshot.json" "snapshot"
        (probeDocument (.treatmentStateSnapshot ⟨true, treatment⟩))] ++ more
  expected := probeExpected
  executionScopeArtifacts := []

def probeItem : TreatmentItem where
  state := .responseReleased
  version := 5
  targetedAttemptId := some 50
  providerRequestId := some 51
  providerCallId := some 62
  providerCommitId := some 60
  providerTransactionId := some 61

def probeTransaction : LedgerTransaction where
  providerTransactionId := 61
  providerCommitId := 60
  providerCallId := 62
  attemptId := 50
  providerRequestId := 51
  refundRequestId := "request"
  paymentId := "payment"
  amountMinor := 100
  currency := "EUR"
  commitRequestedAt := 12

def probeLedger : RawArtifact :=
  jsonFile "probe/ledger/ledger-snapshot.json" "ledger"
    (probeDocument (.ledgerSnapshot
      { writer := .runner
        consistentRead := true
        capturedAt := 4000
        complete := true
        pages := [⟨1, 1, none, none⟩]
        transactions := [probeTransaction] }))

def acceptingValidator : RecordValidator := ⟨fun _ => []⟩

/-- A verified treatment fidelity is sound: the partition shows one targeted commit, confirmed
before its caller's timer fired, and everything that follows from it in order. -/
theorem verified_fidelity_faithful {evidence : IngestedEvidence}
    (h : treatmentFidelityOf evidence = some .verified) :
    ∃ commit confirmation timeout signal observation release,
      FaithfulTreatment evidence commit confirmation timeout signal observation release := by
  have hnone := fidelityCauses_nil (treatmentFidelityOf_verified h)
  obtain ⟨-, commit, hcommit⟩ := missingRecordCauses_nil hnone.missing
  obtain ⟨timeout, confirmation, htimeout, hconfirmation, hbefore⟩ :=
    commitBeforeTimer_pass (hnone.conditions .commitBeforeTimer (by decide))
  obtain ⟨timeout', htimeout', happlication⟩ :=
    applicationTimeout_pass (hnone.conditions .applicationTimeout (by decide))
  obtain ⟨commit', timeout'', signal, observation, hcommit', htimeout'', hsignal, hobservation,
    hjoined⟩ := causalJoin_pass (hnone.conditions .causalJoin (by decide))
  obtain ⟨release, observation', hrelease, hobservation', hcontrolled⟩ :=
    controlledRelease_pass (hnone.conditions .controlledRelease (by decide))
  have hcarrying := noCallerSuccess_pass (hnone.conditions .noCallerSuccess (by decide))
  -- each condition names the events of the one view
  cases Option.some.inj (hcommit.symm.trans hcommit')
  cases Option.some.inj (htimeout.symm.trans htimeout')
  cases Option.some.inj (htimeout.symm.trans htimeout'')
  cases Option.some.inj (hobservation.symm.trans hobservation')
  have hunique : uniqueCommit (targetedCommitsOf (partitionEvents evidence)) = some commit := hcommit
  have hcaller := callerTimedOut_of_conditions hcommit htimeout happlication hcarrying
  obtain ⟨hsafety, -⟩ := safetyCauses_nil hnone.safety
  obtain ⟨hsources, -⟩ := commitTripleCauses_nil hcommit hnone.triples
  refine ⟨commit, confirmation, timeout, signal, observation, release,
    uniqueCommit_some hunique, ?_, hbefore, hcaller,
    releasedBySignal_of_conditions hcommit hcaller.sameAttempt hsignal hobservation hrelease hjoined
      hcontrolled,
    ⟨hsafety, ?_, hnone.conflicts⟩, configurationCauses_nil hnone.configuration,
    triplesAgree_of_sources hconfirmation hsources,
    firstAcceptedCallCauses_nil hcommit hnone.accepted⟩
  · simp only [treatmentView, hunique] at hconfirmation
    exact hconfirmation
  · intro item hitem
    exact notSafetyReleased_of_causes hnone.safety hitem

theorem probe_verified : treatmentFidelityOf (ingestEvidence acceptingValidator
    (probeInput probeProviderLines (some probeItem) [probeLedger])) = some .verified := by
  decide +kernel

theorem probe_fidelity_faithful :
    treatmentFidelityOf (ingestEvidence acceptingValidator
      (probeInput probeProviderLines (some probeItem) [probeLedger])) = some .verified ∧
    ∃ commit confirmation timeout signal observation release,
      FaithfulTreatment (ingestEvidence acceptingValidator
        (probeInput probeProviderLines (some probeItem) [probeLedger]))
        commit confirmation timeout signal observation release := by
  exact ⟨probe_verified, verified_fidelity_faithful probe_verified⟩

/-! ## Where the triple is shown -/

/-- What the sources that exist show of the commit triple: the snapshot's item and a readable
ledger, neither of which has to be there. -/
structure TripleWhereRecorded (evidence : IngestedEvidence) (commit : EventOf CommittedTransaction)
    (snapshot : LocatedRecord TreatmentStateSnapshot) : Prop where
  captured : evidence.observations.treatmentSnapshot = some snapshot
  item : ∀ item, snapshot.record.treatment = some item →
    item.state ≠ .safetyReleased ∧ TripleAgrees (itemTriple item) (committedTriple commit.body)
  ledger : evidence.ledger.status = .present → ∃ transaction ∈ evidence.ledger.transactions,
    transactionTriple transaction = committedTriple commit.body

structure TripleShown (evidence : IngestedEvidence) (commit : EventOf CommittedTransaction) :
    Prop where
  item : ∃ snapshot item, evidence.observations.treatmentSnapshot = some snapshot ∧
    snapshot.record.treatment = some item ∧ item.state = .responseReleased ∧
    itemTriple item = wholeTriple (committedTriple commit.body)
  present : evidence.ledger.status = .present
  ledger : ∃ transaction ∈ evidence.ledger.transactions,
    transactionTriple transaction = committedTriple commit.body

/-- A verified treatment has a snapshot, and no source that exists records another triple than its
one targeted commit's. -/
theorem verified_fidelity_triple {evidence : IngestedEvidence}
    (h : treatmentFidelityOf evidence = some .verified) :
    ∃ commit snapshot, targetedCommitsOf (partitionEvents evidence) = [commit] ∧
      TripleWhereRecorded evidence commit snapshot := by
  have hnone := fidelityCauses_nil (treatmentFidelityOf_verified h)
  obtain ⟨⟨snapshot, hsnapshot⟩, commit, hcommit⟩ := missingRecordCauses_nil hnone.missing
  obtain ⟨-, confirmation, -, hconfirmation, -⟩ :=
    commitBeforeTimer_pass (hnone.conditions .commitBeforeTimer (by decide))
  obtain ⟨hsources, hledger⟩ := commitTripleCauses_nil hcommit hnone.triples
  have hagree := triplesAgree_of_sources hconfirmation hsources
  refine ⟨commit, snapshot, uniqueCommit_some hcommit, hsnapshot, ?_, ?_⟩
  · intro item htreatment
    have hitem : snapshotItem evidence.observations.treatmentSnapshot = some item := by
      unfold snapshotItem
      rw [show evidence.observations.treatmentSnapshot = some snapshot from hsnapshot]
      exact htreatment
    exact ⟨notSafetyReleased_of_causes hnone.safety hitem, hagree.item item hitem⟩
  · intro hpresent
    obtain ⟨transaction, hfound⟩ := hledger hpresent
    exact ⟨transaction, List.mem_of_find?_eq_some hfound, hagree.ledger transaction hfound⟩

theorem probe_fidelity_triple :
    treatmentFidelityOf (ingestEvidence acceptingValidator
      (probeInput probeProviderLines (some probeItem) [probeLedger])) = some .verified ∧
    ∃ commit snapshot,
      targetedCommitsOf (partitionEvents (ingestEvidence acceptingValidator
        (probeInput probeProviderLines (some probeItem) [probeLedger]))) = [commit] ∧
      TripleWhereRecorded (ingestEvidence acceptingValidator
        (probeInput probeProviderLines (some probeItem) [probeLedger])) commit snapshot := by
  exact ⟨probe_verified, verified_fidelity_triple probe_verified⟩

theorem bareProbe_verified : treatmentFidelityOf (ingestEvidence acceptingValidator
    (probeInput probeProviderLines none [])) = some .verified := by
  decide +kernel

theorem verified_fidelity_without_item :
    ¬ ∀ evidence : IngestedEvidence, treatmentFidelityOf evidence = some .verified →
      ∃ commit, targetedCommitsOf (partitionEvents evidence) = [commit] ∧
        TripleShown evidence commit := by
  intro h
  obtain ⟨commit, -, hshown⟩ := h (ingestEvidence acceptingValidator
    (probeInput probeProviderLines none [])) bareProbe_verified
  have hpresent := hshown.present
  revert hpresent
  decide +kernel

end RefundStudy.Fidelity
