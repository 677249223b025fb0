/-
  The six treatment conditions BR-RUA-010 to BR-RUA-015
  (`treatment-fidelity/commit-before-timer.ts`, `application-timeout.ts`,
  `continued-execution.ts`, `causal-join.ts`, `controlled-release.ts`, `no-caller-success.ts`,
  `treatment-conditions.ts`).
-/
import RefundStudy.Fidelity.View

set_option autoImplicit false

namespace RefundStudy.Fidelity

open Record Package Ingestion

/-- The id of an event that may be absent, in a detail. -/
def shownId {α : Type} (event : Option (EventOf α)) : String :=
  (event.map fun found => uuidString found.event.record.eventId).getD "(none)"

variable (view : TreatmentView)

def shownAttempt : String :=
  (view.targetedAttemptId.map uuidString).getD "(unknown)"

def outcomeText : AttemptOutcome → String
  | .succeeded => "SUCCEEDED"
  | .rejected => "REJECTED"
  | .timedOut => "TIMED_OUT"
  | .failed => "FAILED"

/-- The reason that an event of a journal is missing: the journal itself, when it is absent. -/
def missingAt (condition : ConditionId) (journal : SubjectArtifactState) (code detail : String) :
    StructuredReason :=
  if journal.ref.isNone then incompleteArtifactReason journal condition.text
  else reasonAt condition.text code detail journal.ref

/-! ## BR-RUA-010 -/

/-- Conclusive only over a complete provider journal and a complete ledger. -/
def provenNoCommit : Bool :=
  match view.targetedAttemptId with
  | none => false
  | some attemptId =>
    view.targetedCommits.isEmpty && view.journals.provider.complete &&
      decide (view.ledger.status = .present) && view.ledger.paginationComplete &&
      view.ledger.duplicateTransactionIds.isEmpty &&
      !(view.commits.any fun found => decide (found.body.attemptId = attemptId)) &&
      !(view.ledger.transactions.any fun transaction =>
        decide (transaction.attemptId = attemptId))

/-- `missingReasons` of BR-RUA-010. -/
def unconfirmedReasons : List StructuredReason :=
  (if view.confirmation.isSome then []
    else [missingAt .commitBeforeTimer view.journals.provider
      (if 1 < view.targetedCommits.length then "TARGETED_COMMIT_AMBIGUOUS" else "EVENT_MISSING")
      (toString view.targetedCommits.length ++ " targeted commit(s) and no " ++
        "provider_commit_confirmed for the targeted commit; expected exactly one confirmed targeted " ++
        "commit")]) ++
  (if view.callerTimeout.isSome then []
    else [missingAt .commitBeforeTimer view.journals.caller "EVENT_MISSING"
      ("no caller_timeout_recorded for targeted attempt " ++ shownAttempt view ++
        "; expected the timer's event")])

/-- The events BR-RUA-010 cites. -/
def commitBeforeTimerRefs : List (Option EvidenceRef) :=
  [refOf view.commit, refOf view.confirmation, refOf view.callerTimeout]

/-- The timer's instant against the commit's. -/
def orderingDraft (timerFiredAt committedAt : UtcMillis) (refs : List (Option EvidenceRef)) :
    ConditionDraft :=
  if timerFiredAt = committedAt then
    { result := .indeterminate
      refs := refs
      reasons := [reasonAt "BR-RUA-010" "EQUAL_TIMESTAMPS"
        "committed_at equals timer_fired_at; expected committed_at < timer_fired_at"
        (refs[1]?.getD none)] }
  else { result := if timerFiredAt < committedAt then .fail else .pass, refs := refs }

/-- `draftOf` of commit-before-timer.ts. -/
def commitBeforeTimerDraft : ConditionDraft :=
  match view.callerTimeout, view.confirmation with
  | some timeout, some confirmation =>
    orderingDraft timeout.body.timeout.timerFiredAt confirmation.body.committedAt
      (commitBeforeTimerRefs view)
  | timeout, _ =>
    if timeout.isSome && provenNoCommit view then
      { result := .fail
        refs := commitBeforeTimerRefs view ++ [view.journals.provider.ref, view.ledgerState.ref] }
    else
      { result := .indeterminate
        refs := commitBeforeTimerRefs view ++
          [view.journals.provider.ref, view.journals.caller.ref]
        reasons := unconfirmedReasons view }

theorem commitBeforeTimer_pass {view : TreatmentView}
    (h : (commitBeforeTimerDraft view).result = .pass) :
    ∃ timeout confirmation, view.callerTimeout = some timeout ∧
      view.confirmation = some confirmation ∧
      confirmation.body.committedAt < timeout.body.timeout.timerFiredAt := by
  unfold commitBeforeTimerDraft at h
  split at h
  · rename_i timeout confirmation htimeout hconfirmation
    unfold orderingDraft at h
    split at h
    · cases h
    · rename_i hne
      dsimp only at h
      split at h
      · cases h
      · rename_i hnot
        exact ⟨timeout, confirmation, htimeout, hconfirmation,
          lt_of_le_of_ne (not_lt.mp hnot) (Ne.symm hne)⟩
  · split at h <;> cases h

/-! ## BR-RUA-011 -/

/-- `APPLICATION_DEADLINE_NS`. -/
def applicationDeadlineNs : DecimalNs := 3000000000

def violatesTimerContract (timeout : RecordedTimeout) : Bool :=
  decide (timeout.elapsedNs < applicationDeadlineNs) || decide (timeout.arbiterWinner ≠ .timer) ||
    timeout.transportSettledAtClaim || decide (timeout.recordedAt < timeout.abortRequestedAt)

def TreatmentView.recordedOutcome : Option AttemptOutcome :=
  view.outcome.map fun found => found.body.outcome

/-- The reason that an attempt's outcome is not `TIMED_OUT`. -/
def outcomeReasonText (attempt : String) (outcome : Option AttemptOutcome) : String × String :=
  (if outcome.isNone then "EVENT_MISSING" else "OUTCOME_NOT_TIMED_OUT",
    "targeted attempt " ++ attempt ++ " has outcome " ++
      (outcome.map outcomeText).getD "(none)" ++ "; expected TIMED_OUT")

def correlationReason (timeout : EventOf CallerTimeout) : Option StructuredReason :=
  let attempt := uuidString timeout.body.correlation.attemptId
  match view.dispatch with
  | none =>
    some (reasonAt "BR-RUA-011" "EVENT_MISSING"
      ("no dispatch_started for targeted attempt " ++ attempt ++ "; expected the timeout's cause")
      view.journals.caller.ref)
  | some dispatch =>
    if !causedBy timeout.event dispatch.event ||
        decide (timeout.body.timeout.monotonicOriginEventId ≠ dispatch.event.record.eventId) then
      some (reasonAt "BR-RUA-011" "TIMEOUT_NOT_CORRELATED"
        ("caller_timeout_recorded names causation " ++
          String.intercalate ", " (timeout.event.record.causationEventIds.map uuidString) ++
          " and monotonic origin " ++
          uuidString timeout.body.timeout.monotonicOriginEventId ++
          "; expected dispatch_started " ++ uuidString dispatch.event.record.eventId ++
          " for both")
        (some (eventRef timeout.event)))
    else if view.recordedOutcome = some .timedOut then none
    else
      let text := outcomeReasonText attempt view.recordedOutcome
      some (reasonAt "BR-RUA-011" text.1 text.2 view.journals.caller.ref)

/-- What BR-RUA-011 cites. -/
def applicationTimeoutRefs : List (Option EvidenceRef) :=
  [refOf view.callerTimeout, refOf view.dispatch, refOf view.outcome, view.journals.caller.ref]

/-- `withoutTimeout`: an outcome without a timeout settled through transport. -/
def withoutTimeoutDraft : ConditionDraft :=
  match view.recordedOutcome with
  | some outcome =>
    if outcome ≠ .timedOut ∧ view.journals.caller.complete = true then
      { result := .fail, refs := applicationTimeoutRefs view }
    else missing
  | none => missing
where
  missing : ConditionDraft :=
    { result := .indeterminate
      refs := applicationTimeoutRefs view
      reasons := [missingAt .applicationTimeout view.journals.caller "EVENT_MISSING"
        ("no caller_timeout_recorded for targeted attempt " ++ shownAttempt view ++
          "; expected the timer's durable event")] }

/-- `draftOf` of application-timeout.ts. -/
def applicationTimeoutDraft : ConditionDraft :=
  match view.callerTimeout with
  | none => withoutTimeoutDraft view
  | some timeout =>
    if violatesTimerContract timeout.body.timeout then
      { result := .fail, refs := applicationTimeoutRefs view }
    else
      match correlationReason view timeout with
      | none => { result := .pass, refs := applicationTimeoutRefs view }
      | some reason =>
        { result := .indeterminate, refs := applicationTimeoutRefs view, reasons := [reason] }

/-- What a passing BR-RUA-011 says. -/
structure TimedOutApplication (view : TreatmentView) (timeout : EventOf CallerTimeout) : Prop where
  elapsed : 3000000000 ≤ timeout.body.timeout.elapsedNs
  winner : timeout.body.timeout.arbiterWinner = .timer
  unsettled : timeout.body.timeout.transportSettledAtClaim = false
  dispatched : ∃ dispatch, view.dispatch = some dispatch ∧
    dispatch.event.record.eventId ∈ timeout.event.record.causationEventIds ∧
    timeout.body.timeout.monotonicOriginEventId = dispatch.event.record.eventId
  outcome : view.recordedOutcome = some .timedOut

theorem withoutTimeoutDraft_not_pass : (withoutTimeoutDraft view).result ≠ .pass := by
  unfold withoutTimeoutDraft
  split
  · split <;> exact PreservationVerdict.noConfusion
  · exact PreservationVerdict.noConfusion

theorem timerContract_kept {timeout : RecordedTimeout}
    (h : violatesTimerContract timeout = false) :
    3000000000 ≤ timeout.elapsedNs ∧ timeout.arbiterWinner = .timer ∧
      timeout.transportSettledAtClaim = false := by
  simp only [violatesTimerContract, Bool.or_eq_false_iff, decide_eq_false_iff_not, not_lt, ne_eq,
    not_not] at h
  exact ⟨h.1.1.1, h.1.1.2, h.1.2⟩

theorem correlationReason_none {view : TreatmentView} {timeout : EventOf CallerTimeout}
    (h : correlationReason view timeout = none) :
    (∃ dispatch, view.dispatch = some dispatch ∧
      dispatch.event.record.eventId ∈ timeout.event.record.causationEventIds ∧
      timeout.body.timeout.monotonicOriginEventId = dispatch.event.record.eventId) ∧
    view.recordedOutcome = some .timedOut := by
  unfold correlationReason at h
  dsimp only at h
  split at h
  · cases h
  · rename_i dispatch hdispatch
    split at h
    · cases h
    · rename_i hcorrelated
      split at h
      · rename_i houtcome
        rw [Bool.or_eq_true, not_or] at hcorrelated
        obtain ⟨hcause, horigin⟩ := hcorrelated
        refine ⟨⟨dispatch, hdispatch, ?_, ?_⟩, houtcome⟩
        · simpa [causedBy] using hcause
        · simpa using horigin
      · cases h

theorem applicationTimeout_pass {view : TreatmentView}
    (h : (applicationTimeoutDraft view).result = .pass) :
    ∃ timeout, view.callerTimeout = some timeout ∧ TimedOutApplication view timeout := by
  unfold applicationTimeoutDraft at h
  split at h
  · exact absurd h (withoutTimeoutDraft_not_pass view)
  · rename_i timeout htimeout
    refine ⟨timeout, htimeout, ?_⟩
    split at h
    · cases h
    · rename_i hcontract
      split at h
      · rename_i hreason
        obtain ⟨hdispatch, houtcome⟩ := correlationReason_none hreason
        obtain ⟨helapsed, hwinner, hunsettled⟩ := timerContract_kept (Bool.not_eq_true _ ▸ hcontract)
        exact ⟨helapsed, hwinner, hunsettled, hdispatch, houtcome⟩
      · cases h

/-! ## BR-RUA-012 -/

def stoppedStates : List TreatmentState := [.committedWaiting, .timeoutSignalled]

def chainResolves : Bool :=
  match view.release, view.observation, view.signal, view.callerTimeout with
  | some release, some observation, some signal, some timeout =>
    causedBy release.event observation.event && causedBy observation.event signal.event &&
      causedBy signal.event timeout.event
  | _, _, _, _ => false

def providerStopped : Bool :=
  view.observation.isNone && view.release.isNone && view.safetyReleases.isEmpty &&
    view.journals.provider.complete &&
    match view.snapshot with
    | none => false
    | some located =>
      located.record.consistentRead &&
        match located.record.treatment with
        | none => false
        | some item => stoppedStates.contains item.state

def safetyReleasedReason (condition : ConditionId) (view : TreatmentView) (expected : String) :
    StructuredReason :=
  reasonAt condition.text "SAFETY_RELEASED"
    (toString view.safetyReleases.length ++ " treatment_safety_released event(s); expected " ++
      expected)
    (refOf view.safetyReleases.head?)

/-- `missingReasons` of BR-RUA-012. -/
def stoppedReasons : List StructuredReason :=
  if view.journals.provider.ref.isNone then
    [incompleteArtifactReason view.journals.provider "BR-RUA-012"]
  else if !view.safetyReleases.isEmpty then
    [safetyReleasedReason .continuedExecution view
      "the barrier released only by the observed signal"]
  else
    [reasonAt "BR-RUA-012" "EVENT_MISSING"
      ("observation " ++ shownId view.observation ++ " and release " ++ shownId view.release ++
        ", and no consistent snapshot of a waiting barrier; expected both events, or a complete " ++
        "journal and snapshot showing the provider stopped")
      view.journals.provider.ref]

/-- The events BR-RUA-012 cites. -/
def continuedExecutionRefs : List (Option EvidenceRef) :=
  [refOf view.release, refOf view.observation, refOf view.signal, refOf view.callerTimeout] ++
    refsOf view.safetyReleases

def chainReason : StructuredReason :=
  reasonAt "BR-RUA-012" "CAUSAL_CHAIN_UNRESOLVED"
    ("the chain from release " ++ shownId view.release ++ " through observation " ++
      shownId view.observation ++ ", signal " ++ shownId view.signal ++ " and caller timeout " ++
      shownId view.callerTimeout ++ " does not resolve; expected each to name the next as its " ++
      "cause")
    (refOf view.release)

/-- `draftOf` of continued-execution.ts. -/
def continuedExecutionDraft : ConditionDraft :=
  if view.observation.isSome && view.release.isSome then
    if chainResolves view then { result := .pass, refs := continuedExecutionRefs view }
    else
      { result := .indeterminate
        refs := continuedExecutionRefs view
        reasons := [chainReason view] }
  else if providerStopped view then
    { result := .fail
      refs := continuedExecutionRefs view ++
        [view.journals.provider.ref, view.snapshotState.ref] }
  else
    { result := .indeterminate
      refs := continuedExecutionRefs view ++ [view.journals.provider.ref]
      reasons := stoppedReasons view }

/-! ## BR-RUA-013 -/

def expectedCausation (commit timeout : IndexedEvent) : List Uuid4 :=
  [commit.record.eventId, timeout.record.eventId].insertionSort (· ≤ ·)

def joinMatches (signal : EventOf RecordedSignal) (commit : EventOf CommittedTransaction)
    (timeout : EventOf CallerTimeout) : Bool :=
  decide (signal.event.record.causationEventIds = expectedCausation commit.event timeout.event) &&
    decide (signal.body.attemptId = timeout.body.correlation.attemptId) &&
    decide (signal.body.callerTimeoutEventId = timeout.event.record.eventId) &&
    decide (signal.body.providerCommitEventId = commit.event.record.eventId)

/-- `missingReason` of BR-RUA-013. -/
def joinMissingReason : StructuredReason :=
  let controller := view.journals.controller
  if view.signal.isNone && controller.ref.isNone then
    incompleteArtifactReason controller "BR-RUA-013"
  else
    let missing :=
      (if view.signal.isNone then ["timeout_signal_recorded"] else []) ++
      (if view.commit.isNone then ["the unique targeted provider_transaction_committed"] else []) ++
      (if view.callerTimeout.isNone then ["caller_timeout_recorded of the targeted attempt"] else [])
    reasonAt "BR-RUA-013" "EVENT_MISSING"
      (String.intercalate ", " missing ++ " absent; expected the signal and both its causes")
      (if view.signal.isNone then controller.ref else refOf view.signal)

/-- The events BR-RUA-013 cites. -/
def causalJoinRefs : List (Option EvidenceRef) :=
  [refOf view.signal, refOf view.commit, refOf view.callerTimeout, refOf view.observation] ++
    refsOf view.conflicts

/-- `draftOf` of causal-join.ts. -/
def causalJoinDraft : ConditionDraft :=
  if !view.conflicts.isEmpty then { result := .fail, refs := causalJoinRefs view }
  else
    match view.signal, view.commit, view.callerTimeout with
    | some signal, some commit, some timeout =>
      if !joinMatches signal commit timeout then { result := .fail, refs := causalJoinRefs view }
      else
        match view.observation with
        | none =>
          { result := .indeterminate
            refs := causalJoinRefs view ++ [view.journals.provider.ref]
            reasons := [reasonAt "BR-RUA-013" "EVENT_MISSING"
              ("no treatment_timeout_observed for signal " ++
                uuidString signal.event.record.eventId ++
                "; expected the provider to observe it")
              view.journals.provider.ref] }
        | some observation =>
          { result :=
              if causedBy observation.event signal.event &&
                  decide (observation.body.signalEventId = signal.event.record.eventId) then
                .pass
              else .fail
            refs := causalJoinRefs view }
    | _, _, _ =>
      { result := .indeterminate
        refs := causalJoinRefs view ++ [view.journals.controller.ref]
        reasons := [joinMissingReason view] }

/-- What a passing BR-RUA-013 says. -/
structure SignalJoins (signal : EventOf RecordedSignal) (commit : EventOf CommittedTransaction)
    (timeout : EventOf CallerTimeout) (observation : EventOf ObservedTimeout) : Prop where
  causes : signal.event.record.causationEventIds =
    [commit.event.record.eventId, timeout.event.record.eventId].insertionSort (· ≤ ·)
  attempt : signal.body.attemptId = timeout.body.correlation.attemptId
  timeoutEvent : signal.body.callerTimeoutEventId = timeout.event.record.eventId
  commitEvent : signal.body.providerCommitEventId = commit.event.record.eventId
  observed : signal.event.record.eventId ∈ observation.event.record.causationEventIds

theorem causalJoin_pass {view : TreatmentView} (h : (causalJoinDraft view).result = .pass) :
    ∃ commit timeout signal observation, view.commit = some commit ∧
      view.callerTimeout = some timeout ∧ view.signal = some signal ∧
      view.observation = some observation ∧ SignalJoins signal commit timeout observation := by
  unfold causalJoinDraft at h
  split at h
  · cases h
  · split at h
    · rename_i signal commit timeout hsignal hcommit htimeout
      split at h
      · cases h
      · rename_i hjoin
        rw [Bool.not_eq_true, Bool.not_eq_false'] at hjoin
        simp only [joinMatches, Bool.and_eq_true, decide_eq_true_eq] at hjoin
        split at h
        · cases h
        · rename_i observation hobservation
          dsimp only at h
          split at h
          · rename_i hobserved
            rw [Bool.and_eq_true] at hobserved
            refine ⟨commit, timeout, signal, observation, hcommit, htimeout, hsignal, hobservation,
              hjoin.1.1.1, hjoin.1.1.2, hjoin.1.2, hjoin.2, ?_⟩
            simpa [causedBy] using hobserved.1
          · cases h
    · cases h

/-! ## BR-RUA-014 -/

def releaseMissingReason : StructuredReason :=
  missingAt .controlledRelease view.journals.provider "EVENT_MISSING"
    "no treatment_response_released for the targeted commit; expected the controlled release"

/-- The events BR-RUA-014 cites. -/
def controlledReleaseRefs : List (Option EvidenceRef) :=
  [refOf view.release, refOf view.observation] ++ refsOf view.safetyReleases

/-- `draftOf` of controlled-release.ts. -/
def controlledReleaseDraft : ConditionDraft :=
  let provider := view.journals.provider
  let refs := controlledReleaseRefs view
  if !view.safetyReleases.isEmpty then
    { result := .indeterminate
      refs := refs
      reasons := [safetyReleasedReason .controlledRelease view "none"] }
  else
    match view.release, view.observation with
    | none, _ =>
      { result := .indeterminate
        refs := refs ++ [provider.ref]
        reasons := [releaseMissingReason view] }
    | some release, none =>
      if provider.complete then { result := .fail, refs := refs ++ [provider.ref] }
      else
        { result := .indeterminate
          refs := refs
          reasons := [reasonAt "BR-RUA-014" "EVENT_MISSING"
            ("release " ++ uuidString release.event.record.eventId ++
              " has no treatment_timeout_observed in an incomplete provider journal; expected " ++
              "the observation")
            provider.ref] }
    | some release, some observation =>
      if !causedBy release.event observation.event then { result := .fail, refs := refs }
      else if release.event.record.sourceInstanceId ≠
          observation.event.record.sourceInstanceId then
        { result := .indeterminate
          refs := refs
          reasons := [reasonAt "BR-RUA-014" "SOURCE_INSTANCE_MISMATCH"
            ("release instance " ++ uuidString release.event.record.sourceInstanceId ++
              " differs from observation instance " ++
              uuidString observation.event.record.sourceInstanceId ++
              "; expected one provider instance to order them")
            (some (eventRef release.event))] }
      else
        { result :=
            if observation.event.record.sourceSequence < release.event.record.sourceSequence then
              .pass
            else .fail
          refs := refs }

/-- What a passing BR-RUA-014 says. -/
structure ReleasedAfter (observation : EventOf ObservedTimeout) (release : EventOf CommitRefs) :
    Prop where
  caused : observation.event.record.eventId ∈ release.event.record.causationEventIds
  sameInstance : release.event.record.sourceInstanceId = observation.event.record.sourceInstanceId
  later : observation.event.record.sourceSequence < release.event.record.sourceSequence

theorem controlledRelease_pass {view : TreatmentView}
    (h : (controlledReleaseDraft view).result = .pass) :
    ∃ release observation, view.release = some release ∧ view.observation = some observation ∧
      ReleasedAfter observation release := by
  unfold controlledReleaseDraft at h
  dsimp only at h
  split at h
  · cases h
  · split at h
    · cases h
    · split at h <;> cases h
    · rename_i release observation hrelease hobservation
      refine ⟨release, observation, hrelease, hobservation, ?_⟩
      split at h
      · cases h
      · rename_i hcause
        split at h
        · cases h
        · rename_i hinstance
          dsimp only at h
          split at h
          · rename_i hsequence
            exact ⟨by simpa [causedBy] using hcause, not_not.mp hinstance, hsequence⟩
          · cases h

/-! ## BR-RUA-015 -/

/-- The caller events of the attempt that carry the commit's transaction. -/
def carryingEvents : List IndexedEvent :=
  match view.commit with
  | none => []
  | some commit =>
    view.attemptEvents.filter fun event =>
      decide (event.record.body.identity .providerTransactionId =
        some commit.body.providerTransactionId)

/-- The events BR-RUA-015 cites. -/
def noCallerSuccessRefs : List (Option EvidenceRef) :=
  [refOf view.outcome] ++ ((carryingEvents view).map fun event => some (eventRef event)) ++
    refsOf view.lateSettlements

def outcomeReason : StructuredReason :=
  let text := outcomeReasonText (shownAttempt view) view.recordedOutcome
  missingAt .noCallerSuccess view.journals.caller text.1 text.2

/-- `draftOf` of no-caller-success.ts. -/
def noCallerSuccessDraft : ConditionDraft :=
  if view.recordedOutcome = some .succeeded ∨ carryingEvents view ≠ [] then
    { result := .fail, refs := noCallerSuccessRefs view }
  else if view.recordedOutcome = some .timedOut then
    { result := .pass, refs := noCallerSuccessRefs view }
  else
    { result := .indeterminate
      refs := noCallerSuccessRefs view ++ [view.journals.caller.ref]
      reasons := [outcomeReason view] }

theorem noCallerSuccess_pass {view : TreatmentView}
    (h : (noCallerSuccessDraft view).result = .pass) :
    carryingEvents view = [] := by
  unfold noCallerSuccessDraft at h
  split at h
  · cases h
  · rename_i hnone
    exact not_not.mp (not_or.mp hnone).2

/-! ## All six -/

def conditionDraft : ConditionId → ConditionDraft
  | .commitBeforeTimer => commitBeforeTimerDraft view
  | .applicationTimeout => applicationTimeoutDraft view
  | .continuedExecution => continuedExecutionDraft view
  | .causalJoin => causalJoinDraft view
  | .controlledRelease => controlledReleaseDraft view
  | .noCallerSuccess => noCallerSuccessDraft view

def evaluateCondition (condition : ConditionId) : ConditionResult :=
  finishCondition condition (conditionDraft view condition) view.findings

def conditionIds : List ConditionId :=
  [.commitBeforeTimer, .applicationTimeout, .continuedExecution, .causalJoin, .controlledRelease,
    .noCallerSuccess]

def evaluateTreatmentConditions : List ConditionResult :=
  conditionIds.map (evaluateCondition view)

theorem conditionDraft_pass {view : TreatmentView} {condition : ConditionId}
    (h : (evaluateCondition view condition).result = .pass) :
    (conditionDraft view condition).result = .pass := by
  have hconclusive : (evaluateCondition view condition).result ≠ .indeterminate := by
    rw [h]
    decide
  exact (finishCondition_result hconclusive).symm.trans h

end RefundStudy.Fidelity
