/-
  The treatment barrier of the targeted call (`refund-provider/treatment-barrier.ts`,
  `barrier-decision.ts`, `provider-state-port.ts`).

  The wait has no bound in the source; `awaitRelease` takes fuel.
-/
import RefundStudy.Journal.Writer

set_option autoImplicit false

namespace RefundStudy.Provider

open Foundation Record RefundStudy.Runtime Journal

/-! ## Reading control items -/

def undecodableItem : String := "UndecodableItem"

/-- A store error, an undecodable item, or the decoded item. -/
def readControl {View : Type} (key : ItemKey) (decode : ItemOf key → Except String View) :
    Async (Except String (Option View)) := do
  let read ← await (.getConsistent key)
  match read with
  | .error code => pure (.error code)
  | .ok none => pure (.ok none)
  | .ok (some item) =>
    match decode item with
    | .ok view => pure (.ok (some view))
    | .error code => pure (.error code)

/-- The version must be a positive safe integer; the other checks of the source are the types of the
item's members. -/
def decodeTreatmentItem (item : TreatmentItem) : Except String TreatmentItem :=
  if isPositiveSafeInteger item.version then .ok item else .error undecodableItem

def loadTreatment : Async (Except String (Option TreatmentItem)) :=
  readControl .treatment decodeTreatmentItem

/-! ## The decision (`barrier-decision.ts`) -/

inductive BarrierStep where
  | observe (signalEventId : Uuid4)
  | release (observedEventId : Uuid4)
  | safetyRelease (fromState : CommittedWaitState)
  | externallyReleased (cause : SafetyReleaseCause)
  | keepWaiting
  | unexpectedState

/-- A signal state without the signal identity cannot be observed. -/
def signalledStep (treatment : TreatmentItem) (deadlinePassed : Bool) : BarrierStep :=
  match treatment.signalEventId with
  | some signalEventId => .observe signalEventId
  | none => if deadlinePassed then .safetyRelease .timeoutSignalled else .keepWaiting

def observedStep (treatment : TreatmentItem) : BarrierStep :=
  match treatment.observedEventId with
  | none => .unexpectedState
  | some observedEventId => .release observedEventId

/-- What the barrier does next after one read of the treatment item, which is `none` when the read
failed. -/
def decideBarrierStep (treatment : Option TreatmentItem) (ownCommitId : Uuid4)
    (elapsedSinceCommitNs safetyReleaseNs : Int) : BarrierStep :=
  let deadlinePassed := decide (safetyReleaseNs ≤ elapsedSinceCommitNs)
  match treatment with
  | none => if deadlinePassed then .safetyRelease .committedWaiting else .keepWaiting
  | some item =>
    if item.providerCommitId ≠ some ownCommitId then .unexpectedState
    else match item.state with
      | .timeoutSignalled => signalledStep item deadlinePassed
      | .timeoutObserved => observedStep item
      | .committedWaiting =>
        if deadlinePassed then .safetyRelease .committedWaiting else .keepWaiting
      | .safetyReleased =>
        .externallyReleased (item.safetyReleaseCause.getD .cleanupRequest)
      | .armed => .unexpectedState
      | .responseReleased => .unexpectedState

/-! ## Transitions (`provider-state-port.ts`) -/

/-- `TRANSITION_JOURNAL_ACTION_INDEX`: the put follows the treatment update. -/
def transitionJournalActionIndex : Nat := 1

inductive BarrierTarget where
  | timeoutObserved
  | responseReleased
  | safetyReleased

def BarrierTarget.toTreatmentState : BarrierTarget → TreatmentState
  | .timeoutObserved => .timeoutObserved
  | .responseReleased => .responseReleased
  | .safetyReleased => .safetyReleased

/-- The attribute that receives the id of the transition's event. -/
inductive EventIdAttribute where
  | observedEventId
  | releaseEventId

/-- The attributes a transition sets besides `state`. -/
def transitionSet (target : BarrierTarget) (eventIdAttribute : Option EventIdAttribute)
    (eventId : Uuid4) (item : TreatmentItem) : TreatmentItem :=
  let item := match target with
    | .safetyReleased => { item with safetyReleaseCause := some .safetyDeadline }
    | _ => item
  match eventIdAttribute with
  | none => item
  | some .observedEventId => { item with observedEventId := some eventId }
  | some .releaseEventId => { item with releaseEventId := some eventId }

/-- A conditional update of the treatment item: attributes set, version
incremented.  Every condition below fails on an absent item, so the empty item
is never updated. -/
def updateTreatment (condition : Option TreatmentItem → Bool)
    (set : TreatmentItem → TreatmentItem) : WriteAction ItemOf where
  key := .treatment
  condition := condition
  effect := fun existing =>
    let item := existing.getD { state := .armed, version := 0 }
    { set item with version := item.version + 1 }

/-- `transition`: the treatment update (condition: `state = from`) and its
journal put, atomically. -/
def transitionActions (fromState : CommittedWaitState) (target : BarrierTarget)
    (eventIdAttribute : Option EventIdAttribute) (event : JournalEntry) :
    List (WriteAction ItemOf) :=
  [updateTreatment (attributeEquals TreatmentItem.state fromState.toTreatmentState)
    (fun item => { transitionSet target eventIdAttribute event.event.eventId item with
      state := target.toTreatmentState }),
   journalPutAction event]

/-! ## The barrier -/

structure BarrierCommit where
  providerCommitId : Uuid4
  providerCallId : Uuid4
  attemptId : Uuid4
  commitEventId : Uuid4
  commitAckNs : Nat

def BarrierCommit.refs (commit : BarrierCommit) : CommitRefs :=
  ⟨commit.providerCommitId, commit.providerCallId, commit.attemptId⟩

inductive BarrierOutcome where
  | released
  | safetyReleased
  | externallyReleased (cause : SafetyReleaseCause)

inductive TransitionResult where
  | applied (eventId : Uuid4)
  | superseded (current : TreatmentItem)
  | notApplied

/-- What one turn of the wait leads to: its end, another read, or a decision
from a known image. -/
inductive Performed where
  | ended (outcome : BarrierOutcome)
  | read
  | decideFrom (treatment : TreatmentItem)

/-- The barrier's mutable members: its journal and the last wait state it read
or wrote. -/
structure TreatmentBarrier where
  journal : JournalWriter
  waitState : CommittedWaitState := .committedWaiting

/-- `BARRIER_TIMING` (OR-RUA-002). -/
def pollIntervalMs : Nat := 250

/-- `BARRIER_TIMING` (OR-RUA-002). -/
def safetyReleaseMs : Nat := 15000

def safetyReleaseNs : Int := safetyReleaseMs * 1000000

/-- `isCommittedWaitState`, with the wait state it proves. -/
def committedWaitState? : TreatmentState → Option CommittedWaitState
  | .committedWaiting => some .committedWaiting
  | .timeoutSignalled => some .timeoutSignalled
  | .timeoutObserved => some .timeoutObserved
  | _ => none

def latestWaitState (state : Option TreatmentState) (previous : CommittedWaitState) :
    CommittedWaitState :=
  (state.bind committedWaitState?).getD previous

/-- Refuses a reading that precedes its origin. -/
def elapsedNs (origin now : Nat) : Except Thrown DecimalNs :=
  if now < origin then .error .rangeError else .ok (now - origin)

/-- A failed condition returns the item to decide from. -/
def notAppliedResult (outcome : WriteOutcome ItemOf) : Except Thrown TransitionResult :=
  match outcome with
  | .conditionFailed _ none => .error (.providerFault .treatmentUnexpected .afterCommit)
  | .conditionFailed _ (some ⟨.treatment, item⟩) =>
    match decodeTreatmentItem item with
    | .ok current => .ok (.superseded current)
    | .error _ => .error (.providerFault .stateUnreadable .afterCommit)
  | .conditionFailed _ (some _) => .error (.providerFault .stateUnreadable .afterCommit)
  | _ => .ok .notApplied

namespace TreatmentBarrier

/-- `#readTreatment`: a failed read is no news. -/
def readTreatment : Async (Option TreatmentItem) := do
  let read ← loadTreatment
  match read with
  | .ok item => pure item
  | .error _ => pure none

variable (barrier : TreatmentBarrier)

def transition (fromState : CommittedWaitState)
    (target : BarrierTarget) (eventIdAttribute : Option EventIdAttribute)
    (body : EventBody) (causation : List Uuid4) :
    Async (TransitionResult × TreatmentBarrier) := do
  let (prepared, journal) ← barrier.journal.prepare body causation
  match prepared with
  | .stopped _ => throwThe Thrown (.providerFault .journalStopped .afterCommit)
  | .prepared put => do
    let token ← await .nextId
    let outcome ← await
      (.transact (transitionActions fromState target eventIdAttribute put) token)
    let (confirmed, journal) ← sync (journal.confirm put outcome transitionJournalActionIndex)
    match confirmed with
    | .stopped _ => throwThe Thrown (.providerFault .transitionAmbiguous .afterCommit)
    | .appended _ =>
      pure (.applied put.event.eventId,
        ⟨journal, latestWaitState (some target.toTreatmentState) barrier.waitState⟩)
    | .notApplied _ _ => do
      let result ← sync (notAppliedResult outcome)
      pure (result, ⟨journal, barrier.waitState⟩)

def waitOnePoll : Async Performed := do
  let _ ← await (.sleep pollIntervalMs)
  pure .read

/-- `#continueAfter`: a superseded transition decides at once from the returned
item, one that changed nothing waits one poll first. -/
def continueAfter : TransitionResult → Async Performed
  | .superseded current => pure (.decideFrom current)
  | _ => waitOnePoll

variable (commit : BarrierCommit)

def release (observedEventId : Uuid4) : Async (Performed × TreatmentBarrier) := do
  let (released, barrier) ← barrier.transition .timeoutObserved .responseReleased
    (some .releaseEventId) (.treatmentResponseReleased commit.refs) [observedEventId]
  match released with
  | .applied _ => pure (.ended .released, barrier)
  | other => do
    let next ← continueAfter other
    pure (next, barrier)

/-- `#observe`: releases immediately after the observation, without another read. -/
def observe (signalEventId : Uuid4) : Async (Performed × TreatmentBarrier) := do
  let (observed, barrier) ← barrier.transition .timeoutSignalled .timeoutObserved
    (some .observedEventId) (.treatmentTimeoutObserved commit.refs signalEventId)
    [signalEventId]
  match observed with
  | .applied eventId => barrier.release commit eventId
  | other => do
    let next ← continueAfter other
    pure (next, barrier)

def safetyReleaseBody (cause : SafetyReleaseCause)
    (fromState : CommittedWaitState) : Async EventBody := do
  let now ← await .monotonicNow
  let elapsed ← sync (elapsedNs commit.commitAckNs now)
  pure (.treatmentSafetyReleased cause fromState commit.refs elapsed)

def safetyRelease (fromState : CommittedWaitState) : Async (Performed × TreatmentBarrier) := do
  let body ← safetyReleaseBody commit .safetyDeadline fromState
  let (released, barrier) ← barrier.transition fromState .safetyReleased none body
    [commit.commitEventId]
  match released with
  | .applied _ => pure (.ended .safetyReleased, barrier)
  | other => do
    let next ← continueAfter other
    pure (next, barrier)

/-- `#recordExternalRelease`: the state already moved; the provider records that
its own wait ended. -/
def recordExternalRelease (cause : SafetyReleaseCause) : Async (Performed × TreatmentBarrier) := do
  let body ← safetyReleaseBody commit cause barrier.waitState
  let (appended, journal) ← barrier.journal.append body [commit.commitEventId]
  match appended with
  | .stopped _ => throwThe Thrown (.providerFault .journalStopped .afterCommit)
  | .appended _ =>
    pure (.ended (.externallyReleased cause), ⟨journal, barrier.waitState⟩)

def perform : BarrierStep → Async (Performed × TreatmentBarrier)
  | .keepWaiting => do
    let next ← waitOnePoll
    pure (next, barrier)
  | .observe signalEventId => barrier.observe commit signalEventId
  | .release observedEventId => barrier.release commit observedEventId
  | .safetyRelease fromState => barrier.safetyRelease commit fromState
  | .externallyReleased cause => barrier.recordExternalRelease commit cause
  | .unexpectedState => throwThe Thrown (.providerFault .treatmentUnexpected .afterCommit)

/-- The image one turn decides from: a known one, or a fresh read. -/
def turnImage : Option TreatmentItem → Async (Option TreatmentItem)
  | some treatment => pure (some treatment)
  | none => readTreatment

/-- The turns of the wait, at most `fuel` of them. -/
def awaitRelease (commit : BarrierCommit) :
    Nat → TreatmentBarrier → Option TreatmentItem → Async BarrierOutcome
  | 0, _, _ => outOfFuel
  | fuel + 1, barrier, known => do
    let treatment ← turnImage known
    let barrier : TreatmentBarrier :=
      ⟨barrier.journal, latestWaitState (treatment.map TreatmentItem.state) barrier.waitState⟩
    let now ← await .monotonicNow
    let step := decideBarrierStep treatment commit.providerCommitId
      ((now : Int) - commit.commitAckNs) safetyReleaseNs
    let (performed, barrier) ← barrier.perform commit step
    match performed with
    | .ended outcome => pure outcome
    | .read => awaitRelease commit fuel barrier none
    | .decideFrom current => awaitRelease commit fuel barrier (some current)

end TreatmentBarrier

end RefundStudy.Provider
