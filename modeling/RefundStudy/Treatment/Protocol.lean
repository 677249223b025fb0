/-
  The treatment protocol of one trial partition.

  Any number of provider calls, controller invocations and cleanup releases run over one partition
  that starts with an armed treatment, an empty ledger and an empty journal; they interleave at
  the granularity of their store calls.
-/
import RefundStudy.Treatment.Parties

set_option autoImplicit false

namespace RefundStudy.Treatment

open Foundation Record RefundStudy.Runtime Journal
open Provider Controller Cleanup

variable {kind : JournalEvent → Prop} {item : TreatmentItem} {items : Items}

/-! ## The system -/

/-- What one process of the partition is.  The wait of a provider call is cut
after `fuel` turns. -/
inductive Party where
  | providerCall (fuel : Nat) (received : ReceivedCall)
  | controllerInvocation (record : StreamRecord)
  | cleanupRelease

inductive PartyResult where
  | response (response : ProviderRefundResponse)
  | outcome (outcome : ControllerOutcome)
  | release (outcome : BarrierReleaseOutcome)

def Party.program : Party → Async PartyResult
  | .providerCall fuel received => do
    let response ← handleCall fuel received
    pure (.response response)
  | .controllerInvocation record => do
    let outcome ← handle record
    pure (.outcome outcome)
  | .cleanupRelease => do
    let outcome ← requestSafetyRelease
    pure (.release outcome)

abbrev Partition (ι : Type) : Type :=
  Config ι Call Reply (World ι) (Except Runtime.Thrown PartyResult)

variable {ι : Type}

def start (party : ι → Party) (w : World ι) : Partition ι :=
  ⟨w, fun i => (party i).program.run⟩

/-- A partition nobody has touched: an armed treatment, no transaction, no event. -/
structure Armed (w : World ι) : Prop where
  treatment : w.items.lookup .treatment = some armedTreatment
  ledger : ∀ id, w.items.lookup (.ledger id) = none
  journal : ∀ key, w.items.lookup (.journal key) = none

theorem armedTreatment_wellFormed : WellFormed armedTreatment := by
  refine .inl ⟨by simp [armedTreatment], fun field => ?_⟩
  cases field <;> simp [idOf, armedTreatment, fieldsOf]

variable {w : World ι}

theorem Armed.no_event (h : Armed w) (key : JournalKey) (event : JournalEvent) :
    ¬ StoredAt w.items key event := by
  unfold StoredAt
  rw [h.journal key]
  simp

theorem Armed.no_transaction (h : Armed w) (id : Uuid4) (transaction : LedgerTransaction) :
    w.items.lookup (.ledger id) ≠ some transaction := by
  rw [h.ledger id]
  simp

theorem Armed.coherentWith (h : Armed w) : CoherentWith w armedTreatment where
  treatment := h.treatment
  formed := armedTreatment_wellFormed
  chain := by
    refine ⟨?_, ?_, ?_, ?_, fun key event hstored => absurd hstored (h.no_event key event)⟩ <;>
      exact fun key event hstored => absurd hstored (h.no_event key event)
  ledger := by
    refine ⟨?_, ?_, ?_, ?_, ?_⟩
    · exact fun id transaction hlookup => absurd hlookup (h.no_transaction id transaction)
    · exact fun key event _ hstored => absurd hstored (h.no_event key event)
    · exact fun key event _ _ _ _ hstored => absurd hstored (h.no_event key event)
    · exact fun id transaction hlookup => absurd hlookup (h.no_transaction id transaction)
    · exact fun _ id transaction _ _ hlookup => absurd hlookup (h.no_transaction id transaction)

/-- What a returned result says about the world. -/
def Returned (i : ι) : PartyResult → World ι → Prop
  | .response response => Answered i response
  | _ => fun _ => True

theorem Armed.allSafe (h : Armed w) (party : ι → Party) :
    AllSafe (machine ι).answers (fun i => Moves i) (fun i => OnOk (Returned i))
      (start party w) := by
  intro i
  have hcoherent : Coherent w := ⟨armedTreatment, h.coherentWith⟩
  have hsourced : Sourced w := fun key event hstored => absurd hstored (h.no_event key event)
  change Abides i (Returned i) (party i).program w
  cases party i with
  | providerCall fuel received =>
    have hbefore : Uncommitted i w :=
      ⟨hcoherent, fun id transaction hlookup => absurd hlookup (h.no_transaction id transaction)⟩
    refine SafeOk.bind (handleCall_spec hbefore hsourced) ?_
    exact fun response w₁ hanswered =>
      SafeOk.pure fun w' h' => (answered_stable response).env h' hanswered
  | controllerInvocation record =>
    refine SafeOk.bind (handle_spec hcoherent hsourced) ?_
    exact fun outcome w₁ _ => SafeOk.pure fun _ _ => trivial
  | cleanupRelease =>
    refine SafeOk.bind (attemptRelease_spec maxReleaseAttempts) ?_
    exact fun outcome w₁ _ => SafeOk.pure fun _ _ => trivial

/-! ## What coherence says -/

/-- A `provider_transaction_committed` event is stored under this key. -/
def CommitEventAt (w : World ι) (key : JournalKey) (commit : CommittedTransaction) : Prop :=
  ∃ event, StoredAt w.items key event ∧ event.body = .providerTransactionCommitted commit

/-- The ledger item is for a call whose id this process drew. -/
def Contributed (i : ι) (w : World ι) (providerTransactionId : Uuid4) : Prop :=
  ∃ transaction, w.items.lookup (.ledger providerTransactionId) = some transaction ∧
    w.drawn transaction.providerCallId = some i

theorem WellFormed.commitEventId_iff (h : WellFormed item) :
    item.commitEventId.isSome = true ↔ item.providerCommitId.isSome = true := by
  have hfields : ∀ state, TreatmentIdField.commitEventId ∈ fieldsOf state ↔
      TreatmentIdField.providerCommitId ∈ fieldsOf state := by
    intro state
    cases state <;> simp [fieldsOf, commitFields]
  have hcarries : ∀ state, Carries item state →
      (item.commitEventId.isSome = true ↔ item.providerCommitId.isSome = true) := fun state h =>
    (h .commitEventId).trans ((hfields state).trans (h .providerCommitId).symm)
  rcases h with ⟨-, hstate⟩ | ⟨-, state, -, hstate⟩
  · exact hcarries _ hstate
  · exact hcarries _ hstate

/-- A safety-released item left a nonterminal state, so it carries no release. -/
theorem WellFormed.releaseEventId_eq_none (h : WellFormed item)
    (hstate : item.state = .safetyReleased) : item.releaseEventId = none := by
  rcases h with ⟨hne, -⟩ | ⟨-, state, hwait, hcarries⟩
  · exact absurd hstate hne
  · refine hcarries.eq_none .releaseEventId ?_
    cases state <;> simp_all [fieldsOf, commitFields, nonterminalTreatmentStates]

theorem CoherentWith.targeted (h : CoherentWith w item) :
    (∀ key commit key' commit', CommitEventAt w key commit → commit.targeted = true →
      CommitEventAt w key' commit' → commit'.targeted = true → key = key') ∧
    ((∃ key commit, CommitEventAt w key commit ∧ commit.targeted = true) ↔
      item.providerCommitId.isSome = true) ∧
    (∀ key commit, CommitEventAt w key commit → commit.targeted = true →
      item.providerCommitId = some commit.providerCommitId) := by
  have hrecords := h.chain.committed
  refine ⟨?_, ?_, ?_⟩
  · rintro key commit key' commit' ⟨event, hstored, hbody⟩ htarget ⟨event', hstored', hbody'⟩ htarget'
    cases hid : item.commitEventId with
    | none =>
      rw [hid] at hrecords
      exact absurd ⟨commit, hbody, htarget⟩ (hrecords key event hstored)
    | some id =>
      rw [hid] at hrecords
      obtain ⟨key₀, event₀, -, -, -, hunique⟩ := hrecords
      rw [hunique key event hstored ⟨commit, hbody, htarget⟩,
        hunique key' event' hstored' ⟨commit', hbody', htarget'⟩]
  · rw [← h.formed.commitEventId_iff]
    cases hid : item.commitEventId with
    | none =>
      rw [hid] at hrecords
      refine iff_of_false ?_ (by simp)
      rintro ⟨key, commit, ⟨event, hstored, hbody⟩, htarget⟩
      exact hrecords key event hstored ⟨commit, hbody, htarget⟩
    | some id =>
      rw [hid] at hrecords
      obtain ⟨key₀, event₀, hstored, ⟨commit, hbody, htarget⟩, -, -⟩ := hrecords
      exact iff_of_true ⟨key₀, commit, ⟨event₀, hstored, hbody⟩, htarget⟩ rfl
  · rintro key commit ⟨event, hstored, hbody⟩ htarget
    have hagrees := h.chain.agrees key event hstored
    simp only [Agrees, hbody] at hagrees
    exact (hagrees htarget).1

def OnlyEvent (items : Items) (kind : JournalEvent → Prop) (event : JournalEvent) : Prop :=
  kind event ∧ ∃ key, StoredAt items key event ∧
    ∀ key' event', StoredAt items key' event' → kind event' → key' = key ∧ event' = event

theorem Records.only {id : Uuid4}
    (h : Records items kind (some id)) : ∃ event, OnlyEvent items kind event ∧
      event.eventId = id := by
  obtain ⟨key, event, hstored, hkind, hid, hunique⟩ := h
  refine ⟨event, ⟨hkind, key, hstored, fun key' event' hstored' hkind' => ?_⟩, hid⟩
  obtain rfl := hunique key' event' hstored' hkind'
  exact ⟨rfl, hstored'.unique hstored⟩

theorem Records.eq_some_iff {recorded : Option Uuid4}
    (h : Records items kind recorded) (id : Uuid4) :
    recorded = some id ↔ ∃ key event, StoredAt items key event ∧ kind event ∧
      event.eventId = id := by
  cases recorded with
  | none =>
    refine iff_of_false (by simp) ?_
    rintro ⟨key, event, hstored, hkind, -⟩
    exact h key event hstored hkind
  | some found =>
    obtain ⟨only, ⟨hkind, key, hstored, hunique⟩, rfl⟩ := h.only
    constructor
    · intro hid
      exact ⟨key, only, hstored, hkind, Option.some.inj hid⟩
    · rintro ⟨key', event', hstored', hkind', rfl⟩
      obtain ⟨-, rfl⟩ := hunique key' event' hstored' hkind'
      rfl

theorem Records.unique {recorded : Option Uuid4}
    (h : Records items kind recorded) {key key' : JournalKey} {event event' : JournalEvent}
    (hstored : StoredAt items key event) (hkind : kind event)
    (hstored' : StoredAt items key' event') (hkind' : kind event') : key = key' := by
  cases recorded with
  | none => exact absurd hkind (h key event hstored)
  | some id =>
    obtain ⟨only, ⟨-, key₀, -, hunique⟩, -⟩ := h.only
    rw [(hunique key event hstored hkind).1, (hunique key' event' hstored' hkind').1]

theorem CoherentWith.released_chain (h : CoherentWith w item)
    (hstate : item.state = .responseReleased) :
    ∃ commitEvent signalEvent observedEvent releasedEvent signal,
      OnlyEvent w.items IsTargetedCommit commitEvent ∧
      OnlyEvent w.items IsSignal signalEvent ∧
      signalEvent.body = .timeoutSignalRecorded signal ∧
      signalEvent.causationEventIds.Pairwise (· < ·) ∧
      (∀ id, id ∈ signalEvent.causationEventIds ↔
        id = commitEvent.eventId ∨ id = signal.callerTimeoutEventId) ∧
      item.targetedAttemptId = some signal.attemptId ∧
      OnlyEvent w.items IsObserved observedEvent ∧
      observedEvent.causationEventIds = [signalEvent.eventId] ∧
      OnlyEvent w.items IsReleased releasedEvent ∧
      releasedEvent.causationEventIds = [observedEvent.eventId] := by
  -- a released item carries all ten identities
  have hcarries := h.formed.carries (by simp [hstate])
  have hid : ∀ field, ∃ id, idOf item field = some id := by
    intro field
    refine Option.isSome_iff_exists.mp ((hcarries field).mpr ?_)
    rw [hstate]
    cases field <;> simp [fieldsOf, commitFields]
  obtain ⟨commitEventId, hcommitId⟩ := hid .commitEventId
  obtain ⟨signalEventId, hsignalId⟩ := hid .signalEventId
  obtain ⟨observedEventId, hobservedId⟩ := hid .observedEventId
  obtain ⟨releaseEventId, hreleaseId⟩ := hid .releaseEventId
  change item.commitEventId = _ at hcommitId
  change item.signalEventId = _ at hsignalId
  change item.observedEventId = _ at hobservedId
  change item.releaseEventId = _ at hreleaseId
  obtain ⟨commitEvent, hcommit, rfl⟩ := (hcommitId ▸ h.chain.committed).only
  obtain ⟨signalEvent, hsignal, rfl⟩ := (hsignalId ▸ h.chain.signalled).only
  obtain ⟨observedEvent, hobserved, rfl⟩ := (hobservedId ▸ h.chain.observed).only
  obtain ⟨releasedEvent, hreleased, rfl⟩ := (hreleaseId ▸ h.chain.released).only
  obtain ⟨⟨signal, hsignalBody⟩, signalKey, hsignalAt, -⟩ := id hsignal
  obtain ⟨⟨_, observedSignal, hobservedBody⟩, observedKey, hobservedAt, -⟩ := id hobserved
  obtain ⟨⟨_, hreleasedBody⟩, releasedKey, hreleasedAt, -⟩ := id hreleased
  -- what the three events say agrees with the item
  have hsays := h.chain.agrees signalKey signalEvent hsignalAt
  simp only [Agrees, hsignalBody] at hsays
  obtain ⟨hcommitEvent, -, hattempt, -, hcausation⟩ := hsays
  have hcommitEventId := Option.some.inj (hcommitId.symm.trans hcommitEvent)
  have hobservedSays := h.chain.agrees observedKey observedEvent hobservedAt
  simp only [Agrees, hobservedBody] at hobservedSays
  obtain ⟨hobservedSignal, hobservedCausation⟩ := hobservedSays
  obtain rfl := Option.some.inj (hsignalId.symm.trans hobservedSignal)
  have hreleasedSays := h.chain.agrees releasedKey releasedEvent hreleasedAt
  simp only [Agrees, hreleasedBody] at hreleasedSays
  obtain ⟨releasedObserved, hreleasedObserved, hreleasedCausation⟩ := hreleasedSays
  obtain rfl := Option.some.inj (hobservedId.symm.trans hreleasedObserved)
  refine ⟨commitEvent, signalEvent, observedEvent, releasedEvent, signal, hcommit, hsignal,
    hsignalBody, ?_, ?_, hattempt, hobserved, ?_, hreleased, ?_⟩
  · rw [hcausation]
    exact causationIds_ascending _
  · intro id
    rw [hcausation, mem_causationIds, Controller.mem_sortedPair, hcommitEventId]
  · rw [hobservedCausation, causationIds_singleton]
  · rw [hreleasedCausation, causationIds_singleton]

section Runs

variable [DecidableEq ι] {party : ι → Party} {w₀ : World ι} {cfg cfg' : Partition ι}

theorem Armed.reachable (harmed : Armed w₀)
    (hreach : Reachable (machine ι).answers (start party w₀) cfg) :
    ∃ item, CoherentWith cfg.world item ∧ Later armedTreatment item := by
  have hseen : Seen armedTreatment cfg.world :=
    Reachable.invariant hreach (harmed.allSafe party)
      (fun i w w' hmove => seen_stable armedTreatment i w w' hmove)
      ⟨armedTreatment, harmed.coherentWith, .refl⟩
  exact hseen

theorem Armed.moves (harmed : Armed w₀)
    (hreach : Reachable (machine ι).answers (start party w₀) cfg)
    (hstep : Step (machine ι).answers cfg cfg') :
    ∃ i, Moves i cfg.world cfg'.world ∧ ∀ j, j ≠ i → cfg'.programs j = cfg.programs j :=
  (hstep.keeps_safe (Reachable.safe hreach (harmed.allSafe party))).2

/-! ## How the treatment item moves -/

/-- In every reachable state there is a treatment item; it was reached from the
armed one by transitions along the state graph, every step leaves it or makes one
such transition, and a terminal item is never changed again. -/
theorem treatment_moves_along_edges (harmed : Armed w₀)
    (hreach : Reachable (machine ι).answers (start party w₀) cfg) :
    ∃ item, cfg.world.items.lookup .treatment = some item ∧
      Relation.ReflTransGen Advances armedTreatment item ∧
      (∀ cfg', Step (machine ι).answers cfg cfg' →
        ∃ item', cfg'.world.items.lookup .treatment = some item' ∧
          (item' = item ∨ Advances item item')) ∧
      (Terminal item.state → ∀ cfg', Reachable (machine ι).answers cfg cfg' →
        cfg'.world.items.lookup .treatment = some item) := by
  obtain ⟨item, hitem, hlater⟩ := harmed.reachable hreach
  refine ⟨item, hitem.treatment, hlater, ?_, ?_⟩
  · intro cfg' hstep
    obtain ⟨i, hmove, -⟩ := harmed.moves hreach hstep
    obtain ⟨item', hitem', hadvances⟩ := hitem.step hmove
    exact ⟨item', hitem'.treatment, hadvances⟩
  · intro hterminal cfg' hmore
    -- the item was seen terminal, so it still is the item
    have hsafe := Reachable.safe hreach (harmed.allSafe party)
    obtain ⟨item', hitem', hlater'⟩ : Seen item cfg'.world :=
      Reachable.invariant hmore hsafe (fun i w w' hmove => seen_stable item i w w' hmove)
        ⟨item, hitem, .refl⟩
    obtain rfl := hlater'.eq_of_terminal hterminal
    exact hitem'.treatment

/-! ## The ledger and the commit events -/

/-- In every reachable state ledger items and commit events correspond one to one
with equal members; at most one event is targeted, there is one exactly when the
treatment item carries a commit id, and the three then share it; a process
contributes at most one ledger item; and one that answered `SUCCEEDED` exactly
the one it names. -/
theorem ledger_matches_commit_events (harmed : Armed w₀)
    (hreach : Reachable (machine ι).answers (start party w₀) cfg) :
    (∀ id transaction, cfg.world.items.lookup (.ledger id) = some transaction →
      transaction.providerTransactionId = id ∧
      ∃ key commit, CommitEventAt cfg.world key commit ∧ transaction = ledgerOfCommit commit) ∧
    (∀ key commit, CommitEventAt cfg.world key commit →
      cfg.world.items.lookup (.ledger commit.providerTransactionId) =
        some (ledgerOfCommit commit)) ∧
    (∀ key commit key' commit', CommitEventAt cfg.world key commit →
      CommitEventAt cfg.world key' commit' →
      commit.providerTransactionId = commit'.providerTransactionId → key = key') ∧
    (∃ item, cfg.world.items.lookup .treatment = some item ∧
      (∀ key commit key' commit', CommitEventAt cfg.world key commit → commit.targeted = true →
        CommitEventAt cfg.world key' commit' → commit'.targeted = true → key = key') ∧
      ((∃ key commit, CommitEventAt cfg.world key commit ∧ commit.targeted = true) ↔
        item.providerCommitId.isSome = true) ∧
      (∀ key commit, CommitEventAt cfg.world key commit → commit.targeted = true →
        item.providerCommitId = some commit.providerCommitId)) ∧
    (∀ i id id', Contributed i cfg.world id → Contributed i cfg.world id' → id = id') ∧
    (∀ i providerCallId attemptId providerRequestId providerTransactionId,
      cfg.programs i = .ret (.ok (.response
        (.succeeded providerCallId attemptId providerRequestId providerTransactionId))) →
      ∀ id, Contributed i cfg.world id ↔ id = providerTransactionId) := by
  obtain ⟨item, hitem, -⟩ := harmed.reachable hreach
  have honce : ∀ i id id', Contributed i cfg.world id → Contributed i cfg.world id' → id = id' := by
    rintro i id id' ⟨transaction, hlookup, hdrawn⟩ ⟨transaction', hlookup', hdrawn'⟩
    exact hitem.ledger.once i id transaction id' transaction' hlookup hlookup' hdrawn hdrawn'
  refine ⟨?_, ?_, ?_, ⟨item, hitem.treatment, hitem.targeted⟩, honce, ?_⟩
  · intro id transaction hlookup
    obtain ⟨hid, key, event, commit, hstored, hbody, htransaction⟩ :=
      hitem.ledger.recorded id transaction hlookup
    exact ⟨hid, key, commit, ⟨event, hstored, hbody⟩, htransaction⟩
  · rintro key commit ⟨event, hstored, hbody⟩
    exact hitem.ledger.backed key event commit hstored hbody
  · rintro key commit key' commit' ⟨event, hstored, hbody⟩ ⟨event', hstored', hbody'⟩ hid
    exact hitem.ledger.unique key event commit key' event' commit' hstored hbody hstored' hbody' hid
  · intro i providerCallId attemptId providerRequestId providerTransactionId hret id
    have hreturned := Reachable.returned hreach (harmed.allSafe party) hret
    obtain ⟨hdrawn, transaction, hlookup, rfl⟩ := hreturned _ rfl
    have hown : Contributed i cfg.world providerTransactionId := ⟨transaction, hlookup, hdrawn⟩
    constructor
    · exact fun hid => honce i id providerTransactionId hid hown
    · rintro rfl
      exact hown

/-! ## The causal chain -/

/-- In every reachable state: behind a released response stand exactly one signal,
caused by the targeted commit and a caller event of the targeted attempt, exactly
one observation caused by it, exactly one release caused by that, and no safety
release; a safety-released item has no released response; and there is at most
one signal, which exists exactly when the item carries its id. -/
theorem released_response_has_causal_chain (harmed : Armed w₀)
    (hreach : Reachable (machine ι).answers (start party w₀) cfg) :
    ∃ item, cfg.world.items.lookup .treatment = some item ∧
      (item.state = .responseReleased →
        (∃ commitEvent signalEvent observedEvent releasedEvent signal,
          OnlyEvent cfg.world.items IsTargetedCommit commitEvent ∧
          OnlyEvent cfg.world.items IsSignal signalEvent ∧
          signalEvent.body = .timeoutSignalRecorded signal ∧
          signalEvent.causationEventIds.Pairwise (· < ·) ∧
          (∀ id, id ∈ signalEvent.causationEventIds ↔
            id = commitEvent.eventId ∨ id = signal.callerTimeoutEventId) ∧
          item.targetedAttemptId = some signal.attemptId ∧
          OnlyEvent cfg.world.items IsObserved observedEvent ∧
          observedEvent.causationEventIds = [signalEvent.eventId] ∧
          OnlyEvent cfg.world.items IsReleased releasedEvent ∧
          releasedEvent.causationEventIds = [observedEvent.eventId]) ∧
        ∀ key event, StoredAt cfg.world.items key event → ¬ IsSafetyReleased event) ∧
      (item.state = .safetyReleased →
        ∀ key event, StoredAt cfg.world.items key event → ¬ IsReleased event) ∧
      (∀ key event key' event', StoredAt cfg.world.items key event → IsSignal event →
        StoredAt cfg.world.items key' event' → IsSignal event' → key = key') ∧
      (∀ id, item.signalEventId = some id ↔
        ∃ key event, StoredAt cfg.world.items key event ∧ IsSignal event ∧
          event.eventId = id) := by
  obtain ⟨item, hitem, -⟩ := harmed.reachable hreach
  refine ⟨item, hitem.treatment, ?_, ?_, ?_, hitem.chain.signalled.eq_some_iff⟩
  · intro hstate
    refine ⟨hitem.released_chain hstate, ?_⟩
    rintro key event hstored ⟨cause, fromState, commit, elapsed, hbody⟩
    have hagrees := hitem.chain.agrees key event hstored
    simp only [Agrees, hbody] at hagrees
    rw [hstate] at hagrees
    cases hagrees
  · intro hstate key event hstored
    have hnone : item.releaseEventId = none := hitem.formed.releaseEventId_eq_none hstate
    have hrecords := hitem.chain.released
    rw [hnone] at hrecords
    exact hrecords key event hstored
  · intro key event key' event' hstored hkind hstored' hkind'
    exact hitem.chain.signalled.unique hstored hkind hstored' hkind'

/-- In every reachable state, whatever became of the item since: a stored signal is caused by a
stored targeted commit, a stored observation by a stored signal, a stored release by a stored
observation, and no safety release is stored beside a release. -/
theorem treatment_events_have_causes (harmed : Armed w₀)
    (hreach : Reachable (machine ι).answers (start party w₀) cfg) {key : JournalKey}
    {event : JournalEvent} (hstored : StoredAt cfg.world.items key event) :
    (IsSignal event → ∃ key' cause, StoredAt cfg.world.items key' cause ∧
      IsTargetedCommit cause ∧ cause.eventId ∈ event.causationEventIds) ∧
    (IsObserved event → ∃ key' cause, StoredAt cfg.world.items key' cause ∧
      IsSignal cause ∧ event.causationEventIds = [cause.eventId]) ∧
    (IsReleased event → (∃ key' cause, StoredAt cfg.world.items key' cause ∧
      IsObserved cause ∧ event.causationEventIds = [cause.eventId]) ∧
      ∀ key' other, StoredAt cfg.world.items key' other → ¬ IsSafetyReleased other) := by
  obtain ⟨item, hitem, -⟩ := harmed.reachable hreach
  have hagrees := hitem.chain.agrees key event hstored
  refine ⟨?_, ?_, ?_⟩
  · rintro ⟨signal, hbody⟩
    simp only [Agrees, hbody] at hagrees
    obtain ⟨key', cause, hcause, hkind, hid⟩ :=
      (hitem.chain.committed.eq_some_iff _).mp hagrees.1
    refine ⟨key', cause, hcause, hkind, ?_⟩
    rw [hagrees.2.2.2.2, mem_causationIds, Controller.mem_sortedPair]
    exact .inl hid
  · rintro ⟨commit, signalEventId, hbody⟩
    simp only [Agrees, hbody, causationIds_singleton] at hagrees
    obtain ⟨key', cause, hcause, hkind, rfl⟩ :=
      (hitem.chain.signalled.eq_some_iff _).mp hagrees.1
    exact ⟨key', cause, hcause, hkind, hagrees.2⟩
  · intro hreleased
    constructor
    · obtain ⟨commit, hbody⟩ := hreleased
      simp only [Agrees, hbody, causationIds_singleton] at hagrees
      obtain ⟨observedEventId, hobserved, hcauses⟩ := hagrees
      obtain ⟨key', cause, hcause, hkind, rfl⟩ :=
        (hitem.chain.observed.eq_some_iff _).mp hobserved
      exact ⟨key', cause, hcause, hkind, hcauses⟩
    · rintro key' other hother ⟨cause, fromState, commit, elapsed, hbody⟩
      have hsafety := hitem.chain.agrees key' other hother
      simp only [Agrees, hbody] at hsafety
      have hrecords := hitem.chain.released
      rw [hitem.formed.releaseEventId_eq_none hsafety] at hrecords
      exact hrecords key event hstored hreleased

end Runs

/-! ## A run to the released response

One provider call and one controller invocation: the call is targeted and waits,
the controller signals, the call observes the signal and releases its response. -/

def armedItems : Items :=
  (((∅ : Items).insert .config
      ⟨.conventional, .commitThenTimeout, "payment", safetyReleaseMs, pollIntervalMs⟩).insert
    (.payment "payment") ⟨"payment", "EUR"⟩).insert .treatment armedTreatment

def armedWorld : World Bool := ⟨armedItems, fun _ => none, []⟩

def callAndTimeout : Bool → Party
  | false => .providerCall 2 ⟨"digest", fun _ _ =>
    .accepted ⟨.conventional, 101, 102, "request", "payment", 500, "EUR"⟩⟩
  | true => .controllerInvocation ⟨fun _ => .ok ⟨201, 101⟩⟩

def releasedSchedule : List (Bool × Choice) :=
  (([.id 1, .readOk, .readOk, .readOk, .id 2, .id 3, .reading 0, .fate .answered,
    .id 4, .reading 0, .fate .answered, .id 5, .id 6, .reading 0, .id 7, .reading 0,
    .fate .answered, .reading 0, .reading 0, .id 8, .reading 0, .fate .answered,
    .readOk, .reading 0, .done] : List Choice).map fun choice => (false, choice)) ++
  (([.readOk, .readOk, .id 20, .id 21, .reading 0, .id 22,
    .fate .answered] : List Choice).map fun choice => (true, choice)) ++
  (([.readOk, .reading 0, .id 9, .reading 0, .id 10, .fate .answered,
    .id 11, .reading 0, .id 12, .fate .answered] : List Choice).map fun choice => (false, choice))

theorem armedWorld_armed : Armed armedWorld where
  treatment := rfl
  ledger := fun id => by
    simp only [armedWorld, armedItems]
    rw [AList.lookup_insert_ne (by simp), AList.lookup_insert_ne (by simp),
      AList.lookup_insert_ne (by simp), AList.lookup_empty]
  journal := fun key => by
    simp only [armedWorld, armedItems]
    rw [AList.lookup_insert_ne (by simp), AList.lookup_insert_ne (by simp),
      AList.lookup_insert_ne (by simp), AList.lookup_empty]

theorem releasedSchedule_plays : ∃ cfg,
    (start callAndTimeout armedWorld).play (machine Bool) releasedSchedule = some cfg ∧
    (cfg.world.items.lookup .treatment).map TreatmentItem.state = some .responseReleased ∧
    cfg.programs false = .ret (.ok (.response (.succeeded 1 101 102 6))) :=
  ⟨_, rfl, rfl, rfl⟩

theorem treatment_moves_along_edges_released : ∃ cfg : Partition Bool,
    (cfg.world.items.lookup .treatment).map TreatmentItem.state = some .responseReleased ∧
    ∀ cfg', Reachable (machine Bool).answers cfg cfg' →
      cfg'.world.items.lookup .treatment = cfg.world.items.lookup .treatment := by
  obtain ⟨cfg, hplay, hstate, -⟩ := releasedSchedule_plays
  obtain ⟨item, hitem, -, -, hterminal⟩ :=
    treatment_moves_along_edges armedWorld_armed (Config.play_reachable hplay)
  refine ⟨cfg, hstate, ?_⟩
  rw [hitem] at hstate ⊢
  exact hterminal (.inl (Option.some.inj hstate))

theorem ledger_matches_commit_events_succeeded : ∃ cfg : Partition Bool,
    cfg.programs false = .ret (.ok (.response (.succeeded 1 101 102 6))) ∧
    ∀ id, Contributed false cfg.world id ↔ id = 6 := by
  obtain ⟨cfg, hplay, -, hret⟩ := releasedSchedule_plays
  obtain ⟨-, -, -, -, -, hsucceeded⟩ :=
    ledger_matches_commit_events armedWorld_armed (Config.play_reachable hplay)
  exact ⟨cfg, hret, hsucceeded false 1 101 102 6 hret⟩

theorem released_response_has_causal_chain_released : ∃ cfg : Partition Bool,
    (cfg.world.items.lookup .treatment).map TreatmentItem.state = some .responseReleased ∧
    ∃ signalEvent observedEvent releasedEvent,
      OnlyEvent cfg.world.items IsSignal signalEvent ∧
      OnlyEvent cfg.world.items IsObserved observedEvent ∧
      observedEvent.causationEventIds = [signalEvent.eventId] ∧
      OnlyEvent cfg.world.items IsReleased releasedEvent ∧
      releasedEvent.causationEventIds = [observedEvent.eventId] := by
  obtain ⟨cfg, hplay, hstate, -⟩ := releasedSchedule_plays
  obtain ⟨item, hitem, hreleased, -⟩ :=
    released_response_has_causal_chain armedWorld_armed (Config.play_reachable hplay)
  refine ⟨cfg, hstate, ?_⟩
  rw [hitem] at hstate
  obtain ⟨⟨_, signalEvent, observedEvent, releasedEvent, _, -, hsignal, -, -, -, -, hobserved,
    hobservedCause, hrelease, hreleaseCause⟩, -⟩ := hreleased (Option.some.inj hstate)
  exact ⟨signalEvent, observedEvent, releasedEvent, hsignal, hobserved, hobservedCause, hrelease,
    hreleaseCause⟩

theorem treatment_events_have_causes_released : ∃ (cfg : Partition Bool) (key : JournalKey)
    (event : JournalEvent), StoredAt cfg.world.items key event ∧ IsReleased event ∧
      ∃ key' cause, StoredAt cfg.world.items key' cause ∧ IsObserved cause ∧
        event.causationEventIds = [cause.eventId] := by
  obtain ⟨cfg, hplay, hstate, -⟩ := releasedSchedule_plays
  have hreach := Config.play_reachable hplay
  obtain ⟨item, hitem, -⟩ := armedWorld_armed.reachable hreach
  rw [hitem.treatment] at hstate
  obtain ⟨_, _, _, event, _, -, -, -, -, -, -, -, -, ⟨hkind, key, hstored, -⟩, -⟩ :=
    hitem.released_chain (Option.some.inj hstate)
  exact ⟨cfg, key, event, hstored, hkind,
    ((treatment_events_have_causes armedWorld_armed hreach hstored).2.2 hkind).1⟩

end RefundStudy.Treatment
