/-
  The invariant of the treatment protocol.

  `Coherent` ties together the treatment item, the journal events that speak about it and the
  ledger; every move keeps it (`Coherent.step`).
-/
import RefundStudy.Treatment.Moves

set_option autoImplicit false

namespace RefundStudy.Treatment

open Foundation Record RefundStudy.Runtime Journal
open Provider (CommitPlanInput ledgerTransactionOf consumedTreatment commitEventBody)

variable {event : JournalEvent} {items : Items} {key : JournalKey}

/-! ## Stored events after an update -/

@[simp] theorem storedAt_insert_treatment {item : TreatmentItem}
    :
    StoredAt (items.insert .treatment item) key event ↔ StoredAt items key event := by
  unfold StoredAt
  rw [AList.lookup_insert_ne (by simp)]

@[simp] theorem storedAt_insert_ledger {id : Uuid4}
    {transaction : LedgerTransaction} :
    StoredAt (items.insert (.ledger id) transaction) key event ↔ StoredAt items key event := by
  unfold StoredAt
  rw [AList.lookup_insert_ne (by simp)]

/-- Putting an event at an absent key adds exactly that event. -/
theorem storedAt_insert_journal {key key' : JournalKey}
    {event event' : JournalEvent} (habsent : items.lookup (.journal key) = none) :
    StoredAt (items.insert (.journal key) event) key' event' ↔
      (key' = key ∧ event' = event) ∨ StoredAt items key' event' := by
  unfold StoredAt
  by_cases hkey : key' = key
  · subst hkey
    rw [AList.lookup_insert, habsent]
    simp [eq_comm]
  · rw [AList.lookup_insert_ne (by simpa using hkey)]
    simp [hkey]

/-! ## One event of a kind -/

/-- The stored events of a kind: none when no id is recorded, exactly one with
the recorded id otherwise. -/
def Records (items : Items) (kind : JournalEvent → Prop) : Option Uuid4 → Prop
  | none => ∀ key event, StoredAt items key event → ¬ kind event
  | some id => ∃ key event, StoredAt items key event ∧ kind event ∧ event.eventId = id ∧
      ∀ key' event', StoredAt items key' event' → kind event' → key' = key

/-- `Records` only reads the stored events. -/
theorem Records.congr {items items' : Items} {kind : JournalEvent → Prop} {id : Option Uuid4}
    (hsame : ∀ key event, StoredAt items' key event ↔ StoredAt items key event)
    (h : Records items kind id) : Records items' kind id := by
  cases id with
  | none => simpa only [Records, hsame] using h
  | some id => simpa only [Records, hsame] using h

/-- Another kind of event changes nothing; the first event of the kind records
its id. -/
theorem Records.put {kind : JournalEvent → Prop} {id id' : Option Uuid4}
    (h : Records items kind id)
    (habsent : items.lookup (.journal key) = none)
    (hcase : (¬ kind event ∧ id' = id) ∨
      (kind event ∧ id = none ∧ id' = some event.eventId)) :
    Records (items.insert (.journal key) event) kind id' := by
  rcases hcase with ⟨hnot, rfl⟩ | ⟨hkind, rfl, rfl⟩
  · cases id' with
    | none =>
      intro key' event' hstored
      rcases (storedAt_insert_journal habsent).mp hstored with ⟨-, rfl⟩ | hold
      · exact hnot
      · exact h key' event' hold
    | some id =>
      obtain ⟨key₀, event₀, hstored₀, hkind₀, hid, hunique⟩ := h
      refine ⟨key₀, event₀, (storedAt_insert_journal habsent).mpr (.inr hstored₀), hkind₀,
        hid, ?_⟩
      intro key' event' hstored hkind'
      rcases (storedAt_insert_journal habsent).mp hstored with ⟨-, rfl⟩ | hold
      · exact absurd hkind' hnot
      · exact hunique key' event' hold hkind'
  · refine ⟨key, event, (storedAt_insert_journal habsent).mpr (.inl ⟨rfl, rfl⟩), hkind, rfl, ?_⟩
    intro key' event' hstored hkind'
    rcases (storedAt_insert_journal habsent).mp hstored with ⟨rfl, -⟩ | hold
    · rfl
    · exact absurd hkind' (h key' event' hold)

/-! ## The four kinds the item records -/

/-- A targeted `provider_transaction_committed`. -/
def IsTargetedCommit (event : JournalEvent) : Prop :=
  ∃ commit, event.body = .providerTransactionCommitted commit ∧ commit.targeted = true

/-- A `timeout_signal_recorded`. -/
def IsSignal (event : JournalEvent) : Prop :=
  ∃ signal, event.body = .timeoutSignalRecorded signal

/-- A `treatment_timeout_observed`. -/
def IsObserved (event : JournalEvent) : Prop :=
  ∃ commit signalEventId, event.body = .treatmentTimeoutObserved commit signalEventId

/-- A `treatment_response_released`. -/
def IsReleased (event : JournalEvent) : Prop :=
  ∃ commit, event.body = .treatmentResponseReleased commit

/-- A `treatment_safety_released`. -/
def IsSafetyReleased (event : JournalEvent) : Prop :=
  ∃ cause fromState commit elapsed,
    event.body = .treatmentSafetyReleased cause fromState commit elapsed

/-- What a stored event says agrees with the treatment item. -/
def Agrees (item : TreatmentItem) (event : JournalEvent) : Prop :=
  match event.body with
  | .providerTransactionCommitted commit => commit.targeted = true →
      item.providerCommitId = some commit.providerCommitId ∧
      item.providerTransactionId = some commit.providerTransactionId ∧
      item.targetedAttemptId = some commit.attemptId
  | .timeoutSignalRecorded signal =>
    item.commitEventId = some signal.providerCommitEventId ∧
    item.providerCommitId = some signal.providerCommitId ∧
    item.targetedAttemptId = some signal.attemptId ∧
    item.signalCallerEventId = some signal.callerTimeoutEventId ∧
    event.causationEventIds = causationIds
      (Controller.sortedPair signal.providerCommitEventId signal.callerTimeoutEventId)
  | .treatmentTimeoutObserved _ signalEventId =>
    item.signalEventId = some signalEventId ∧
    event.causationEventIds = causationIds [signalEventId]
  | .treatmentResponseReleased _ => ∃ observedEventId,
      item.observedEventId = some observedEventId ∧
      event.causationEventIds = causationIds [observedEventId]
  | .treatmentSafetyReleased _ _ _ _ => item.state = .safetyReleased
  | _ => True

/-- Agreement survives a transition of the item: identities stay, and nothing
leaves `SAFETY_RELEASED`. -/
theorem Agrees.advances {item item' : TreatmentItem}
    (h : Agrees item event) (hadvances : Advances item item') : Agrees item' event := by
  have hkeeps := hadvances.keeps
  unfold Agrees at h ⊢
  split
  · rename_i commit hbody
    simp only [hbody] at h
    intro htargeted
    obtain ⟨h₁, h₂, h₃⟩ := h htargeted
    exact ⟨hkeeps .providerCommitId _ h₁, hkeeps .providerTransactionId _ h₂,
      hkeeps .targetedAttemptId _ h₃⟩
  · rename_i signal hbody
    simp only [hbody] at h
    obtain ⟨h₁, h₂, h₃, h₄, h₅⟩ := h
    exact ⟨hkeeps .commitEventId _ h₁, hkeeps .providerCommitId _ h₂,
      hkeeps .targetedAttemptId _ h₃, hkeeps .signalCallerEventId _ h₄, h₅⟩
  · rename_i commit signalEventId hbody
    simp only [hbody] at h
    exact ⟨hkeeps .signalEventId _ h.1, h.2⟩
  · rename_i commit hbody
    simp only [hbody] at h
    obtain ⟨observedEventId, hid, hcausation⟩ := h
    exact ⟨observedEventId, hkeeps .observedEventId _ hid, hcausation⟩
  · rename_i cause fromState commit elapsed hbody
    simp only [hbody] at h
    exact absurd (Or.inr h) hadvances.edge.not_terminal
  · trivial

structure Chain (items : Items) (item : TreatmentItem) : Prop where
  committed : Records items IsTargetedCommit item.commitEventId
  signalled : Records items IsSignal item.signalEventId
  observed : Records items IsObserved item.observedEventId
  released : Records items IsReleased item.releaseEventId
  agrees : ∀ key event, StoredAt items key event → Agrees item event

/-- `Chain` only reads the stored events. -/
theorem Chain.congr {items items' : Items} {item : TreatmentItem}
    (hsame : ∀ key event, StoredAt items' key event ↔ StoredAt items key event)
    (h : Chain items item) : Chain items' item where
  committed := h.committed.congr hsame
  signalled := h.signalled.congr hsame
  observed := h.observed.congr hsame
  released := h.released.congr hsame
  agrees := fun key event hstored => h.agrees key event ((hsame key event).mp hstored)

/-- One event is put while the item stays or advances: each kind records at most
this event, and the event agrees with the item after the step. -/
theorem Chain.put {item item' : TreatmentItem}
    (h : Chain items item)
    (habsent : items.lookup (.journal key) = none)
    (hitem : item' = item ∨ Advances item item') (hagrees : Agrees item' event)
    (hcommitted : (¬ IsTargetedCommit event ∧ item'.commitEventId = item.commitEventId) ∨
      (IsTargetedCommit event ∧ item.commitEventId = none ∧
        item'.commitEventId = some event.eventId))
    (hsignalled : (¬ IsSignal event ∧ item'.signalEventId = item.signalEventId) ∨
      (IsSignal event ∧ item.signalEventId = none ∧ item'.signalEventId = some event.eventId))
    (hobserved : (¬ IsObserved event ∧ item'.observedEventId = item.observedEventId) ∨
      (IsObserved event ∧ item.observedEventId = none ∧
        item'.observedEventId = some event.eventId))
    (hreleased : (¬ IsReleased event ∧ item'.releaseEventId = item.releaseEventId) ∨
      (IsReleased event ∧ item.releaseEventId = none ∧
        item'.releaseEventId = some event.eventId)) :
    Chain (items.insert (.journal key) event) item' where
  committed := h.committed.put habsent hcommitted
  signalled := h.signalled.put habsent hsignalled
  observed := h.observed.put habsent hobserved
  released := h.released.put habsent hreleased
  agrees := fun key' event' hstored => by
    rcases (storedAt_insert_journal habsent).mp hstored with ⟨-, rfl⟩ | hold
    · exact hagrees
    · rcases hitem with rfl | hadvances
      · exact h.agrees key' event' hold
      · exact (h.agrees key' event' hold).advances hadvances

theorem Chain.put_other {item : TreatmentItem}
    (h : Chain items item)
    (habsent : items.lookup (.journal key) = none) (hagrees : Agrees item event)
    (hcommitted : ¬ IsTargetedCommit event) (hsignalled : ¬ IsSignal event)
    (hobserved : ¬ IsObserved event) (hreleased : ¬ IsReleased event) :
    Chain (items.insert (.journal key) event) item :=
  h.put habsent (.inl rfl) hagrees (.inl ⟨hcommitted, rfl⟩) (.inl ⟨hsignalled, rfl⟩)
    (.inl ⟨hobserved, rfl⟩) (.inl ⟨hreleased, rfl⟩)

theorem Chain.advance {item item' : TreatmentItem}
    (h : Chain items item) (hformed : WellFormed item)
    (habsent : items.lookup (.journal key) = none) (hadvance : Advance event item item') :
    Chain (items.insert (.journal key) event) item' := by
  have hadvances := hadvance.advances hformed
  have hshape : item.state ≠ .safetyReleased → Carries item item.state := hformed.carries
  cases hadvance with
  | signalled hstate hbody hcausation hattempt hcommit hcommitEvent =>
    have hnone := (hshape (by simp [hstate])).eq_none .signalEventId
      (by simp [hstate, fieldsOf, commitFields])
    refine h.put habsent (.inr hadvances) ?_ (.inl ⟨?_, rfl⟩) (.inr ⟨⟨_, hbody⟩, hnone, rfl⟩)
      (.inl ⟨?_, rfl⟩) (.inl ⟨?_, rfl⟩)
    · simp only [Agrees, hbody]
      exact ⟨hcommitEvent, hcommit, hattempt, rfl, hcausation⟩
    all_goals simp [IsTargetedCommit, IsObserved, IsReleased, hbody]
  | observed hstate hbody hcausation hsignal =>
    have hnone := (hshape (by simp [hstate])).eq_none .observedEventId
      (by simp [hstate, fieldsOf, commitFields])
    refine h.put habsent (.inr hadvances) ?_ (.inl ⟨?_, rfl⟩) (.inl ⟨?_, rfl⟩)
      (.inr ⟨⟨_, _, hbody⟩, hnone, rfl⟩) (.inl ⟨?_, rfl⟩)
    · simp only [Agrees, hbody]
      exact ⟨hsignal, hcausation⟩
    all_goals simp [IsTargetedCommit, IsSignal, IsReleased, hbody]
  | released hstate hbody hcausation hobserved =>
    have hnone := (hshape (by simp [hstate])).eq_none .releaseEventId
      (by simp [hstate, fieldsOf, commitFields])
    refine h.put habsent (.inr hadvances) ?_ (.inl ⟨?_, rfl⟩) (.inl ⟨?_, rfl⟩)
      (.inl ⟨?_, rfl⟩) (.inr ⟨⟨_, hbody⟩, hnone, rfl⟩)
    · simp only [Agrees, hbody]
      exact ⟨_, hobserved, hcausation⟩
    all_goals simp [IsTargetedCommit, IsSignal, IsObserved, hbody]
  | safetyReleased hstate hbody =>
    refine h.put habsent (.inr hadvances) ?_ (.inl ⟨?_, rfl⟩) (.inl ⟨?_, rfl⟩)
      (.inl ⟨?_, rfl⟩) (.inl ⟨?_, rfl⟩)
    · simp [Agrees, hbody, safetyReleasedItem]
    all_goals simp [IsTargetedCommit, IsSignal, IsObserved, IsReleased, hbody]

/-! ## The ledger -/

def ledgerOfCommit (commit : CommittedTransaction) : LedgerTransaction where
  providerTransactionId := commit.providerTransactionId
  providerCommitId := commit.providerCommitId
  providerCallId := commit.providerCallId
  attemptId := commit.attemptId
  providerRequestId := commit.providerRequestId
  refundRequestId := commit.refundRequestId
  paymentId := commit.paymentId
  amountMinor := commit.amountMinor
  currency := commit.currency
  commitRequestedAt := commit.commitRequestedAt

/-- Ledger items and commit events correspond, and a process commits once. -/
structure LedgerMatches {ι : Type} (w : World ι) : Prop where
  recorded : ∀ id transaction, w.items.lookup (.ledger id) = some transaction →
    transaction.providerTransactionId = id ∧ ∃ key event commit, StoredAt w.items key event ∧
      event.body = .providerTransactionCommitted commit ∧ transaction = ledgerOfCommit commit
  backed : ∀ key event commit, StoredAt w.items key event →
    event.body = .providerTransactionCommitted commit →
    w.items.lookup (.ledger commit.providerTransactionId) = some (ledgerOfCommit commit)
  unique : ∀ key event commit key' event' commit', StoredAt w.items key event →
    event.body = .providerTransactionCommitted commit → StoredAt w.items key' event' →
    event'.body = .providerTransactionCommitted commit' →
    commit.providerTransactionId = commit'.providerTransactionId → key = key'
  called : ∀ id transaction, w.items.lookup (.ledger id) = some transaction →
    ∃ process, w.drawn transaction.providerCallId = some process
  once : ∀ process id transaction id' transaction',
    w.items.lookup (.ledger id) = some transaction →
    w.items.lookup (.ledger id') = some transaction' →
    w.drawn transaction.providerCallId = some process →
    w.drawn transaction'.providerCallId = some process → id = id'

theorem LedgerMatches.frame {ι : Type} {w w' : World ι} (h : LedgerMatches w)
    (hledger : ∀ id, w'.items.lookup (.ledger id) = w.items.lookup (.ledger id))
    (hkept : ∀ key event, StoredAt w.items key event → StoredAt w'.items key event)
    (hnew : ∀ key event commit, StoredAt w'.items key event →
      event.body = .providerTransactionCommitted commit → StoredAt w.items key event)
    (hdrawn : ∀ id process, w.drawn id = some process → w'.drawn id = some process) :
    LedgerMatches w' where
  recorded := fun id transaction hlookup => by
    rw [hledger] at hlookup
    obtain ⟨hid, key, event, commit, hstored, hbody, htransaction⟩ :=
      h.recorded id transaction hlookup
    exact ⟨hid, key, event, commit, hkept key event hstored, hbody, htransaction⟩
  backed := fun key event commit hstored hbody => by
    rw [hledger]
    exact h.backed key event commit (hnew _ _ _ hstored hbody) hbody
  unique := fun key event commit key' event' commit' hs hb hs' hb' hid =>
    h.unique key event commit key' event' commit' (hnew _ _ _ hs hb) hb (hnew _ _ _ hs' hb')
      hb' hid
  called := fun id transaction hlookup => by
    rw [hledger] at hlookup
    obtain ⟨process, hprocess⟩ := h.called id transaction hlookup
    exact ⟨process, hdrawn _ _ hprocess⟩
  once := fun process id transaction id' transaction' hl hl' hd hd' => by
    rw [hledger] at hl hl'
    obtain ⟨owner, howner⟩ := h.called id transaction hl
    obtain ⟨owner', howner'⟩ := h.called id' transaction' hl'
    obtain rfl : owner = process := Option.some.inj ((hdrawn _ _ howner).symm.trans hd)
    obtain rfl : owner' = owner := Option.some.inj ((hdrawn _ _ howner').symm.trans hd')
    exact h.once owner' id transaction id' transaction' hl hl' howner howner'

theorem LedgerMatches.insert_treatment {ι : Type} {w : World ι} (h : LedgerMatches w)
    (item : TreatmentItem) : LedgerMatches (w.withItems (w.items.insert .treatment item)) :=
  h.frame (fun _ => AList.lookup_insert_ne (by simp))
    (fun _ _ hs => storedAt_insert_treatment.mpr hs)
    (fun _ _ _ hs _ => storedAt_insert_treatment.mp hs) (fun _ _ hd => hd)

theorem lookup_committedItems_ledger {input : CommitPlanInput} {id : Uuid4}
    {transaction : LedgerTransaction}
    (h : (committedItems items input).lookup (.ledger id) = some transaction) :
    (id = input.identities.providerTransactionId ∧ transaction = ledgerTransactionOf input) ∨
      items.lookup (.ledger id) = some transaction := by
  by_cases hid : id = input.identities.providerTransactionId
  · subst hid
    rw [committedItems, AList.lookup_insert_ne (by simp), AList.lookup_insert] at h
    exact .inl ⟨rfl, (Option.some.inj h).symm⟩
  · rw [committedItems, AList.lookup_insert_ne (by simp),
      AList.lookup_insert_ne (by simpa using hid)] at h
    exact .inr h

theorem Commits.absent {ι : Type} {i : ι} {w : World ι} {input : CommitPlanInput}
    (h : Commits i w input) : (w.items.insert (.ledger input.identities.providerTransactionId)
      (ledgerTransactionOf input)).lookup (.journal input.commitEvent.key) = none := by
  rw [AList.lookup_insert_ne (by simp)]
  exact h.puts.absent

theorem LedgerMatches.commit {ι : Type} {i : ι} {w : World ι} {input : CommitPlanInput}
    (h : LedgerMatches w) (hcommits : Commits i w input) :
    LedgerMatches (w.withItems (committedItems w.items input)) := by
  have hstored : ∀ key event, StoredAt (committedItems w.items input) key event ↔
      (key = input.commitEvent.key ∧ event = input.commitEvent.event) ∨
        StoredAt w.items key event := by
    intro key event
    rw [committedItems, storedAt_insert_journal hcommits.absent, storedAt_insert_ledger]
  have hnewLedger : (committedItems w.items input).lookup
      (.ledger input.identities.providerTransactionId) = some (ledgerTransactionOf input) := by
    rw [committedItems, AList.lookup_insert_ne (by simp), AList.lookup_insert]
  have holdLedger : ∀ id, id ≠ input.identities.providerTransactionId →
      (committedItems w.items input).lookup (.ledger id) = w.items.lookup (.ledger id) := by
    intro id hne
    rw [committedItems, AList.lookup_insert_ne (by simp),
      AList.lookup_insert_ne (by simpa using hne)]
  -- no earlier event commits this transaction, for the ledger had no such item
  have hfresh : ∀ key event commit, StoredAt w.items key event →
      event.body = .providerTransactionCommitted commit →
      commit.providerTransactionId ≠ input.identities.providerTransactionId := by
    intro key event commit hstored₀ hbody heq
    have hbacked := h.backed key event commit hstored₀ hbody
    rw [heq, hcommits.ledger] at hbacked
    cases hbacked
  refine ⟨?_, ?_, ?_, ?_, ?_⟩
  · intro id transaction hlookup
    rcases lookup_committedItems_ledger hlookup with ⟨rfl, rfl⟩ | hold
    · exact ⟨rfl, _, _, _, (hstored _ _).mpr (.inl ⟨rfl, rfl⟩), hcommits.body, rfl⟩
    · obtain ⟨hid, key, event, commit, hstored₀, hbody, htransaction⟩ :=
        h.recorded id transaction hold
      exact ⟨hid, key, event, commit, (hstored _ _).mpr (.inr hstored₀), hbody, htransaction⟩
  · intro key event commit hat hbody
    rcases (hstored _ _).mp hat with ⟨rfl, rfl⟩ | hold
    · rw [hcommits.body] at hbody
      obtain rfl := EventBody.providerTransactionCommitted.inj hbody
      exact hnewLedger
    · rw [World.withItems_items, holdLedger _ (hfresh _ _ _ hold hbody)]
      exact h.backed key event commit hold hbody
  · intro key event commit key' event' commit' hat hbody hat' hbody' hid
    rcases (hstored _ _).mp hat with ⟨rfl, rfl⟩ | hold
    · rw [hcommits.body] at hbody
      obtain rfl := EventBody.providerTransactionCommitted.inj hbody
      rcases (hstored _ _).mp hat' with ⟨rfl, -⟩ | hold'
      · rfl
      · exact absurd hid.symm (hfresh _ _ _ hold' hbody')
    · rcases (hstored _ _).mp hat' with ⟨rfl, rfl⟩ | hold'
      · rw [hcommits.body] at hbody'
        obtain rfl := EventBody.providerTransactionCommitted.inj hbody'
        exact absurd hid (hfresh _ _ _ hold hbody)
      · exact h.unique _ _ _ _ _ _ hold hbody hold' hbody' hid
  · intro id transaction hlookup
    rcases lookup_committedItems_ledger hlookup with ⟨rfl, rfl⟩ | hold
    · exact ⟨i, hcommits.call⟩
    · exact h.called id transaction hold
  · intro process id transaction id' transaction' hl hl' hd hd'
    rcases lookup_committedItems_ledger hl with ⟨rfl, rfl⟩ | hold
    · obtain rfl : i = process := Option.some.inj (hcommits.call.symm.trans hd)
      rcases lookup_committedItems_ledger hl' with ⟨rfl, -⟩ | hold'
      · rfl
      · exact absurd hd' (hcommits.first id' transaction' hold')
    · rcases lookup_committedItems_ledger hl' with ⟨rfl, rfl⟩ | hold'
      · obtain rfl : i = process := Option.some.inj (hcommits.call.symm.trans hd')
        exact absurd hd (hcommits.first id transaction hold)
      · exact h.once process id transaction id' transaction' hold hold' hd hd'

/-! ## Coherence -/

structure CoherentWith {ι : Type} (w : World ι) (item : TreatmentItem) : Prop where
  treatment : w.items.lookup .treatment = some item
  formed : WellFormed item
  chain : Chain w.items item
  ledger : LedgerMatches w

def Coherent {ι : Type} (w : World ι) : Prop := ∃ item, CoherentWith w item

theorem LedgerMatches.put_other {ι : Type} {w : World ι}
    (h : LedgerMatches w)
    (hledger : ∀ id, items.lookup (.ledger id) = w.items.lookup (.ledger id))
    (hstored : ∀ key' event', StoredAt items key' event' ↔
      (key' = key ∧ event' = event) ∨ StoredAt w.items key' event')
    (hbody : ∀ commit, event.body ≠ .providerTransactionCommitted commit) :
    LedgerMatches (w.withItems items) := by
  refine h.frame hledger (fun _ _ hold => (hstored _ _).mpr (.inr hold)) ?_ (fun _ _ hd => hd)
  intro key' event' commit hat hcommit
  rcases (hstored _ _).mp hat with ⟨-, rfl⟩ | hold
  · exact absurd hcommit (hbody commit)
  · exact hold

theorem CoherentWith.put_other {ι : Type} {i : ι} {w : World ι} {item : TreatmentItem}
    {entry : JournalEntry} (h : CoherentWith w item) (hputs : Puts i w entry)
    (hagrees : Agrees item entry.event)
    (hbody : ∀ commit, entry.event.body ≠ .providerTransactionCommitted commit)
    (hsignalled : ¬ IsSignal entry.event) (hobserved : ¬ IsObserved entry.event)
    (hreleased : ¬ IsReleased entry.event) :
    CoherentWith (w.withItems (w.items.insert (.journal entry.key) entry.event)) item where
  treatment := by
    rw [World.withItems_items, AList.lookup_insert_ne (by simp)]
    exact h.treatment
  formed := h.formed
  chain := by
    refine h.chain.put_other hputs.absent hagrees ?_ hsignalled hobserved hreleased
    rintro ⟨commit, hcommit, -⟩
    exact hbody commit hcommit
  ledger := by
    have hstored : ∀ key event, StoredAt (w.items.insert (.journal entry.key) entry.event) key
        event ↔ (key = entry.key ∧ event = entry.event) ∨ StoredAt w.items key event :=
      fun _ _ => storedAt_insert_journal hputs.absent
    exact h.ledger.put_other (fun id => AList.lookup_insert_ne (by simp)) hstored hbody

theorem consumedItem_advances {input : CommitPlanInput} {item : TreatmentItem}
    (hformed : WellFormed item) (harmed : item.state = .armed) :
    Advances item (consumedItem input item) := by
  have hshape := hformed.carries (by simp [harmed])
  refine ⟨harmed ▸ Edge.commit, rfl, fun field id hid => ?_⟩
  have hnone := hshape.eq_none field (by simp [harmed, fieldsOf])
  rw [hnone] at hid
  cases hid

/-- The item a targeted commit leaves carries the six commit identities. -/
theorem consumedItem_wellFormed {input : CommitPlanInput} {item : TreatmentItem}
    (hformed : WellFormed item) (harmed : item.state = .armed) :
    WellFormed (consumedItem input item) := by
  have hshape := hformed.carries (by simp [harmed])
  refine .inl ⟨by simp [consumedItem, consumedTreatment], fun field => ?_⟩
  have hnone := hshape.eq_none field (by simp [harmed, fieldsOf])
  cases field <;> simp_all [idOf, consumedItem, consumedTreatment, fieldsOf, commitFields]

/-- Every move keeps the partition coherent, and the treatment item is unchanged
or one transition further. -/
theorem CoherentWith.step {ι : Type} {i : ι} {w w' : World ι} {item : TreatmentItem}
    (h : CoherentWith w item) (hmove : Moves i w w') :
    ∃ item', CoherentWith w' item' ∧ (item' = item ∨ Advances item item') := by
  cases hmove with
  | same => exact ⟨item, h, .inl rfl⟩
  | drew hfresh =>
    refine ⟨item, ⟨h.treatment, h.formed, h.chain, ?_⟩, .inl rfl⟩
    exact h.ledger.frame (fun _ => rfl) (fun _ _ hs => hs) (fun _ _ _ hs _ => hs)
      (fun _ _ hd => World.draw_drawn_of_some hfresh hd)
  | @appended entry hputs hinert =>
    refine ⟨item, h.put_other hputs ?_ ?_ ?_ ?_ ?_, .inl rfl⟩
    · unfold Agrees
      split <;> simp_all [Inert]
    · intro commit hbody
      simp [hbody, Inert] at hinert
    · rintro ⟨signal, hbody⟩
      simp [hbody, Inert] at hinert
    · rintro ⟨commit, signalEventId, hbody⟩
      simp [hbody, Inert] at hinert
    · rintro ⟨commit, hbody⟩
      simp [hbody, Inert] at hinert
  | noted hputs hbody htreatment hstate =>
    obtain rfl := Option.some.inj (h.treatment.symm.trans htreatment)
    refine ⟨item, h.put_other hputs ?_ ?_ ?_ ?_ ?_, .inl rfl⟩
    · simpa [Agrees, hbody] using hstate
    all_goals simp [IsSignal, IsObserved, IsReleased, hbody]
  | @committed input hcommits hkind =>
    have hbody := hcommits.body
    rw [hkind] at hbody
    refine ⟨item, ⟨?_, h.formed, ?_, h.ledger.commit hcommits⟩, .inl rfl⟩
    · rw [World.withItems_items, committedItems, AList.lookup_insert_ne (by simp),
        AList.lookup_insert_ne (by simp)]
      exact h.treatment
    · refine (h.chain.congr fun _ _ => storedAt_insert_ledger).put_other hcommits.absent ?_ ?_ ?_
        ?_ ?_
      all_goals simp [Agrees, IsTargetedCommit, IsSignal, IsObserved, IsReleased, hbody,
        commitEventBody]
  | @consumed input item₀ hcommits hkind htreatment harmed =>
    obtain rfl := Option.some.inj (h.treatment.symm.trans htreatment)
    have hadvances : Advances item (consumedItem input item) :=
      consumedItem_advances h.formed harmed
    have hnone := (h.formed.carries (by simp [harmed])).eq_none .commitEventId
      (by simp [harmed, fieldsOf])
    have hbody := hcommits.body
    rw [hkind] at hbody
    refine ⟨_, ⟨AList.lookup_insert _, consumedItem_wellFormed h.formed harmed, ?_, ?_⟩,
      .inr hadvances⟩
    · refine Chain.congr (fun _ _ => storedAt_insert_treatment) ?_
      refine (h.chain.congr fun _ _ => storedAt_insert_ledger).put hcommits.absent (.inr hadvances)
        ?_ (.inr ⟨⟨_, hbody, by simp [commitEventBody]⟩, hnone, rfl⟩) (.inl ⟨?_, rfl⟩)
        (.inl ⟨?_, rfl⟩) (.inl ⟨?_, rfl⟩)
      · simp [Agrees, hbody, commitEventBody, consumedItem, consumedTreatment]
      all_goals simp [IsSignal, IsObserved, IsReleased, hbody]
    · exact (h.ledger.commit hcommits).insert_treatment _
  | @advanced entry item₀ item' hputs htreatment hadvance =>
    obtain rfl := Option.some.inj (h.treatment.symm.trans htreatment)
    have habsent : (w.items.insert .treatment item').lookup (.journal entry.key) = none := by
      rw [AList.lookup_insert_ne (by simp)]
      exact hputs.absent
    refine ⟨item', ⟨?_, hadvance.wellFormed h.formed, ?_, ?_⟩,
      .inr (hadvance.advances h.formed)⟩
    · rw [World.withItems_items, AList.lookup_insert_ne (by simp), AList.lookup_insert]
    · exact (h.chain.congr fun _ _ => storedAt_insert_treatment).advance h.formed habsent
        hadvance
    · have hstored : ∀ key event, StoredAt ((w.items.insert .treatment item').insert
          (.journal entry.key) entry.event) key event ↔
          (key = entry.key ∧ event = entry.event) ∨ StoredAt w.items key event := by
        intro key event
        rw [storedAt_insert_journal habsent, storedAt_insert_treatment]
      refine h.ledger.put_other (fun id => ?_) hstored ?_
      · rw [AList.lookup_insert_ne (by simp), AList.lookup_insert_ne (by simp)]
      · intro commit hcommit
        cases hadvance <;> simp_all
  | @cleaned item₀ htreatment hwait =>
    obtain rfl := Option.some.inj (h.treatment.symm.trans htreatment)
    have hadvances : Advances item (safetyReleasedItem item .cleanupRequest) :=
      ⟨.safety hwait, rfl, fun field id hid => by cases field <;> exact hid⟩
    -- no event is put: the recorded identities are the old ones
    have hchain : Chain w.items (safetyReleasedItem item .cleanupRequest) :=
      ⟨h.chain.committed, h.chain.signalled, h.chain.observed, h.chain.released,
        fun key event hs => (h.chain.agrees key event hs).advances hadvances⟩
    refine ⟨_, ⟨AList.lookup_insert _, safetyReleasedItem_wellFormed h.formed hwait,
      hchain.congr fun _ _ => storedAt_insert_treatment, h.ledger.insert_treatment _⟩,
      .inr hadvances⟩

theorem Coherent.step {ι : Type} {i : ι} {w w' : World ι} (h : Coherent w)
    (hmove : Moves i w w') : Coherent w' := by
  obtain ⟨item, hitem⟩ := h
  obtain ⟨item', hitem', -⟩ := hitem.step hmove
  exact ⟨item', hitem'⟩

end RefundStudy.Treatment
