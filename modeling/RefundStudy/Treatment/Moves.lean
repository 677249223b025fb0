/-
  The treatment protocol as atomic moves.

  Whatever they do, one atomic step of theirs is one of `Moves`: it changes nothing, draws an id,
  appends an event that says nothing about the treatment, commits a transaction, or advances the
  treatment item together with the event that records it.
-/
import RefundStudy.Journal.Discipline
import RefundStudy.Provider.RefundProvider
import RefundStudy.Controller.TreatmentController

set_option autoImplicit false

namespace RefundStudy.Treatment

open Foundation Record RefundStudy.Runtime Journal
open Provider (CommitPlanInput ledgerTransactionOf consumedTreatment commitEventBody)

/-! ## The state graph -/

/-- The edges of the treatment: the chain to `RESPONSE_RELEASED`, and a safety
release from every nonterminal state. -/
inductive Edge : TreatmentState → TreatmentState → Prop where
  | commit : Edge .armed .committedWaiting
  | signal : Edge .committedWaiting .timeoutSignalled
  | observe : Edge .timeoutSignalled .timeoutObserved
  | release : Edge .timeoutObserved .responseReleased
  | safety {state : TreatmentState} (hwait : state ∈ nonterminalTreatmentStates) :
      Edge state .safetyReleased

def Terminal (state : TreatmentState) : Prop :=
  state = .responseReleased ∨ state = .safetyReleased

theorem Edge.not_terminal {state next : TreatmentState} (h : Edge state next) :
    ¬ Terminal state := by
  cases h with
  | safety hwait => rintro (rfl | rfl) <;> simp [nonterminalTreatmentStates] at hwait
  | commit | signal | observe | release => simp [Terminal]

/-! ## The identities of the treatment item -/

/-- `TREATMENT_ID_FIELDS`. -/
inductive TreatmentIdField where
  | targetedAttemptId
  | providerRequestId
  | providerCallId
  | providerCommitId
  | providerTransactionId
  | commitEventId
  | signalEventId
  | signalCallerEventId
  | observedEventId
  | releaseEventId
  deriving DecidableEq

variable (item : TreatmentItem)

def idOf : TreatmentIdField → Option Uuid4
  | .targetedAttemptId => item.targetedAttemptId
  | .providerRequestId => item.providerRequestId
  | .providerCallId => item.providerCallId
  | .providerCommitId => item.providerCommitId
  | .providerTransactionId => item.providerTransactionId
  | .commitEventId => item.commitEventId
  | .signalEventId => item.signalEventId
  | .signalCallerEventId => item.signalCallerEventId
  | .observedEventId => item.observedEventId
  | .releaseEventId => item.releaseEventId

/-- The six identities a targeted commit records together. -/
def commitFields : List TreatmentIdField :=
  [.targetedAttemptId, .providerRequestId, .providerCallId, .providerCommitId,
    .providerTransactionId, .commitEventId]

/-- The identities a state on the chain carries. -/
def fieldsOf : TreatmentState → List TreatmentIdField
  | .armed => []
  | .committedWaiting => commitFields
  | .timeoutSignalled => commitFields ++ [.signalEventId, .signalCallerEventId]
  | .timeoutObserved =>
    commitFields ++ [.signalEventId, .signalCallerEventId, .observedEventId]
  | .responseReleased =>
    commitFields ++ [.signalEventId, .signalCallerEventId, .observedEventId, .releaseEventId]
  | .safetyReleased => []

/-- The item carries exactly the identities of a state on the chain. -/
def Carries (state : TreatmentState) : Prop :=
  ∀ field, (idOf item field).isSome = true ↔ field ∈ fieldsOf state

/-- The item carries exactly the identities of its state; a safety-released item
those of the nonterminal state it left. -/
def WellFormed : Prop :=
  (item.state ≠ .safetyReleased ∧ Carries item item.state) ∨
  (item.state = .safetyReleased ∧
    ∃ state ∈ nonterminalTreatmentStates, Carries item state)

theorem Carries.eq_none {item : TreatmentItem} {state : TreatmentState}
    (h : Carries item state) (field : TreatmentIdField) (hout : field ∉ fieldsOf state) :
    idOf item field = none := by
  cases hid : idOf item field with
  | none => rfl
  | some id => exact absurd ((h field).mp (by simp [hid])) hout

theorem WellFormed.carries {item : TreatmentItem} (h : WellFormed item)
    (hstate : item.state ≠ .safetyReleased) : Carries item item.state := by
  rcases h with ⟨-, hcarries⟩ | ⟨hsafety, -⟩
  · exact hcarries
  · exact absurd hsafety hstate

def Keeps (item item' : TreatmentItem) : Prop :=
  ∀ field id, idOf item field = some id → idOf item' field = some id

/-- One transition of the item: along an edge, the version one higher, and no
identity that was set changes. -/
structure Advances (item item' : TreatmentItem) : Prop where
  edge : Edge item.state item'.state
  version : item'.version = item.version + 1
  keeps : Keeps item item'

/-! ## Advances and the events they leave -/

def consumedItem (input : CommitPlanInput) (item : TreatmentItem) : TreatmentItem :=
  { consumedTreatment input item with version := item.version + 1 }

def signalledItem (eventId callerEventId : Uuid4) : TreatmentItem :=
  { item with
    state := .timeoutSignalled, version := item.version + 1
    signalEventId := some eventId, signalCallerEventId := some callerEventId }

def observedItem (eventId : Uuid4) : TreatmentItem :=
  { item with
    state := .timeoutObserved, version := item.version + 1, observedEventId := some eventId }

def releasedItem (eventId : Uuid4) : TreatmentItem :=
  { item with
    state := .responseReleased, version := item.version + 1, releaseEventId := some eventId }

def safetyReleasedItem (cause : SafetyReleaseCause) : TreatmentItem :=
  { item with
    state := .safetyReleased, version := item.version + 1, safetyReleaseCause := some cause }

/-- The transitions written together with their event, and what the event says. -/
inductive Advance (event : JournalEvent) : TreatmentItem → TreatmentItem → Prop where
  | signalled {item : TreatmentItem} {signal : RecordedSignal}
      (hstate : item.state = .committedWaiting)
      (hbody : event.body = .timeoutSignalRecorded signal)
      (hcausation : event.causationEventIds = causationIds
        (Controller.sortedPair signal.providerCommitEventId signal.callerTimeoutEventId))
      (hattempt : item.targetedAttemptId = some signal.attemptId)
      (hcommit : item.providerCommitId = some signal.providerCommitId)
      (hcommitEvent : item.commitEventId = some signal.providerCommitEventId) :
      Advance event item (signalledItem item event.eventId signal.callerTimeoutEventId)
  | observed {item : TreatmentItem} {commit : CommitRefs} {signalEventId : Uuid4}
      (hstate : item.state = .timeoutSignalled)
      (hbody : event.body = .treatmentTimeoutObserved commit signalEventId)
      (hcausation : event.causationEventIds = causationIds [signalEventId])
      (hsignal : item.signalEventId = some signalEventId) :
      Advance event item (observedItem item event.eventId)
  | released {item : TreatmentItem} {commit : CommitRefs} {observedEventId : Uuid4}
      (hstate : item.state = .timeoutObserved)
      (hbody : event.body = .treatmentResponseReleased commit)
      (hcausation : event.causationEventIds = causationIds [observedEventId])
      (hobserved : item.observedEventId = some observedEventId) :
      Advance event item (releasedItem item event.eventId)
  | safetyReleased {item : TreatmentItem} {fromState : CommittedWaitState}
      {cause : SafetyReleaseCause} {commit : CommitRefs} {elapsed : DecimalNs}
      (hstate : item.state = fromState.toTreatmentState)
      (hbody : event.body = .treatmentSafetyReleased cause fromState commit elapsed) :
      Advance event item (safetyReleasedItem item .safetyDeadline)

theorem safetyReleasedItem_wellFormed {item : TreatmentItem} {cause : SafetyReleaseCause}
    (hformed : WellFormed item) (hwait : item.state ∈ nonterminalTreatmentStates) :
    WellFormed (safetyReleasedItem item cause) := by
  have hne : item.state ≠ .safetyReleased := by
    intro hsafety
    simp [hsafety, nonterminalTreatmentStates] at hwait
  refine .inr ⟨rfl, item.state, hwait, fun field => ?_⟩
  have hfield := hformed.carries hne field
  cases field <;> exact hfield

theorem Advance.advances {event : JournalEvent} {item item' : TreatmentItem}
    (h : Advance event item item') (hformed : WellFormed item) : Advances item item' := by
  have hcarries : item.state ≠ .safetyReleased → Carries item item.state := hformed.carries
  cases h with
  | signalled hstate =>
    have hshape := hcarries (by simp [hstate])
    have hsignal := hshape.eq_none .signalEventId (by simp [hstate, fieldsOf, commitFields])
    have hcaller := hshape.eq_none .signalCallerEventId
      (by simp [hstate, fieldsOf, commitFields])
    refine ⟨hstate ▸ .signal, rfl, fun field id hid => ?_⟩
    cases field <;> simp_all [idOf, signalledItem]
  | observed hstate =>
    have hobserved := (hcarries (by simp [hstate])).eq_none .observedEventId
      (by simp [hstate, fieldsOf, commitFields])
    refine ⟨hstate ▸ .observe, rfl, fun field id hid => ?_⟩
    cases field <;> simp_all [idOf, observedItem]
  | released hstate =>
    have hreleased := (hcarries (by simp [hstate])).eq_none .releaseEventId
      (by simp [hstate, fieldsOf, commitFields])
    refine ⟨hstate ▸ .release, rfl, fun field id hid => ?_⟩
    cases field <;> simp_all [idOf, releasedItem]
  | safetyReleased hstate =>
    refine ⟨.safety ?_, rfl, fun field id hid => ?_⟩
    · rw [hstate]
      exact CommittedWaitState.nonterminal _
    · cases field <;> simpa [idOf, safetyReleasedItem] using hid

theorem Advance.wellFormed {event : JournalEvent} {item item' : TreatmentItem}
    (h : Advance event item item') (hformed : WellFormed item) : WellFormed item' := by
  have hcarries : item.state ≠ .safetyReleased → Carries item item.state := hformed.carries
  cases h with
  | signalled hstate =>
    have hshape := hcarries (by simp [hstate])
    refine .inl ⟨by simp [signalledItem], fun field => ?_⟩
    have hfield := hshape field
    rw [hstate] at hfield
    cases field <;> simp_all [idOf, signalledItem, fieldsOf, commitFields]
  | observed hstate =>
    have hshape := hcarries (by simp [hstate])
    refine .inl ⟨by simp [observedItem], fun field => ?_⟩
    have hfield := hshape field
    rw [hstate] at hfield
    cases field <;> simp_all [idOf, observedItem, fieldsOf, commitFields]
  | released hstate =>
    have hshape := hcarries (by simp [hstate])
    refine .inl ⟨by simp [releasedItem], fun field => ?_⟩
    have hfield := hshape field
    rw [hstate] at hfield
    cases field <;> simp_all [idOf, releasedItem, fieldsOf, commitFields]
  | safetyReleased hstate =>
    refine safetyReleasedItem_wellFormed hformed ?_
    rw [hstate]
    exact CommittedWaitState.nonterminal _

/-! ## Moves -/

/-- An event that says nothing about a commit or a treatment transition. -/
def Inert : EventBody → Prop
  | .providerTransactionCommitted _ => False
  | .timeoutSignalRecorded _ => False
  | .treatmentTimeoutObserved _ _ => False
  | .treatmentResponseReleased _ => False
  | .treatmentSafetyReleased _ _ _ _ => False
  | _ => True

/-- Process `i` may put this entry: its instance and its event id are its own
and the key is absent. -/
structure Puts {ι : Type} (i : ι) (w : World ι) (entry : JournalEntry) : Prop where
  source : w.drawn entry.key.instanceId = some i
  event : w.drawn entry.event.eventId = some i
  absent : w.items.lookup (.journal entry.key) = none

/-- Process `i` may commit this plan: the event records it, the call is its own,
the transaction is new, and this is the first one of the process. -/
structure Commits {ι : Type} (i : ι) (w : World ι) (input : CommitPlanInput) : Prop where
  puts : Puts i w input.commitEvent
  body : input.commitEvent.event.body = .providerTransactionCommitted
    (commitEventBody input.call input.providerCallId input.identities
      (decide (input.kind = .targeted)) input.commitRequestedAt)
  call : w.drawn input.providerCallId = some i
  ledger : w.items.lookup (.ledger input.identities.providerTransactionId) = none
  first : ∀ id transaction, w.items.lookup (.ledger id) = some transaction →
    w.drawn transaction.providerCallId ≠ some i

/-- The items after a commit's ledger put and journal put. -/
def committedItems (items : Items) (input : CommitPlanInput) : Items :=
  (items.insert (.ledger input.identities.providerTransactionId) (ledgerTransactionOf input)).insert
    (.journal input.commitEvent.key) input.commitEvent.event

/-- The atomic steps of the treatment protocol. -/
inductive Moves {ι : Type} (i : ι) : World ι → World ι → Prop where
  | same (w : World ι) : Moves i w w
  | drew {w : World ι} {id : Uuid4} (hfresh : w.drawn id = none) : Moves i w (w.draw i id)
  | appended {w : World ι} {entry : JournalEntry} (hputs : Puts i w entry)
      (hinert : Inert entry.event.body) :
      Moves i w (w.withItems (w.items.insert (.journal entry.key) entry.event))
  /-- a provider records that somebody else safety-released its wait -/
  | noted {w : World ι} {entry : JournalEntry} {item : TreatmentItem}
      {cause : SafetyReleaseCause} {fromState : CommittedWaitState} {commit : CommitRefs}
      {elapsed : DecimalNs} (hputs : Puts i w entry)
      (hbody : entry.event.body = .treatmentSafetyReleased cause fromState commit elapsed)
      (htreatment : w.items.lookup .treatment = some item)
      (hstate : item.state = .safetyReleased) :
      Moves i w (w.withItems (w.items.insert (.journal entry.key) entry.event))
  | committed {w : World ι} {input : CommitPlanInput} (hcommits : Commits i w input)
      (hkind : input.kind = .untargeted) :
      Moves i w (w.withItems (committedItems w.items input))
  | consumed {w : World ι} {input : CommitPlanInput} {item : TreatmentItem}
      (hcommits : Commits i w input) (hkind : input.kind = .targeted)
      (htreatment : w.items.lookup .treatment = some item) (harmed : item.state = .armed) :
      Moves i w (w.withItems ((committedItems w.items input).insert .treatment
        (consumedItem input item)))
  | advanced {w : World ι} {entry : JournalEntry} {item item' : TreatmentItem}
      (hputs : Puts i w entry) (htreatment : w.items.lookup .treatment = some item)
      (hadvance : Advance entry.event item item') :
      Moves i w (w.withItems ((w.items.insert .treatment item').insert
        (.journal entry.key) entry.event))
  | cleaned {w : World ι} {item : TreatmentItem}
      (htreatment : w.items.lookup .treatment = some item)
      (hwait : item.state ∈ nonterminalTreatmentStates) :
      Moves i w (w.withItems (w.items.insert .treatment
        (safetyReleasedItem item .cleanupRequest)))

end RefundStudy.Treatment
