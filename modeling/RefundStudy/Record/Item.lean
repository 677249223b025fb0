/-
  The stored items of one trial partition.

  The item type depends on the key: the `treatment` key can hold nothing but a treatment item, a
  journal key nothing but an event.
-/
import RefundStudy.Record.Event
import RefundStudy.Foundation.ItemStore

set_option autoImplicit false

namespace RefundStudy.Record

open Foundation

/-! ## Control and ledger items -/

/-- The frozen `config` item: the members of `provider_trial_configuration` that
the provider and the controller read. -/
structure ConfigItem where
  registeredCallerId : ProviderCallerId
  scenario : Scenario
  paymentId : String
  safetyReleaseMs : Nat
  treatmentPollIntervalMs : Nat
  deriving DecidableEq

/-- The `payment#<payment_id>` item. -/
structure PaymentItem where
  paymentId : String
  currency : String
  deriving DecidableEq

/-- The `treatment` item: state, version and the identities recorded so far. -/
structure TreatmentItem where
  state : TreatmentState
  version : Nat
  targetedAttemptId : Option Uuid4 := none
  providerRequestId : Option Uuid4 := none
  providerCallId : Option Uuid4 := none
  providerCommitId : Option Uuid4 := none
  providerTransactionId : Option Uuid4 := none
  commitEventId : Option Uuid4 := none
  signalEventId : Option Uuid4 := none
  signalCallerEventId : Option Uuid4 := none
  observedEventId : Option Uuid4 := none
  releaseEventId : Option Uuid4 := none
  safetyReleaseCause : Option SafetyReleaseCause := none
  deriving DecidableEq

def armedTreatment : TreatmentItem := { state := .armed, version := 1 }

/-- One immutable `SUCCEEDED` ledger item. -/
structure LedgerTransaction where
  providerTransactionId : Uuid4
  providerCommitId : Uuid4
  providerCallId : Uuid4
  attemptId : Uuid4
  providerRequestId : Uuid4
  refundRequestId : String
  paymentId : String
  amountMinor : Nat
  currency : String
  commitRequestedAt : UtcMillis
  deriving DecidableEq

/-! ## Caller state items -/

/-- `state#attempt#<attempt_id>`: the durable phase of one attempt. -/
structure AttemptStateItem where
  attemptId : Uuid4
  providerRequestId : Uuid4
  refundRequestId : String
  phase : AttemptPhase
  deriving DecidableEq

structure RequestStateSnapshot where
  version : Nat
  effectKnowledge : EffectKnowledge
  attemptIds : List Uuid4
  processingState : ProcessingState
  deriving DecidableEq

/-! ## Keys -/

/-- `JournalTableRole`. -/
inductive JournalTable where
  | callerJournal
  | experimentJournal
  deriving DecidableEq

/-- `journalItemKey`: the sort key `<source>#<source_instance_id>#<source_sequence:12>`
of a journal table. -/
structure JournalKey where
  table : JournalTable
  source : EventSource
  instanceId : Uuid4
  sequence : Nat
  deriving DecidableEq

/-- The keys of one trial partition, over all tables. -/
inductive ItemKey where
  | config
  | payment (paymentId : String)
  | treatment
  | ledger (providerTransactionId : Uuid4)
  | journal (key : JournalKey)
  | attemptState (attemptId : Uuid4)
  | requestState (refundRequestId : String)
  | rejectedMessageState (messageId : String)
  deriving DecidableEq

@[reducible] def ItemOf : ItemKey → Type
  | .config => ConfigItem
  | .payment _ => PaymentItem
  | .treatment => TreatmentItem
  | .ledger _ => LedgerTransaction
  | .journal _ => JournalEvent
  | .attemptState _ => AttemptStateItem
  | .requestState _ => RequestStateSnapshot
  | .rejectedMessageState _ => RequestStateSnapshot

abbrev Items : Type := AList ItemOf

/-- The position of a caller-journal key in byte order of its sort key; `none`
for the keys of the other tables.  Event keys begin with a caller source, which
precedes `state#`; then `attempt`, `rejected-message` and `request` follow. -/
def ItemKey.callerSortKey : ItemKey → Option (List Nat)
  | .journal key =>
    match key.table with
    | .callerJournal => some [0, key.source.rank, key.instanceId, key.sequence]
    | .experimentJournal => none
  | .attemptState attemptId => some [1, 0, attemptId]
  | .rejectedMessageState messageId => some (1 :: 1 :: messageId.toList.map Char.toNat)
  | .requestState refundRequestId => some (1 :: 2 :: refundRequestId.toList.map Char.toNat)
  | .config | .payment _ | .treatment | .ledger _ => none

/-! ## Reading the store -/

def StoredAt (items : Items) (key : JournalKey) (event : JournalEvent) : Prop :=
  items.lookup (.journal key) = some event

theorem StoredAt.unique {items : Items} {key : JournalKey} {event event' : JournalEvent}
    (h : StoredAt items key event) (h' : StoredAt items key event') : event = event' :=
  Option.some.inj (h.symm.trans h')

end RefundStudy.Record
