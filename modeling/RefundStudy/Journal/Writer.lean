/-
  The journal writer of one source instance (`event-journal/journal-writer.ts`,
  BR-RUA-033).

  The writer is an object of the source with four mutable members; here it is a value, and every
  operation returns the writer after it. The texts that describe a stop are left out.
-/
import RefundStudy.Runtime.World

set_option autoImplicit false

namespace RefundStudy.Journal

open Foundation Record RefundStudy.Runtime

/-! ## Entries (`journal-entry.ts`, `journal-scope.ts`) -/

/-- `MAX_SOURCE_SEQUENCE`: the largest sequence a 12-digit sort key orders correctly. -/
def maxSourceSequence : Nat := 999999999999

def isSourceSequence (sequence : Nat) : Bool :=
  decide (1 ≤ sequence ∧ sequence ≤ maxSourceSequence)

/-- One event ready to persist, with its key. -/
structure JournalEntry where
  key : JournalKey
  event : JournalEvent
  deriving DecidableEq

def journalPutAction (entry : JournalEntry) : WriteAction ItemOf where
  key := .journal entry.key
  condition := itemAbsent
  effect := fun _ => entry.event

def isSameStoredEntry (existing : Sigma ItemOf) (entry : JournalEntry) : Bool :=
  match existing with
  | ⟨.journal key, event⟩ => decide (key = entry.key ∧ event = entry.event)
  | _ => false

/-! ## Results (`journal-append-port.ts`) -/

inductive JournalStopReason where
  | ambiguousAppend
  | definitiveRetriesExhausted
  | sequenceConflict
  | instanceAlreadyStopped
  deriving DecidableEq

inductive AppendResult where
  | appended (event : JournalEvent)
  | stopped (reason : JournalStopReason)

inductive ConfirmResult where
  | appended (event : JournalEvent)
  | stopped (reason : JournalStopReason)
  | notApplied (event : JournalEvent) (outcome : WriteOutcome ItemOf)

inductive PrepareResult where
  | prepared (put : JournalEntry)
  | stopped (reason : JournalStopReason)

inductive JournalOutcomeClass where
  | applied
  | notApplied
  | ambiguous
  | sequenceConflict
  deriving DecidableEq

/-- A failed condition on the entry's own put is the entry itself when the item there holds
identical content, and a conflict otherwise; a failed condition elsewhere left the entry unwritten.
-/
def classifyJournalOutcome (outcome : WriteOutcome ItemOf) (entry : JournalEntry)
    (journalActionIndex : Nat) : JournalOutcomeClass :=
  match outcome with
  | .applied => .applied
  | .ambiguous _ => .ambiguous
  | .definitiveFailure _ => .notApplied
  | .conditionFailed failedActionIndex existing =>
    if failedActionIndex ≠ journalActionIndex then .notApplied
    else match existing with
      | some item => if isSameStoredEntry item entry then .applied else .sequenceConflict
      | none => .sequenceConflict

/-! ## The writer -/

/-- The writer of one source instance: its dependencies and its mutable members. -/
structure JournalWriter where
  table : JournalTable
  source : EventSource
  instanceId : Uuid4
  maxDefinitiveRetries : Nat
  nextSequence : Nat := 1
  stopReason : Option JournalStopReason := none
  reservation : Option JournalEntry := none
  retryable : Option JournalEntry := none

namespace JournalWriter

variable (writer : JournalWriter)

/-- The key of this instance's event with a given sequence. -/
def keyAt (sequence : Nat) : JournalKey :=
  ⟨writer.table, writer.source, writer.instanceId, sequence⟩

/-- The event `buildJournalEvent` assembles for the next sequence. -/
def eventWith (body : EventBody) (causation : List Uuid4)
    (eventId : Uuid4) (occurredAt : UtcMillis) : JournalEvent where
  eventId := eventId
  occurredAt := occurredAt
  source := writer.source
  sourceInstanceId := writer.instanceId
  sourceSequence := writer.nextSequence
  causationEventIds := causationIds causation
  body := body

/-- `#nextEntry`: the id and the time are drawn before the sequence is checked. -/
def nextEntry (body : EventBody) (causation : List Uuid4) :
    Async (JournalEntry × JournalWriter) := do
  let eventId ← await .nextId
  let occurredAt ← await .wallNow
  if isSourceSequence writer.nextSequence then
    pure (⟨writer.keyAt writer.nextSequence,
      writer.eventWith body causation eventId occurredAt⟩, { writer with retryable := none })
  else throwThe Thrown .rangeError

def stop (reason : JournalStopReason) : JournalStopReason × JournalWriter :=
  (reason, { writer with stopReason := some reason })

/-- `#settle`: an ambiguous outcome or a conflict stops the instance for good,
anything else advances the sequence. -/
def settle (verdict : JournalOutcomeClass) (entry : JournalEntry) : AppendResult × JournalWriter :=
  if verdict = .ambiguous then
    let (reason, stopped) := writer.stop .ambiguousAppend
    (.stopped reason, stopped)
  else if verdict = .sequenceConflict then
    let (reason, stopped) := writer.stop .sequenceConflict
    (.stopped reason, stopped)
  else (.appended entry.event, { writer with nextSequence := writer.nextSequence + 1 })

/-- `#write` with its identical retries: at most `retries` more tries after a
definitive failure. -/
def writeEntry (entry : JournalEntry) : Nat → Async JournalOutcomeClass
  | 0 => do
    let outcome ← await (.write (journalPutAction entry))
    pure (classifyJournalOutcome outcome entry 0)
  | retries + 1 => do
    let outcome ← await (.write (journalPutAction entry))
    match classifyJournalOutcome outcome entry 0 with
    | .notApplied => writeEntry entry retries
    | verdict => pure verdict

def append (body : EventBody) (causation : List Uuid4) : Async (AppendResult × JournalWriter) :=
  match writer.stopReason with
  | some _ => pure (.stopped .instanceAlreadyStopped, writer)
  | none =>
    match writer.reservation with
    | some _ => throwThe Thrown .writerMisuse
    | none => do
      let (entry, writer) ← writer.nextEntry body causation
      let verdict ← writeEntry entry writer.maxDefinitiveRetries
      match verdict with
      | .notApplied =>
        let (reason, stopped) := writer.stop .definitiveRetriesExhausted
        pure (.stopped reason, stopped)
      | verdict => pure (writer.settle verdict entry)

def reserve (put : JournalEntry) : PrepareResult × JournalWriter :=
  (.prepared put, { writer with reservation := some put, retryable := none })

/-- Reserves the next sequence for a caller-owned transaction. -/
def prepare (body : EventBody) (causation : List Uuid4) : Async (PrepareResult × JournalWriter) :=
  match writer.stopReason with
  | some _ => pure (.stopped .instanceAlreadyStopped, writer)
  | none =>
    match writer.reservation with
    | some _ => throwThe Thrown .writerMisuse
    | none => do
      let (entry, writer) ← writer.nextEntry body causation
      pure (writer.reserve entry)

/-- Reserves again the last put that was definitively not applied. -/
def prepareRetry (put : JournalEntry) : Except Thrown (PrepareResult × JournalWriter) :=
  match writer.stopReason with
  | some _ => .ok (.stopped .instanceAlreadyStopped, writer)
  | none =>
    if writer.reservation = none ∧ writer.retryable = some put then .ok (writer.reserve put)
    else .error .writerMisuse

/-- Settles the reserved put with the outcome of its transaction. -/
def confirm (put : JournalEntry) (outcome : WriteOutcome ItemOf)
    (journalActionIndex : Nat) : Except Thrown (ConfirmResult × JournalWriter) :=
  if writer.reservation = some put then
    let writer := { writer with reservation := none }
    match classifyJournalOutcome outcome put journalActionIndex with
    | .notApplied =>
      .ok (.notApplied put.event outcome, { writer with retryable := some put })
    | verdict =>
      match writer.settle verdict put with
      | (.appended event, writer) => .ok (.appended event, writer)
      | (.stopped reason, writer) => .ok (.stopped reason, writer)
  else .error .writerMisuse

end JournalWriter

/-- A synchronous call of the source inside an asynchronous one. -/
def sync {α : Type} (result : Except Thrown α) : Async α :=
  ExceptT.mk (.ret result)

end RefundStudy.Journal
