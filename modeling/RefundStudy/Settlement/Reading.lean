/-
  One round of settlement reads and the sample made from it
  (`trial-execution/settlement-reading.ts`, `evidence-collection/settlement-sample.ts`,
  `evidence-collection/provider-activity.ts`, `evidence-collection/queue-observation.ts`).
-/
import RefundStudy.Settlement.Window

set_option autoImplicit false

namespace RefundStudy.Settlement

open Record

/-! ## Provider activity -/

/-- The own string members of an exported journal row that a sample reads. -/
structure ExportedEvent where
  recordType : Option String
  processingState : Option String
  providerCallId : Option String

/-- The own `state` of the treatment item, when it is a string. -/
structure TreatmentRow where
  state : Option String

structure ProviderActivity where
  activeCalls : Nat
  heldBarriers : Nat
  pendingReleases : Nat

def terminalProviderEvents : List String :=
  ["provider_call_rejected", "provider_response_returned", "provider_commit_failed",
    "treatment_response_released", "treatment_safety_released"]

def heldBarrierStates : List String := ["COMMITTED_WAITING", "TIMEOUT_SIGNALLED"]

def isOneOf (value : Option String) (members : List String) : Bool :=
  match value with
  | some text => decide (text ∈ members)
  | none => false

def deriveProviderActivity (providerEvents : List ExportedEvent)
    (treatment : Option TreatmentRow) : ProviderActivity :=
  let opened := (providerEvents.filterMap ExportedEvent.providerCallId).dedup
  let closed := (providerEvents.filter fun event =>
    isOneOf event.recordType terminalProviderEvents).filterMap ExportedEvent.providerCallId
  let state := treatment.bind TreatmentRow.state
  { activeCalls := (opened.filter fun callId => decide (callId ∉ closed)).length
    heldBarriers := if isOneOf state heldBarrierStates then 1 else 0
    pendingReleases := if state = some "TIMEOUT_OBSERVED" then 1 else 0 }

/-! ## What the ports answered -/

/-- The code of a failed read (`CollectorReadFailure`, or the export's reason). -/
abbrev ReadFailure : Type := String

structure LedgerCapture where
  complete : Bool
  transactionCount : Nat
  failures : List ReadFailure

structure DlqCapture where
  correlatedMessageIds : List String
  capturedMessageIds : List String
  receiveComplete : Bool
  failures : List ReadFailure

structure DurableListing where
  statuses : List String
  complete : Bool
  failures : List ReadFailure

/-- The two counter reads of a queued trial, and what receiving from its DLQ gives. -/
structure QueueReads where
  source : Except ReadFailure QueueCounters
  dlq : Except ReadFailure QueueCounters
  dlqCapture : DlqCapture

inductive UnitReads where
  | conventional (scenario : Scenario) (queues : QueueReads)
  | durable (scenario : Scenario) (queues : QueueReads) (listing : DurableListing)
  | probe (invocationReturned : Bool)

/-- What one round was told, with the instant its first clock reading gave. -/
structure RoundReads where
  observedAt : UtcMillis
  callerJournal : Except ReadFailure (List ExportedEvent)
  /-- The provider and controller halves of the experiment journal. -/
  experimentJournal : Except ReadFailure (List ExportedEvent × List ExportedEvent)
  treatment : Except ReadFailure (Option TreatmentRow)
  ledger : LedgerCapture
  unitReads : UnitReads

/-! ## The sample -/

/-- The `counters` of `observeQueue`. -/
def observeQueue : Except ReadFailure QueueCounters → QueueReading
  | .ok counters => .counters counters
  | .error _ => .unavailable

structure QueueSampleReadings where
  sourceQueue : QueueReading
  dlq : QueueReading
  correlatedDlqMessageIds : List String
  dlqCapturedMessageIds : List String
  failures : List ReadFailure

def readDlqMessages (queues : QueueReads) : QueueSampleReadings :=
  let empty : QueueSampleReadings :=
    ⟨observeQueue queues.source, observeQueue queues.dlq, [], [], []⟩
  match queues.dlq with
  | .error _ => empty
  | .ok counters =>
    if counters.total = 0 then empty
    else
      { empty with
        correlatedDlqMessageIds := queues.dlqCapture.correlatedMessageIds
        dlqCapturedMessageIds := queues.dlqCapture.capturedMessageIds
        failures := queues.dlqCapture.failures }

def innerExecutionsTerminal (listing : DurableListing) : Bool :=
  listing.complete && listing.statuses.all fun status => decide (status ≠ "RUNNING")

structure SampleJournals where
  caller : List ExportedEvent
  provider : List ExportedEvent
  controller : List ExportedEvent

inductive SampleUnitReadings where
  | conventional (scenario : Scenario) (queues : QueueSampleReadings)
  | durable (scenario : Scenario) (queues : QueueSampleReadings) (innerExecutionsTerminal : Bool)
  | probe (invocationReturned : Bool)

def SampleUnitReadings.queues : SampleUnitReadings → Option QueueSampleReadings
  | .conventional _ queues => some queues
  | .durable _ queues _ => some queues
  | .probe _ => none

def SampleUnitReadings.scenario : SampleUnitReadings → Option Scenario
  | .conventional scenario _ => some scenario
  | .durable scenario _ _ => some scenario
  | .probe _ => none

structure SettlementSampleInput where
  observedAt : UtcMillis
  phase : SettlementSamplePhase
  publicationStopped : Bool
  unit : SampleUnitReadings
  journals : SampleJournals
  treatment : Option TreatmentRow
  ledgerComplete : Bool
  ledgerItemCount : Nat

def processingTerminal (unit : SampleUnitReadings) (callerEvents : List ExportedEvent) : Bool :=
  match unit with
  | .probe invocationReturned => invocationReturned
  | .conventional _ queues | .durable _ queues _ =>
    (callerEvents.any fun event =>
      decide (event.recordType = some "request_state_recorded") &&
        decide (event.processingState = some "FINISHED")) ||
    decide (0 < queues.correlatedDlqMessageIds.length)

def treatmentTerminal (treatment : Option TreatmentRow) : Bool :=
  isOneOf (treatment.bind TreatmentRow.state) ["RESPONSE_RELEASED", "SAFETY_RELEASED"]

def buildSettlementSample (input : SettlementSampleInput) : SettlementSample :=
  let activity := deriveProviderActivity input.journals.provider input.treatment
  let queues := input.unit.queues
  { observedAt := input.observedAt
    phase := input.phase
    publicationStopped := input.publicationStopped
    processingTerminal := processingTerminal input.unit input.journals.caller
    innerExecutionsTerminal :=
      match input.unit with
      | .durable _ _ terminal => some terminal
      | .conventional _ _ | .probe _ => none
    providerActiveCalls := activity.activeCalls
    providerHeldBarriers := activity.heldBarriers
    providerPendingReleases := activity.pendingReleases
    treatmentTerminal :=
      if input.unit.scenario = some .control then none
      else some (treatmentTerminal input.treatment)
    ledgerSnapshotPossible := input.ledgerComplete
    sourceQueue := (queues.map QueueSampleReadings.sourceQueue).getD .notApplicable
    dlq := (queues.map QueueSampleReadings.dlq).getD .notApplicable
    correlatedDlqMessageIds :=
      (queues.map QueueSampleReadings.correlatedDlqMessageIds).getD []
    dlqCapturedMessageIds := (queues.map QueueSampleReadings.dlqCapturedMessageIds).getD []
    correlatedEventWatermark :=
      input.journals.caller.length + input.journals.provider.length +
        input.journals.controller.length
    ledgerItemCount := input.ledgerItemCount }

/-! ## The round -/

def unitReadings : UnitReads → SampleUnitReadings
  | .conventional scenario queues => .conventional scenario (readDlqMessages queues)
  | .durable scenario queues listing =>
    .durable scenario (readDlqMessages queues) (innerExecutionsTerminal listing)
  | .probe invocationReturned => .probe invocationReturned

def unitFailures : UnitReads → List ReadFailure
  | .conventional _ queues => (readDlqMessages queues).failures
  | .durable _ queues listing => (readDlqMessages queues).failures ++ listing.failures
  | .probe _ => []

def failureOf {α : Type} : Except ReadFailure α → List ReadFailure
  | .ok _ => []
  | .error code => [code]

def readJournals (reads : RoundReads) : SampleJournals :=
  let experiment := reads.experimentJournal.toOption.getD ([], [])
  { caller := reads.callerJournal.toOption.getD []
    provider := experiment.1
    controller := experiment.2 }

def RoundReads.journalsComplete (reads : RoundReads) : Bool :=
  reads.callerJournal.toOption.isSome && reads.experimentJournal.toOption.isSome

variable (phase : SettlementSamplePhase)

/-- The sample of a round before an unread journal or treatment raises its watermark. -/
def builtSample (reads : RoundReads) : SettlementSample :=
  buildSettlementSample
    { observedAt := reads.observedAt
      phase := phase
      publicationStopped := true
      unit := unitReadings reads.unitReads
      journals := readJournals reads
      treatment := reads.treatment.toOption.getD none
      ledgerComplete := reads.ledger.complete
      ledgerItemCount := reads.ledger.transactionCount }

/-- The queue observation records are left out. -/
structure SettlementReading where
  sample : SettlementSample
  failures : List ReadFailure

/-- And with the unit's reads `readSettlementRound` and `readProbeSettlementRound`. -/
def readUnitRound (previous : Option SettlementSample) (reads : RoundReads) : SettlementReading :=
  let built := builtSample phase reads
  let unread := !reads.journalsComplete || !reads.treatment.toOption.isSome
  let floor := (previous.map SettlementSample.correlatedEventWatermark).getD 0 + 1
  { sample :=
      if unread then
        { built with correlatedEventWatermark := max built.correlatedEventWatermark floor }
      else built
    failures :=
      failureOf reads.callerJournal ++ failureOf reads.experimentJournal ++
        failureOf reads.treatment ++ reads.ledger.failures ++ unitFailures reads.unitReads }

theorem readUnitRound_observedAt (previous : Option SettlementSample) (reads : RoundReads) :
    (readUnitRound phase previous reads).sample.observedAt = reads.observedAt := by
  simp only [readUnitRound]
  split <;> rfl

theorem readUnitRound_quietViolations (previous : Option SettlementSample) (reads : RoundReads) :
    quietViolations (readUnitRound phase previous reads).sample =
      quietViolations (builtSample phase reads) := by
  simp only [readUnitRound]
  split <;> rfl

/-- `observe` and `recheckBeforeFreeze` hand the reader the sample read last. -/
def readRounds (previous : Option SettlementSample) :
    List (SettlementSamplePhase × RoundReads) → List SettlementReading
  | [] => []
  | round :: rest =>
    let reading := readUnitRound round.1 previous round.2
    reading :: readRounds (some reading.sample) rest

def samplesOf (rounds : List SettlementReading) : List SettlementSample :=
  rounds.map SettlementReading.sample

end RefundStudy.Settlement
