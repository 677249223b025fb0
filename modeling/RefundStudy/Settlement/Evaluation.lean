/-
  The settlement evaluator (`settlement/settlement-policy.ts`,
  `settlement/settlement-activity.ts`, `settlement/evaluate-settlement.ts`).
-/
import Mathlib.Data.List.Sort
import RefundStudy.Record.Vocabulary

set_option autoImplicit false

namespace RefundStudy.Settlement

open Record

/-! ## Samples -/

/-- `SETTLEMENT_RESTART_CAUSES`, in vocabulary order. -/
inductive SettlementRestartCause where
  | sourceVisible
  | sourceInFlight
  | sourceDelayed
  | newCorrelatedDlqMessage
  | uncapturedDlqMessage
  | correlatedJournalActivity
  | ledgerActivity
  | providerActive
  | processingNotTerminal
  | innerExecutionActive
  | treatmentNotTerminal
  | queueUnavailable
  | preFreezeActivity
  deriving DecidableEq

def settlementRestartCauses : List SettlementRestartCause :=
  [.sourceVisible, .sourceInFlight, .sourceDelayed, .newCorrelatedDlqMessage,
    .uncapturedDlqMessage, .correlatedJournalActivity, .ledgerActivity, .providerActive,
    .processingNotTerminal, .innerExecutionActive, .treatmentNotTerminal, .queueUnavailable,
    .preFreezeActivity]

theorem mem_settlementRestartCauses (cause : SettlementRestartCause) :
    cause ∈ settlementRestartCauses := by
  cases cause <;> decide

inductive SettlementSamplePhase where
  | observation
  | preFreezeRecheck
  deriving DecidableEq

structure QueueCounters where
  visible : Nat
  inFlight : Nat
  delayed : Nat
  deriving DecidableEq

def QueueCounters.total (counters : QueueCounters) : Nat :=
  counters.visible + counters.inFlight + counters.delayed

/-- `QueueCounters | QueueCounterMarker`. -/
inductive QueueReading where
  | counters (counters : QueueCounters)
  | notApplicable
  | unavailable
  deriving DecidableEq

/-- A flag that does not apply to the unit is `none`. -/
structure SettlementSample where
  observedAt : UtcMillis
  phase : SettlementSamplePhase
  publicationStopped : Bool
  processingTerminal : Bool
  innerExecutionsTerminal : Option Bool
  providerActiveCalls : Nat
  providerHeldBarriers : Nat
  providerPendingReleases : Nat
  treatmentTerminal : Option Bool
  ledgerSnapshotPossible : Bool
  sourceQueue : QueueReading
  dlq : QueueReading
  correlatedDlqMessageIds : List String
  dlqCapturedMessageIds : List String
  correlatedEventWatermark : Nat
  ledgerItemCount : Nat
  deriving DecidableEq

structure SettlementPolicy where
  stabilizationMs : Nat
  observationDeadlineMs : Nat
  pollIntervalMs : Nat

/-- `TRIAL_SETTLEMENT_POLICY`; `PROBE_SETTLEMENT_POLICY` has the same values. -/
def trialSettlementPolicy : SettlementPolicy where
  stabilizationMs := 120000
  observationDeadlineMs := 600000
  pollIntervalMs := 30000

/-! ## Activity -/

def sourceQueueCauses : QueueReading → List SettlementRestartCause
  | .counters counters =>
    (if 0 < counters.visible then [.sourceVisible] else []) ++
    (if 0 < counters.inFlight then [.sourceInFlight] else []) ++
    (if 0 < counters.delayed then [.sourceDelayed] else [])
  | .notApplicable => []
  | .unavailable => []

variable (sample : SettlementSample)

def hasUncapturedDlqMessage : Bool :=
  let captured := sample.dlqCapturedMessageIds.dedup
  if sample.correlatedDlqMessageIds.any fun id => decide (id ∉ captured) then true
  else
    match sample.dlq with
    | .counters counters => decide (captured.length < counters.total)
    | .notApplicable => false
    | .unavailable => false

def providerIdle : Bool :=
  decide (sample.providerActiveCalls = 0) && decide (sample.providerHeldBarriers = 0) &&
    decide (sample.providerPendingReleases = 0)

def quietViolations : List SettlementRestartCause :=
  sourceQueueCauses sample.sourceQueue ++
  (if hasUncapturedDlqMessage sample then [SettlementRestartCause.uncapturedDlqMessage] else []) ++
  (if sample.ledgerSnapshotPossible then [] else [SettlementRestartCause.ledgerActivity]) ++
  (if providerIdle sample then [] else [SettlementRestartCause.providerActive]) ++
  (if sample.processingTerminal && sample.publicationStopped then []
    else [SettlementRestartCause.processingNotTerminal]) ++
  (if sample.innerExecutionsTerminal = some false then
    [SettlementRestartCause.innerExecutionActive] else []) ++
  (if sample.treatmentTerminal = some false then
    [SettlementRestartCause.treatmentNotTerminal] else []) ++
  (if sample.sourceQueue = .unavailable ∨ sample.dlq = .unavailable then
    [SettlementRestartCause.queueUnavailable] else [])

/-- What changed since the previous sample; nothing when there is none. -/
def changesSince : Option SettlementSample → List SettlementRestartCause
  | none => []
  | some previous =>
    (if sample.correlatedDlqMessageIds.any fun id =>
        decide (id ∉ previous.correlatedDlqMessageIds) then
      [SettlementRestartCause.newCorrelatedDlqMessage] else []) ++
    (if previous.correlatedEventWatermark < sample.correlatedEventWatermark then
      [SettlementRestartCause.correlatedJournalActivity] else []) ++
    (if sample.ledgerItemCount = previous.ledgerItemCount then []
      else [SettlementRestartCause.ledgerActivity])

/-- Every cause that makes a sample active, in vocabulary order. -/
def activityCauses (previous : Option SettlementSample) : List SettlementRestartCause :=
  settlementRestartCauses.filter fun cause =>
    decide (cause ∈ quietViolations sample ++ changesSince sample previous)

theorem activityCauses_eq_nil {sample : SettlementSample} {previous : Option SettlementSample} :
    activityCauses sample previous = [] ↔
      quietViolations sample = [] ∧ changesSince sample previous = [] := by
  unfold activityCauses
  rw [List.filter_eq_nil_iff, ← List.append_eq_nil_iff, List.eq_nil_iff_forall_not_mem]
  constructor
  · intro hnone cause hmem
    exact hnone cause (mem_settlementRestartCauses cause) (decide_eq_true hmem)
  · intro hnone cause _ hmem
    exact hnone cause (of_decide_eq_true hmem)

theorem activityCauses_ne_nil_of_watermark {sample previous : SettlementSample}
    (hrose : previous.correlatedEventWatermark < sample.correlatedEventWatermark) :
    activityCauses sample (some previous) ≠ [] := by
  intro hnil
  have hsame := (activityCauses_eq_nil.mp hnil).2
  simp [changesSince, hrose] at hsame

/-! ## The evaluator -/

structure SettlementRestart where
  restartedAt : UtcMillis
  cause : SettlementRestartCause
  deriving DecidableEq

/-- The structured reasons of an unsettled unit, with what their details quote. -/
inductive UnsettledReason where
  | deadline
  | notQuiet (cause : SettlementRestartCause) (observedAt : UtcMillis)
  deriving DecidableEq

structure Established where
  windowStart : UtcMillis
  establishedAt : UtcMillis
  recheckedAt : UtcMillis
  restarts : List SettlementRestart
  deriving DecidableEq

inductive SettlementAssessment where
  | established (members : Established)
  | notEstablished (reasons : List UnsettledReason) (restarts : List SettlementRestart)
  deriving DecidableEq

structure LastActivity where
  causes : List SettlementRestartCause
  observedAt : UtcMillis

structure EvaluatorState where
  restarts : List SettlementRestart
  previous : Option SettlementSample
  windowStart : Option SettlementSample
  quietUntil : Option SettlementSample
  last : Option LastActivity

def EvaluatorState.start : EvaluatorState := ⟨[], none, none, none, none⟩

variable (policy : SettlementPolicy)

/-- The body of the loop on one quiet sample that does not establish settlement. -/
def extendWindow (state : EvaluatorState) (sample : SettlementSample) : EvaluatorState :=
  let windowStart := state.windowStart.getD sample
  { state with
    previous := some sample
    windowStart := some windowStart
    quietUntil :=
      if sample.phase = .observation ∧
          windowStart.observedAt + policy.stabilizationMs ≤ sample.observedAt then some sample
      else state.quietUntil }

/-- The body of the loop on one active sample. -/
def restartWindow (state : EvaluatorState) (sample : SettlementSample)
    (firstCause : SettlementRestartCause) (causes : List SettlementRestartCause) :
    EvaluatorState :=
  let cause := if sample.phase = .preFreezeRecheck then .preFreezeActivity else firstCause
  { restarts := state.restarts ++ [⟨sample.observedAt, cause⟩]
    previous := some sample
    windowStart := none
    quietUntil := none
    last := some ⟨causes, sample.observedAt⟩ }

/-- The body of the loop; `error` is its early return. -/
def judgeSample (state : EvaluatorState)
    (sample : SettlementSample) : Except Established EvaluatorState :=
  match activityCauses sample state.previous with
  | firstCause :: others => .ok (restartWindow state sample firstCause (firstCause :: others))
  | [] =>
    match sample.phase, state.windowStart, state.quietUntil with
    | .preFreezeRecheck, some windowStart, some quietUntil =>
      .error
        { windowStart := windowStart.observedAt
          establishedAt := quietUntil.observedAt
          recheckedAt := sample.observedAt
          restarts := state.restarts }
    | _, _, _ => .ok (extendWindow policy state sample)

def inObservationOrder (samples : List SettlementSample) : List SettlementSample :=
  samples.insertionSort fun left right => left.observedAt ≤ right.observedAt

/-- The last instant the evaluator reads. -/
def deadlineMs (publishedAt : UtcMillis) : UtcMillis :=
  publishedAt + policy.observationDeadlineMs

def judgedSamples (samples : List SettlementSample) (policy : SettlementPolicy)
    (publishedAt : UtcMillis) : List SettlementSample :=
  (inObservationOrder samples).filter fun sample =>
    decide (sample.observedAt ≤ deadlineMs policy publishedAt)

def judgeSamples (samples : List SettlementSample) : Except Established EvaluatorState :=
  samples.foldlM (judgeSample policy) EvaluatorState.start

def notEstablishedReasons : Option LastActivity → List UnsettledReason
  | none => [.deadline]
  | some last => last.causes.map fun cause => .notQuiet cause last.observedAt

def evaluateSettlement (samples : List SettlementSample) (policy : SettlementPolicy)
    (publishedAt : UtcMillis) : SettlementAssessment :=
  match judgeSamples policy (judgedSamples samples policy publishedAt) with
  | .error members => .established members
  | .ok state => .notEstablished (notEstablishedReasons state.last) state.restarts

/-- The `status` of an assessment is `established`. -/
def SettlementAssessment.isEstablished : SettlementAssessment → Bool
  | .established _ => true
  | .notEstablished _ _ => false

theorem evaluateSettlement_established {samples : List SettlementSample}
    {policy : SettlementPolicy} {publishedAt : UtcMillis} {members : Established} :
    evaluateSettlement samples policy publishedAt = .established members ↔
      judgeSamples policy (judgedSamples samples policy publishedAt) = .error members := by
  unfold evaluateSettlement
  split
  · next found heq => simp [heq]
  · next state heq => simp [heq]

theorem evaluateSettlement_isEstablished {samples : List SettlementSample}
    {policy : SettlementPolicy} {publishedAt : UtcMillis} :
    (evaluateSettlement samples policy publishedAt).isEstablished = true ↔
      ∃ members, judgeSamples policy (judgedSamples samples policy publishedAt) =
        .error members := by
  unfold evaluateSettlement
  split
  · next found heq => simp [heq, SettlementAssessment.isEstablished]
  · next state heq => simp [heq, SettlementAssessment.isEstablished]

end RefundStudy.Settlement
