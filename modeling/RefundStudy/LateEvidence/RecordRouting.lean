/-
  Where a late record belongs in the frozen evidence
  (`trial-oracle/late-evidence/late-record-routing.ts`, `evidence-package/package-layout.ts`).
-/
import RefundStudy.LateEvidence.DocumentFolding

set_option autoImplicit false

namespace RefundStudy.LateEvidence

open Store

inductive LateEvidenceSource where
  | callerJournal
  | providerJournal
  | controllerJournal
  | runnerJournal
  | ledger
  | sourceQueue
  | dlq
  | durableExecutionMetadata
  deriving DecidableEq

def LateEvidenceSource.name : LateEvidenceSource → String
  | .callerJournal => "CALLER_JOURNAL"
  | .providerJournal => "PROVIDER_JOURNAL"
  | .controllerJournal => "CONTROLLER_JOURNAL"
  | .runnerJournal => "RUNNER_JOURNAL"
  | .ledger => "LEDGER"
  | .sourceQueue => "SOURCE_QUEUE"
  | .dlq => "DLQ"
  | .durableExecutionMetadata => "DURABLE_EXECUTION_METADATA"

inductive LateFold where
  | appendLine
  | document (fold : DocumentFold)
  deriving DecidableEq

structure LateRoute where
  path : String
  fold : LateFold
  shared : Bool
  deriving DecidableEq

/-- What the routing and the joining read of a `LateEvidenceRecord`. -/
structure LateEvidenceRecord where
  lateSource : LateEvidenceSource
  lateRecordType : String
  trialId : Option String
  lateRecord : JsonDocument

/-! ## Layout -/

/-- `PACKAGE_LAYOUT.unitFile({ kind: 'trial', trial_id }, file)`. -/
def unitFile (trialId file : String) : String := "trials/" ++ trialId ++ "/" ++ file

/-- `EXECUTION_PATHS.runnerJournal`. -/
def runnerJournalPath : String := "runner/runner-journal.jsonl"

def executionProviderJournalPath : String := "provider/provider-journal.jsonl"

/-- `EVENT_RECORD_TYPES`; every one of them is catalogued. -/
def eventRecordTypes : List String :=
  ["caller_invocation_started", "trial_message_rejected", "attempt_registered",
   "attempt_not_dispatched", "dispatch_started", "caller_timeout_recorded",
   "transport_settled_after_timeout", "attempt_outcome_recorded", "request_state_recorded",
   "inner_execution_exhausted", "provider_call_received", "provider_call_rejected",
   "provider_call_accepted", "provider_transaction_committed", "provider_commit_confirmed",
   "provider_commit_failed", "treatment_timeout_observed", "treatment_response_released",
   "treatment_safety_released", "provider_response_returned", "timeout_signal_recorded",
   "timeout_signal_duplicate_observed", "timeout_signal_conflict_recorded",
   "late_timeout_signal_rejected", "caller_timeout_rejected", "controller_canary_acknowledged",
   "phase_transition_recorded", "provisioning_event_recorded", "trial_partitions_verified_absent",
   "treatment_armed", "trial_message_published", "probe_workload_invoked", "settlement_assessed",
   "trial_evidence_frozen", "trial_interrupted", "safety_check_recorded", "lease_event_recorded",
   "cleanup_action_recorded", "provider_warmup_completed"]

/-! ## Routes -/

inductive AcceptedRecord where
  | event
  | recordType (name : String)

/-- A file of the trial's directory, or an execution-level path. -/
inductive RoutePlace where
  | unit (file : String)
  | execution (path : String)

/-- `ExecutionRoute` and `TrialRoute`. -/
structure RouteRule where
  source : LateEvidenceSource
  accepts : AcceptedRecord
  fold : LateFold
  place : RoutePlace

def executionRoutes : List RouteRule :=
  [⟨.runnerJournal, .event, .appendLine, .execution runnerJournalPath⟩,
   ⟨.providerJournal, .event, .appendLine, .execution executionProviderJournalPath⟩]

def trialRoutes : List RouteRule :=
  [⟨.callerJournal, .event, .appendLine, .unit "journals/caller-journal.jsonl"⟩,
   ⟨.providerJournal, .event, .appendLine, .unit "journals/provider-journal.jsonl"⟩,
   ⟨.controllerJournal, .event, .appendLine, .unit "journals/controller-journal.jsonl"⟩,
   ⟨.runnerJournal, .event, .appendLine, .execution runnerJournalPath⟩,
   ⟨.ledger, .recordType "ledger_snapshot", .document .ledgerTransactions,
    .unit "ledger/ledger-snapshot.json"⟩,
   ⟨.sourceQueue, .recordType "queue_observation", .appendLine,
    .unit "queues/source-observations.jsonl"⟩,
   ⟨.dlq, .recordType "queue_observation", .appendLine, .unit "queues/dlq-observations.jsonl"⟩,
   ⟨.dlq, .recordType "dlq_snapshot", .document .dlqMessages, .unit "queues/dlq-snapshot.json"⟩,
   ⟨.durableExecutionMetadata, .recordType "durable_execution_metadata",
    .document .durableExecutions, .unit "execution-metadata/durable-executions.json"⟩]

def RouteRule.matches (route : RouteRule) (record : LateEvidenceRecord) : Bool :=
  decide (route.source = record.lateSource) &&
    match route.accepts with
    | .event => eventRecordTypes.contains record.lateRecordType
    | .recordType name => decide (name = record.lateRecordType)

def RouteRule.placed (route : RouteRule) (trialId : String) : LateRoute :=
  match route.place with
  | .unit file => ⟨unitFile trialId file, route.fold, false⟩
  | .execution path => ⟨path, route.fold, true⟩

def routeLateRecord (record : LateEvidenceRecord) : Option LateRoute :=
  match record.trialId with
  | none => (executionRoutes.find? fun route => route.matches record).map fun route => route.placed ""
  | some trialId =>
    (trialRoutes.find? fun route => route.matches record).map fun route => route.placed trialId

/-! ## The name of a file -/

/-- What follows the last slash of a path, backwards. -/
def fileName (path : String) : List Char := path.toList.reverse.takeWhile fun c => c != '/'

theorem fileName_unitFile (trialId : String) {file : String} (h : '/' ∈ file.toList) :
    fileName (unitFile trialId file) = fileName file := by
  have hstop : (file.toList.reverse.takeWhile fun c => c != '/').length ≠
      file.toList.reverse.length := by
    intro hlength
    have hall := (List.takeWhile_prefix fun c : Char => c != '/').eq_of_length hlength
    have hslash : '/' ∈ file.toList.reverse.takeWhile fun c => c != '/' := by
      rw [hall]
      exact List.mem_reverse.mpr h
    have hkept := List.all_eq_true.mp List.all_takeWhile '/' hslash
    simp at hkept
  unfold fileName unitFile
  rw [String.toList_append, List.reverse_append, List.takeWhile_append, if_neg hstop]

def foldOfName (name : List Char) : LateFold :=
  if name = fileName "ledger/ledger-snapshot.json" then .document .ledgerTransactions
  else if name = fileName "queues/dlq-snapshot.json" then .document .dlqMessages
  else if name = fileName "execution-metadata/durable-executions.json" then
    .document .durableExecutions
  else .appendLine

theorem routeLateRecord_fold {record : LateEvidenceRecord} {route : LateRoute}
    (h : routeLateRecord record = some route) : route.fold = foldOfName (fileName route.path) := by
  have hunit : ∀ rule ∈ trialRoutes, ∀ trialId,
      (rule.placed trialId).fold = foldOfName (fileName (rule.placed trialId).path) := by
    intro rule hmem trialId
    simp only [trialRoutes, List.mem_cons, List.not_mem_nil, or_false] at hmem
    rcases hmem with rfl | rfl | rfl | rfl | rfl | rfl | rfl | rfl | rfl <;>
      simp only [RouteRule.placed] <;> first
        | (rw [fileName_unitFile trialId (by decide)]; decide)
        | decide
  have hexecution : ∀ rule ∈ executionRoutes,
      (rule.placed "").fold = foldOfName (fileName (rule.placed "").path) := by
    intro rule hmem
    simp only [executionRoutes, List.mem_cons, List.not_mem_nil, or_false] at hmem
    rcases hmem with rfl | rfl
    · decide
    · decide
  unfold routeLateRecord at h
  split at h
  · obtain ⟨rule, hrule, rfl⟩ := Option.map_eq_some_iff.mp h
    exact hexecution rule (List.mem_of_find?_eq_some hrule)
  · obtain ⟨rule, hrule, rfl⟩ := Option.map_eq_some_iff.mp h
    exact hunit rule (List.mem_of_find?_eq_some hrule) _

end RefundStudy.LateEvidence
