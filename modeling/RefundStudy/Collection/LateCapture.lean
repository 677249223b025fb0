/-
  The late stream of an execution (`evidence-collection/late-record-capture.ts`, BR-RUA-043).
-/
import RefundStudy.Collection.JournalExport
import RefundStudy.Collection.LateIdentity
import RefundStudy.LateEvidence.RecordRouting

set_option autoImplicit false

namespace RefundStudy.Collection

open Foundation Record Store
open LateEvidence (LateEvidenceSource)

/-! ## Plan and reads -/

inductive CollectedFileKey where
  | journal (file : CollectedJournalFile)
  | ledgerSnapshot
  | dlqSnapshot
  | durableExecutions

structure DurableListingRequest where
  functionArn : JsString
  qualifier : JsString
  startedAfter : JsString

/-- The correlation members of its records, whether they correlate, the frozen copies they are
compared with, and a label for reasons. -/
structure ReadContext where
  correlation : List (JsString × JsonDocument)
  correlated : Bool
  frozen : CollectedFileKey → Option (List UInt8)
  owner : String

/-- `JournalFileExport`, as far as it is compared. -/
structure RereadJournal where
  file : CollectedJournalFile
  events : List JsonDocument
  distinct : ∀ event ∈ events, Record.DistinctNames event

/-- What an export answers, and the instant it was taken at. -/
structure JournalRead where
  capturedAt : JsString
  exported : Except String (List RereadJournal)

structure DocumentCapture where
  record : List (JsString × JsonDocument)
  capturedAt : JsString
  failures : List String
  distinct : Record.DistinctNames (.object record)

/-- A trial or the probe; a trial may have a DLQ and a listing. -/
structure LateCaptureUnit where
  context : ReadContext
  isTrial : Bool
  hasDlq : Bool
  durable : Option DurableListingRequest

/-- What the sources of a unit answer; the experiment journal holds the events of the provider and
of the controller. -/
structure UnitReads where
  callerJournal : JournalRead
  experimentJournal : JournalRead
  ledger : DocumentCapture
  dlq : DocumentCapture
  durable : DocumentCapture

inductive PartitionKind where
  | canary
  | warmup
  | provider
  deriving DecidableEq

structure LateCapturePlan where
  units : List (LateCaptureUnit × UnitReads)
  correlation : List (JsString × JsonDocument)
  executionFrozen : CollectedFileKey → Option (List UInt8)
  partitionKey : PartitionKind → String
  partitionRead : CollectedJournalFile → JournalRead

def executionJournalPartitions : List (PartitionKind × CollectedJournalFile) :=
  [(.canary, .canaryCallerJournal), (.canary, .canaryControllerJournal),
   (.warmup, .warmupProviderJournal), (.provider, .executionProviderJournal)]

/-- The context of an execution-level read: only the provider's records correlate. -/
def LateCapturePlan.partitionContext (plan : LateCapturePlan) (kind : PartitionKind) :
    ReadContext where
  correlation := plan.correlation
  correlated := decide (kind = .provider)
  frozen := plan.executionFrozen
  owner := plan.partitionKey kind

inductive CaptureReason where
  | readFailed (reason : String)
  | baselineMissing (key : CollectedFileKey) (owner : String)
  | baselineUnreadable (key : CollectedFileKey) (owner : String) (problem : BaselineProblem)
  | uncarriable (owner : String) (source : LateEvidenceSource)
  | notRepresentable (line : Nat)

structure LateObservation where
  correlation : List (JsString × JsonDocument)
  lateSource : LateEvidenceSource
  correlated : Bool
  capturedAt : JsString
  lateRecordType : JsString
  record : JsonDocument

/-- What a step adds to `CaptureState`. -/
structure CaptureState where
  observations : List LateObservation
  failures : List CaptureReason

/-- The additions of one step after those of another. -/
def CaptureState.then (first second : CaptureState) : CaptureState :=
  ⟨first.observations ++ second.observations, first.failures ++ second.failures⟩

def CaptureState.all (states : List CaptureState) : CaptureState :=
  ⟨states.flatMap CaptureState.observations, states.flatMap CaptureState.failures⟩

/-! ## Keeping -/

def isRecordTypeName (name : JsString) : Bool :=
  match name with
  | [] => false
  | first :: rest =>
    (0x61 ≤ first && first ≤ 0x7a) &&
      rest.all fun unit =>
        (0x61 ≤ unit && unit ≤ 0x7a) || (0x30 ≤ unit && unit ≤ 0x39) || unit == 0x5f

def carriedRecordType (record : JsonDocument) : Option JsString :=
  match ownValue record (jsString "record_type") with
  | some (.string recordType) =>
    if isRecordTypeName recordType && (ownValue record (jsString "schema_version")).isSome then
      some recordType
    else none
  | _ => none

def keepObservation (context : ReadContext) (source : LateEvidenceSource) (capturedAt : JsString)
    (record : JsonDocument) : CaptureState :=
  match carriedRecordType record with
  | none => ⟨[], [.uncarriable context.owner source]⟩
  | some recordType =>
    ⟨[⟨context.correlation, source, context.correlated, capturedAt, recordType, record⟩], []⟩

section Capture

variable (text : NumberText)

def lateAgainstFrozen (kind : LateItemKind) (context : ReadContext) (key : CollectedFileKey)
    (items : List JsonDocument) (conditional : Bool) : Except CaptureReason (List JsonDocument) :=
  match context.frozen key with
  | none =>
    if conditional then .ok (absentItems text kind [] items)
    else .error (.baselineMissing key context.owner)
  | some bytes =>
    match frozenIdentities text kind bytes with
    | .ok known => .ok (absentItems text kind known items)
    | .error problem => .error (.baselineUnreadable key context.owner problem)

def keepEvents (context : ReadContext) (source : LateEvidenceSource) (capturedAt : JsString)
    (late : Except CaptureReason (List JsonDocument)) : CaptureState :=
  match late with
  | .error reason => ⟨[], [reason]⟩
  | .ok events => .all (events.map (keepObservation context source capturedAt))

structure DocumentRead where
  kind : DocumentItemKind
  key : CollectedFileKey
  source : LateEvidenceSource
  conditional : Bool
  within : JsonDocument → Bool

def keepDocument (context : ReadContext) (read : DocumentRead) (document : DocumentCapture) :
    CaptureState :=
  let items := documentItems read.kind (.object document.record)
  match lateAgainstFrozen text (.document read.kind) context read.key items read.conditional with
  | .error reason => ⟨[], [reason]⟩
  | .ok late =>
    let kept := late.filter read.within
    if kept.length = 0 then ⟨[], []⟩
    else
      keepObservation context read.source document.capturedAt
        (.object (InsertionMap.set document.record read.kind.listMember (.array kept)))

def journalLateSource : CollectedJournalFile → LateEvidenceSource
  | .callerJournal => .callerJournal
  | .providerJournal => .providerJournal
  | .controllerJournal => .controllerJournal
  | .canaryCallerJournal => .callerJournal
  | .canaryControllerJournal => .controllerJournal
  | .warmupProviderJournal => .providerJournal
  | .executionProviderJournal => .providerJournal

def captureJournal (context : ReadContext) (read : JournalRead) : CaptureState :=
  match read.exported with
  | .error reason => ⟨[], [.readFailed reason]⟩
  | .ok files => .all (files.map fun file =>
    keepEvents context (journalLateSource file.file) read.capturedAt
      (lateAgainstFrozen text .journalEvent context (.journal file.file) file.events false))

/-! ## Durable listings -/

def publishedLater (other request : DurableListingRequest) : Bool :=
  decide (other.functionArn = request.functionArn) && decide (other.qualifier = request.qualifier) &&
    !unitsLe other.startedAfter request.startedAfter

structure DurableWindow where
  start : JsString
  next : Option JsString

def durableListingWindow (requests : List DurableListingRequest) (request : DurableListingRequest) :
    DurableWindow where
  start := request.startedAfter
  next := ((requests.filter fun other => publishedLater other request).map
    DurableListingRequest.startedAfter |>.insertionSort fun first second => unitsLe first second).head?

def startsWithin (window : DurableWindow) (execution : JsonDocument) : Bool :=
  match ownValue execution (jsString "started_at") with
  | some (.string startedAt) =>
    unitsLe window.start startedAt &&
      match window.next with
      | none => true
      | some next => !unitsLe next startedAt
  | _ => true

/-! ## Units -/

def ledgerRead : DocumentRead :=
  ⟨.ledgerTransaction, .ledgerSnapshot, .ledger, false, fun _ => true⟩

def dlqRead : DocumentRead := ⟨.dlqMessage, .dlqSnapshot, .dlq, true, fun _ => true⟩

def durableRead (window : DurableWindow) : DocumentRead :=
  ⟨.durableExecution, .durableExecutions, .durableExecutionMetadata, false, startsWithin window⟩

variable (plan : LateCapturePlan)

/-- The documents of a unit that are captured again: the ledger, and for a trial its DLQ and its
listing. -/
def documentReads (unit : LateCaptureUnit) (reads : UnitReads) :
    List (DocumentRead × DocumentCapture) :=
  [(ledgerRead, reads.ledger)] ++
    (if unit.isTrial && unit.hasDlq then [(dlqRead, reads.dlq)] else []) ++
    match unit.durable with
    | some request =>
      if unit.isTrial then
        [(durableRead (durableListingWindow (plan.units.filterMap fun other => other.1.durable)
          request), reads.durable)]
      else []
    | none => []

def journalReads : List (ReadContext × JournalRead) :=
  (plan.units.flatMap fun unit =>
    [(unit.1.context, unit.2.callerJournal), (unit.1.context, unit.2.experimentJournal)]) ++
  executionJournalPartitions.map fun partition =>
    (plan.partitionContext partition.1, plan.partitionRead partition.2)

def captureUnit (unit : LateCaptureUnit) (reads : UnitReads) : CaptureState :=
  ((captureJournal text unit.context reads.callerJournal).then
    (captureJournal text unit.context reads.experimentJournal)).then
    (.all ((documentReads plan unit reads).map fun read =>
      CaptureState.then ⟨[], read.2.failures.map .readFailed⟩
        (keepDocument text unit.context read.1 read.2)))

def captureExecutionPartitions : CaptureState :=
  .all (executionJournalPartitions.map fun partition =>
    captureJournal text (plan.partitionContext partition.1) (plan.partitionRead partition.2))

/-! ## The stream -/

def lateEvidenceLine (observation : LateObservation) (sequence : Nat) : JsonDocument :=
  let named : InsertionMap JsString JsonDocument :=
    [(jsString "schema_version", .number (LateEvidence.doubleOfSum 1)),
     (jsString "record_type", .string (jsString "late_evidence_record"))]
  let correlated := observation.correlation.foldl (fun line member => line.set member.1 member.2) named
  .object ((((((correlated.set (jsString "sequence")
      (.number (LateEvidence.doubleOfSum sequence))).set
    (jsString "captured_at") (.string observation.capturedAt)).set
    (jsString "late_source") (.string (jsString observation.lateSource.name))).set
    (jsString "correlated") (.bool observation.correlated)).set
    (jsString "late_record_type") (.string observation.lateRecordType)).set
    (jsString "late_record") observation.record)

/-- `encodeRecordLines`, of the late stream. -/
def encodeLateLines (records : List JsonDocument) : Except CaptureReason (List UInt8) :=
  match records.findIdx? hasNonFinite with
  | some index => .error (.notRepresentable (index + 1))
  | none => .ok (utf8 (records.flatMap fun record => canonicalJson text record ++ ['\n']))

structure LateRecordStream where
  records : List JsonDocument
  bytes : List UInt8

def captureLateRecords : Except (List CaptureReason) LateRecordStream :=
  let state := (CaptureState.all (plan.units.map fun unit => captureUnit text plan unit.1 unit.2)).then
    (captureExecutionPartitions text plan)
  if state.failures.length > 0 then .error state.failures
  else
    let records := state.observations.mapIdx fun index observation =>
      lateEvidenceLine observation (index + 1)
    match encodeLateLines text records with
    | .ok bytes => .ok ⟨records, bytes⟩
    | .error reason => .error [reason]

end Capture

end RefundStudy.Collection
