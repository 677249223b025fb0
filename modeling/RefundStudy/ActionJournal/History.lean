/-
  A cleanup journal and the history a later run reads from it (`cleanup/cleanup-journal.ts`,
  `cleanup-history.ts`, `event-journal/journal-writer.ts`, `jsonl-journal-port.ts`).
-/
import RefundStudy.ActionJournal.Schema

set_option autoImplicit false

namespace RefundStudy.ActionJournal

open Foundation Record Store
open Cleanup (CleanupStep OwnershipBasis CleanupResourceAction ItemActionName
  CleanupAction cleanupSteps foldCleanupActions CleanupFold basesByAction)
open Journal (isSourceSequence JournalOutcomeClass)
open RefundStudy.Runtime (Thrown)

/-! ## Reading -/

abbrev HistoryExpectation : Type := JournalScope

inductive LineRefusal where
  | unparsable (failure : JsonParseFailure)
  | invalidRecord
  | otherExecution (recorded manifest : JsString)
  | basisMismatch (action : JsString) (basis : Option OwnershipBasis)

inductive HistoryFinding where
  | lineSkipped (lineNumber : Nat) (refusal : LineRefusal)
  | findingsOmitted (omitted : Nat)

/-- The code of a finding; its subject is `cleanup-journal.jsonl`. -/
def HistoryFinding.code : HistoryFinding → String
  | .lineSkipped _ _ => "CLEANUP_HISTORY_LINE_SKIPPED"
  | .findingsOmitted _ => "CLEANUP_HISTORY_FINDINGS_OMITTED"

structure CleanupHistory where
  entries : List CleanupActionEntry
  findings : List HistoryFinding

def maxHistoryFindings : Nat := 20

/-- The ids a record names, in the order of `IDENTITY_KEYS`. -/
def identityText (fields : IdentityFields) : JsString :=
  (jsString ", ").intercalate
    ([("run_id", fields.runId), ("variant_validation_id", fields.variantValidationId),
      ("transport_probe_id", fields.transportProbeId)].filterMap fun entry =>
        entry.2.map fun value => jsString entry.1 ++ jsString " " ++ value)

/-- `resourceBasisMismatch` finds none. -/
def basisMatches (body : CleanupActionBody) : Bool :=
  match readName resourceActionNames body.action with
  | none => true
  | some action => body.ownershipBasis.any (basesByAction action).contains

variable (expected : HistoryExpectation)

def judgeRecord (record : CleanupActionRecorded) : Except LineRefusal CleanupActionEntry :=
  let recorded := identityText record.identity
  if recorded ≠ identityText (executionIdentityFields expected.execution) ∨
      record.executionManifestSha256 ≠ expected.executionManifestSha256.val then
    .error (.otherExecution recorded record.executionManifestSha256)
  else if basisMatches record.body = false then
    .error (.basisMismatch record.body.action record.body.ownershipBasis)
  else .ok ⟨record.body, record.occurredAt⟩

def judgeLine : Except JsonParseFailure JsonDocument → Except LineRefusal CleanupActionEntry
  | .error failure => .error (.unparsable failure)
  | .ok value =>
    match validateCleanupAction value with
    | none => .error .invalidRecord
    | some record => judgeRecord expected record

def acceptedEntry (line : JsonlLine) : Option CleanupActionEntry :=
  match judgeLine expected line.parsed with
  | .ok entry => some entry
  | .error _ => none

def skippedLine (line : JsonlLine) : Option HistoryFinding :=
  match judgeLine expected line.parsed with
  | .ok _ => none
  | .error refusal => some (.lineSkipped line.lineNumber refusal)

def capFindings (findings : List HistoryFinding) : List HistoryFinding :=
  if findings.length ≤ maxHistoryFindings then findings
  else findings.take maxHistoryFindings ++ [.findingsOmitted (findings.length - maxHistoryFindings)]

def readCleanupHistory (text : NumberText) (bytes : List UInt8) (expected : HistoryExpectation) :
    CleanupHistory where
  entries := (parseJsonl text bytes).filterMap (acceptedEntry expected)
  findings := capFindings ((parseJsonl text bytes).filterMap (skippedLine expected))

/-! ## Writing -/

/-- Of a write of unknown fate, how many of its bytes landed. -/
inductive FileAppendOutcome where
  | appended
  | notWritten
  | unknown (landed : Nat)

/-- `append` of the file: a lone line break first when the file ends inside a line. -/
def appendBytes (file bytes : List UInt8) : List UInt8 :=
  if file = [] ∨ file.getLast? = some newline then file ++ bytes else file ++ newline :: bytes

/-- One write of the port: what it means for the entry, and the file after it. -/
def writeOnce (bytes file : List UInt8) : FileAppendOutcome → JournalOutcomeClass × List UInt8
  | .appended => (.applied, appendBytes file bytes)
  | .notWritten => (.notApplied, file)
  | .unknown landed => (.ambiguous, appendBytes file (bytes.take landed))

/-- `#write` with its identical retries after a definitive failure. -/
def writeEntry (bytes : List UInt8) (outcome : Nat → FileAppendOutcome) (file : List UInt8)
    (attempt : Nat) : Nat → JournalOutcomeClass × List UInt8
  | 0 => writeOnce bytes file (outcome attempt)
  | retries + 1 =>
    match writeOnce bytes file (outcome attempt) with
    | (.notApplied, file) => writeEntry bytes outcome file (attempt + 1) retries
    | written => written

/-- `JournalWriterDeps` of a cleanup journal. -/
structure JournalWriterDeps where
  scope : JournalScope
  instanceId : Uuid4Text
  maxDefinitiveRetries : Nat

/-- What the id source, the clock and the file answer while one action is recorded. -/
structure AppendInput where
  eventId : Uuid4Text
  occurredAt : UtcMillisText
  outcome : Nat → FileAppendOutcome
  refusedAt : UtcMillisText

structure CleanupJournal where
  file : List UInt8 := []
  nextSequence : Nat := 1
  stopped : Bool := false
  entries : List CleanupActionEntry := []

def CleanupActionBody.conforming (action : CleanupActionBody) : CleanupActionBody :=
  { action with reasons := action.reasons.map conformingReason }

section Journal

variable (text : NumberText) (deps : JournalWriterDeps)

def CleanupJournal.record (journal : CleanupJournal) (action : CleanupActionBody)
    (input : AppendInput) : Except Thrown CleanupJournal :=
  let body := action.conforming
  if journal.stopped then
    .ok { journal with entries := journal.entries ++ [⟨body, input.refusedAt.val⟩] }
  else if h : isSourceSequence journal.nextSequence = true then
    let envelope : EventEnvelope :=
      ⟨deps.scope, input.eventId, input.occurredAt, deps.instanceId, journal.nextSequence, h⟩
    let written := writeEntry (serializeJsonl text [buildJournalEvent body envelope]) input.outcome
      journal.file 0 deps.maxDefinitiveRetries
    if written.1 = .applied then
      .ok { journal with
        file := written.2
        nextSequence := journal.nextSequence + 1
        entries := journal.entries ++ [⟨body, input.occurredAt.val⟩] }
    else
      .ok { journal with
        file := written.2
        stopped := true
        entries := journal.entries ++ [⟨body, input.refusedAt.val⟩] }
  else .error .rangeError

def CleanupJournal.recordAll :
    CleanupJournal → List (CleanupActionBody × AppendInput) → Except Thrown CleanupJournal
  | journal, [] => .ok journal
  | journal, (action, input) :: rest =>
    match journal.record text deps action input with
    | .error thrown => .error thrown
    | .ok next => next.recordAll rest

end Journal

/-! ## The account of a run -/

/-- `STEP_ACTIONS`, `ITEM_ACTIONS` and `CLEANUP_RESOURCE_ACTIONS`. -/
def actionText : CleanupAction → String
  | .step .lateEvidenceCutoff => "LATE_EVIDENCE_CUTOFF"
  | .step .lateAssessmentFreeze => "LATE_ASSESSMENT_FREEZE"
  | .step .consumersDisable => "CONSUMERS_DISABLE"
  | .step .preCleanupSnapshot => "PRE_CLEANUP_SNAPSHOT"
  | .step .barriersReleaseAndExecutionsStop => "BARRIERS_RELEASE_AND_EXECUTIONS_STOP"
  | .step .cleanupInducedTransitionsRecord => "CLEANUP_INDUCED_TRANSITIONS_RECORD"
  | .step .dlqEvidenceCapture => "DLQ_EVIDENCE_CAPTURE"
  | .step .capturedDlqMessagesDelete => "CAPTURED_DLQ_MESSAGES_DELETE"
  | .step .ownedResourcesDelete => "OWNED_RESOURCES_DELETE"
  | .step .discoverySurfacesAudit => "DISCOVERY_SURFACES_AUDIT"
  | .step .stableAbsenceConfirm => "STABLE_ABSENCE_CONFIRM"
  | .step .resultsFreeze => "RESULTS_FREEZE"
  | .item .consumerDisabled => "CONSUMER_DISABLED"
  | .item .consumerAbsent => "CONSUMER_ALREADY_ABSENT"
  | .item .consumerDisableFailed => "CONSUMER_DISABLE_FAILED"
  | .item .safetyReleaseApplied => "SAFETY_RELEASE_APPLIED"
  | .item .safetyReleaseNotHeld => "SAFETY_RELEASE_NOT_HELD"
  | .item .safetyReleaseFailed => "SAFETY_RELEASE_FAILED"
  | .item .durableListFailed => "DURABLE_EXECUTIONS_LIST_FAILED"
  | .item .durableStopApplied => "DURABLE_STOP_APPLIED"
  | .item .durableStopNotRunning => "DURABLE_STOP_NOT_RUNNING"
  | .item .durableStopFailed => "DURABLE_STOP_FAILED"
  | .item .treatmentSafetyReleased => "TREATMENT_SAFETY_RELEASED"
  | .item .durableExecutionStopped => "DURABLE_EXECUTION_STOPPED"
  | .item .dlqMessageCaptured => "DLQ_MESSAGE_CAPTURED"
  | .item .dlqMessageDeleted => "DLQ_MESSAGE_DELETED"
  | .item .dlqMessageAbsent => "DLQ_MESSAGE_ALREADY_ABSENT"
  | .item .dlqMessageDeleteFailed => "DLQ_MESSAGE_DELETE_FAILED"
  | .resource action => resourceActionText action

def foldedActions : List CleanupAction :=
  cleanupSteps.map CleanupAction.step ++
  (([.consumerDisabled, .consumerAbsent, .consumerDisableFailed, .safetyReleaseApplied,
    .safetyReleaseNotHeld, .safetyReleaseFailed, .durableListFailed, .durableStopApplied,
    .durableStopNotRunning, .durableStopFailed, .treatmentSafetyReleased,
    .durableExecutionStopped, .dlqMessageCaptured, .dlqMessageDeleted, .dlqMessageAbsent,
    .dlqMessageDeleteFailed] : List ItemActionName).map CleanupAction.item) ++
  (([.deleted, .alreadyAbsent, .deleteFailed, .skippedAmbiguous,
    .excludedBaseline] : List CleanupResourceAction).map CleanupAction.resource)

def instantOf (text : JsString) : UtcMillis :=
  (((((digitsAt text 0 4 * 12 + digitsAt text 5 2) * 31 + digitsAt text 8 2) * 24 +
    digitsAt text 11 2) * 60 + digitsAt text 14 2) * 60 + digitsAt text 17 2) * 1000 +
    digitsAt text 20 3

/-- The entry as the fold looks at it; an action of another name is none of its own. -/
def accountOf (entry : CleanupActionEntry) : Option Cleanup.CleanupActionEntry :=
  (readName (namesOf actionText foldedActions) entry.body.action).map fun action =>
    { body :=
        { step := entry.body.step
          stepStatus := entry.body.stepStatus
          cleanupMode := entry.body.cleanupMode
          cleanupInduced := entry.body.cleanupInduced
          action := action
          resourceType := entry.body.resourceType.map plainText
          resourceIdentifier := entry.body.resourceIdentifier.map plainText
          ownershipBasis := entry.body.ownershipBasis
          reasons := entry.body.reasons.map fun reason =>
            ⟨plainText reason.code, plainText reason.subject⟩ }
      occurredAt := instantOf entry.occurredAt }

theorem mem_foldedActions (action : CleanupAction) : action ∈ foldedActions := by
  cases action with
  | step step => cases step <;> decide
  | item action => cases action <;> decide
  | resource action => cases action <;> decide

theorem foldedActions_distinct : (foldedActions.map actionText).Nodup := by decide +kernel

theorem readName_actionText (action : CleanupAction) :
    readName (namesOf actionText foldedActions) (jsString (actionText action)) = some action :=
  readName_text foldedActions_distinct (mem_foldedActions action)

theorem accountOf_named {body : CleanupActionBody} (action : CleanupAction)
    (haction : body.action = jsString (actionText action)) (occurredAt : JsString) :
    accountOf ⟨body, occurredAt⟩ = some
      { body :=
          { step := body.step
            stepStatus := body.stepStatus
            cleanupMode := body.cleanupMode
            cleanupInduced := body.cleanupInduced
            action := action
            resourceType := body.resourceType.map plainText
            resourceIdentifier := body.resourceIdentifier.map plainText
            ownershipBasis := body.ownershipBasis
            reasons := body.reasons.map fun reason =>
              ⟨plainText reason.code, plainText reason.subject⟩ }
        occurredAt := instantOf occurredAt } := by
  rw [accountOf, haction, readName_actionText]
  rfl

/-- `foldCleanupActions` of entries of the journal. -/
def foldEntries (entries : List CleanupActionEntry) : CleanupFold :=
  foldCleanupActions (entries.filterMap accountOf)

/-! ## What is written is read -/

theorem CleanupActionBody.Recordable.conforming {action : CleanupActionBody}
    (h : action.Recordable) : action.conforming.Recordable :=
  ⟨h.action, h.resource, h.resourceType, h.resourceIdentifier, h.basis, h.allowed⟩

theorem conforming_reasons_valid (action : CleanupActionBody) :
    ∀ reason ∈ action.conforming.reasons, reason.Valid := by
  intro reason hmem
  obtain ⟨original, _, rfl⟩ := List.mem_map.mp hmem
  exact conformingReason_valid original

theorem basisMatches_of_recordable {body : CleanupActionBody} (h : body.Recordable) :
    basisMatches body = true := by
  unfold basisMatches
  split
  · rfl
  · rename_i action haction
    obtain ⟨basis, hbasis, heq⟩ := h.allowed action haction
    rw [heq, Option.any_some, List.contains_iff_mem]
    exact hbasis

abbrev WrittenEvent : Type := CleanupActionBody × EventEnvelope

def WrittenEvent.entry (event : WrittenEvent) : CleanupActionEntry :=
  ⟨event.1, event.2.occurredAt.val⟩

def WrittenEvent.document (event : WrittenEvent) : JsonDocument :=
  buildJournalEvent event.1 event.2

theorem WrittenEvent.writable (event : WrittenEvent) : Writable event.document :=
  buildJournalEvent_writable event.1 event.2

structure WrittenEvent.Sound (scope : JournalScope) (event : WrittenEvent) : Prop where
  scope : event.2.scope = scope
  recordable : event.1.Recordable
  reasons : ∀ reason ∈ event.1.reasons, reason.Valid

section ReadBack

variable {text : NumberText} {scope : JournalScope}

theorem judgeLine_event {event : WrittenEvent} (h : event.Sound scope) :
    judgeLine scope (.ok (canonicalDocument event.document)) = .ok event.entry := by
  have hvalid : validateCleanupAction (canonicalDocument event.document) =
      some ⟨executionIdentityFields scope.execution, scope.executionManifestSha256.val,
        event.2.occurredAt.val, event.1⟩ := by
    rw [validateCleanupAction_canonical event.writable, WrittenEvent.document,
      validateCleanupAction_event h.recordable h.reasons, h.scope]
  have hmatches := basisMatches_of_recordable h.recordable
  simp only [judgeLine, hvalid, judgeRecord, ne_eq, not_true_eq_false, or_self, if_false,
    hmatches, Bool.true_eq_false, WrittenEvent.entry]

theorem parsed_lines (bytes : List UInt8) :
    (parseJsonl text bytes).map JsonlLine.parsed = (lineSegments bytes).map (parseLine text) := by
  refine List.ext_getElem (by simp [parseJsonl]) fun index _ _ => ?_
  simp [parseJsonl]

theorem parseJsonl_events (law : text.Lawful) (hprints : PrintsIntegers text)
    (events : List WrittenEvent) :
    (parseJsonl text (serializeJsonl text (events.map WrittenEvent.document))).map
        JsonlLine.parsed =
      events.map fun event => .ok (canonicalDocument event.document) := by
  have hwritable : ∀ record ∈ events.map WrittenEvent.document, Writable record := by
    intro record hmem
    obtain ⟨event, _, rfl⟩ := List.mem_map.mp hmem
    exact event.writable
  have hlines := lineBytes_serializeJsonl hprints hwritable []
  rw [List.append_nil, List.map_map, show lineBytes [] = [] from rfl, List.append_nil] at hlines
  have hplaced : ∀ (start : Nat) (rest : List WrittenEvent),
      (placeLines start (rest.map ((fun record => utf8 (canonicalJson text record)) ∘
        WrittenEvent.document))).map (parseLine text) =
      rest.map fun event => .ok (canonicalDocument event.document) := by
    intro start rest
    induction rest generalizing start with
    | nil => rfl
    | cons event others ih =>
      rw [List.map_cons, placeLines, List.map_cons, ih, List.map_cons, Function.comp_apply,
        parseLine_canonical law hprints event.writable]
  rw [parsed_lines, lineSegments, hlines, hplaced]

theorem readCleanupHistory_events (law : text.Lawful) (hprints : PrintsIntegers text)
    {events : List WrittenEvent} (h : ∀ event ∈ events, event.Sound scope) :
    readCleanupHistory text (serializeJsonl text (events.map WrittenEvent.document)) scope =
      ⟨events.map WrittenEvent.entry, []⟩ := by
  have hread : ∀ lines : List JsonlLine,
      lines.map JsonlLine.parsed =
        events.map (fun event => .ok (canonicalDocument event.document)) →
      lines.filterMap (acceptedEntry scope) = events.map WrittenEvent.entry ∧
        lines.filterMap (skippedLine scope) = [] := by
    induction events with
    | nil =>
      intro lines hparsed
      rw [List.map_eq_nil_iff.mp hparsed]
      exact ⟨rfl, rfl⟩
    | cons event rest ih =>
      intro lines hparsed
      cases lines with
      | nil => cases hparsed
      | cons line others =>
        rw [List.map_cons, List.map_cons, List.cons.injEq] at hparsed
        obtain ⟨hentries, hfindings⟩ := ih (fun other hmem => h other
          (List.mem_cons_of_mem _ hmem)) others hparsed.2
        have hjudged : judgeLine scope line.parsed = .ok event.entry := by
          rw [hparsed.1, judgeLine_event (h event List.mem_cons_self)]
        have haccepted : acceptedEntry scope line = some event.entry := by
          rw [acceptedEntry, hjudged]
        have hskipped : skippedLine scope line = none := by
          rw [skippedLine, hjudged]
        rw [List.filterMap_cons_some haccepted, List.filterMap_cons_none hskipped, hentries,
          hfindings, List.map_cons]
        exact ⟨rfl, rfl⟩
  obtain ⟨hentries, hfindings⟩ := hread _ (parseJsonl_events law hprints events)
  rw [readCleanupHistory, hentries, hfindings]
  rfl

end ReadBack

/-! ## One run of a journal -/

section Run

variable {text : NumberText} {deps : JournalWriterDeps}

theorem serializeJsonl_append (first second : List JsonDocument) :
    serializeJsonl text (first ++ second) =
      serializeJsonl text first ++ serializeJsonl text second := by
  rw [serializeJsonl, List.flatMap_append, utf8_append]
  rfl

theorem appendBytes_serialized (records : List JsonDocument) (bytes : List UInt8) :
    appendBytes (serializeJsonl text records) bytes = serializeJsonl text records ++ bytes := by
  refine if_pos ?_
  rcases List.eq_nil_or_concat records with hnil | ⟨init, last, hlast⟩
  · exact .inl (by rw [hnil]; rfl)
  · right
    rw [hlast, List.concat_eq_append, serializeJsonl_append, serializeJsonl_cons]
    have hempty : serializeJsonl text [] = [] := rfl
    rw [hempty, List.getLast?_append_of_ne_nil _ (by simp), List.getLast?_concat]

theorem writeEntry_applied {bytes file : List UInt8} {outcome : Nat → FileAppendOutcome}
    {attempt retries : Nat} (h : (writeEntry bytes outcome file attempt retries).1 = .applied) :
    (writeEntry bytes outcome file attempt retries).2 = appendBytes file bytes := by
  have honce : ∀ result : FileAppendOutcome, (writeOnce bytes file result).1 = .applied →
      (writeOnce bytes file result).2 = appendBytes file bytes := by
    intro result happlied
    cases result with
    | appended => rfl
    | notWritten => cases happlied
    | unknown landed => cases happlied
  induction retries generalizing attempt with
  | zero => exact honce _ h
  | succ retries ih =>
    rw [writeEntry] at h ⊢
    cases hresult : outcome attempt with
    | notWritten =>
      rw [hresult] at h
      exact ih h
    | appended => rfl
    | unknown landed =>
      rw [hresult] at h
      cases h

/-- The file holds the events of the entries, one line each. -/
def OnFile (text : NumberText) (scope : JournalScope) (journal : CleanupJournal) : Prop :=
  ∃ events : List WrittenEvent, (∀ event ∈ events, event.Sound scope) ∧
    journal.file = serializeJsonl text (events.map WrittenEvent.document) ∧
    journal.entries = events.map WrittenEvent.entry

theorem record_running {journal next : CleanupJournal} {action : CleanupActionBody}
    {input : AppendInput} (h : journal.record text deps action input = .ok next)
    (hrunning : next.stopped = false) : journal.stopped = false := by
  cases hstopped : journal.stopped with
  | false => rfl
  | true =>
    rw [CleanupJournal.record, hstopped] at h
    rw [← Except.ok.inj h] at hrunning
    cases hrunning

theorem recordAll_running {actions : List (CleanupActionBody × AppendInput)} :
    ∀ {journal final : CleanupJournal}, journal.recordAll text deps actions = .ok final →
      final.stopped = false → journal.stopped = false := by
  induction actions with
  | nil =>
    intro journal final h hrunning
    cases h
    exact hrunning
  | cons action rest ih =>
    intro journal final h hrunning
    rw [CleanupJournal.recordAll] at h
    split at h
    · cases h
    · rename_i next hnext
      exact record_running hnext (ih h hrunning)

/-- One action: a journal that did not stop has one line and one entry more. -/
theorem record_onFile {journal next : CleanupJournal} {action : CleanupActionBody}
    {input : AppendInput} (h : journal.record text deps action input = .ok next)
    (hrunning : next.stopped = false) (haction : action.Recordable)
    (hfile : OnFile text deps.scope journal) :
    OnFile text deps.scope next ∧
      next.entries = journal.entries ++ [⟨action.conforming, input.occurredAt.val⟩] := by
  obtain ⟨events, hevents, hbytes, hentries⟩ := hfile
  unfold CleanupJournal.record at h
  dsimp only at h
  rw [record_running h hrunning, if_neg Bool.false_ne_true] at h
  split at h
  · rename_i hsequence
    split at h
    · rename_i happlied
      rw [← Except.ok.inj h]
      refine ⟨⟨events ++ [(action.conforming, ⟨deps.scope, input.eventId, input.occurredAt,
        deps.instanceId, journal.nextSequence, hsequence⟩)], ?_, ?_, ?_⟩, rfl⟩
      · intro event hmem
        rcases List.mem_append.mp hmem with hmem | hmem
        · exact hevents event hmem
        · rw [List.mem_singleton.mp hmem]
          exact ⟨rfl, haction.conforming, conforming_reasons_valid action⟩
      · rw [writeEntry_applied happlied, hbytes, appendBytes_serialized, List.map_append,
          serializeJsonl_append]
        rfl
      · rw [hentries, List.map_append]
        rfl
    · rw [← Except.ok.inj h] at hrunning
      cases hrunning
  · cases h

/-- What a run that was never refused appended: every action, with its reasons made conforming
and the instant of its event. -/
def appendedEntries (actions : List (CleanupActionBody × AppendInput)) : List CleanupActionEntry :=
  actions.map fun action => ⟨action.1.conforming, action.2.occurredAt.val⟩

theorem recordAll_onFile {actions : List (CleanupActionBody × AppendInput)} :
    ∀ {journal final : CleanupJournal}, journal.recordAll text deps actions = .ok final →
      final.stopped = false → (∀ action ∈ actions, action.1.Recordable) →
      OnFile text deps.scope journal →
      OnFile text deps.scope final ∧
        final.entries = journal.entries ++ appendedEntries actions := by
  induction actions with
  | nil =>
    intro journal final h _ _ hfile
    cases h
    exact ⟨hfile, by rw [appendedEntries, List.map_nil, List.append_nil]⟩
  | cons action rest ih =>
    intro journal final h hrunning hactions hfile
    rw [CleanupJournal.recordAll] at h
    split at h
    · cases h
    · rename_i next hnext
      obtain ⟨hnextFile, hnextEntries⟩ := record_onFile hnext (recordAll_running h hrunning)
        (hactions action List.mem_cons_self) hfile
      obtain ⟨hfinal, hentries⟩ := ih h hrunning
        (fun other hmem => hactions other (List.mem_cons_of_mem _ hmem)) hnextFile
      refine ⟨hfinal, ?_⟩
      rw [hentries, hnextEntries, List.append_assoc]
      rfl

end Run

/-! ## The account of any bytes -/

theorem capFindings_length (findings : List HistoryFinding) :
    (capFindings findings).length ≤ maxHistoryFindings + 1 := by
  unfold capFindings
  split
  · omega
  · rw [List.length_append, List.length_take, List.length_singleton]
    omega

theorem lines_accounted (lines : List JsonlLine) :
    (lines.filterMap (acceptedEntry expected)).length +
      (lines.filterMap (skippedLine expected)).length = lines.length := by
  induction lines with
  | nil => rfl
  | cons line rest ih =>
    cases hjudged : judgeLine expected line.parsed with
    | ok entry =>
      have haccepted : acceptedEntry expected line = some entry := by
        rw [acceptedEntry, hjudged]
      have hskipped : skippedLine expected line = none := by
        rw [skippedLine, hjudged]
      rw [List.filterMap_cons_some haccepted, List.filterMap_cons_none hskipped,
        List.length_cons, List.length_cons]
      omega
    | error refusal =>
      have haccepted : acceptedEntry expected line = none := by
        rw [acceptedEntry, hjudged]
      have hskipped : skippedLine expected line =
          some (.lineSkipped line.lineNumber refusal) := by
        rw [skippedLine, hjudged]
      rw [List.filterMap_cons_none haccepted, List.filterMap_cons_some hskipped,
        List.length_cons, List.length_cons]
      omega

theorem recordAll_reads_back {text : NumberText} {deps : JournalWriterDeps} (law : text.Lawful)
    (hprints : PrintsIntegers text) {actions : List (CleanupActionBody × AppendInput)}
    {journal : CleanupJournal} (hrun : CleanupJournal.recordAll text deps {} actions = .ok journal)
    (hrunning : journal.stopped = false) (hactions : ∀ action ∈ actions, action.1.Recordable) :
    journal.entries = appendedEntries actions ∧
      readCleanupHistory text journal.file deps.scope = ⟨journal.entries, []⟩ := by
  obtain ⟨⟨events, hevents, hbytes, hentries⟩, happended⟩ :=
    recordAll_onFile hrun hrunning hactions ⟨[], by simp, rfl, rfl⟩
  constructor
  · rw [happended, List.nil_append]
  · rw [hbytes, readCleanupHistory_events law hprints hevents, hentries]

/-- The journal of a run whose appends all succeeded reads back, for the same execution, as the
actions of the run in order, each with its body and its instant and without a finding, so the
history folds as the live entries do.  And any bytes at all give a history: each line is one
entry or one skipped line, and at most `maxHistoryFindings + 1` findings are kept. -/
theorem cleanup_journal_reads_back (text : NumberText) (law : text.Lawful)
    (hprints : PrintsIntegers text) :
    (∀ (deps : JournalWriterDeps) (actions : List (CleanupActionBody × AppendInput))
      (journal : CleanupJournal),
      (∀ action ∈ actions, action.1.Recordable) →
      CleanupJournal.recordAll text deps {} actions = .ok journal → journal.stopped = false →
      journal.entries = appendedEntries actions ∧
      readCleanupHistory text journal.file deps.scope = ⟨journal.entries, []⟩ ∧
      foldEntries (readCleanupHistory text journal.file deps.scope).entries =
        foldEntries journal.entries) ∧
    ∀ (bytes : List UInt8) (expected : HistoryExpectation),
      ∃ history : CleanupHistory, readCleanupHistory text bytes expected = history ∧
        history.findings.length ≤ maxHistoryFindings + 1 ∧
        history.entries.length +
          ((parseJsonl text bytes).filterMap (skippedLine expected)).length =
          (parseJsonl text bytes).length := by
  constructor
  · intro deps actions journal hactions hrun hrunning
    obtain ⟨hentries, hread⟩ := recordAll_reads_back law hprints hrun hrunning hactions
    refine ⟨hentries, hread, ?_⟩
    rw [hread]
  · intro bytes expected
    exact ⟨_, rfl, capFindings_length _, lines_accounted expected _⟩

/-! ## A deletion that failed -/

def anId : Uuid4Text := ⟨jsString "3f1c2a9e-8b4d-4c1e-9f00-1a2b3c4d5e6f", by decide +kernel⟩

def anInstant : UtcMillisText := ⟨jsString "2026-10-05T12:00:00.000Z", by decide +kernel⟩

def aWriter : JournalWriterDeps where
  scope := ⟨⟨.run, anId⟩, ⟨List.replicate 64 0x61, by decide +kernel⟩⟩
  instanceId := anId
  maxDefinitiveRetries := 2

def secondTry : AppendInput where
  eventId := anId
  occurredAt := anInstant
  outcome attempt := if attempt = 0 then .notWritten else .appended
  refusedAt := anInstant

def refusedDeletion : CleanupActionBody where
  step := .ownedResourcesDelete
  stepStatus := .started
  cleanupMode := .normal
  cleanupInduced := false
  action := jsString "DELETE_FAILED"
  resourceType := some (jsString "AWS::Lambda::Function")
  resourceIdentifier := some (jsString "suc1-control")
  ownershipBasis := some (.owned .recordedStack)
  reasons :=
    [{ code := jsString "ResourceInUseException"
       subject := []
       artifactPath := some (jsString "/tmp/x.json")
       eventId := some (jsString "none")
       detail := [0xd800] }]

def failedStep : CleanupActionBody where
  step := .ownedResourcesDelete
  stepStatus := .ended .failed
  cleanupMode := .normal
  cleanupInduced := false
  action := jsString "OWNED_RESOURCES_DELETE"
  reasons := []

theorem refusedDeletion_recordable : refusedDeletion.Recordable where
  action := by decide +kernel
  resource := rfl
  resourceType := by decide +kernel
  resourceIdentifier := by decide +kernel
  basis := fun _ => rfl
  allowed := by
    intro action haction
    have hname : readName resourceActionNames refusedDeletion.action = some .deleteFailed := by
      decide +kernel
    rw [hname] at haction
    rw [← Option.some.inj haction]
    exact ⟨.owned .recordedStack, by decide, rfl⟩

theorem failedStep_recordable : failedStep.Recordable where
  action := by decide +kernel
  resource := rfl
  resourceType := by decide
  resourceIdentifier := by decide
  basis := by decide
  allowed := by
    intro action haction
    have hname : readName resourceActionNames failedStep.action = none := by decide +kernel
    rw [hname] at haction
    cases haction

theorem failed_deletion_reads_back :
    ∃ journal : CleanupJournal,
      CleanupJournal.recordAll exactText aWriter {}
        [(refusedDeletion, secondTry), (failedStep, secondTry)] = .ok journal ∧
      journal.stopped = false ∧
      readCleanupHistory exactText journal.file aWriter.scope =
        ⟨appendedEntries [(refusedDeletion, secondTry), (failedStep, secondTry)], []⟩ := by
  have hactions : ∀ action ∈ [(refusedDeletion, secondTry), (failedStep, secondTry)],
      action.1.Recordable := by
    intro action hmem
    rcases List.mem_cons.mp hmem with rfl | hmem
    · exact refusedDeletion_recordable
    · rw [List.mem_singleton.mp hmem]
      exact failedStep_recordable
  obtain ⟨journal, hrun, hrunning⟩ : ∃ journal : CleanupJournal,
      CleanupJournal.recordAll exactText aWriter {}
        [(refusedDeletion, secondTry), (failedStep, secondTry)] = .ok journal ∧
      journal.stopped = false := ⟨_, rfl, rfl⟩
  obtain ⟨hentries, hread, _⟩ := (cleanup_journal_reads_back exactText exactText_lawful
    exactText_printsIntegers).1 aWriter _ journal hactions hrun hrunning
  exact ⟨journal, hrun, hrunning, by rw [hread, hentries]⟩

end RefundStudy.ActionJournal
