/-
  What a late stream holds (`evidence-collection/late-record-capture.ts`,
  `late-record-identity.ts`, BR-RUA-043).
-/
import RefundStudy.Collection.LateCapture
import RefundStudy.LateEvidence.FoldedLedgers

set_option autoImplicit false

namespace RefundStudy.Collection

open Foundation Record Store
open LateEvidence (LateEvidenceSource)

variable {capture : DocumentCapture} {value : JsonDocument} {ledger : List UInt8}

/-! ## Frozen records -/

section Frozen

variable {text : NumberText}

theorem parseLine_distinctNames {segment : LineSegment}
    (h : parseLine text segment = .ok value) : Record.DistinctNames value := by
  unfold parseLine parseJsonText at h
  split at h
  · cases h
  · split at h
    · cases h
    · rename_i parsed hparsed
      split at h
      · cases h
      · rw [← Except.ok.inj h]
        exact parseJson_distinctNames hparsed

theorem ownValue_distinctNames {document value : JsonDocument} {key : JsString}
    (h : Record.DistinctNames document) (hvalue : ownValue document key = some value) :
    Record.DistinctNames value := by
  cases h with
  | object _ inside => exact inside (key, value) (InsertionMap.mem_of_get? hvalue)
  | _ => cases hvalue

theorem listMember_distinctNames {kind : DocumentItemKind} {document : JsonDocument}
    {items : List JsonDocument} (h : Record.DistinctNames document)
    (hitems : listMember kind document = some items) : ∀ item ∈ items, Record.DistinctNames item := by
  unfold listMember at hitems
  split at hitems
  · rename_i found hvalue
    rw [← Option.some.inj hitems]
    cases ownValue_distinctNames h hvalue with
    | array inside => exact inside
  · cases hitems

theorem documentItems_distinctNames {kind : DocumentItemKind} {document : JsonDocument}
    (h : Record.DistinctNames document) : ∀ item ∈ documentItems kind document, Record.DistinctNames item := by
  unfold documentItems
  cases hitems : listMember kind document with
  | none =>
    intro item hmem
    cases hmem
  | some items => exact listMember_distinctNames h hitems

theorem parseJsonDocument_distinctNames {bytes : List UInt8}
    (h : parseJsonDocument text bytes = some value) : Record.DistinctNames value := by
  unfold parseJsonDocument at h
  obtain ⟨chars, -, hparsed⟩ := Option.bind_eq_some_iff.mp h
  obtain ⟨document, hdocument, hfinite⟩ := Option.bind_eq_some_iff.mp hparsed
  split at hfinite
  · cases hfinite
  · rw [← Option.some.inj hfinite]
    exact parseJson_distinctNames hdocument

theorem frozenRecords_distinctNames {kind : LateItemKind} {bytes : List UInt8}
    {records : List JsonDocument} (h : frozenRecords text kind bytes = .ok records) :
    ∀ record ∈ records, Record.DistinctNames record := by
  intro record hmem
  cases kind with
  | journalEvent =>
    obtain ⟨line, hline, hvalue⟩ := mem_of_mapM_ok h record hmem
    unfold parseJsonl at hline
    obtain ⟨index, hindex, rfl⟩ := List.mem_mapIdx.mp hline
    simp only at hvalue
    split at hvalue
    · rename_i value hparsed
      rw [← Except.ok.inj hvalue]
      exact parseLine_distinctNames hparsed
    · cases hvalue
  | document kind =>
    change frozenDocumentItems text kind bytes = .ok records at h
    unfold frozenDocumentItems at h
    split at h
    · cases h
    · rename_i document hdocument
      split at h
      · cases h
      · rename_i items hitems
        rw [← Except.ok.inj h] at hmem
        exact listMember_distinctNames (parseJsonDocument_distinctNames hdocument) hitems record
          hmem

end Frozen

/-! ## Parts of the capture -/

/-- What a step adds is part of what another adds. -/
structure CaptureState.Within (part whole : CaptureState) : Prop where
  observations : ∀ observation ∈ part.observations, observation ∈ whole.observations
  failures : ∀ reason ∈ part.failures, reason ∈ whole.failures

namespace CaptureState.Within

variable {part middle whole : CaptureState}

theorem trans (first : part.Within middle) (second : middle.Within whole) : part.Within whole :=
  ⟨fun observation hmem => second.observations observation (first.observations observation hmem),
   fun reason hmem => second.failures reason (first.failures reason hmem)⟩

theorem left (part other : CaptureState) : part.Within (part.then other) :=
  ⟨fun _ hmem => List.mem_append_left _ hmem, fun _ hmem => List.mem_append_left _ hmem⟩

theorem right (part other : CaptureState) : part.Within (other.then part) :=
  ⟨fun _ hmem => List.mem_append_right _ hmem, fun _ hmem => List.mem_append_right _ hmem⟩

theorem ofMem {states : List CaptureState} (h : part ∈ states) : part.Within (.all states) :=
  ⟨fun _ hmem => List.mem_flatMap.mpr ⟨part, h, hmem⟩,
   fun _ hmem => List.mem_flatMap.mpr ⟨part, h, hmem⟩⟩

theorem clean (h : part.Within whole) (hwhole : whole.failures = []) : part.failures = [] := by
  rw [List.eq_nil_iff_forall_not_mem]
  intro reason hmem
  have hfailed := h.failures reason hmem
  rw [hwhole] at hfailed
  cases hfailed

end CaptureState.Within

section Steps

variable {text : NumberText} {context : ReadContext} {source : LateEvidenceSource}

theorem keepObservation_clean {capturedAt : JsString} {record : JsonDocument}
    (h : (keepObservation context source capturedAt record).failures = []) :
    ∃ observation ∈ (keepObservation context source capturedAt record).observations,
      observation.record = record ∧ observation.lateSource = source := by
  unfold keepObservation at h ⊢
  split at h
  · cases h
  · exact ⟨_, List.mem_singleton_self _, rfl, rfl⟩

/-- The records a re-read is compared with; a missing copy is an empty one where it may be. -/
def Baseline (text : NumberText) (kind : LateItemKind) (context : ReadContext)
    (key : CollectedFileKey) (conditional : Bool) (frozen : List JsonDocument) : Prop :=
  (context.frozen key = none ∧ conditional = true ∧ frozen = []) ∨
    ∃ bytes, context.frozen key = some bytes ∧ frozenRecords text kind bytes = .ok frozen

theorem lateAgainstFrozen_ok (law : text.Lawful) (hprints : PrintsJson text) {kind : LateItemKind}
    {key : CollectedFileKey} {items late : List JsonDocument} {conditional : Bool}
    (hitems : ∀ item ∈ items, Record.DistinctNames item)
    (h : lateAgainstFrozen text kind context key items conditional = .ok late) :
    ∃ frozen, Baseline text kind context key conditional frozen ∧
      late = lateItems kind frozen items := by
  unfold lateAgainstFrozen at h
  split at h
  · rename_i hnone
    split at h
    · rename_i hconditional
      refine ⟨[], .inl ⟨hnone, hconditional, rfl⟩, ?_⟩
      rw [← Except.ok.inj h]
      exact absentItems_eq_lateItems law hprints kind (fun _ hmem => absurd hmem List.not_mem_nil)
        hitems
    · cases h
  · rename_i bytes hbytes
    split at h
    · rename_i known hknown
      unfold frozenIdentities at hknown
      cases hrecords : frozenRecords text kind bytes with
      | error problem =>
        rw [hrecords] at hknown
        cases hknown
      | ok frozen =>
        rw [hrecords] at hknown
        refine ⟨frozen, .inr ⟨bytes, hbytes, hrecords⟩, ?_⟩
        rw [← Except.ok.inj h, ← Except.ok.inj hknown]
        exact absentItems_eq_lateItems law hprints kind (frozenRecords_distinctNames hrecords)
          hitems
    · cases h

theorem captureJournal_clean (law : text.Lawful) (hprints : PrintsJson text) {read : JournalRead}
    (h : (captureJournal text context read).failures = []) :
    ∃ files, read.exported = .ok files ∧ ∀ file ∈ files, ∃ frozen,
      Baseline text .journalEvent context (.journal file.file) false frozen ∧
      ∀ event ∈ lateItems .journalEvent frozen file.events,
        ∃ observation ∈ (captureJournal text context read).observations,
          observation.record = event ∧ observation.lateSource = journalLateSource file.file := by
  unfold captureJournal at h ⊢
  split at h
  · cases h
  · rename_i files hfiles
    refine ⟨files, hfiles, fun file hfile => ?_⟩
    have hpart := CaptureState.Within.ofMem (List.mem_map_of_mem (f := fun file : RereadJournal =>
      keepEvents context (journalLateSource file.file) read.capturedAt
        (lateAgainstFrozen text .journalEvent context (.journal file.file) file.events false)) hfile)
    have hclean := hpart.clean h
    cases hlate : lateAgainstFrozen text .journalEvent context (.journal file.file) file.events
        false with
    | error reason =>
      rw [hlate] at hclean
      cases hclean
    | ok late =>
      obtain ⟨frozen, hbaseline, rfl⟩ := lateAgainstFrozen_ok law hprints file.distinct hlate
      refine ⟨frozen, hbaseline, fun event hevent => ?_⟩
      rw [hlate] at hpart hclean
      have hkept : (keepObservation context (journalLateSource file.file) read.capturedAt
          event).Within (keepEvents context (journalLateSource file.file) read.capturedAt
            (.ok (lateItems .journalEvent frozen file.events))) :=
        .ofMem (List.mem_map_of_mem hevent)
      obtain ⟨observation, hmem, hrecord, hsource⟩ := keepObservation_clean (hkept.clean hclean)
      exact ⟨observation, (hkept.trans hpart).observations observation hmem, hrecord, hsource⟩

theorem keepDocument_of_late {read : DocumentRead} {document : DocumentCapture}
    {late : List JsonDocument} (h : lateAgainstFrozen text (.document read.kind) context read.key
      (documentItems read.kind (.object document.record)) read.conditional = .ok late) :
    keepDocument text context read document =
      if (late.filter read.within).length = 0 then ⟨[], []⟩
      else keepObservation context read.source document.capturedAt
        (.object (InsertionMap.set document.record read.kind.listMember
          (.array (late.filter read.within)))) := by
  unfold keepDocument
  simp only [h]

theorem keepDocument_clean (law : text.Lawful) (hprints : PrintsJson text) {read : DocumentRead}
    {document : DocumentCapture} (h : (keepDocument text context read document).failures = []) :
    ∃ frozen, Baseline text (.document read.kind) context read.key read.conditional frozen ∧
      ∀ item ∈ lateItems (.document read.kind) frozen
          (documentItems read.kind (.object document.record)), read.within item = true →
        ∃ observation ∈ (keepDocument text context read document).observations,
          item ∈ documentItems read.kind observation.record ∧
            observation.lateSource = read.source := by
  cases hlate : lateAgainstFrozen text (.document read.kind) context read.key
      (documentItems read.kind (.object document.record)) read.conditional with
  | error reason =>
    unfold keepDocument at h
    simp only [hlate] at h
    cases h
  | ok late =>
    rw [keepDocument_of_late hlate] at h ⊢
    obtain ⟨frozen, hbaseline, rfl⟩ := lateAgainstFrozen_ok law hprints
      (documentItems_distinctNames document.distinct) hlate
    refine ⟨frozen, hbaseline, fun item hitem hwithin => ?_⟩
    have hkept := List.mem_filter.mpr ⟨hitem, hwithin⟩
    have hsome := List.length_pos_of_mem hkept
    rw [if_neg (by omega)] at h ⊢
    obtain ⟨observation, hmem, hrecord, hsource⟩ := keepObservation_clean h
    refine ⟨observation, hmem, ?_, hsource⟩
    rw [hrecord, documentItems, listMember, ownValue, InsertionMap.get?_set_self]
    exact hkept

end Steps

/-! ## The stream -/

section Stream

variable {text : NumberText} {plan : LateCapturePlan} {stream : LateRecordStream}

theorem lateEvidenceLine_record (observation : LateObservation) (sequence : Nat) :
    ownValue (lateEvidenceLine observation sequence) (jsString "late_record") =
      some observation.record :=
  InsertionMap.get?_set_self _ _ _

theorem lateEvidenceLine_source (observation : LateObservation) (sequence : Nat) :
    ownValue (lateEvidenceLine observation sequence) (jsString "late_source") =
      some (.string (jsString observation.lateSource.name)) := by
  unfold lateEvidenceLine ownValue
  simp only
  rw [InsertionMap.get?_set_of_ne _ (by decide), InsertionMap.get?_set_of_ne _ (by decide),
    InsertionMap.get?_set_of_ne _ (by decide), InsertionMap.get?_set_self]

def LateRecordStream.Carries (stream : LateRecordStream) (source : LateEvidenceSource)
    (carried : JsonDocument → Prop) : Prop :=
  ∃ line ∈ stream.records, ∃ record, ownValue line (jsString "late_record") = some record ∧
    ownValue line (jsString "late_source") = some (.string (jsString source.name)) ∧ carried record

theorem captureLateRecords_ok (h : captureLateRecords text plan = .ok stream) :
    ∃ state : CaptureState, state.failures = [] ∧
      (∀ unit ∈ plan.units, (captureUnit text plan unit.1 unit.2).Within state) ∧
      (captureExecutionPartitions text plan).Within state ∧
      ∀ observation ∈ state.observations,
        stream.Carries observation.lateSource fun record => record = observation.record := by
  unfold captureLateRecords at h
  simp only at h
  split at h
  · cases h
  · rename_i hnone
    split at h
    · rename_i bytes hbytes
      refine ⟨_, List.eq_nil_of_length_eq_zero (Nat.eq_zero_of_not_pos hnone), fun unit hunit => ?_,
        .right _ _, ?_⟩
      · refine CaptureState.Within.trans (.ofMem ?_) (.left _ _)
        exact List.mem_map_of_mem (f := fun unit : LateCaptureUnit × UnitReads =>
          captureUnit text plan unit.1 unit.2) hunit
      · intro observation hmem
        obtain ⟨index, hindex, hvalue⟩ := List.getElem_of_mem hmem
        rw [← Except.ok.inj h]
        refine ⟨lateEvidenceLine observation (index + 1), ?_, observation.record,
          lateEvidenceLine_record _ _, lateEvidenceLine_source _ _, rfl⟩
        exact List.mem_mapIdx.mpr ⟨index, hindex, by rw [hvalue]⟩
    · cases h

theorem journal_within {state : CaptureState}
    (hunits : ∀ unit ∈ plan.units, (captureUnit text plan unit.1 unit.2).Within state)
    (hpartitions : (captureExecutionPartitions text plan).Within state)
    {read : ReadContext × JournalRead} (hread : read ∈ journalReads plan) :
    (captureJournal text read.1 read.2).Within state := by
  rcases List.mem_append.mp hread with hunit | hpartition
  · obtain ⟨unit, hmem, hjournal⟩ := List.mem_flatMap.mp hunit
    have hjournals : (captureJournal text read.1 read.2).Within
        (captureUnit text plan unit.1 unit.2) := by
      refine CaptureState.Within.trans ?_ (.left _ _)
      rcases List.mem_cons.mp hjournal with rfl | hexperiment
      · exact .left _ _
      · rw [List.mem_singleton.mp hexperiment]
        exact .right _ _
    exact hjournals.trans (hunits unit hmem)
  · obtain ⟨partition, hmem, rfl⟩ := List.mem_map.mp hpartition
    exact (CaptureState.Within.ofMem (List.mem_map_of_mem hmem)).trans hpartitions

theorem document_within {unit : LateCaptureUnit × UnitReads}
    {read : DocumentRead × DocumentCapture} (hread : read ∈ documentReads plan unit.1 unit.2) :
    (keepDocument text unit.1.context read.1 read.2).Within
      (captureUnit text plan unit.1 unit.2) := by
  refine CaptureState.Within.trans ?_ (.right _ _)
  refine CaptureState.Within.trans (.right _ ⟨[], read.2.failures.map .readFailed⟩) (.ofMem ?_)
  exact List.mem_map_of_mem (f := fun read : DocumentRead × DocumentCapture =>
    CaptureState.then ⟨[], read.2.failures.map .readFailed⟩
      (keepDocument text unit.1.context read.1 read.2)) hread

/-- A returned stream carries every re-read record, within its trial's window, whose identity
neither a frozen record of its artifact nor an earlier re-read one has; and identities are those
of the records' identity members. -/
theorem late_stream_holds_new_identities (law : text.Lawful) (hprints : PrintsJson text)
    (h : captureLateRecords text plan = .ok stream) :
    (∀ kind first second, Record.DistinctNames first → Record.DistinctNames second →
      (itemIdentity text kind first = itemIdentity text kind second ↔
        SameIdentity kind first second)) ∧
    (∀ read ∈ journalReads plan, ∃ files, read.2.exported = .ok files ∧ ∀ file ∈ files, ∃ frozen,
      Baseline text .journalEvent read.1 (.journal file.file) false frozen ∧
      ∀ event ∈ lateItems .journalEvent frozen file.events,
        stream.Carries (journalLateSource file.file) fun record => record = event) ∧
    ∀ unit ∈ plan.units, ∀ read ∈ documentReads plan unit.1 unit.2, ∃ frozen,
      Baseline text (.document read.1.kind) unit.1.context read.1.key read.1.conditional frozen ∧
      ∀ item ∈ lateItems (.document read.1.kind) frozen
          (documentItems read.1.kind (.object read.2.record)), read.1.within item = true →
        stream.Carries read.1.source fun record => item ∈ documentItems read.1.kind record := by
  obtain ⟨state, hclean, hunits, hpartitions, hcarries⟩ := captureLateRecords_ok h
  refine ⟨fun kind first second => itemIdentity_eq_iff law hprints, fun read hread => ?_,
    fun unit hunit read hread => ?_⟩
  · have hwithin := journal_within hunits hpartitions hread
    obtain ⟨files, hfiles, hall⟩ := captureJournal_clean law hprints (hwithin.clean hclean)
    refine ⟨files, hfiles, fun file hfile => ?_⟩
    obtain ⟨frozen, hbaseline, hevents⟩ := hall file hfile
    refine ⟨frozen, hbaseline, fun event hevent => ?_⟩
    obtain ⟨observation, hmem, hrecord, hsource⟩ := hevents event hevent
    rw [← hsource, ← hrecord]
    exact hcarries observation (hwithin.observations observation hmem)
  · have hwithin := (@document_within text plan unit read hread).trans (hunits unit hunit)
    obtain ⟨frozen, hbaseline, hitems⟩ := keepDocument_clean law hprints (hwithin.clean hclean)
    refine ⟨frozen, hbaseline, fun item hitem hinside => ?_⟩
    obtain ⟨observation, hmem, hcarried, hsource⟩ := hitems item hitem hinside
    obtain ⟨line, hline, record, hrecord, hlineSource, rfl⟩ :=
      hcarries observation (hwithin.observations observation hmem)
    exact ⟨line, hline, observation.record, hrecord, hsource ▸ hlineSource, hcarried⟩

end Stream

/-! ## A ledger that is read again -/

section Sample

open LateEvidence (sampleLedger sampleTransaction emptyLedger representable_sampleLedger
  representable_sampleTransaction)

theorem representable_distinctNames (h : Representable value) :
    Record.DistinctNames value := by
  induction h with
  | null => exact .null
  | bool flag => exact .bool flag
  | number => exact .number _
  | string chars => exact .string chars
  | array _ ih => exact .array ih
  | object distinct _ ih => exact .object distinct ih

def membersOf : JsonDocument → List (JsString × JsonDocument)
  | .object members => members
  | _ => []

def ledgerCapture (transactions : List JsonDocument)
    (h : ∀ transaction ∈ transactions, Representable transaction) : DocumentCapture where
  record := membersOf (sampleLedger (doubleOfNat 1 one_lt_bound) transactions)
  capturedAt := jsString "2026-10-05T12:07:37.000Z"
  failures := []
  distinct := representable_distinctNames (representable_sampleLedger _ h)

def emptyJournal (file : CollectedJournalFile) : JournalRead where
  capturedAt := jsString "2026-10-05T12:40:00.000Z"
  exported := .ok [⟨file, [], fun _ hmem => by cases hmem⟩]

def frozenWith (ledger : List UInt8) : CollectedFileKey → Option (List UInt8)
  | .journal _ => some []
  | .ledgerSnapshot => some ledger
  | _ => none

def ledgerContext (ledger : List UInt8) : ReadContext where
  correlation := [(jsString "run_id", .string (jsString "b42ee7a8-4b45-43d7-8ca3-cb72ceae84c4"))]
  correlated := true
  frozen := frozenWith ledger
  owner := "b42ee7a8-4b45-43d7-8ca3-cb72ceae84c4#d1d0a2b9-d331-4919-a5e0-44819414b6e9"

def ledgerPlan (ledger : List UInt8) (capture : DocumentCapture) : LateCapturePlan where
  units :=
    [(⟨ledgerContext ledger, true, false, none⟩,
      ⟨emptyJournal .callerJournal, emptyJournal .providerJournal, capture, capture, capture⟩)]
  correlation := (ledgerContext ledger).correlation
  executionFrozen := frozenWith ledger
  partitionKey := fun _ => "b42ee7a8-4b45-43d7-8ca3-cb72ceae84c4"
  partitionRead := emptyJournal

theorem captureUnit_ledgerPlan
    {state : CaptureState} (hfailures : capture.failures = [])
    (h : keepDocument exactText (ledgerContext ledger) ledgerRead capture = state) :
    (captureUnit exactText (ledgerPlan ledger capture) ⟨ledgerContext ledger, true, false, none⟩
      ⟨emptyJournal .callerJournal, emptyJournal .providerJournal, capture, capture, capture⟩) =
      ⟨state.observations ++ [], state.failures ++ []⟩ := by
  unfold captureUnit
  have hreads : documentReads (ledgerPlan ledger capture) ⟨ledgerContext ledger, true, false, none⟩
      ⟨emptyJournal .callerJournal, emptyJournal .providerJournal, capture, capture, capture⟩ =
      [(ledgerRead, capture)] := rfl
  rw [hreads]
  simp only [List.map_cons, List.map_nil, h, hfailures]
  rfl

theorem captureLateRecords_ledgerPlan
    {observations : List LateObservation} (hfailures : capture.failures = [])
    (h : keepDocument exactText (ledgerContext ledger) ledgerRead capture = ⟨observations, []⟩)
    (hfinite : (observations.mapIdx fun index observation =>
      lateEvidenceLine observation (index + 1)).findIdx? hasNonFinite = none) :
    ∃ stream, captureLateRecords exactText (ledgerPlan ledger capture) = .ok stream ∧
      stream.records = observations.mapIdx fun index observation =>
        lateEvidenceLine observation (index + 1) := by
  have hstate : (CaptureState.all ((ledgerPlan ledger capture).units.map fun unit =>
      captureUnit exactText (ledgerPlan ledger capture) unit.1 unit.2)).then
        (captureExecutionPartitions exactText (ledgerPlan ledger capture)) = ⟨observations, []⟩ := by
    have hunits : ((ledgerPlan ledger capture).units.map fun unit =>
        captureUnit exactText (ledgerPlan ledger capture) unit.1 unit.2) =
        [⟨observations ++ [], [] ++ []⟩] :=
      congrArg (fun state => [state]) (captureUnit_ledgerPlan hfailures h)
    rw [hunits]
    have hpartitions : captureExecutionPartitions exactText (ledgerPlan ledger capture) = ⟨[], []⟩ :=
      rfl
    rw [hpartitions]
    simp [CaptureState.all, CaptureState.then]
  unfold captureLateRecords
  simp only
  rw [hstate]
  simp only [List.length_nil, Nat.lt_irrefl, if_false, encodeLateLines, hfinite]
  exact ⟨_, rfl, rfl⟩

def changedTransaction : JsonDocument :=
  .object (InsertionMap.set (membersOf sampleTransaction) (jsString "amount_minor")
    (.number (.finite (doubleOfNat 9000 (by decide)))))

theorem representable_changedTransaction : Representable changedTransaction :=
  LateEvidence.representable_set representable_sampleTransaction (.number rfl)

def changedCapture : DocumentCapture :=
  ledgerCapture [changedTransaction] fun transaction hmem => by
    rw [List.mem_singleton.mp hmem]
    exact representable_changedTransaction

def sampleCapture : DocumentCapture :=
  ledgerCapture [sampleTransaction] fun transaction hmem => by
    rw [List.mem_singleton.mp hmem]
    exact representable_sampleTransaction

theorem frozenRecords_ledger (count : FiniteDouble) {transactions : List JsonDocument}
    (h : ∀ transaction ∈ transactions, Representable transaction) :
    frozenRecords exactText (.document .ledgerTransaction)
        (recordFileBytes exactText (sampleLedger count transactions)) =
      .ok (transactions.map structuralForm) := by
  have hrep := representable_sampleLedger count h
  have hmember : ownValue (structuralForm (sampleLedger count transactions))
      (jsString "transactions") = some (.array (transactions.map structuralForm)) :=
    (LateEvidence.memberOf_structuralForm hrep _).trans
      (congrArg some (structuralForm_array transactions))
  unfold frozenRecords frozenDocumentItems listMember DocumentItemKind.listMember
  rw [parseJsonDocument_recordFile exactText_lawful exactText_printsJson hrep]
  simp only [hmember]

theorem keepDocument_ledger {frozen late : List JsonDocument}
    (h : frozenRecords exactText (.document .ledgerTransaction) ledger = .ok frozen)
    (hlate : absentItems exactText (.document .ledgerTransaction)
      (frozen.map (itemIdentity exactText (.document .ledgerTransaction)))
      (documentItems .ledgerTransaction (.object capture.record)) = late) :
    keepDocument exactText (ledgerContext ledger) ledgerRead capture =
      if late.length = 0 then ⟨[], []⟩
      else keepObservation (ledgerContext ledger) .ledger capture.capturedAt
        (.object (InsertionMap.set capture.record DocumentItemKind.ledgerTransaction.listMember
          (.array late))) := by
  have hidentities : frozenIdentities exactText (.document .ledgerTransaction) ledger =
      .ok (frozen.map (itemIdentity exactText (.document .ledgerTransaction))) := by
    unfold frozenIdentities
    rw [h]
    rfl
  have hagainst : lateAgainstFrozen exactText (.document .ledgerTransaction) (ledgerContext ledger)
      .ledgerSnapshot (documentItems .ledgerTransaction (.object capture.record)) false =
        .ok late := by
    unfold lateAgainstFrozen
    simp only [ledgerContext, frozenWith, hidentities, hlate]
  have hkept := @keepDocument_of_late exactText (ledgerContext ledger) ledgerRead capture late
    hagainst
  rw [hkept]
  simp only [ledgerRead, List.filter_true]

theorem itemIdentity_changedTransaction :
    itemIdentity exactText (.document .ledgerTransaction) changedTransaction =
      itemIdentity exactText (.document .ledgerTransaction) (structuralForm sampleTransaction) := by
  have hparts : keyParts (.document .ledgerTransaction) changedTransaction =
      keyParts (.document .ledgerTransaction) (structuralForm sampleTransaction) := rfl
  rw [itemIdentity_eq, itemIdentity_eq, hparts]

theorem changedTransaction_differs :
    structurallyEqual exactText changedTransaction (structuralForm sampleTransaction) = false := by
  refine beq_false_of_ne fun htexts => ?_
  have hforms := (canonicalJson_eq_iff exactText_lawful exactText_printsJson
    representable_changedTransaction representable_sampleTransaction.structuralForm).mp htexts
  rw [structuralForm_structuralForm representable_sampleTransaction] at hforms
  have hamounts := congrArg (LateEvidence.memberOf · (jsString "amount_minor")) hforms
  have hchanged : LateEvidence.memberOf changedTransaction (jsString "amount_minor") =
      some (.number (.finite (doubleOfNat 9000 (by decide)))) := by
    simp [changedTransaction, LateEvidence.memberOf]
  have hsample : LateEvidence.memberOf sampleTransaction (jsString "amount_minor") =
      some (.number (.finite (doubleOfNat 10000 (by decide)))) := by
    simp [sampleTransaction, LateEvidence.memberOf, InsertionMap.get?]
  rw [LateEvidence.memberOf_structuralForm representable_changedTransaction,
    LateEvidence.memberOf_structuralForm representable_sampleTransaction, hchanged,
    hsample] at hamounts
  have hnumbers := congrArg naturalOf (JsonDocument.number.inj (Option.some.inj hamounts))
  revert hnumbers
  decide +kernel

noncomputable def frozenLedgerFile : List UInt8 :=
  recordFileBytes exactText (sampleLedger (doubleOfNat 1 one_lt_bound) [sampleTransaction])

theorem frozenRecords_frozenLedgerFile :
    frozenRecords exactText (.document .ledgerTransaction) frozenLedgerFile =
      .ok [structuralForm sampleTransaction] := by
  refine frozenRecords_ledger _ fun transaction hmem => ?_
  rw [List.mem_singleton.mp hmem]
  exact representable_sampleTransaction

theorem changed_transaction_not_carried : ∃ stream,
    captureLateRecords exactText (ledgerPlan frozenLedgerFile changedCapture) = .ok stream ∧
      stream.records = [] ∧
      changedTransaction ∈ documentItems .ledgerTransaction (.object changedCapture.record) ∧
      frozenRecords exactText (.document .ledgerTransaction) frozenLedgerFile =
        .ok [structuralForm sampleTransaction] ∧
      structurallyEqual exactText changedTransaction (structuralForm sampleTransaction) = false := by
  have hitems : documentItems .ledgerTransaction (.object changedCapture.record) =
      [changedTransaction] := rfl
  have habsent : absentItems exactText (.document .ledgerTransaction)
      ([structuralForm sampleTransaction].map
        (itemIdentity exactText (.document .ledgerTransaction)))
      (documentItems .ledgerTransaction (.object changedCapture.record)) = [] := by
    rw [hitems]
    refine fresh_eq_nil.mpr fun item hmem => ?_
    rw [List.mem_singleton.mp hmem, itemIdentity_changedTransaction]
    exact List.mem_singleton_self _
  have hkept := keepDocument_ledger frozenRecords_frozenLedgerFile habsent
  rw [if_pos List.length_nil] at hkept
  obtain ⟨stream, hstream, hrecords⟩ := captureLateRecords_ledgerPlan rfl hkept rfl
  refine ⟨stream, hstream, hrecords, ?_, frozenRecords_frozenLedgerFile,
    changedTransaction_differs⟩
  rw [hitems]
  exact List.mem_singleton_self _

noncomputable def emptyLedgerFile : List UInt8 := recordFileBytes exactText emptyLedger

theorem frozenRecords_emptyLedgerFile :
    frozenRecords exactText (.document .ledgerTransaction) emptyLedgerFile = .ok [] :=
  frozenRecords_ledger _ fun _ hmem => absurd hmem List.not_mem_nil

theorem new_transaction_carried : ∃ stream,
    captureLateRecords exactText (ledgerPlan emptyLedgerFile sampleCapture) = .ok stream ∧
      stream.Carries .ledger fun record =>
        sampleTransaction ∈ documentItems .ledgerTransaction record := by
  have hitems : documentItems .ledgerTransaction (.object sampleCapture.record) =
      [sampleTransaction] := rfl
  have hlate : absentItems exactText (.document .ledgerTransaction)
      (([] : List JsonDocument).map (itemIdentity exactText (.document .ledgerTransaction)))
      (documentItems .ledgerTransaction (.object sampleCapture.record)) = [sampleTransaction] := by
    rw [hitems]
    simp [absentItems, fresh]
  have hkept := keepDocument_ledger frozenRecords_emptyLedgerFile hlate
  rw [if_neg (by decide), keepObservation] at hkept
  obtain ⟨stream, hstream, -⟩ := captureLateRecords_ledgerPlan rfl hkept (by rfl)
  refine ⟨stream, hstream, ?_⟩
  obtain ⟨-, -, hdocuments⟩ :=
    late_stream_holds_new_identities exactText_lawful exactText_printsJson hstream
  obtain ⟨frozen, hbaseline, hcarries⟩ := hdocuments _ List.mem_cons_self (ledgerRead, sampleCapture)
    List.mem_cons_self
  have hempty : frozen = [] := by
    rcases hbaseline with ⟨hnone, -⟩ | ⟨bytes, hbytes, hrecords⟩
    · cases hnone
    · have hfile : emptyLedgerFile = bytes := Option.some.inj hbytes
      rw [← hfile] at hrecords
      exact (Except.ok.inj (frozenRecords_emptyLedgerFile.symm.trans hrecords)).symm
  refine hcarries sampleTransaction ?_ rfl
  rw [hempty]
  change sampleTransaction ∈ lateItems (.document .ledgerTransaction) []
    (documentItems .ledgerTransaction (.object sampleCapture.record))
  rw [hitems]
  simp [lateItems]

end Sample

end RefundStudy.Collection
