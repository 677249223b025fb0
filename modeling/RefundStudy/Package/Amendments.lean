/-
  Building one amendment package (`evidence-package/amendments.ts`, `index-entries.ts`,
  `artifact-classification.ts`; BR-RUA-043) and the schema an amendment index is read back under
  (`record-contract/schemas/group-c/amendment_index.schema.json`).
-/
import RefundStudy.Package.Verifier

set_option autoImplicit false

namespace RefundStudy.Package

open Foundation Record

/-! ## Classification of payload files -/

/-- Why an amendment was not written: each reason with the path or the rule it names. -/
inductive AmendmentFailure where
  | amendmentsUnreadable (subject : String)
  | amendmentNotWritten (subject : String)
  | invalidSequence
  | parentMismatch
  | coreFileMissing (artifactPath : String)
  | duplicateArtifactPath (artifactPath : Option String)
  | invalidArtifactPath
  | unclassifiableArtifactPath (artifactPath : String)
  | payloadNotAllowedForKind (artifactPath : String)
  deriving DecidableEq

structure ArtifactClassification where
  artifactClass : ArtifactClass
  derivation : ArtifactDerivation

structure PayloadRule extends ArtifactClassification where
  kinds : List AmendmentKind

def payloadRules : List (String × PayloadRule) :=
  [(lateEvidenceStreamPath, ⟨⟨.lateEvidenceStream, .primary⟩, [.lateEvidence]⟩),
    (lateEvidenceAssessmentPath, ⟨⟨.lateEvidenceAssessment, .derived⟩, [.lateEvidence, .reassessment]⟩),
    (operationalRecoveryRecordPath,
      ⟨⟨.operationalRecoveryRecord, .derived⟩, [.operationalRecovery]⟩),
    (preCleanupSnapshotPath, ⟨⟨.preCleanupSnapshot, .primary⟩, [.operationalRecovery]⟩),
    (cleanupJournalPath, ⟨⟨.cleanupJournal, .primary⟩, [.operationalRecovery]⟩),
    (cleanupResultPath, ⟨⟨.cleanupResult, .derived⟩, [.operationalRecovery]⟩),
    (leakAuditResultPath, ⟨⟨.leakAuditResult, .derived⟩, [.operationalRecovery]⟩),
    (billingImportPath, ⟨⟨.billingImport, .derived⟩, [.billing]⟩)]

def billingExportRule (path : String) : Option PayloadRule :=
  if billingExportDirectory.toList <+: path.toList then
    some ⟨⟨.billingExportFile, .primary⟩, [.billing]⟩
  else none

def classifyAmendmentPayload (kind : AmendmentKind) (path : String) :
    Except AmendmentFailure ArtifactClassification :=
  if (invalidPathReason path).isSome then .error .invalidArtifactPath
  else
    match (payloadRules.lookup path).or (billingExportRule path) with
    | none => .error (.unclassifiableArtifactPath path)
    | some rule =>
      if kind ∈ rule.kinds then .ok rule.toArtifactClassification
      else .error (.payloadNotAllowedForKind path)

/-! ## Index entries -/

/-- The loop of `duplicatePathReasons`, with the paths seen and the paths reported so far. -/
def duplicatePathsAfter (seen reported : List String) : List PackageFile → List AmendmentFailure
  | [] => []
  | file :: rest =>
    if file.path ∈ seen ∧ file.path ∉ reported then
      .duplicateArtifactPath (some file.path |>.filter fun p => (invalidPathReason p).isNone) ::
        duplicatePathsAfter (file.path :: seen) (file.path :: reported) rest
    else duplicatePathsAfter (file.path :: seen) reported rest

def duplicatePathReasons (files : List PackageFile) : List AmendmentFailure :=
  duplicatePathsAfter [] [] files

def indexEntry (digest : ByteDigest) (file : PackageFile) (found : ArtifactClassification) :
    IndexEntry :=
  ⟨file.path, found.artifactClass, found.derivation, file.bytes.length, digest file.bytes⟩

/-- The classification failures of a list of files, in order. -/
def classificationReasons (classify : String → Except AmendmentFailure ArtifactClassification)
    (files : List PackageFile) : List AmendmentFailure :=
  files.filterMap fun file =>
    match classify file.path with
    | .ok _ => none
    | .error reason => some reason

def classifiedEntries (digest : ByteDigest)
    (classify : String → Except AmendmentFailure ArtifactClassification)
    (files : List PackageFile) : List IndexEntry :=
  files.filterMap fun file =>
    match classify file.path with
    | .ok found => some (indexEntry digest file found)
    | .error _ => none

def buildIndexEntries (digest : ByteDigest) (files : List PackageFile)
    (classify : String → Except AmendmentFailure ArtifactClassification) :
    Except (List AmendmentFailure) (List IndexEntry) :=
  let reasons := duplicatePathReasons files ++ classificationReasons classify files
  if reasons = [] then
    .ok ((classifiedEntries digest classify files).insertionSort
      fun first second => codeUnitsLe first.artifactPath second.artifactPath)
  else .error reasons

/-! ## One amendment -/

/-- `serializeRecordFile` for amendment indexes and the document `parseJsonDocument` reads back
from the bytes: canonical JSON keeps every member of the record. -/
structure AmendmentIndexFiles where
  serializeRecordFile : AmendmentIndex → Bytes
  parseJsonDocument : Bytes → Option AmendmentIndex
  parse_serialize : ∀ index, parseJsonDocument (serializeRecordFile index) = some index

structure AmendmentInput where
  identity : ExecutionIdentity
  executionManifestSha256 : Sha256Hex
  amendmentId : Uuid4
  amendmentKind : AmendmentKind
  sequence : Nat
  originalPackageIndexSha256 : Sha256Hex
  parentAmendmentIndexSha256 : Option Sha256Hex
  payload : List PackageFile
  createdAt : UtcMillis

structure BuiltAmendment where
  directory : String
  index : AmendmentIndex
  files : List PackageFile

def requiredPayload : AmendmentKind → String
  | .lateEvidence => lateEvidenceAssessmentPath
  | .reassessment => lateEvidenceAssessmentPath
  | .operationalRecovery => operationalRecoveryRecordPath
  | .billing => billingImportPath

def sequenceReasons (sequence : Nat) (parent : Option Sha256Hex) : List AmendmentFailure :=
  if isPositiveSafeInteger sequence = false then [.invalidSequence]
  else if (sequence = 1) ↔ (parent = none) then []
  else [.parentMismatch]

/-- The reason that the record of the kind is missing from a payload. -/
def requiredReasons (kind : AmendmentKind) (payload : List PackageFile) : List AmendmentFailure :=
  if (fileAt payload (requiredPayload kind)).isNone then
    [.coreFileMissing (requiredPayload kind)]
  else []

def amendmentIndexOf (input : AmendmentInput) (entries : List IndexEntry) : AmendmentIndex :=
  ⟨executionIdentityFields input.identity, input.executionManifestSha256, input.amendmentId,
    input.amendmentKind, input.sequence, input.originalPackageIndexSha256,
    input.parentAmendmentIndexSha256, entries, input.createdAt⟩

def buildAmendment (digest : ByteDigest) (records : AmendmentIndexFiles) (input : AmendmentInput) :
    Except (List AmendmentFailure) BuiltAmendment :=
  let entries := buildIndexEntries digest input.payload
    (classifyAmendmentPayload input.amendmentKind)
  let before := sequenceReasons input.sequence input.parentAmendmentIndexSha256 ++
    requiredReasons input.amendmentKind input.payload
  match entries with
  | .error reasons => .error (before ++ reasons)
  | .ok entries =>
    if before = [] then
      let index := amendmentIndexOf input entries
      .ok ⟨amendmentDirectory input.identity input.sequence input.amendmentId, index,
        input.payload ++ [⟨amendmentIndexPath, records.serializeRecordFile index⟩]⟩
    else .error before

/-! ## The schema of an amendment index -/

/-- `(^|/)amendment-index\.json$`: the file is called like the index. -/
def namedLikeIndex (path : String) : Bool :=
  (path.toList.splitOn '/').getLast? == some amendmentIndexPath.toList

/-- The schema of one entry: a normalized path that is not named like the index, and a byte count
that is a safe integer. -/
def indexEntryValid (entry : IndexEntry) : Bool :=
  (invalidPathReason entry.artifactPath).isNone && !namedLikeIndex entry.artifactPath &&
    decide (entry.bytes ≤ maxSafeInteger)

/-- `x-rua-evidence-ref-order`: each entry's path is before the next one's. -/
def ascendingPaths : List IndexEntry → Bool
  | first :: second :: rest =>
    (codeUnitsLe first.artifactPath second.artifactPath &&
      first.artifactPath != second.artifactPath) && ascendingPaths (second :: rest)
  | _ => true

/-- `execution_identity`: exactly one of the three ids. -/
def IdentityCarrier.single (carried : IdentityCarrier) : Bool :=
  [carried.runId, carried.transportProbeId, carried.variantValidationId].countP Option.isSome == 1

/-- The amendment-index schema, for what the record's types leave open. -/
def amendmentIndexValid (index : AmendmentIndex) : Bool :=
  index.identity.single && isPositiveSafeInteger index.sequence && !index.entries.isEmpty &&
    index.entries.all indexEntryValid && ascendingPaths index.entries

/-- `parsePackageRecord` for an amendment index. -/
def AmendmentIndexFiles.parseAmendmentIndex (records : AmendmentIndexFiles) (bytes : Bytes) :
    Option AmendmentIndex :=
  (records.parseJsonDocument bytes).filter amendmentIndexValid

/-! ## What a built amendment is -/

section Built

variable {digest : ByteDigest} {files : List PackageFile} {file : PackageFile}
  {classify : String → Except AmendmentFailure ArtifactClassification} {entries : List IndexEntry}
  {entry : IndexEntry}

theorem duplicatePathsAfter_nil {seen : List String} (h : duplicatePathsAfter seen [] files = []) :
    DistinctPaths files ∧ ∀ file ∈ files, file.path ∉ seen := by
  induction files generalizing seen with
  | nil => exact ⟨List.nodup_nil, fun file hmem => absurd hmem List.not_mem_nil⟩
  | cons first rest ih =>
    simp only [duplicatePathsAfter] at h
    split at h
    · cases h
    · rename_i hfirst
      have hnew : first.path ∉ seen := fun hseen => hfirst ⟨hseen, List.not_mem_nil⟩
      obtain ⟨hdistinct, hunseen⟩ := ih h
      constructor
      · unfold DistinctPaths
        rw [List.map_cons, List.nodup_cons]
        refine ⟨fun hmem => ?_, hdistinct⟩
        obtain ⟨later, hlater, hpath⟩ := List.mem_map.mp hmem
        exact hunseen later hlater (by rw [hpath]; exact List.mem_cons_self)
      · intro file hmem
        rcases List.mem_cons.mp hmem with rfl | hlater
        · exact hnew
        · exact fun hseen => hunseen file hlater (List.mem_cons_of_mem _ hseen)

theorem mem_classifiedEntries : entry ∈ classifiedEntries digest classify files ↔
    ∃ file ∈ files, ∃ found, classify file.path = .ok found ∧
      entry = indexEntry digest file found := by
  unfold classifiedEntries
  rw [List.mem_filterMap]
  constructor
  · rintro ⟨file, hmem, hentry⟩
    cases hfound : classify file.path with
    | ok found =>
      rw [hfound] at hentry
      exact ⟨file, hmem, found, hfound, (Option.some.inj hentry).symm⟩
    | error reason =>
      rw [hfound] at hentry
      cases hentry
  · rintro ⟨file, hmem, found, hfound, rfl⟩
    exact ⟨file, hmem, by rw [hfound]⟩

theorem classifiedEntries_paths : ((classifiedEntries digest classify files).map
    IndexEntry.artifactPath).Sublist (files.map PackageFile.path) := by
  induction files with
  | nil => exact List.Sublist.refl _
  | cons first rest ih =>
    unfold classifiedEntries at ih ⊢
    rw [List.filterMap_cons]
    cases hfound : classify first.path with
    | ok found => exact ih.cons_cons _
    | error reason => exact ih.cons _

theorem ascendingPaths_sort (hdistinct : (entries.map IndexEntry.artifactPath).Nodup) :
    ascendingPaths (entries.insertionSort
      fun first second => codeUnitsLe first.artifactPath second.artifactPath) = true := by
  have : Std.Total fun first second : IndexEntry =>
      codeUnitsLe first.artifactPath second.artifactPath = true :=
    ⟨fun first second => codeUnitsLe_total _ _⟩
  have : IsTrans IndexEntry fun first second =>
      codeUnitsLe first.artifactPath second.artifactPath = true :=
    ⟨fun _ _ _ => codeUnitsLe_trans⟩
  have hsorted := List.pairwise_insertionSort (fun first second : IndexEntry =>
    codeUnitsLe first.artifactPath second.artifactPath = true) entries
  have hperm := List.perm_insertionSort (fun first second : IndexEntry =>
    codeUnitsLe first.artifactPath second.artifactPath = true) entries
  have hnodup := (hperm.map IndexEntry.artifactPath).nodup_iff.mpr hdistinct
  generalize entries.insertionSort (fun first second =>
    codeUnitsLe first.artifactPath second.artifactPath) = sorted at hsorted hnodup
  induction sorted with
  | nil => rfl
  | cons first rest ih =>
    cases rest with
    | nil => rfl
    | cons second rest =>
      have hle := (List.pairwise_cons.mp hsorted).1 second List.mem_cons_self
      have hne : first.artifactPath ≠ second.artifactPath := fun heq =>
        (List.nodup_cons.mp hnodup).1 (by rw [heq]; exact List.mem_cons_self)
      simp only [ascendingPaths, hle, Bool.true_and, Bool.and_eq_true, bne_iff_ne]
      exact ⟨hne, ih (List.pairwise_cons.mp hsorted).2 (List.nodup_cons.mp hnodup).2⟩

theorem buildIndexEntries_ok (h : buildIndexEntries digest files classify = .ok entries) :
    DistinctPaths files ∧
    (∀ file ∈ files, ∃ found, classify file.path = .ok found ∧
      indexEntry digest file found ∈ entries) ∧
    (∀ entry ∈ entries, ∃ file ∈ files, ∃ found, classify file.path = .ok found ∧
      entry = indexEntry digest file found) ∧
    ascendingPaths entries = true := by
  simp only [buildIndexEntries] at h
  split at h
  · rename_i hnone
    obtain rfl := Except.ok.inj h
    obtain ⟨hduplicates, hclassified⟩ := List.append_eq_nil_iff.mp hnone
    have hdistinct := (duplicatePathsAfter_nil hduplicates).1
    refine ⟨hdistinct, fun file hmem => ?_, fun entry hmem => ?_, ?_⟩
    · have hfound := List.filterMap_eq_nil_iff.mp hclassified file hmem
      cases hok : classify file.path with
      | error reason =>
        rw [hok] at hfound
        cases hfound
      | ok found =>
        refine ⟨found, rfl, (List.mem_insertionSort _).mpr ?_⟩
        exact mem_classifiedEntries.mpr ⟨file, hmem, found, hok, rfl⟩
    · exact mem_classifiedEntries.mp ((List.mem_insertionSort _).mp hmem)
    · exact ascendingPaths_sort (hdistinct.sublist classifiedEntries_paths)
  · cases h

theorem classifyAmendmentPayload_ok {kind : AmendmentKind} {path : String}
    {found : ArtifactClassification} (h : classifyAmendmentPayload kind path = .ok found) :
    invalidPathReason path = none ∧ path ≠ amendmentIndexPath := by
  unfold classifyAmendmentPayload at h
  split at h
  · cases h
  · rename_i hvalid
    have hnone : invalidPathReason path = none := by simpa using hvalid
    refine ⟨hnone, ?_⟩
    rintro rfl
    have hrule : (payloadRules.lookup amendmentIndexPath).or
        (billingExportRule amendmentIndexPath) = none := by decide +kernel
    rw [hrule] at h
    cases h

structure BuiltFrom (digest : ByteDigest) (records : AmendmentIndexFiles) (input : AmendmentInput)
    (built : BuiltAmendment) : Prop where
  directory : built.directory =
    amendmentDirectory input.identity input.sequence input.amendmentId
  index : built.index = amendmentIndexOf input built.index.entries
  files : built.files =
    input.payload ++ [⟨amendmentIndexPath, records.serializeRecordFile built.index⟩]
  sequence : isPositiveSafeInteger input.sequence = true
  parent : input.sequence = 1 ↔ input.parentAmendmentIndexSha256 = none
  required : input.payload ≠ []
  distinct : DistinctPaths input.payload
  entryOf : ∀ file ∈ input.payload, invalidPathReason file.path = none ∧
    file.path ≠ amendmentIndexPath ∧ ∃ entry ∈ built.index.entries,
      entry.artifactPath = file.path ∧ entry.bytes = file.bytes.length ∧
      entry.sha256 = digest file.bytes
  fileOf : ∀ entry ∈ built.index.entries, ∃ file ∈ input.payload,
    entry.artifactPath = file.path ∧ entry.bytes = file.bytes.length ∧
    entry.sha256 = digest file.bytes
  ascending : ascendingPaths built.index.entries = true

theorem sequenceReasons_nil {sequence : Nat} {parent : Option Sha256Hex}
    (h : sequenceReasons sequence parent = []) :
    isPositiveSafeInteger sequence = true ∧ (sequence = 1 ↔ parent = none) := by
  unfold sequenceReasons at h
  split at h
  · cases h
  · rename_i hsafe
    split at h
    · rename_i hparent
      exact ⟨by simpa using hsafe, hparent⟩
    · cases h

theorem buildAmendment_ok {records : AmendmentIndexFiles} {input : AmendmentInput}
    {built : BuiltAmendment} (h : buildAmendment digest records input = .ok built) :
    BuiltFrom digest records input built := by
  simp only [buildAmendment] at h
  split at h
  · cases h
  · rename_i entries hentries
    split at h
    · rename_i hbefore
      obtain rfl := Except.ok.inj h
      obtain ⟨hsequence, hrequired⟩ := List.append_eq_nil_iff.mp hbefore
      obtain ⟨hsafe, hparent⟩ := sequenceReasons_nil hsequence
      obtain ⟨hdistinct, hentryOf, hfileOf, hascending⟩ := buildIndexEntries_ok hentries
      refine ⟨rfl, rfl, rfl, hsafe, hparent, ?_, hdistinct, fun file hmem => ?_,
        fun entry hmem => ?_, hascending⟩
      · intro hempty
        simp [requiredReasons, hempty, fileAt] at hrequired
      · obtain ⟨found, hfound, hin⟩ := hentryOf file hmem
        obtain ⟨hvalid, hne⟩ := classifyAmendmentPayload_ok hfound
        exact ⟨hvalid, hne, _, hin, rfl, rfl, rfl⟩
      · obtain ⟨file, hfile, found, -, rfl⟩ := hfileOf entry hmem
        exact ⟨file, hfile, rfl, rfl, rfl⟩
    · cases h

end Built

/-! ## Reading a built amendment back -/

section ReadBuilt

variable {digest : ByteDigest} {records : AmendmentIndexFiles} {input : AmendmentInput}
  {built : BuiltAmendment}

theorem single_executionIdentityFields (identity : ExecutionIdentity) :
    (executionIdentityFields identity).single = true := by
  unfold executionIdentityFields
  cases identity.kind <;> rfl

/-- A built index passes its schema unless a payload file is named like the index. -/
theorem built_index_valid (h : BuiltFrom digest records input built)
    (hsizes : ∀ file ∈ input.payload, file.bytes.length ≤ maxSafeInteger)
    (hnames : ∀ file ∈ input.payload, namedLikeIndex file.path = false) :
    amendmentIndexValid built.index = true := by
  obtain ⟨first, hfirst⟩ := List.exists_mem_of_ne_nil _ h.required
  obtain ⟨-, -, some, hsome, -⟩ := h.entryOf first hfirst
  have hidentity : built.index.identity.single = true := by
    rw [h.index]
    exact single_executionIdentityFields _
  have hsequence : isPositiveSafeInteger built.index.sequence = true := by
    rw [h.index]
    exact h.sequence
  have hentries : built.index.entries.isEmpty = false := by
    rw [List.isEmpty_eq_false_iff]
    exact List.ne_nil_of_mem hsome
  have hall : built.index.entries.all indexEntryValid = true := by
    rw [List.all_eq_true]
    intro entry hentry
    obtain ⟨file, hfile, hpath, hbytes, -⟩ := h.fileOf entry hentry
    simp [indexEntryValid, hpath, hbytes, (h.entryOf file hfile).1, hnames file hfile,
      hsizes file hfile]
  simp [amendmentIndexValid, hidentity, hsequence, hentries, hall, h.ascending]

theorem built_index_invalid (h : BuiltFrom digest records input built) {file : PackageFile}
    (hfile : file ∈ input.payload) (hname : namedLikeIndex file.path = true) :
    amendmentIndexValid built.index = false := by
  obtain ⟨-, -, entry, hentry, hpath, -⟩ := h.entryOf file hfile
  rw [Bool.eq_false_iff]
  intro hvalid
  simp only [amendmentIndexValid, Bool.and_eq_true, List.all_eq_true] at hvalid
  have hentryValid := hvalid.1.2 entry hentry
  simp [indexEntryValid, hpath, hname] at hentryValid

theorem built_parse (h : BuiltFrom digest records input built)
    (hsizes : ∀ file ∈ input.payload, file.bytes.length ≤ maxSafeInteger)
    (hnames : ∀ file ∈ input.payload, namedLikeIndex file.path = false) :
    records.parseAmendmentIndex (records.serializeRecordFile built.index) = some built.index := by
  rw [AmendmentIndexFiles.parseAmendmentIndex, records.parse_serialize]
  simp [built_index_valid h hsizes hnames]

theorem built_distinct (h : BuiltFrom digest records input built) : DistinctPaths built.files := by
  unfold DistinctPaths
  rw [h.files, List.map_append]
  refine h.distinct.append (List.nodup_singleton _) ?_
  intro path hpayload hindex
  obtain ⟨file, hfile, rfl⟩ := List.mem_map.mp hpayload
  exact (h.entryOf file hfile).2.1 (List.mem_singleton.mp hindex)

end ReadBuilt

end RefundStudy.Package
