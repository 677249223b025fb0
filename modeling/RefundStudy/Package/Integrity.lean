/-
  Byte integrity of one indexed file set (`evidence-package/package-integrity.ts`,
  `index-entries.ts`; BR-RUA-044).
-/
import RefundStudy.Foundation.InsertionMap
import RefundStudy.Package.Layout

set_option autoImplicit false

namespace RefundStudy.Package

open Foundation Record

/-! ## Stored files -/

structure PackageFile where
  path : String
  bytes : Bytes
  deriving DecidableEq

inductive FsEntryType where
  | file
  | directory
  | symlink
  | fifo
  | socket
  | blockDevice
  | characterDevice
  | unknown
  deriving DecidableEq

structure FsEntry where
  path : String
  type : FsEntryType

inductive ArtifactClass where
  | environmentInput
  | executionManifest
  | preflightJournal
  | sourceProvenance
  | oracleRevisionCheck
  | transportScopeSnapshot
  | schemaFile
  | deploymentAssemblyFile
  | deploymentAssemblyInventory
  | coordinationJournal
  | coordinationPrefixCheckpoint
  | provisioningJournal
  | resourceManifest
  | runnerJournal
  | providerWarmupJournal
  | callerCanaryJournal
  | controllerCanaryJournal
  | providerExecutionConfiguration
  | trialManifest
  | payment
  | approvedDecision
  | publishedMessage
  | providerTrialConfiguration
  | treatmentStateSnapshot
  | trialRegistration
  | callerJournal
  | providerJournal
  | controllerJournal
  | ledgerSnapshot
  | sourceObservations
  | dlqObservations
  | dlqSnapshot
  | settlementSamples
  | durableExecutionMetadata
  | telemetryAvailability
  | attemptProjection
  | oracleResult
  | transportProbeResult
  | evidenceIndex
  | lateEvidenceStream
  | lateEvidenceAssessment
  | preCleanupSnapshot
  | cleanupJournal
  | cleanupResult
  | leakAuditResult
  | comparisonAssessment
  | safetyAssessment
  | runSummary
  | validationSummary
  | transportProbeSummary
  | operationalRecoveryRecord
  | billingImport
  | billingExportFile
  deriving DecidableEq

inductive ArtifactDerivation where
  | primary
  | derived
  deriving DecidableEq

structure IndexEntry where
  artifactPath : String
  artifactClass : ArtifactClass
  derivation : ArtifactDerivation
  bytes : Nat
  sha256 : Sha256Hex
  deriving DecidableEq

abbrev ByteDigest : Type := Bytes → Sha256Hex

def fileAt (files : List PackageFile) (path : String) : Option PackageFile :=
  files.find? fun file => file.path == path

def DistinctPaths (files : List PackageFile) : Prop := (files.map PackageFile.path).Nodup

/-! ## Reasons -/

/-- `PACKAGE_INELIGIBILITY_CODES`. -/
inductive PackageIneligibilityCode where
  | indexMissing
  | alteredBytes
  | unindexedFile
  | unresolvedReference
  | nonTerminalStatus
  | brokenParent
  | sequenceGap
  | cycle
  | unknownHead
  | unselectedDescendant
  | contradictoryChain
  deriving DecidableEq

/-- Its code and the package-relative path it names. -/
structure PackageIneligibilityReason where
  code : PackageIneligibilityCode
  artifactPath : Option String

/-- A reason names a path only when it is a valid one inside the original package, whose location is
empty. -/
def ineligibility (code : PackageIneligibilityCode) (location : String)
    (path : Option String) : PackageIneligibilityReason :=
  ⟨code, path.filter fun p => location == "" && (invalidPathReason p).isNone⟩

/-! ## One indexed file set -/

structure IndexedFileSet where
  location : String
  entries : List IndexEntry
  files : List PackageFile
  specialEntries : List FsEntry
  unlisted : List String

def alteredEntryReason (location : String) (entry : IndexEntry) (file : Option PackageFile)
    (digest : ByteDigest) : List PackageIneligibilityReason :=
  match file with
  | none => [ineligibility .alteredBytes location (some entry.artifactPath)]
  | some file =>
    if file.bytes.length = entry.bytes ∧ digest file.bytes = entry.sha256 then []
    else [ineligibility .alteredBytes location (some entry.artifactPath)]

/-- `new Map(files.map((file) => [file.path, file]))`: the last file of a path is kept. -/
def filesByPath (files : List PackageFile) : InsertionMap String PackageFile :=
  files.foldl (fun map file => map.set file.path file) []

def fileSetIntegrityReasons (set : IndexedFileSet) (digest : ByteDigest) :
    List PackageIneligibilityReason :=
  let byPath := filesByPath set.files
  let listed := set.entries.map IndexEntry.artifactPath ++ set.unlisted
  let altered := set.entries.flatMap fun entry =>
    alteredEntryReason set.location entry (byPath.get? entry.artifactPath) digest
  let unindexedFiles := (set.files.filter fun file => !listed.contains file.path).map
    PackageFile.path
  let unindexed := (unindexedFiles ++ set.specialEntries.map FsEntry.path).map fun path =>
    ineligibility .unindexedFile set.location (some path)
  altered ++ unindexed

section Intact

variable {files : List PackageFile} {file : PackageFile} {path : String} {digest : ByteDigest}

theorem fileAt_mem (h : fileAt files path = some file) : file ∈ files ∧ file.path = path := by
  refine ⟨List.mem_of_find?_eq_some h, ?_⟩
  have hpath := List.find?_some h
  simpa using hpath

theorem eq_of_path_eq (hdistinct : DistinctPaths files) {first second : PackageFile}
    (hfirst : first ∈ files) (hsecond : second ∈ files) (hpath : first.path = second.path) :
    first = second :=
  List.inj_on_of_nodup_map hdistinct hfirst hsecond hpath

theorem fileAt_of_mem (hdistinct : DistinctPaths files) (hmem : file ∈ files) :
    fileAt files file.path = some file := by
  cases hfound : fileAt files file.path with
  | none =>
    have hnone := List.find?_eq_none.mp hfound file hmem
    simp at hnone
  | some found =>
    obtain ⟨hfoundMem, hpath⟩ := fileAt_mem hfound
    rw [eq_of_path_eq hdistinct hfoundMem hmem hpath]

/-- What the map of a file list finds is a file of the list or was in the map before. -/
theorem foldl_set_get? {map : InsertionMap String PackageFile}
    (h : (files.foldl (fun map file => map.set file.path file) map).get? path = some file) :
    (file ∈ files ∧ file.path = path) ∨ map.get? path = some file := by
  induction files generalizing map with
  | nil => exact .inr h
  | cons first rest ih =>
    rw [List.foldl_cons] at h
    rcases ih h with ⟨hmem, hpath⟩ | hbefore
    · exact .inl ⟨List.mem_cons_of_mem _ hmem, hpath⟩
    · by_cases hkey : path = first.path
      · rw [hkey, InsertionMap.get?_set_self] at hbefore
        obtain rfl : first = file := Option.some.inj hbefore
        exact .inl ⟨List.mem_cons_self, hkey.symm⟩
      · rw [InsertionMap.get?_set_of_ne _ hkey] at hbefore
        exact .inr hbefore

theorem filesByPath_mem (h : (filesByPath files).get? path = some file) :
    file ∈ files ∧ file.path = path := by
  rcases foldl_set_get? h with hmem | hbefore
  · exact hmem
  · cases hbefore

/-- The set holds exactly what its index says. -/
structure Intact (set : IndexedFileSet) (digest : ByteDigest) : Prop where
  /-- Every entry's file is stored with the indexed digest. -/
  stored : ∀ entry ∈ set.entries, ∃ file ∈ set.files, file.path = entry.artifactPath ∧
    file.bytes.length = entry.bytes ∧ digest file.bytes = entry.sha256
  /-- Every stored file is an entry's, or one the index cannot list. -/
  listed : ∀ file ∈ set.files,
    (∃ entry ∈ set.entries, entry.artifactPath = file.path) ∨ file.path ∈ set.unlisted
  /-- Nothing but regular files is stored. -/
  regular : set.specialEntries = []

theorem alteredEntryReason_nil {location : String} {entry : IndexEntry}
    {stored : Option PackageFile} (h : alteredEntryReason location entry stored digest = []) :
    ∃ file, stored = some file ∧ file.bytes.length = entry.bytes ∧
      digest file.bytes = entry.sha256 := by
  cases stored with
  | none => cases h
  | some file =>
    simp only [alteredEntryReason] at h
    split at h
    · rename_i hmatch
      exact ⟨file, rfl, hmatch.1, hmatch.2⟩
    · cases h

theorem intact_of_no_reasons {set : IndexedFileSet} (h : fileSetIntegrityReasons set digest = []) :
    Intact set digest := by
  unfold fileSetIntegrityReasons at h
  simp only [List.append_eq_nil_iff, List.flatMap_eq_nil_iff, List.map_eq_nil_iff] at h
  obtain ⟨haltered, hunindexed, hspecial⟩ := h
  refine ⟨fun entry hentry => ?_, fun file hfile => ?_, hspecial⟩
  · obtain ⟨file, hfound, hlength, hdigest⟩ := alteredEntryReason_nil (haltered entry hentry)
    obtain ⟨hmem, hpath⟩ := filesByPath_mem hfound
    exact ⟨file, hmem, hpath, hlength, hdigest⟩
  · have hlisted := List.filter_eq_nil_iff.mp hunindexed file hfile
    simp only [Bool.not_eq_true', Bool.not_eq_false, List.contains_iff_mem, List.mem_append,
      List.mem_map] at hlisted
    exact hlisted

theorem foldl_set_isSome {map : InsertionMap String PackageFile}
    (h : (∃ file ∈ files, file.path = path) ∨ (map.get? path).isSome = true) :
    ((files.foldl (fun map file => map.set file.path file) map).get? path).isSome = true := by
  induction files generalizing map with
  | nil =>
    rcases h with ⟨file, hmem, -⟩ | hbefore
    · exact absurd hmem List.not_mem_nil
    · exact hbefore
  | cons first rest ih =>
    rw [List.foldl_cons]
    apply ih
    by_cases hkey : path = first.path
    · right
      rw [hkey, InsertionMap.get?_set_self]
      rfl
    · rw [InsertionMap.get?_set_of_ne _ hkey]
      rcases h with ⟨file, hmem, hpath⟩ | hbefore
      · rcases List.mem_cons.mp hmem with rfl | hlater
        · exact absurd hpath.symm hkey
        · exact .inl ⟨file, hlater, hpath⟩
      · exact .inr hbefore

theorem filesByPath_get?_of_mem
    (hunique : ∀ first ∈ files, ∀ second ∈ files, first.path = second.path → first = second)
    (hmem : file ∈ files) : (filesByPath files).get? file.path = some file := by
  have hsome : ((filesByPath files).get? file.path).isSome = true :=
    foldl_set_isSome (.inl ⟨file, hmem, rfl⟩)
  obtain ⟨found, hfound⟩ := Option.isSome_iff_exists.mp hsome
  obtain ⟨hfoundMem, hpath⟩ := filesByPath_mem hfound
  rw [hfound, hunique found hfoundMem file hmem hpath]

theorem no_reasons_of_intact {set : IndexedFileSet} (h : Intact set digest)
    (hunique : ∀ first ∈ set.files, ∀ second ∈ set.files, first.path = second.path →
      first = second) : fileSetIntegrityReasons set digest = [] := by
  unfold fileSetIntegrityReasons
  simp only [List.append_eq_nil_iff, List.flatMap_eq_nil_iff, List.map_eq_nil_iff]
  refine ⟨fun entry hentry => ?_, ?_, h.regular⟩
  · obtain ⟨file, hfile, hpath, hlength, hdigest⟩ := h.stored entry hentry
    rw [← hpath, filesByPath_get?_of_mem hunique hfile]
    simp [alteredEntryReason, hlength, hdigest]
  · rw [List.filter_eq_nil_iff]
    intro file hfile
    have hlisted := h.listed file hfile
    simpa only [Bool.not_eq_true', Bool.not_eq_false, List.contains_iff_mem, List.mem_append,
      List.mem_map] using hlisted

end Intact

/-! ## Two sets under one index -/

theorem intact_mem_of_mem {first second : IndexedFileSet} {digest : ByteDigest}
    (hinjective : Function.Injective digest) (hfirst : Intact first digest)
    (hsecond : Intact second digest) (hdistinct : DistinctPaths first.files)
    (hentries : first.entries = second.entries)
    (hunlisted : ∀ file ∈ first.files, file.path ∈ first.unlisted → file ∈ second.files)
    {file : PackageFile} (hmem : file ∈ first.files) : file ∈ second.files := by
  rcases hfirst.listed file hmem with ⟨entry, hentry, hpath⟩ | hindex
  · obtain ⟨here, hhere, hherePath, -, hhereDigest⟩ := hfirst.stored entry hentry
    obtain ⟨there, hthere, htherePath, -, hthereDigest⟩ :=
      hsecond.stored entry (hentries ▸ hentry)
    obtain rfl : here = file :=
      eq_of_path_eq hdistinct hhere hmem (hherePath.trans hpath)
    have hbytes : here.bytes = there.bytes :=
      hinjective (hhereDigest.trans hthereDigest.symm)
    have hsame : here = there := by
      cases here
      cases there
      simp_all
    rw [hsame]
    exact hthere
  · exact hunlisted file hmem hindex

end RefundStudy.Package
