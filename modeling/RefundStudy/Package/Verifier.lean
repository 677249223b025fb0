/-
  The package verifier (`evidence-package/package-verifier.ts`, `amendment-snapshots.ts`;
  BR-RUA-043, BR-RUA-044).
-/
import RefundStudy.Package.AmendmentChain

set_option autoImplicit false

namespace RefundStudy.Package

open Foundation Record

/-! ## What the verifier reads -/

inductive CleanupStatus where
  | notStarted
  | running
  | succeeded
  | partially
  | failed
  deriving DecidableEq

inductive LateEvidenceStatus where
  | none
  | consistent
  | contradictory
  | unverified
  deriving DecidableEq

structure PackageIndex where
  executionKind : ExecutionKind
  identity : IdentityCarrier
  executionManifestSha256 : Sha256Hex
  entries : List IndexEntry

structure SummaryRecord where
  identity : IdentityCarrier
  cleanupStatus : CleanupStatus

structure PackageSnapshot where
  files : List PackageFile
  specialEntries : List FsEntry

structure AmendmentSnapshot where
  directory : String
  files : List PackageFile
  specialEntries : List FsEntry

structure PackageVerificationInput where
  identity : ExecutionIdentity
  original : PackageSnapshot
  amendments : List AmendmentSnapshot
  selectedHead : Option Sha256Hex
  referencedPackageIndexes : List Sha256Hex
  evaluatedAt : UtcMillis

/-- The digest, `parsePackageRecord` with the catalogue's validator at each record type, and the two
checks below the final index (`nested-indexes.ts`, `reference-resolution.ts`), which read the same
files and only add reasons. -/
structure PackageVerifierDeps where
  digest : ByteDigest
  parsePackageIndex : Bytes → Option PackageIndex
  parseAmendmentIndex : Bytes → Option AmendmentIndex
  parseSummary : ExecutionKind → Bytes → Option SummaryRecord
  parseLateEvidenceAssessment : Bytes → Option LateEvidenceStatus
  nestedIndexReasons : List PackageFile → List PackageIneligibilityReason
  unresolvedReferenceReasons : List IndexEntry → List PackageFile → List Sha256Hex →
    List PackageIneligibilityReason

/-! ## Amendments read back -/

structure ReadAmendments where
  amendments : List ParsedAmendment
  reasons : List PackageIneligibilityReason

def amendmentFileSet (location : String) (snapshot : AmendmentSnapshot) (index : AmendmentIndex) :
    IndexedFileSet :=
  ⟨location, index.entries, snapshot.files, snapshot.specialEntries, [amendmentIndexPath]⟩

def readAmendment (location : String) (snapshot : AmendmentSnapshot) (digest : ByteDigest)
    (parseAmendmentIndex : Bytes → Option AmendmentIndex) : ReadAmendments :=
  match fileAt snapshot.files amendmentIndexPath with
  | none => ⟨[], [ineligibility .alteredBytes location none]⟩
  | some indexFile =>
    match parseAmendmentIndex indexFile.bytes with
    | none => ⟨[], [ineligibility .alteredBytes location none]⟩
    | some index =>
      ⟨[⟨location, index, digest indexFile.bytes, snapshot.files⟩],
        fileSetIntegrityReasons (amendmentFileSet location snapshot index) digest⟩

def amendmentLocation (directory : String) (snapshot : AmendmentSnapshot) : String :=
  directory ++ "/" ++ snapshot.directory ++ "/"

def readAmendments (directory : String) (snapshots : List AmendmentSnapshot) (digest : ByteDigest)
    (parseAmendmentIndex : Bytes → Option AmendmentIndex) : ReadAmendments :=
  let reads := snapshots.map fun snapshot =>
    readAmendment (amendmentLocation directory snapshot) snapshot digest parseAmendmentIndex
  ⟨reads.flatMap ReadAmendments.amendments, reads.flatMap ReadAmendments.reasons⟩

def contradictory (amendment : ParsedAmendment) : PackageIneligibilityReason :=
  ineligibility .contradictoryChain amendment.location none

def finalAssessmentReasons (chain : List ParsedAmendment)
    (parseLateEvidenceAssessment : Bytes → Option LateEvidenceStatus) :
    List PackageIneligibilityReason :=
  let assessing := chain.filter fun amendment =>
    amendment.index.amendmentKind == .lateEvidence || amendment.index.amendmentKind == .reassessment
  match assessing.getLast? with
  | none => []
  | some last =>
    match (fileAt last.files lateEvidenceAssessmentPath).bind fun file =>
        parseLateEvidenceAssessment file.bytes with
    | none => [contradictory last]
    | some status => if status = .contradictory then [contradictory last] else []

/-! ## The verification -/

structure PackageVerification where
  identity : IdentityCarrier
  reasons : List PackageIneligibilityReason
  originalPackageIndexSha256 : Sha256Hex
  selectedAmendmentHeadSha256 : Option Sha256Hex
  selectedChain : List AmendmentLink
  knownDescendants : List AmendmentLink
  evaluatedAt : UtcMillis

/-- `eligibilityOutcome`: eligible exactly when there is no reason. -/
def PackageVerification.eligible (verification : PackageVerification) : Bool :=
  verification.reasons.isEmpty

variable (input : PackageVerificationInput)

variable (deps : PackageVerifierDeps)

def readPackageIndex : Except PackageIneligibilityReason PackageIndex :=
  match (fileAt input.original.files packageIndexPath).bind fun file =>
      deps.parsePackageIndex file.bytes with
  | none => .error (ineligibility .indexMissing "" (some packageIndexPath))
  | some index =>
    if index.executionKind ≠ input.identity.kind ∨
        belongsToExecution index.identity input.identity = false then
      .error (ineligibility .indexMissing "" (some packageIndexPath))
    else .ok index

def originalFileSet (index : PackageIndex) : IndexedFileSet :=
  ⟨"", index.entries, input.original.files, input.original.specialEntries, [packageIndexPath]⟩

def indexedPackageReasons (index : PackageIndex) (manifestDigest : Sha256Hex)
    (input : PackageVerificationInput) (deps : PackageVerifierDeps) :
    List PackageIneligibilityReason :=
  (if index.executionManifestSha256 = manifestDigest then []
    else [ineligibility .alteredBytes "" (some executionManifestPath)]) ++
  fileSetIntegrityReasons (originalFileSet input index) deps.digest ++
  deps.nestedIndexReasons input.original.files ++
  deps.unresolvedReferenceReasons index.entries input.original.files input.referencedPackageIndexes

def nonTerminal (path : String) : PackageIneligibilityReason :=
  ineligibility .nonTerminalStatus "" (some path)

def summaryReasons (identity : ExecutionIdentity) (files : List PackageFile)
    (parseSummary : ExecutionKind → Bytes → Option SummaryRecord) :
    List PackageIneligibilityReason :=
  let path := summaryPath identity.kind
  match (fileAt files path).bind fun file => parseSummary identity.kind file.bytes with
  | none => [nonTerminal path]
  | some summary =>
    if belongsToExecution summary.identity identity = false then [nonTerminal path]
    else if summary.cleanupStatus = .notStarted ∨ summary.cleanupStatus = .running then
      [nonTerminal path]
    else []

def storedDigest (files : List PackageFile) (path : String) (digest : ByteDigest) : Sha256Hex :=
  digest (((fileAt files path).map PackageFile.bytes).getD [])

def amendmentsRead : ReadAmendments :=
  readAmendments (amendmentsDirectory input.identity) input.amendments deps.digest
    deps.parseAmendmentIndex

def graphInput : AmendmentGraphInput :=
  ⟨input.identity, storedDigest input.original.files executionManifestPath deps.digest,
    storedDigest input.original.files packageIndexPath deps.digest,
    (amendmentsRead input deps).amendments, input.selectedHead⟩

def verifyPackage : PackageVerification :=
  let files := input.original.files
  let manifestDigest := storedDigest files executionManifestPath deps.digest
  let read := amendmentsRead input deps
  let graph := resolveAmendmentGraph (graphInput input deps)
  let reasons :=
    (match readPackageIndex input deps with
      | .ok index => indexedPackageReasons index manifestDigest input deps
      | .error reason => [reason]) ++
    summaryReasons input.identity files deps.parseSummary ++
    read.reasons ++
    graph.reasons ++
    finalAssessmentReasons graph.selectedChain deps.parseLateEvidenceAssessment
  { identity := executionIdentityFields input.identity
    reasons := reasons
    originalPackageIndexSha256 := storedDigest files packageIndexPath deps.digest
    selectedAmendmentHeadSha256 := input.selectedHead
    selectedChain := if input.selectedHead.isNone then [] else graph.selectedChain.map amendmentLink
    knownDescendants := graph.knownDescendants
    evaluatedAt := input.evaluatedAt }

/-! ## An eligible package -/

section Eligible

variable {input : PackageVerificationInput} {deps : PackageVerifierDeps}

structure ReadBack (deps : PackageVerifierDeps) (snapshot : AmendmentSnapshot)
    (amendment : ParsedAmendment) : Prop where
  indexed : ∃ indexFile, fileAt snapshot.files amendmentIndexPath = some indexFile ∧
    deps.parseAmendmentIndex indexFile.bytes = some amendment.index ∧
    amendment.indexSha256 = deps.digest indexFile.bytes
  intact : Intact (amendmentFileSet amendment.location snapshot amendment.index) deps.digest

theorem readAmendment_readBack {location : String} {snapshot : AmendmentSnapshot}
    (h : (readAmendment location snapshot deps.digest deps.parseAmendmentIndex).reasons = []) :
    ∃ amendment, (readAmendment location snapshot deps.digest
      deps.parseAmendmentIndex).amendments = [amendment] ∧ ReadBack deps snapshot amendment := by
  unfold readAmendment at h ⊢
  cases hfile : fileAt snapshot.files amendmentIndexPath with
  | none =>
    rw [hfile] at h
    cases h
  | some indexFile =>
    cases hparsed : deps.parseAmendmentIndex indexFile.bytes with
    | none =>
      simp only [hfile, hparsed] at h
      cases h
    | some index =>
      simp only [hfile, hparsed] at h
      simp only [hparsed]
      refine ⟨_, rfl, ⟨indexFile, hfile, hparsed, rfl⟩, ?_⟩
      exact intact_of_no_reasons h

/-- What an eligible verification says about the stored bytes. -/
structure EligibleFacts (input : PackageVerificationInput) (deps : PackageVerifierDeps) : Prop where
  original : ∃ indexFile index, fileAt input.original.files packageIndexPath = some indexFile ∧
    deps.parsePackageIndex indexFile.bytes = some index ∧
    Intact (originalFileSet input index) deps.digest
  readBack : List.Forall₂ (ReadBack deps) input.amendments (amendmentsRead input deps).amendments
  chain : CompleteChain (graphInput input deps)

theorem readPackageIndex_ok {index : PackageIndex} (h : readPackageIndex input deps = .ok index) :
    ∃ indexFile, fileAt input.original.files packageIndexPath = some indexFile ∧
      deps.parsePackageIndex indexFile.bytes = some index := by
  unfold readPackageIndex at h
  split at h
  · cases h
  · rename_i parsed hparsed
    split at h
    · cases h
    · obtain rfl := Except.ok.inj h
      exact Option.bind_eq_some_iff.mp hparsed

/-- Snapshots that each read back as one amendment read back in order. -/
theorem forall₂_flatMap {α β : Type} {R : α → β → Prop} {f : α → List β} {items : List α}
    (h : ∀ item ∈ items, ∃ value, f item = [value] ∧ R item value) :
    List.Forall₂ R items (items.flatMap f) := by
  induction items with
  | nil => exact .nil
  | cons first rest ih =>
    obtain ⟨value, hvalue, hrelated⟩ := h first List.mem_cons_self
    rw [List.flatMap_cons, hvalue]
    exact .cons hrelated (ih fun item hmem => h item (List.mem_cons_of_mem _ hmem))

theorem forall₂_mem {α β : Type} {R : α → β → Prop} {items : List α} {values : List β}
    (h : List.Forall₂ R items values) :
    (∀ item ∈ items, ∃ value ∈ values, R item value) ∧
      ∀ value ∈ values, ∃ item ∈ items, R item value := by
  induction h with
  | nil => exact ⟨fun _ hmem => absurd hmem List.not_mem_nil, fun _ hmem => absurd hmem List.not_mem_nil⟩
  | cons hrelated _ ih =>
    constructor
    · intro item hmem
      rcases List.mem_cons.mp hmem with rfl | hlater
      · exact ⟨_, List.mem_cons_self, hrelated⟩
      · obtain ⟨value, hvalue, hfound⟩ := ih.1 item hlater
        exact ⟨value, List.mem_cons_of_mem _ hvalue, hfound⟩
    · intro value hmem
      rcases List.mem_cons.mp hmem with rfl | hlater
      · exact ⟨_, List.mem_cons_self, hrelated⟩
      · obtain ⟨item, hitem, hfound⟩ := ih.2 value hlater
        exact ⟨item, List.mem_cons_of_mem _ hitem, hfound⟩

theorem eligibleFacts (h : (verifyPackage input deps).eligible = true) :
    EligibleFacts input deps := by
  have hreasons : (verifyPackage input deps).reasons = [] := List.isEmpty_iff.mp h
  simp only [verifyPackage, List.append_eq_nil_iff] at hreasons
  obtain ⟨⟨⟨⟨hindex, -⟩, hread⟩, hgraph⟩, -⟩ := hreasons
  refine ⟨?_, ?_, completeChain_of_no_reasons hgraph⟩
  · cases hok : readPackageIndex input deps with
    | error reason =>
      rw [hok] at hindex
      cases hindex
    | ok index =>
      rw [hok] at hindex
      simp only [indexedPackageReasons, List.append_eq_nil_iff] at hindex
      obtain ⟨indexFile, hfile, hparsed⟩ := readPackageIndex_ok hok
      exact ⟨indexFile, index, hfile, hparsed, intact_of_no_reasons hindex.1.1.2⟩
  · simp only [amendmentsRead, readAmendments, List.flatMap_map]
    apply forall₂_flatMap
    intro snapshot hmem
    exact readAmendment_readBack (List.flatMap_eq_nil_iff.mp hread _ (List.mem_map_of_mem hmem))

end Eligible

/-! ## Two eligible packages -/

def SameFiles (first second : List PackageFile) : Prop := ∀ file, file ∈ first ↔ file ∈ second

def AmendmentSnapshot.indexBytes (snapshot : AmendmentSnapshot) : Option Bytes :=
  (fileAt snapshot.files amendmentIndexPath).map PackageFile.bytes

/-- The amendments of two executions, matched by their stored index: each index stands once on
either side, both sides have the same ones, and directories of one index hold the same files. -/
structure MatchedByIndex (first second : List AmendmentSnapshot) : Prop where
  distinct_first : (first.map AmendmentSnapshot.indexBytes).Nodup
  distinct_second : (second.map AmendmentSnapshot.indexBytes).Nodup
  same_indexes : ∀ bytes, bytes ∈ first.map AmendmentSnapshot.indexBytes ↔
    bytes ∈ second.map AmendmentSnapshot.indexBytes
  same_files : ∀ here ∈ first, ∀ there ∈ second, here.indexBytes = there.indexBytes →
    SameFiles here.files there.files

structure DistinctStored (input : PackageVerificationInput) : Prop where
  original : DistinctPaths input.original.files
  amendments : ∀ snapshot ∈ input.amendments, DistinctPaths snapshot.files

section Pinned

variable {first second : PackageVerificationInput} {deps : PackageVerifierDeps}

theorem intact_sameFiles {here there : IndexedFileSet} {path : String}
    (hinjective : Function.Injective deps.digest) (hhere : Intact here deps.digest)
    (hthere : Intact there deps.digest) (hdistinctHere : DistinctPaths here.files)
    (hdistinctThere : DistinctPaths there.files) (hentries : here.entries = there.entries)
    (hunlistedHere : here.unlisted = [path]) (hunlistedThere : there.unlisted = [path])
    {indexHere indexThere : PackageFile} (hindexHere : fileAt here.files path = some indexHere)
    (hindexThere : fileAt there.files path = some indexThere)
    (hbytes : indexHere.bytes = indexThere.bytes) : SameFiles here.files there.files := by
  obtain ⟨hmemHere, hpathHere⟩ := fileAt_mem hindexHere
  obtain ⟨hmemThere, hpathThere⟩ := fileAt_mem hindexThere
  have hindex : indexHere = indexThere := by
    cases indexHere
    cases indexThere
    simp_all
  intro file
  constructor
  · intro hmem
    refine intact_mem_of_mem hinjective hhere hthere hdistinctHere hentries ?_ hmem
    intro other hother hunlisted
    rw [hunlistedHere, List.mem_singleton] at hunlisted
    rw [eq_of_path_eq hdistinctHere hother hmemHere (hunlisted.trans hpathHere.symm), hindex]
    exact hmemThere
  · intro hmem
    refine intact_mem_of_mem hinjective hthere hhere hdistinctThere hentries.symm ?_ hmem
    intro other hother hunlisted
    rw [hunlistedThere, List.mem_singleton] at hunlisted
    rw [eq_of_path_eq hdistinctThere hother hmemThere (hunlisted.trans hpathThere.symm), ← hindex]
    exact hmemHere

theorem original_sameFiles (hinjective : Function.Injective deps.digest)
    (hfirst : EligibleFacts first deps) (hsecond : EligibleFacts second deps)
    (hdistinctFirst : DistinctStored first) (hdistinctSecond : DistinctStored second)
    (hbytes : (fileAt first.original.files packageIndexPath).map PackageFile.bytes =
      (fileAt second.original.files packageIndexPath).map PackageFile.bytes) :
    SameFiles first.original.files second.original.files := by
  obtain ⟨fileHere, indexHere, hfileHere, hparsedHere, hintactHere⟩ := hfirst.original
  obtain ⟨fileThere, indexThere, hfileThere, hparsedThere, hintactThere⟩ := hsecond.original
  rw [hfileHere, hfileThere] at hbytes
  have hsame : fileHere.bytes = fileThere.bytes := Option.some.inj hbytes
  rw [hsame, hparsedThere] at hparsedHere
  obtain rfl : indexThere = indexHere := Option.some.inj hparsedHere
  exact intact_sameFiles hinjective hintactHere hintactThere hdistinctFirst.original
    hdistinctSecond.original rfl rfl rfl hfileHere hfileThere hsame

theorem ReadBack.indexBytes {snapshot : AmendmentSnapshot} {amendment : ParsedAmendment}
    (h : ReadBack deps snapshot amendment) :
    ∃ bytes, snapshot.indexBytes = some bytes ∧
      deps.parseAmendmentIndex bytes = some amendment.index ∧
      amendment.indexSha256 = deps.digest bytes := by
  obtain ⟨indexFile, hfile, hparsed, hdigest⟩ := h.indexed
  exact ⟨indexFile.bytes, by rw [AmendmentSnapshot.indexBytes, hfile]; rfl, hparsed, hdigest⟩

theorem ReadBack.index_eq {here there : AmendmentSnapshot} {amendment other : ParsedAmendment}
    (hinjective : Function.Injective deps.digest) (hhere : ReadBack deps here amendment)
    (hthere : ReadBack deps there other) (hdigest : amendment.indexSha256 = other.indexSha256) :
    here.indexBytes = there.indexBytes ∧ amendment.index = other.index := by
  obtain ⟨bytesHere, hbytesHere, hparsedHere, hdigestHere⟩ := hhere.indexBytes
  obtain ⟨bytesThere, hbytesThere, hparsedThere, hdigestThere⟩ := hthere.indexBytes
  rw [hdigestHere, hdigestThere] at hdigest
  obtain rfl : bytesHere = bytesThere := hinjective hdigest
  rw [hparsedHere] at hparsedThere
  exact ⟨hbytesHere.trans hbytesThere.symm, Option.some.inj hparsedThere⟩

theorem EligibleFacts.distinct_indexes (h : EligibleFacts first deps) :
    (first.amendments.map AmendmentSnapshot.indexBytes).Nodup := by
  have hdigests : ∀ (snapshots : List AmendmentSnapshot) (amendments : List ParsedAmendment),
      List.Forall₂ (ReadBack deps) snapshots amendments →
      snapshots.map (fun snapshot => snapshot.indexBytes.map deps.digest) =
        amendments.map fun amendment => some amendment.indexSha256 := by
    intro snapshots amendments hrelated
    induction hrelated with
    | nil => rfl
    | cons hread _ ih =>
      obtain ⟨bytes, hbytes, -, hdigest⟩ := hread.indexBytes
      simp only [List.map_cons, hbytes, hdigest, Option.map_some, ih]
  have hnodup : ((amendmentsRead first deps).amendments.map
      fun amendment => some amendment.indexSha256).Nodup := by
    have hmapped := h.chain.distinct.map (Option.some_injective Sha256Hex)
    rwa [List.map_map] at hmapped
  rw [← hdigests _ _ h.readBack] at hnodup
  refine List.Nodup.of_map (fun bytes : Option Bytes => bytes.map deps.digest) ?_
  rw [List.map_map]
  exact hnodup

theorem EligibleFacts.index_known (hinjective : Function.Injective deps.digest)
    (hfirst : EligibleFacts first deps) (hsecond : EligibleFacts second deps)
    (hhead : first.selectedHead = second.selectedHead) {bytes : Option Bytes}
    (hmem : bytes ∈ first.amendments.map AmendmentSnapshot.indexBytes) :
    bytes ∈ second.amendments.map AmendmentSnapshot.indexBytes := by
  obtain ⟨here, hhere, rfl⟩ := List.mem_map.mp hmem
  obtain ⟨amendment, hamendment, hreadHere⟩ := (forall₂_mem hfirst.readBack).1 here hhere
  have hknown := hfirst.chain.digest_known hsecond.chain hhead ?_ hamendment
  · obtain ⟨other, hother, hdigest⟩ := hknown
    obtain ⟨there, hthere, hreadThere⟩ := (forall₂_mem hsecond.readBack).2 other hother
    have hbytes := (hreadHere.index_eq hinjective hreadThere hdigest.symm).1
    exact List.mem_map.mpr ⟨there, hthere, hbytes.symm⟩
  · intro amendment hamendment other hother hdigest
    obtain ⟨_, _, hreadHere⟩ := (forall₂_mem hfirst.readBack).2 amendment hamendment
    obtain ⟨_, _, hreadThere⟩ := (forall₂_mem hsecond.readBack).2 other hother
    exact (hreadHere.index_eq hinjective hreadThere hdigest).2

theorem EligibleFacts.matched (hinjective : Function.Injective deps.digest)
    (hfirst : EligibleFacts first deps) (hsecond : EligibleFacts second deps)
    (hdistinctFirst : DistinctStored first) (hdistinctSecond : DistinctStored second)
    (hhead : first.selectedHead = second.selectedHead) :
    MatchedByIndex first.amendments second.amendments := by
  refine ⟨hfirst.distinct_indexes, hsecond.distinct_indexes, fun bytes => ⟨?_, ?_⟩, ?_⟩
  · exact hfirst.index_known hinjective hsecond hhead
  · exact hsecond.index_known hinjective hfirst hhead.symm
  · intro here hhere there hthere hbytes
    obtain ⟨amendment, -, hreadHere⟩ := (forall₂_mem hfirst.readBack).1 here hhere
    obtain ⟨other, -, hreadThere⟩ := (forall₂_mem hsecond.readBack).1 there hthere
    obtain ⟨fileHere, hfileHere, hparsedHere, -⟩ := hreadHere.indexed
    obtain ⟨fileThere, hfileThere, hparsedThere, -⟩ := hreadThere.indexed
    simp only [AmendmentSnapshot.indexBytes, hfileHere, hfileThere, Option.map_some,
      Option.some.injEq] at hbytes
    rw [hbytes, hparsedThere] at hparsedHere
    have hentries : other.index.entries = amendment.index.entries := by
      rw [Option.some.inj hparsedHere]
    exact intact_sameFiles hinjective hreadHere.intact hreadThere.intact
      (hdistinctFirst.amendments here hhere) (hdistinctSecond.amendments there hthere)
      hentries.symm rfl rfl hfileHere hfileThere hbytes

theorem EligibleFacts.packageIndex_eq (hinjective : Function.Injective deps.digest)
    (hfirst : EligibleFacts first deps) (hsecond : EligibleFacts second deps) {head : Sha256Hex}
    (hheadFirst : first.selectedHead = some head) (hheadSecond : second.selectedHead = some head) :
    (fileAt first.original.files packageIndexPath).map PackageFile.bytes =
      (fileAt second.original.files packageIndexPath).map PackageFile.bytes := by
  obtain ⟨amendment, hamendment⟩ := hfirst.chain.headKnown head hheadFirst
  obtain ⟨other, hother⟩ := hsecond.chain.headKnown head hheadSecond
  obtain ⟨hamendmentMem, hamendmentDigest⟩ := get?_byDigest hamendment
  obtain ⟨hotherMem, hotherDigest⟩ := get?_byDigest hother
  obtain ⟨_, _, hreadHere⟩ := (forall₂_mem hfirst.readBack).2 amendment hamendmentMem
  obtain ⟨_, _, hreadThere⟩ := (forall₂_mem hsecond.readBack).2 other hotherMem
  have hindex := (hreadHere.index_eq hinjective hreadThere
    (hamendmentDigest.trans hotherDigest.symm)).2
  have hdigest := (hfirst.chain.original amendment hamendmentMem).symm.trans
    ((congrArg AmendmentIndex.originalPackageIndexSha256 hindex).trans
      (hsecond.chain.original other hotherMem))
  obtain ⟨fileHere, -, hfileHere, -⟩ := hfirst.original
  obtain ⟨fileThere, -, hfileThere, -⟩ := hsecond.original
  simp only [graphInput, storedDigest, hfileHere, hfileThere, Option.map_some,
    Option.getD_some] at hdigest
  rw [hfileHere, hfileThere, Option.map_some, Option.map_some, hinjective hdigest]

theorem EligibleFacts.no_amendments (h : EligibleFacts first deps)
    (hhead : first.selectedHead = none) : first.amendments = [] := by
  have hnone := h.chain.amendments_nil hhead
  have hread := h.readBack
  simp only [graphInput] at hnone
  rw [hnone] at hread
  exact List.forall₂_nil_right_iff.mp hread

/-- Two eligible verifications with one selected head are about the same stored bytes: the
original packages hold the same files and the amendments, matched by index, do too.  Without a
head, equal package-index bytes fix the original package and there is no amendment. -/
theorem eligible_verification_pins_bytes (hinjective : Function.Injective deps.digest)
    (hdistinctFirst : DistinctStored first) (hdistinctSecond : DistinctStored second)
    (hfirst : (verifyPackage first deps).eligible = true)
    (hsecond : (verifyPackage second deps).eligible = true) :
    (∀ head, first.selectedHead = some head → second.selectedHead = some head →
      SameFiles first.original.files second.original.files ∧
        MatchedByIndex first.amendments second.amendments) ∧
    (first.selectedHead = none → second.selectedHead = none →
      (fileAt first.original.files packageIndexPath).map PackageFile.bytes =
        (fileAt second.original.files packageIndexPath).map PackageFile.bytes →
      SameFiles first.original.files second.original.files ∧
        first.amendments = [] ∧ second.amendments = []) := by
  have hfactsFirst := eligibleFacts hfirst
  have hfactsSecond := eligibleFacts hsecond
  constructor
  · intro head hheadFirst hheadSecond
    have hindex := hfactsFirst.packageIndex_eq hinjective hfactsSecond hheadFirst hheadSecond
    constructor
    · exact original_sameFiles hinjective hfactsFirst hfactsSecond hdistinctFirst hdistinctSecond
        hindex
    · exact hfactsFirst.matched hinjective hfactsSecond hdistinctFirst hdistinctSecond
        (hheadFirst.trans hheadSecond.symm)
  · intro hnoneFirst hnoneSecond hindex
    refine ⟨?_, hfactsFirst.no_amendments hnoneFirst, hfactsSecond.no_amendments hnoneSecond⟩
    exact original_sameFiles hinjective hfactsFirst hfactsSecond hdistinctFirst hdistinctSecond
      hindex

end Pinned

/-! ## One amended package, stored twice -/

def asciiBytes (text : String) : Bytes := text.toList.map fun c => UInt8.ofNat c.toNat

def plainDigest : ByteDigest := fun bytes => String.ofList (bytes.map Char.ofUInt8)

theorem plainDigest_injective : Function.Injective plainDigest := by
  intro first second h
  have hchars := String.ofList_injective h
  refine List.map_injective_iff.mpr (fun byte other hchar => ?_) hchars
  exact UInt8.toUInt32_inj.mp (congrArg Char.val hchar)

def plainEntry (path text : String) (artifactClass : ArtifactClass) : IndexEntry :=
  ⟨path, artifactClass, .primary, (asciiBytes text).length, plainDigest (asciiBytes text)⟩

def plainDeps : PackageVerifierDeps where
  digest := plainDigest
  parsePackageIndex bytes :=
    if bytes = asciiBytes "index" then
      some ⟨.run, ⟨some 1, none, none⟩, plainDigest (asciiBytes "manifest"),
        [plainEntry executionManifestPath "manifest" .executionManifest,
          plainEntry runSummaryPath "summary" .runSummary]⟩
    else none
  parseAmendmentIndex bytes :=
    if bytes = asciiBytes "amendment" then
      some ⟨⟨some 1, none, none⟩, plainDigest (asciiBytes "manifest"), 7, .billing, 1,
        plainDigest (asciiBytes "index"), none,
        [plainEntry billingImportPath "billing" .billingImport], 0⟩
    else none
  parseSummary _ bytes :=
    if bytes = asciiBytes "summary" then some ⟨⟨some 1, none, none⟩, .succeeded⟩ else none
  parseLateEvidenceAssessment _ := none
  nestedIndexReasons _ := []
  unresolvedReferenceReasons _ _ _ := []

def amendedPackage : PackageVerificationInput where
  identity := ⟨.run, 1⟩
  original := ⟨[⟨executionManifestPath, asciiBytes "manifest"⟩, ⟨packageIndexPath, asciiBytes "index"⟩,
    ⟨runSummaryPath, asciiBytes "summary"⟩], []⟩
  amendments := [⟨"0001-a", [⟨amendmentIndexPath, asciiBytes "amendment"⟩,
    ⟨billingImportPath, asciiBytes "billing"⟩], []⟩]
  selectedHead := some (plainDigest (asciiBytes "amendment"))
  referencedPackageIndexes := []
  evaluatedAt := 5

def amendedPackageAgain : PackageVerificationInput :=
  { amendedPackage with
    original := ⟨amendedPackage.original.files.reverse, []⟩
    amendments := amendedPackage.amendments.map fun snapshot =>
      { snapshot with files := snapshot.files.reverse }
    evaluatedAt := 9 }

theorem amended_package_pinned :
    (verifyPackage amendedPackage plainDeps).eligible = true ∧
    (verifyPackage amendedPackageAgain plainDeps).eligible = true ∧
    SameFiles amendedPackage.original.files amendedPackageAgain.original.files ∧
    MatchedByIndex amendedPackage.amendments amendedPackageAgain.amendments := by
  have hfirst : (verifyPackage amendedPackage plainDeps).eligible = true := by decide +kernel
  have hsecond : (verifyPackage amendedPackageAgain plainDeps).eligible = true := by
    decide +kernel
  have hdistinctFirst : DistinctStored amendedPackage := by
    refine ⟨by unfold DistinctPaths; decide +kernel, ?_⟩
    unfold DistinctPaths
    decide +kernel
  have hdistinctSecond : DistinctStored amendedPackageAgain := by
    refine ⟨by unfold DistinctPaths; decide +kernel, ?_⟩
    unfold DistinctPaths
    decide +kernel
  refine ⟨hfirst, hsecond, ?_⟩
  exact (eligible_verification_pins_bytes plainDigest_injective hdistinctFirst hdistinctSecond
    hfirst hsecond).1 _ rfl rfl

end RefundStudy.Package
