/-
  Amendments written by any history of interrupted calls read back as one linear chain
  (`execution-lifecycle/amendment-writer.ts`, `evidence-package/amendment-snapshots.ts`,
  `amendment-chain.ts`; BR-RUA-043, BR-RUA-044).
-/
import RefundStudy.Package.AmendmentWriter
import Mathlib.Data.Countable.Basic
import Mathlib.Data.List.Perm.Basic
import Mathlib.Logic.Equiv.List

set_option autoImplicit false

namespace RefundStudy.Package

open Foundation Record

/-! ## One amendment read back -/

section One

variable {services : WriterServices} {execution : AmendedExecution}
  {done : List WrittenAmendment} {written : WrittenAmendment} {snapshot : AmendmentSnapshot}

/-- The snapshot holds the files of the written amendment and nothing else. -/
structure Holds (snapshot : AmendmentSnapshot) (written : WrittenAmendment) : Prop where
  files : SameFiles snapshot.files written.built.files
  regular : snapshot.specialEntries = []

structure ParsedFrom (services : WriterServices) (amendment : ParsedAmendment)
    (written : WrittenAmendment) : Prop where
  index : amendment.index = written.built.index
  indexSha256 : amendment.indexSha256 = written.indexSha256 services

theorem WrittenAfter.intact (h : WrittenAfter services execution NamesApart done written)
    (hholds : Holds snapshot written) (location : String) :
    Intact (amendmentFileSet location snapshot written.built.index) services.digest := by
  have hfiles := h.built.files
  refine ⟨fun entry hentry => ?_, fun file hfile => ?_, hholds.regular⟩
  · obtain ⟨file, hfile, hpath, hlength, hdigest⟩ := h.built.fileOf entry hentry
    have hstored : file ∈ written.built.files := by
      rw [hfiles]
      exact List.mem_append_left _ hfile
    exact ⟨file, (hholds.files file).mpr hstored, hpath.symm, hlength.symm, hdigest.symm⟩
  · have hstored := (hholds.files file).mp hfile
    rw [hfiles] at hstored
    rcases List.mem_append.mp hstored with hpayload | hindex
    · obtain ⟨-, -, entry, hentry, hpath, -⟩ := h.built.entryOf file hpayload
      exact .inl ⟨entry, hentry, hpath⟩
    · right
      rw [List.mem_singleton.mp hindex]
      exact List.mem_singleton.mpr rfl

theorem WrittenAfter.readAmendment_eq (h : WrittenAfter services execution NamesApart done written)
    (hholds : Holds snapshot written) (location : String) :
    readAmendment location snapshot services.digest services.records.parseAmendmentIndex =
      ⟨[⟨location, written.built.index, written.indexSha256 services, snapshot.files⟩], []⟩ := by
  have hdistinct := built_distinct h.built
  have hunique : ∀ first ∈ snapshot.files, ∀ second ∈ snapshot.files, first.path = second.path →
      first = second := by
    intro first hfirst second hsecond hpath
    exact eq_of_path_eq hdistinct ((hholds.files first).mp hfirst)
      ((hholds.files second).mp hsecond) hpath
  have hindex := fileAt_of_sameFiles hholds.files hdistinct h.index_mem
  have hparsed := built_parse h.built h.sizes h.payload
  have hreasons := no_reasons_of_intact (h.intact hholds location) hunique
  unfold readAmendment
  rw [hindex]
  simp only [hparsed, hreasons]
  rfl

end One

/-! ## The whole area -/

section Whole

variable {services : WriterServices} {execution : AmendedExecution}
  {done ordered : List WrittenAmendment} {written : WrittenAmendment} {store : EvidenceStore}
  {snapshots : List AmendmentSnapshot}

theorem SnapshotsOf.inOrder (h : SnapshotsOf (done.map WrittenAmendment.stored) snapshots) :
    ∃ ordered : List WrittenAmendment, ordered.Perm done ∧
      List.Forall₂ Holds snapshots ordered := by
  have hnames : List.Forall₂ (fun name (written : WrittenAmendment) => written.name = name)
      ((done.map WrittenAmendment.stored).map StoredAmendment.name) done := by
    rw [List.map_map, List.forall₂_map_left_iff, List.forall₂_same]
    intro written _
    rfl
  obtain ⟨ordered, hordered, hperm⟩ := List.perm_comp_forall₂ h.names hnames
  rw [List.forall₂_map_left_iff] at hordered
  refine ⟨ordered, hperm, ?_⟩
  have hlength := hordered.length_eq
  rw [List.forall₂_iff_get] at hordered ⊢
  refine ⟨hlength, fun position hfirst hsecond => ?_⟩
  have hname := hordered.2 position hfirst hsecond
  have hsnapshot := List.get_mem snapshots ⟨position, hfirst⟩
  have hmem := hperm.mem_iff.mp (List.get_mem ordered ⟨position, hsecond⟩)
  exact ⟨h.files _ hsnapshot _ (List.mem_map_of_mem hmem) hname, h.regular _ hsnapshot⟩

theorem Written.readAmendments_eq (h : Written services execution NamesApart done)
    (hsubset : ∀ written ∈ ordered, written ∈ done) (hholds : List.Forall₂ Holds snapshots ordered)
    (directory : String) :
    (readAmendments directory snapshots services.digest
      services.records.parseAmendmentIndex).reasons = [] ∧
    List.Forall₂ (ParsedFrom services) (readAmendments directory snapshots services.digest
      services.records.parseAmendmentIndex).amendments ordered := by
  induction hholds with
  | nil => exact ⟨rfl, .nil⟩
  | @cons snapshot written snapshots ordered hfirst hrest ih =>
    obtain ⟨front, back, -, hafter⟩ := h.mem (hsubset written List.mem_cons_self)
    obtain ⟨hreasons, hparsed⟩ := ih fun other hmem => hsubset other (List.mem_cons_of_mem _ hmem)
    have hread := hafter.readAmendment_eq hfirst (amendmentLocation directory snapshot)
    simp only [readAmendments, List.map_cons, List.flatMap_cons, hread, List.nil_append,
      List.singleton_append] at hreasons hparsed ⊢
    exact ⟨hreasons, .cons ⟨rfl, rfl⟩ hparsed⟩

theorem Written.sequences (h : Written services execution NamesApart done) :
    done.map (fun written => written.input.sequence) = List.range' 1 done.length := by
  induction h with
  | start => rfl
  | next _ hafter ih =>
    rw [List.map_append, ih, List.length_append, List.length_singleton, List.range'_concat,
      List.map_singleton, hafter.sequence]
    simp [Nat.add_comm]

/-- Distinct amendments have distinct index digests: the digest pins the bytes, the bytes pin the
index, and the index has the sequence. -/
theorem Written.digests_distinct (h : Written services execution NamesApart done)
    (hinjective : Function.Injective services.digest) :
    (done.map (WrittenAmendment.indexSha256 services)).Nodup := by
  have hsequences : (done.map fun written => written.input.sequence).Nodup := by
    rw [h.sequences]
    exact List.nodup_range'
  refine (List.nodup_map_iff_inj_on hsequences.of_map).mpr ?_
  intro first hfirst second hsecond hsame
  have hbytes := hinjective hsame
  have hparsed := congrArg services.records.parseJsonDocument hbytes
  rw [services.records.parse_serialize, services.records.parse_serialize] at hparsed
  have hindex := Option.some.inj hparsed
  obtain ⟨_, _, _, hfirstAfter⟩ := h.mem hfirst
  obtain ⟨_, _, _, hsecondAfter⟩ := h.mem hsecond
  rw [hfirstAfter.built.index, hsecondAfter.built.index] at hindex
  exact List.inj_on_of_nodup_map hsequences hfirst hsecond (congrArg AmendmentIndex.sequence hindex)

theorem Written.parent (h : Written services execution NamesApart done) (hmem : written ∈ done) :
    (written.input.sequence = 1 ∧ written.input.parentAmendmentIndexSha256 = none) ∨
    ∃ parent ∈ done, parent.input.sequence + 1 = written.input.sequence ∧
      written.input.parentAmendmentIndexSha256 = some (parent.indexSha256 services) := by
  obtain ⟨front, back, rfl, hafter⟩ := h.mem hmem
  rcases List.eq_nil_or_concat front with rfl | ⟨earlier, parent, rfl⟩
  · exact .inl ⟨hafter.sequence, hafter.parent⟩
  · right
    rw [List.concat_eq_append] at h hafter ⊢
    rw [List.append_assoc, List.singleton_append] at h
    have hparent := h.split
    refine ⟨parent, by simp, ?_, ?_⟩
    · rw [hparent.sequence, hafter.sequence, List.length_append, List.length_singleton]
    · rw [hafter.parent]
      simp

variable (services execution) in
/-- The graph that a read area is resolved as, under a selected head. -/
def readGraph (snapshots : List AmendmentSnapshot) (head : Sha256Hex) : AmendmentGraphInput where
  identity := execution.identity
  executionManifestSha256 := execution.manifestSha256
  originalPackageIndexSha256 := execution.originalIndexSha256
  amendments := (readAmendments (amendmentsDirectory execution.identity) snapshots services.digest
    services.records.parseAmendmentIndex).amendments
  selectedHead := some head

theorem parsed_map {β : Type} {amendments : List ParsedAmendment} {f : ParsedAmendment → β}
    {g : WrittenAmendment → β} (h : List.Forall₂ (ParsedFrom services) amendments ordered)
    (hvalue : ∀ amendment written, written ∈ ordered → ParsedFrom services amendment written →
      f amendment = g written) : amendments.map f = ordered.map g := by
  induction h with
  | nil => rfl
  | cons hfirst _ ih =>
    rw [List.map_cons, List.map_cons, hvalue _ _ List.mem_cons_self hfirst,
      ih fun amendment written hmem => hvalue amendment written (List.mem_cons_of_mem _ hmem)]

theorem Written.index_eq (h : Written services execution NamesApart done) (hmem : written ∈ done) :
    written.built.index.identity = executionIdentityFields execution.identity ∧
    written.built.index.executionManifestSha256 = execution.manifestSha256 ∧
    written.built.index.originalPackageIndexSha256 = execution.originalIndexSha256 ∧
    written.built.index.sequence = written.input.sequence ∧
    written.built.index.parentAmendmentIndexSha256 = written.input.parentAmendmentIndexSha256 := by
  obtain ⟨_, _, _, hafter⟩ := h.mem hmem
  rw [hafter.built.index, ← hafter.identity, ← hafter.manifest, ← hafter.original]
  exact ⟨rfl, rfl, rfl, rfl, rfl⟩

theorem Written.linearChain (h : Written services execution NamesApart (done ++ [written]))
    (hinjective : Function.Injective services.digest)
    (hread : SnapshotsOf ((done ++ [written]).map WrittenAmendment.stored) snapshots) :
    (readAmendments (amendmentsDirectory execution.identity) snapshots services.digest
      services.records.parseAmendmentIndex).reasons = [] ∧
    LinearChain (readGraph services execution snapshots (written.indexSha256 services)) := by
  obtain ⟨ordered, hperm, hholds⟩ := hread.inOrder
  obtain ⟨hreasons, hparsed⟩ := h.readAmendments_eq (fun _ hmem => hperm.mem_iff.mp hmem) hholds
    (amendmentsDirectory execution.identity)
  obtain ⟨hwrittenOf, hparsedOf⟩ := forall₂_mem hparsed
  -- What an amendment says is read off the written one it was parsed from.
  have hfacts : ∀ amendment ∈ (readGraph services execution snapshots
      (written.indexSha256 services)).amendments,
      ∃ source ∈ done ++ [written], ParsedFrom services amendment source := by
    intro amendment hmem
    obtain ⟨source, hsource, hfrom⟩ := hwrittenOf amendment hmem
    exact ⟨source, hperm.mem_iff.mp hsource, hfrom⟩
  have hsequences : (readGraph services execution snapshots
      (written.indexSha256 services)).amendments.map (fun amendment => amendment.index.sequence) =
        ordered.map fun source => source.input.sequence :=
    parsed_map hparsed fun amendment source hmem hfrom => by
      rw [hfrom.index, (h.index_eq (hperm.mem_iff.mp hmem)).2.2.2.1]
  have hlength : (readGraph services execution snapshots
      (written.indexSha256 services)).amendments.length = (done ++ [written]).length :=
    hparsed.length_eq.trans hperm.length_eq
  refine ⟨hreasons, ?_, ?_, ?_, ?_, ?_, ?_, ?_⟩
  · intro amendment hmem
    obtain ⟨source, hsource, hfrom⟩ := hfacts amendment hmem
    rw [hfrom.index, (h.index_eq hsource).1]
    exact belongsToExecution_own _
  · intro amendment hmem
    obtain ⟨source, hsource, hfrom⟩ := hfacts amendment hmem
    rw [hfrom.index, (h.index_eq hsource).2.1]
    rfl
  · intro amendment hmem
    obtain ⟨source, hsource, hfrom⟩ := hfacts amendment hmem
    rw [hfrom.index, (h.index_eq hsource).2.2.1]
    rfl
  · have hdigests := parsed_map hparsed fun amendment source _ hfrom => hfrom.indexSha256
    have hnodup := (hperm.map (WrittenAmendment.indexSha256 services)).nodup_iff.mpr
      (h.digests_distinct hinjective)
    rw [← hdigests] at hnodup
    exact hnodup
  · rw [hsequences, hlength, ← h.sequences]
    exact hperm.map _
  · intro amendment hmem
    obtain ⟨source, hsource, hfrom⟩ := hfacts amendment hmem
    obtain ⟨-, -, -, hsequence, hparent⟩ := h.index_eq hsource
    rw [hfrom.index, hsequence, hparent]
    rcases h.parent hsource with hfirst | ⟨parent, hparentMem, hbefore, hdigest⟩
    · exact .inl hfirst
    · obtain ⟨parsed, hparsedMem, hparsedFrom⟩ := hparsedOf parent (hperm.mem_iff.mpr hparentMem)
      refine .inr ⟨parsed, hparsedMem, ?_, ?_⟩
      · rw [hparsedFrom.index, (h.index_eq hparentMem).2.2.2.1]
        exact hbefore
      · rw [hdigest, hparsedFrom.indexSha256]
  · have hlast : written ∈ done ++ [written] :=
      List.mem_append_right _ (List.mem_singleton.mpr rfl)
    obtain ⟨parsed, hparsedMem, hparsedFrom⟩ := hparsedOf written (hperm.mem_iff.mpr hlast)
    refine ⟨parsed, hparsedMem, ?_, ?_⟩
    · have hafter := h.split
      rw [hlength, hparsedFrom.index, (h.index_eq hlast).2.2.2.1, hafter.sequence]
      simp
    · rw [hparsedFrom.indexSha256]
      rfl

end Whole

/-! ## Histories of calls -/

/-- Nothing stands at a directory or below it. -/
structure AreaAbsent (store : EvidenceStore) (root : String) : Prop where
  files : ∀ file ∈ store.files, file.path ≠ root ∧ below root file.path = none
  directories : ∀ directory ∈ store.directories, directory ≠ root ∧ below root directory = none

/-- What a sequence of calls leaves behind when it starts from an absent area and each call may
have stopped anywhere. -/
inductive Calls (services : WriterServices) (execution : AmendedExecution) :
    List AmendmentWrite → EvidenceStore → Prop where
  | none {store : EvidenceStore}
      (absent : AreaAbsent store (amendmentsDirectory execution.identity)) :
      Calls services execution [] store
  | next {earlier : List AmendmentWrite} {write : AmendmentWrite} {store store' : EvidenceStore}
      (before : Calls services execution earlier store)
      (stopped : CutAt (fileMachine.answers ()) alone
        (writeAmendmentPackage services execution write) store store') :
      Calls services execution (earlier ++ [write]) store'

/-- The area can be read back, and whenever it is, neither the integrity check nor the amendment
graph under the selected head gives a reason. -/
def ReadsBack (services : WriterServices) (execution : AmendedExecution) (store : EvidenceStore)
    (head : Sha256Hex) : Prop :=
  (∃ snapshots, Reads (readAmendmentSnapshots execution.identity) store (.ok snapshots)) ∧
  ∀ snapshots after, RunsTo (fileMachine.answers ()) alone
      (readAmendmentSnapshots execution.identity) store (.ok snapshots) after →
    (readAmendments (amendmentsDirectory execution.identity) snapshots services.digest
      services.records.parseAmendmentIndex).reasons = [] ∧
    (resolveAmendmentGraph (readGraph services execution snapshots head)).reasons = []

/-- Reading the area back gives no amendment. -/
def ReadsEmpty (execution : AmendedExecution) (store : EvidenceStore) : Prop :=
  ∀ snapshots after, RunsTo (fileMachine.answers ()) alone
    (readAmendmentSnapshots execution.identity) store (.ok snapshots) after → snapshots = []

section Histories

variable {services : WriterServices} {execution : AmendedExecution}
  {done : List WrittenAmendment} {written : WrittenAmendment} {store store' : EvidenceStore}
  {earlier : List AmendmentWrite} {write : AmendmentWrite} {directory : String}
  {allowed : List PackageFile → Prop}

theorem AreaAbsent.areaState (h : AreaAbsent store (amendmentsDirectory execution.identity)) :
    AreaState services execution allowed 0 store := by
  refine .whole .start (Nat.le_refl _) ⟨⟨List.nodup_nil, ?_, ?_, ?_, ?_⟩, ?_, ?_⟩
  · exact fun amendment hmem => absurd hmem List.not_mem_nil
  · exact fun amendment hmem => absurd hmem List.not_mem_nil
  · intro file hfile rest hrest
    rw [(h.files file hfile).2] at hrest
    cases hrest
  · intro directory hdirectory rest hrest
    rw [(h.directories directory hdirectory).2] at hrest
    cases hrest
  · exact fun amendment hmem => absurd hmem List.not_mem_nil
  · exact fun hne => absurd rfl hne

/-- Every history leaves whole amendments and at most one directory without an index. -/
theorem Calls.areaState (h : Calls services execution earlier store)
    (hcount : earlier.length < 10000) (hallowed : ∀ write ∈ earlier, allowed write.payload) :
    AreaState services execution allowed earlier.length store := by
  induction h with
  | none habsent => exact habsent.areaState
  | @next earlier write store store' _ hstopped ih =>
    rw [List.length_append, List.length_singleton] at hcount ⊢
    have hbefore := ih (by omega) fun other hmem => hallowed other (List.mem_append_left _ hmem)
    have hwrite := hallowed write (List.mem_append_right _ (List.mem_singleton.mpr rfl))
    refine hstopped.keeps (writeAmendmentPackage_safe hbefore hcount hwrite) ?_ ?_
      (hbefore.mono (by omega))
    · intro first second hrel hstate
      obtain rfl := hrel
      exact hstate
    · rintro first second (rfl | hstate) hfirst
      · exact hfirst
      · exact hstate

theorem readAmendmentSnapshots_from {snapshots : List AmendmentSnapshot}
    (h : RunsTo (fileMachine.answers ()) alone (readAmendmentSnapshots execution.identity) store
      (.ok snapshots) store') :
    SnapshotsFrom store (amendmentsDirectory execution.identity) snapshots := by
  obtain ⟨-, hfrom⟩ := h.result (readAmendmentSnapshots_readsOnly execution.identity)
  exact hfrom snapshots rfl

theorem Written.readsBack (h : Written services execution NamesApart (done ++ [written]))
    (hinjective : Function.Injective services.digest)
    (harea : AreaHolds store (amendmentsDirectory execution.identity)
      ((done ++ [written]).map WrittenAmendment.stored))
    (hvalid : invalidPathReason (amendmentsDirectory execution.identity) = none) :
    ReadsBack services execution store (written.indexSha256 services) := by
  constructor
  · exact harea.reads rfl hvalid (harea.rooted (by simp))
  · intro snapshots after hrun
    obtain ⟨hreasons, hchain⟩ := h.linearChain hinjective
      (harea.snapshotsOf (readAmendmentSnapshots_from hrun))
    exact ⟨hreasons, hchain.no_reasons⟩

theorem Written.readsBefore (h : Written services execution NamesApart done)
    (hinjective : Function.Injective services.digest)
    (harea : AreaHolds store (amendmentsDirectory execution.identity)
      (done.map WrittenAmendment.stored))
    (hvalid : invalidPathReason (amendmentsDirectory execution.identity) = none) :
    ReadsEmpty execution store ∨ ∃ head, ReadsBack services execution store head := by
  rcases List.eq_nil_or_concat done with rfl | ⟨earlier, last, rfl⟩
  · left
    intro snapshots after hrun
    have hread := harea.snapshotsOf (readAmendmentSnapshots_from hrun)
    simpa using hread.names
  · right
    rw [List.concat_eq_append] at h harea
    exact ⟨_, h.readsBack hinjective harea hvalid⟩

/-- A call that returns ok after any history of interrupted calls leaves an area that reads back
under the index it wrote, and it was made on an area that was empty or read back too. -/
theorem returned_call_reads_back (hinjective : Function.Injective services.digest)
    (hcalls : Calls services execution earlier store) (hcount : earlier.length + 1 < 10000)
    (hapart : ∀ call ∈ earlier ++ [write], NamesApart call.payload)
    (hrun : RunsTo (fileMachine.answers ()) alone (writeAmendmentPackage services execution write)
      store (.ok directory) store') :
    (ReadsEmpty execution store ∨ ∃ head, ReadsBack services execution store head) ∧
    ∃ bytes, fileAt store'.files (directory ++ "/" ++ amendmentIndexPath) =
        some ⟨directory ++ "/" ++ amendmentIndexPath, bytes⟩ ∧
      ReadsBack services execution store' (services.digest bytes) := by
  have hbefore := hcalls.areaState (by omega)
    fun call hmem => hapart call (List.mem_append_left _ hmem)
  have hwrite := hapart write (List.mem_append_right _ (List.mem_singleton.mpr rfl))
  obtain ⟨done, written, rfl, hstarted, hreturned⟩ :=
    hrun.result (writeAmendmentPackage_safe hbefore hcount hwrite) directory rfl
  refine ⟨hreturned.before.readsBefore hinjective hstarted hreturned.rootValid,
    services.records.serializeRecordFile written.built.index, ?_,
    (hreturned.before.next hreturned.after).readsBack hinjective hreturned.area
      hreturned.rootValid⟩
  have hstored : written.stored ∈ (done ++ [written]).map WrittenAmendment.stored := by
    rw [List.map_append]
    exact List.mem_append_right _ (List.mem_singleton.mpr rfl)
  have hfile := (hreturned.area.stored _ hstored _ hreturned.after.index_mem).1
  have hfound := fileAt_of_mem store'.distinct hfile
  rw [hreturned.after.directory_eq]
  exact hfound

theorem Returned.unreadable (h : Returned services execution allowed done written store)
    (file : PackageFile) (hfile : file ∈ written.input.payload)
    (hname : namedLikeIndex file.path = true) (head : Sha256Hex) :
    ¬ ReadsBack services execution store head := by
  rintro ⟨⟨snapshots, hrun⟩, hall⟩
  have hreasons := (hall snapshots store hrun).1
  have hread := h.area.snapshotsOf (readAmendmentSnapshots_from hrun)
  have hlast : written.stored ∈ (done ++ [written]).map WrittenAmendment.stored :=
    List.mem_map_of_mem (List.mem_append_right _ (List.mem_singleton.mpr rfl))
  obtain ⟨snapshot, hsnapshot, hdirectory⟩ :=
    List.mem_map.mp (hread.names.mem_iff.mpr (List.mem_map_of_mem hlast))
  have hsame := hread.files snapshot hsnapshot _ hlast hdirectory.symm
  have hindex := fileAt_of_sameFiles hsame (built_distinct h.after.built) h.after.index_mem
  have hparsed : services.records.parseAmendmentIndex
      (services.records.serializeRecordFile written.built.index) = none := by
    rw [AmendmentIndexFiles.parseAmendmentIndex, services.records.parse_serialize,
      Option.filter_some, built_index_invalid h.after.built hfile hname]
    rfl
  have hnone := List.flatMap_eq_nil_iff.mp hreasons _ (List.mem_map_of_mem hsnapshot)
  simp only [readAmendment, hindex, hparsed] at hnone
  cases hnone

end Histories

/-! ## A billing amendment -/

theorem countable_string : Countable String := by
  have hchar : Countable Char := by
    refine Function.Injective.countable (f := Char.toNat) ?_
    intro first second h
    rw [← Char.ofNat_toNat first, h, Char.ofNat_toNat]
  exact Function.Injective.countable (f := String.toList) fun _ _ h => String.toList_inj.mp h

theorem countable_indexEntry : Countable IndexEntry := by
  have := countable_string
  refine Function.Injective.countable (f := fun entry : IndexEntry => (entry.artifactPath,
    entry.artifactClass.ctorIdx, entry.derivation.ctorIdx, entry.bytes, entry.sha256)) ?_
  intro first second h
  simp only [Prod.mk.injEq] at h
  obtain ⟨hpath, hclass, hderivation, hbytes, hsha⟩ := h
  have hclass' : first.artifactClass = second.artifactClass := by
    rw [← ArtifactClass.ofNat_ctorIdx first.artifactClass, hclass, ArtifactClass.ofNat_ctorIdx]
  have hderivation' : first.derivation = second.derivation := by
    rw [← ArtifactDerivation.ofNat_ctorIdx first.derivation, hderivation,
      ArtifactDerivation.ofNat_ctorIdx]
  cases first
  cases second
  simp_all

theorem countable_amendmentIndex : Countable AmendmentIndex := by
  have := countable_string
  have := countable_indexEntry
  refine Function.Injective.countable (f := fun index : AmendmentIndex =>
    ((index.identity.runId, index.identity.transportProbeId, index.identity.variantValidationId),
      index.executionManifestSha256, index.amendmentId, index.amendmentKind.ctorIdx,
      index.sequence, index.originalPackageIndexSha256, index.parentAmendmentIndexSha256,
      index.entries, index.createdAt)) ?_
  intro first second h
  simp only [Prod.mk.injEq] at h
  obtain ⟨⟨hrun, hprobe, hvariant⟩, hmanifest, hid, hkind, hsequence, horiginal, hparent, hentries,
    htime⟩ := h
  have hkind' : first.amendmentKind = second.amendmentKind := by
    rw [← AmendmentKind.ofNat_ctorIdx first.amendmentKind, hkind, AmendmentKind.ofNat_ctorIdx]
  obtain ⟨⟨_, _, _⟩, _, _, _, _, _, _, _, _⟩ := first
  obtain ⟨⟨_, _, _⟩, _, _, _, _, _, _, _, _⟩ := second
  simp_all

def billedRun : AmendedExecution where
  identity := ⟨.run, 0x00000000000040008000000000000001⟩
  manifestSha256 := "manifest"
  originalIndexSha256 := "original"

def billingWrite (name : String) : AmendmentWrite where
  kind := .billing
  payload := [⟨billingImportPath, asciiBytes "[]"⟩,
    ⟨billingExportDirectory ++ name, asciiBytes "0"⟩]
  subject := "billing"
  sizes := by
    have himport : (asciiBytes "[]").length ≤ maxSafeInteger := by decide +kernel
    have hexport : (asciiBytes "0").length ≤ maxSafeInteger := by decide +kernel
    intro file hmem
    rcases List.mem_cons.mp hmem with rfl | hmem
    · exact himport
    · rw [List.mem_singleton.mp hmem]
      exact hexport

def billingIndex (name : String) : AmendmentIndex where
  identity := ⟨some 0x00000000000040008000000000000001, none, none⟩
  executionManifestSha256 := "manifest"
  amendmentId := 0x00000000000040008000000000000002
  amendmentKind := .billing
  sequence := 1
  originalPackageIndexSha256 := "original"
  parentAmendmentIndexSha256 := none
  entries := [⟨billingExportDirectory ++ name, .billingExportFile, .primary, 1, "0"⟩,
    ⟨billingImportPath, .billingImport, .derived, 2, "[]"⟩]
  createdAt := 0

def billingIndexMembers (name : String) : String :=
  "\"amendment_id\":\"00000000-0000-4000-8000-000000000002\",\"amendment_kind\":\"BILLING\"," ++
  "\"created_at\":\"1970-01-01T00:00:00.000Z\",\"entries\":[\x7b\"artifact_class\":" ++
  "\"billing_export_file\",\"artifact_path\":\"payload/billing-export/" ++ name ++
  "\",\"bytes\":1,\"derivation\":\"primary\",\"sha256\":\"0\"\x7d,\x7b\"artifact_class\":" ++
  "\"billing_import\",\"artifact_path\":\"payload/billing-import.json\",\"bytes\":2," ++
  "\"derivation\":\"derived\",\"sha256\":\"[]\"\x7d],\"execution_manifest_sha256\":\"manifest\"," ++
  "\"original_package_index_sha256\":\"original\",\"parent_amendment_index_sha256\":null," ++
  "\"record_type\":\"amendment_index\",\"run_id\":\"00000000-0000-4000-8000-000000000001\"," ++
  "\"schema_version\":1,\"sequence\":1"

def billingIndexText (name : String) : String :=
  "\x7b" ++ (billingIndexMembers name ++ "\x7d\n")

noncomputable def billingIndexFile (name : String) (index : AmendmentIndex) : Bytes :=
  if index = billingIndex name then asciiBytes (billingIndexText name)
  else
    0 :: List.replicate
      ((@Countable.exists_injective_nat _ countable_amendmentIndex).choose index) 1

theorem billingIndexText_head (name : String) :
    (asciiBytes (billingIndexText name)).head? = some 123 := by
  rw [billingIndexText, asciiBytes, String.toList_append, List.map_append]
  rfl

theorem billingIndexFile_injective (name : String) :
    Function.Injective (billingIndexFile name) := by
  intro first second h
  have hhead := billingIndexText_head name
  unfold billingIndexFile at h
  split at h <;> split at h
  · simp_all
  · rw [h] at hhead
    simp at hhead
  · rw [← h] at hhead
    simp at hhead
  · have hlength := congrArg List.length h
    simp only [List.length_cons, List.length_replicate, Nat.add_right_cancel_iff] at hlength
    exact (@Countable.exists_injective_nat _ countable_amendmentIndex).choose_spec hlength

noncomputable def billingServices (name : String) : WriterServices where
  digest := plainDigest
  records :=
    { serializeRecordFile := billingIndexFile name
      parseJsonDocument := Function.partialInv (billingIndexFile name)
      parse_serialize := Function.partialInv_left (billingIndexFile_injective name) }

def emptyStore : EvidenceStore := ⟨[], [], List.nodup_nil⟩

theorem emptyStore_calls (services : WriterServices) : Calls services billedRun [] emptyStore :=
  .none ⟨fun _ hmem => absurd hmem List.not_mem_nil, fun _ hmem => absurd hmem List.not_mem_nil⟩

def writeChoices : List FsChoice :=
  [.works, .id 0x00000000000040008000000000000002, .time 0, .works, .works, .works]

noncomputable def billingCall (name : String) :
    Option (Except (List AmendmentFailure) String × EvidenceStore) :=
  Program.play fileMachine () writeChoices
    (writeAmendmentPackage (billingServices name) billedRun (billingWrite name)) emptyStore

def billingDirectory : String :=
  amendmentDirectory billedRun.identity 1 0x00000000000040008000000000000002

theorem billing_call_reads_back : ∃ store',
    RunsTo (fileMachine.answers ()) alone (writeAmendmentPackage (billingServices "usage.csv")
      billedRun (billingWrite "usage.csv")) emptyStore (.ok billingDirectory) store' ∧
    ∃ bytes, fileAt store'.files (billingDirectory ++ "/" ++ amendmentIndexPath) =
        some ⟨billingDirectory ++ "/" ++ amendmentIndexPath, bytes⟩ ∧
      ReadsBack (billingServices "usage.csv") billedRun store' (plainDigest bytes) := by
  have hplay : (billingCall "usage.csv").map Prod.fst = some (.ok billingDirectory) := by
    decide +kernel
  obtain ⟨⟨result, store'⟩, hcall, rfl⟩ := Option.map_eq_some_iff.mp hplay
  have hrun := Program.play_runsTo (R := alone) hcall
  have happart : ∀ call ∈ [billingWrite "usage.csv", billingWrite "usage.csv"],
      NamesApart call.payload := by
    unfold NamesApart
    decide +kernel
  refine ⟨store', hrun, ?_⟩
  have hstopped : Calls (billingServices "usage.csv") billedRun [billingWrite "usage.csv"]
      emptyStore := (emptyStore_calls _).next (.here rfl)
  exact (returned_call_reads_back plainDigest_injective hstopped (by decide) happart hrun).2

theorem returned_call_unreadable :
    Function.Injective (billingServices amendmentIndexPath).digest ∧
    Calls (billingServices amendmentIndexPath) billedRun [] emptyStore ∧
    ∃ store', RunsTo (fileMachine.answers ()) alone (writeAmendmentPackage
        (billingServices amendmentIndexPath) billedRun (billingWrite amendmentIndexPath))
        emptyStore (.ok billingDirectory) store' ∧
      ∀ head, ¬ ReadsBack (billingServices amendmentIndexPath) billedRun store' head := by
  have hplay : (billingCall amendmentIndexPath).map Prod.fst = some (.ok billingDirectory) := by
    decide +kernel
  obtain ⟨⟨result, store'⟩, hcall, rfl⟩ := Option.map_eq_some_iff.mp hplay
  have hrun := Program.play_runsTo (R := alone) hcall
  have hcalls := emptyStore_calls (billingServices amendmentIndexPath)
  refine ⟨plainDigest_injective, hcalls, store', hrun, ?_⟩
  obtain ⟨done, written, -, -, hreturned⟩ := hrun.result
    (writeAmendmentPackage_safe (hcalls.areaState (by decide) fun _ hmem => absurd hmem
      List.not_mem_nil) (by decide) (rfl : (billingWrite amendmentIndexPath).payload = _)) _ rfl
  have hnamed : namedLikeIndex (billingExportDirectory ++ amendmentIndexPath) = true := by
    decide +kernel
  refine hreturned.unreadable ⟨billingExportDirectory ++ amendmentIndexPath, asciiBytes "0"⟩ ?_
    hnamed
  rw [← hreturned.after.payload]
  exact List.mem_cons_of_mem _ (List.mem_singleton.mpr rfl)

end RefundStudy.Package
