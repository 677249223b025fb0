/-
  What the augmented evidence holds (`trial-oracle/late-evidence/frozen-augmentation.ts`,
  BR-RUA-043).
-/
import RefundStudy.Ingestion.IndexedDigests
import RefundStudy.LateEvidence.FrozenAugmentation

set_option autoImplicit false

namespace RefundStudy.LateEvidence

open Foundation Record Store Package

/-! ## Files -/

section Files

def fileAt (artifacts : List RawArtifact) (path : String) : Option Bytes :=
  (artifacts.find? fun artifact => decide (artifact.path = path)).map RawArtifact.bytes

variable {artifacts : List RawArtifact}

theorem fileAt_cons (artifact : RawArtifact) (path : String) :
    fileAt (artifact :: artifacts) path =
      if artifact.path = path then some artifact.bytes else fileAt artifacts path := by
  unfold fileAt
  rw [List.find?_cons]
  by_cases hpath : artifact.path = path
  · simp [hpath]
  · simp [hpath]

theorem fileAt_append (first second : List RawArtifact) (path : String) :
    fileAt (first ++ second) path = (fileAt first path).or (fileAt second path) := by
  induction first with
  | nil => rfl
  | cons artifact rest ih =>
    rw [List.cons_append, fileAt_cons, fileAt_cons, ih]
    split
    · rfl
    · rfl

theorem fileAt_entries (files : InsertionMap String Bytes) (path : String) :
    fileAt (files.map fun entry => ⟨entry.1, entry.2⟩) path = files.get? path := by
  induction files with
  | nil => rfl
  | cons entry rest ih =>
    rw [List.map_cons, fileAt_cons, ih]
    rfl

theorem fileAt_eq_none {path : String} :
    fileAt artifacts path = none ↔ path ∉ artifacts.map RawArtifact.path := by
  unfold fileAt
  rw [Option.map_eq_none_iff, List.find?_eq_none, List.mem_map]
  constructor
  · rintro h ⟨artifact, hmem, hpath⟩
    exact h artifact hmem (decide_eq_true hpath)
  · intro h artifact hmem hpath
    exact h ⟨artifact, hmem, of_decide_eq_true hpath⟩

theorem originalFiles_eq (hdistinct : (artifacts.map RawArtifact.path).Nodup) :
    originalFiles artifacts = artifacts.map fun artifact => (artifact.path, artifact.bytes) := by
  have hloop : ∀ (rest : List RawArtifact) (files : InsertionMap String Bytes),
      (rest.map RawArtifact.path).Nodup → (∀ artifact ∈ rest, artifact.path ∉ files.map Prod.fst) →
      rest.foldl (fun files artifact => files.set artifact.path artifact.bytes) files =
        files ++ rest.map fun artifact => (artifact.path, artifact.bytes) := by
    intro rest
    induction rest with
    | nil =>
      intro files _ _
      exact (List.append_nil _).symm
    | cons artifact rest ih =>
      intro files hnodup hfresh
      rw [List.map_cons, List.nodup_cons] at hnodup
      rw [List.foldl_cons, InsertionMap.set_of_not_mem (hfresh artifact List.mem_cons_self),
        ih _ hnodup.2, List.append_assoc, List.map_cons, List.singleton_append]
      intro other hmem hused
      rw [List.map_append, List.mem_append] at hused
      rcases hused with hold | hnew
      · exact hfresh other (List.mem_cons_of_mem _ hmem) hold
      · rw [List.map_singleton, List.mem_singleton] at hnew
        have hsame : other.path = artifact.path := hnew
        exact hnodup.1 (hsame ▸ List.mem_map_of_mem hmem)
  exact hloop artifacts [] hdistinct fun _ _ hmem => by cases hmem

theorem originalFiles_get? (hdistinct : (artifacts.map RawArtifact.path).Nodup) (path : String) :
    (originalFiles artifacts).get? path = fileAt artifacts path := by
  rw [originalFiles_eq hdistinct, ← fileAt_entries, List.map_map]
  congr 1
  exact List.map_id artifacts

end Files

/-! ## The augmented files -/

section Augmented

variable {frozen : FrozenInput} {changed : InsertionMap String Bytes}

theorem get?_filter_keys {ν : Type} (keep : String → Bool) (files : InsertionMap String ν)
    (path : String) : InsertionMap.get? (files.filter fun entry => keep entry.1) path =
      if keep path then files.get? path else none := by
  induction files with
  | nil => simp
  | cons entry rest ih =>
    rw [List.filter_cons]
    by_cases hpath : entry.1 = path
    · subst hpath
      by_cases hkeep : keep entry.1 = true
      · simp [hkeep, InsertionMap.get?]
      · simp [hkeep, ih]
    · by_cases hkeep : keep entry.1 = true
      · simp [hkeep, InsertionMap.get?, hpath, ih]
      · simp [hkeep, InsertionMap.get?, hpath, ih]

/-- The files are the changed ones and, where nothing changed, the frozen ones. -/
theorem fileAt_augmentedArtifacts (hdistinct : (frozen.artifacts.map RawArtifact.path).Nodup)
    (path : String) : fileAt (augmentedArtifacts frozen changed) path =
      (changed.get? path).or (fileAt frozen.artifacts path) := by
  have hfrozen : ∀ artifacts : List RawArtifact, fileAt (artifacts.map fun artifact =>
      ⟨artifact.path, (changed.get? artifact.path).getD artifact.bytes⟩) path =
      (fileAt artifacts path).map fun bytes => (changed.get? path).getD bytes := by
    intro artifacts
    induction artifacts with
    | nil => rfl
    | cons artifact rest ih =>
      rw [List.map_cons, fileAt_cons, fileAt_cons, ih]
      by_cases hpath : artifact.path = path
      · subst hpath
        rw [if_pos rfl, if_pos rfl]
        rfl
      · rw [if_neg hpath, if_neg hpath]
  unfold augmentedArtifacts
  rw [fileAt_append, hfrozen, fileAt_entries,
    get?_filter_keys (fun path => ((originalFiles frozen.artifacts).get? path).isNone),
    originalFiles_get? hdistinct]
  cases fileAt frozen.artifacts path with
  | none => simp
  | some bytes =>
    cases changed.get? path with
    | none => rfl
    | some value => rfl

/-- The paths of the files: the frozen ones in their order, then those the records bring. -/
theorem augmentedArtifacts_paths (frozen : FrozenInput) (changed : InsertionMap String Bytes) :
    (augmentedArtifacts frozen changed).map RawArtifact.path =
      frozen.artifacts.map RawArtifact.path ++
        (changed.filter fun entry =>
          ((originalFiles frozen.artifacts).get? entry.1).isNone).map Prod.fst := by
  unfold augmentedArtifacts
  rw [List.map_append, List.map_map, List.map_map]
  rfl

theorem augmentedArtifacts_nodup (hdistinct : (frozen.artifacts.map RawArtifact.path).Nodup)
    (hchanged : (changed.map Prod.fst).Nodup) :
    ((augmentedArtifacts frozen changed).map RawArtifact.path).Nodup := by
  rw [augmentedArtifacts_paths, List.nodup_append]
  refine ⟨hdistinct, (List.filter_sublist.map Prod.fst).nodup hchanged, ?_⟩
  intro path hfrozen other hbrought heq
  subst heq
  obtain ⟨entry, hentry, rfl⟩ := List.mem_map.mp hbrought
  have hnone := (List.mem_filter.mp hentry).2
  rw [originalFiles_get? hdistinct, Option.isNone_iff_eq_none, fileAt_eq_none] at hnone
  exact hnone hfrozen

end Augmented

/-! ## What the records make of a file -/

section Joining

variable (text : NumberText) (schemas : FoldSchemas)

def pathOf (accepted : RoutedRecord) : String := accepted.route.path

/-- The records that join the file at a path, in order. -/
def joinedAt (frozen : FrozenInput) (records : List RoutedRecord) (path : String) :
    List RoutedRecord :=
  joiners (joinLateRecord text schemas) (fileAt frozen.artifacts path) (recordsAt pathOf path records)

def lineOf (accepted : RoutedRecord) : Bytes := recordFileBytes text accepted.record.lateRecord

variable {text schemas} {frozen : FrozenInput} {records : List RoutedRecord}

theorem joinAll_eq (hdistinct : (frozen.artifacts.map RawArtifact.path).Nodup)
    (records : List RoutedRecord) : joinAll text schemas frozen records =
      keyedRun pathOf (joinLateRecord text schemas) (fileAt frozen.artifacts) records := by
  have horiginal : (originalFiles frozen.artifacts).get? = fileAt frozen.artifacts :=
    funext (originalFiles_get? hdistinct)
  unfold joinAll
  rw [horiginal]
  rfl

theorem fileAt_augmented (hdistinct : (frozen.artifacts.map RawArtifact.path).Nodup)
    (records : List RoutedRecord) (path : String) :
    fileAt (augmentedArtifacts frozen (joinAll text schemas frozen records).changed) path =
      (recordsAt pathOf path records).foldl (joinAt (joinLateRecord text schemas))
        (fileAt frozen.artifacts path) := by
  rw [fileAt_augmentedArtifacts hdistinct, joinAll_eq hdistinct]
  exact keyedRun_current records path

theorem changed_none_iff (hdistinct : (frozen.artifacts.map RawArtifact.path).Nodup)
    (records : List RoutedRecord) (path : String) :
    (joinAll text schemas frozen records).changed.get? path = none ↔
      joinedAt text schemas frozen records path = [] := by
  rw [joinAll_eq hdistinct]
  exact keyedRun_changed_none_iff records path

theorem mem_joinedAt_path {path : String} {accepted : RoutedRecord}
    (h : accepted ∈ joinedAt text schemas frozen records path) : accepted.route.path = path := by
  have hmem := mem_of_mem_joiners h
  unfold recordsAt at hmem
  exact of_decide_eq_true (List.mem_filter.mp hmem).2

/-- A record is routed to a file in the way the file's name settles. -/
theorem mem_joinedAt_fold {path : String} {accepted : RoutedRecord}
    (h : accepted ∈ joinedAt text schemas frozen records path) :
    accepted.route.fold = foldOfName (fileName path) := by
  rw [routeLateRecord_fold accepted.routed, mem_joinedAt_path h]

theorem foldl_joinAt_lines {current : Option Bytes} {list : List RoutedRecord}
    (hlines : ∀ accepted ∈ list, accepted.route.fold = .appendLine) :
    (list.foldl (joinAt (joinLateRecord text schemas)) current).getD [] =
      current.getD [] ++ (joiners (joinLateRecord text schemas) current list).flatMap (lineOf text) := by
  induction list generalizing current with
  | nil => exact (List.append_nil _).symm
  | cons accepted rest ih =>
    have hrest : ∀ other ∈ rest, other.route.fold = .appendLine :=
      fun other hmem => hlines other (List.mem_cons_of_mem _ hmem)
    rw [List.foldl_cons, ih hrest, joiners, joinAt]
    cases hjoin : joinLateRecord text schemas accepted current with
    | error why => rfl
    | ok bytes =>
      have hbytes : bytes = current.getD [] ++ lineOf text accepted := by
        unfold joinLateRecord at hjoin
        rw [hlines accepted List.mem_cons_self] at hjoin
        simp only at hjoin
        split at hjoin
        · cases hjoin
        · exact (Except.ok.inj hjoin).symm
      rw [hbytes, Option.getD_some, List.flatMap_cons, List.append_assoc]

theorem foldlM_documents {fold : DocumentFold} {current : Option Bytes} {list : List RoutedRecord}
    (hdocuments : ∀ accepted ∈ joiners (joinLateRecord text schemas) current list,
      accepted.route.fold = .document fold) :
    (joiners (joinLateRecord text schemas) current list).foldlM (fun current accepted =>
        (foldLateDocument text schemas fold current accepted.record.lateRecord).map some) current =
      .ok (list.foldl (joinAt (joinLateRecord text schemas)) current) := by
  induction list generalizing current with
  | nil => rfl
  | cons accepted rest ih =>
    rw [joiners] at hdocuments ⊢
    rw [List.foldl_cons, joinAt]
    cases hjoin : joinLateRecord text schemas accepted current with
    | error why =>
      rw [hjoin] at hdocuments
      exact ih hdocuments
    | ok bytes =>
      rw [hjoin] at hdocuments
      simp only at hdocuments ⊢
      have hfolded : foldLateDocument text schemas fold current accepted.record.lateRecord =
          .ok bytes := by
        unfold joinLateRecord at hjoin
        rw [hdocuments accepted List.mem_cons_self] at hjoin
        simp only at hjoin
        split at hjoin
        · rename_i folded hfolded
          rw [hfolded, Except.ok.inj hjoin]
        · cases hjoin
      rw [List.foldlM_cons, hfolded]
      exact ih fun other hmem => hdocuments other (List.mem_cons_of_mem _ hmem)

end Joining

/-! ## The evidence index -/

section Index

variable {text : NumberText} {schemas : FoldSchemas} {sha256Hex : Bytes → Sha256Hex}
  {frozen : FrozenInput} {records : List RoutedRecord}

/-- A digest is set aside for a file that records joined and whose frozen bytes it was of. -/
def SetAside (text : NumberText) (schemas : FoldSchemas) (sha256Hex : Bytes → Sha256Hex)
    (frozen : FrozenInput) (records : List RoutedRecord) (entry : String × Sha256Hex) : Prop :=
  joinedAt text schemas frozen records entry.1 ≠ [] ∧
    ∃ bytes, fileAt frozen.artifacts entry.1 = some bytes ∧ sha256Hex bytes = entry.2

theorem keepsDigest_iff (hdistinct : (frozen.artifacts.map RawArtifact.path).Nodup)
    (records : List RoutedRecord) (entry : String × Sha256Hex) :
    keepsDigest sha256Hex (originalFiles frozen.artifacts)
        (joinAll text schemas frozen records).changed entry = true ↔
      ¬ SetAside text schemas sha256Hex frozen records entry := by
  unfold keepsDigest SetAside
  rw [originalFiles_get? hdistinct, Bool.or_eq_true, Option.isNone_iff_eq_none,
    changed_none_iff hdistinct]
  cases fileAt frozen.artifacts entry.1 with
  | none => simp
  | some bytes =>
    simp only [decide_eq_true_eq, ne_eq, Option.some.injEq, exists_eq_left']
    tauto

theorem mem_setAsideExtended (hdistinct : (frozen.artifacts.map RawArtifact.path).Nodup)
    (records : List RoutedRecord) (indexed : DigestIndex) (entry : String × Sha256Hex) :
    entry ∈ (setAsideExtended sha256Hex indexed (originalFiles frozen.artifacts)
        (joinAll text schemas frozen records).changed).entries ↔
      entry ∈ indexed.entries ∧ ¬ SetAside text schemas sha256Hex frozen records entry := by
  rw [← keepsDigest_iff hdistinct]
  exact List.mem_filter

end Index

/-! ## Ingesting the augmented evidence -/

section Reingestion

def FrozenInput.toIngestion (input : FrozenInput) (read : Bytes → Ingestion.EvidenceFile) :
    Ingestion.IngestionInput where
  artifacts := input.artifacts.map fun artifact => ⟨artifact.path, read artifact.bytes⟩
  expected := input.expected
  executionScopeArtifacts :=
    input.executionScopeArtifacts.map fun artifact => ⟨artifact.path, read artifact.bytes⟩
  indexedDigests := input.indexedDigests.map DigestIndex.entries

def FrozenInput.indexedDigest (input : FrozenInput) (path : String) : Option Sha256Hex :=
  input.indexedDigests.bind fun indexed => indexed.entries.get? path

theorem lookup_eq_get? (entries : InsertionMap String Sha256Hex) (path : String) :
    entries.lookup path = entries.get? path := by
  induction entries with
  | nil => rfl
  | cons entry rest ih =>
    obtain ⟨name, digest⟩ := entry
    rw [List.lookup_cons, InsertionMap.get?, ih]
    by_cases hname : name = path
    · subst hname
      simp
    · have hother : (path == name) = false := by
        rw [beq_eq_false_iff_ne]
        exact Ne.symm hname
      rw [if_neg hname, hother]

theorem reportsMismatch_toIngestion (validator : Ingestion.RecordValidator) {input : FrozenInput}
    (hdistinct : (input.artifacts.map RawArtifact.path).Nodup)
    (read : Bytes → Ingestion.EvidenceFile) (path : String) :
    Ingestion.ReportsMismatch validator (input.toIngestion read) path ↔
      invalidPathReason path = none ∧ ∃ bytes digest, fileAt input.artifacts path = some bytes ∧
        input.indexedDigest path = some digest ∧ digest ≠ (read bytes).sha256 := by
  have hpaths : (input.toIngestion read).artifacts.map Ingestion.RawArtifact.path =
      input.artifacts.map RawArtifact.path := List.map_map
  have hindexed : ((input.toIngestion read).indexedDigests.bind fun digests =>
      digests.lookup path) = input.indexedDigest path := by
    unfold FrozenInput.indexedDigest
    change ((input.indexedDigests.map DigestIndex.entries).bind fun digests =>
      digests.lookup path) = _
    cases input.indexedDigests with
    | none => rfl
    | some indexed => exact lookup_eq_get? indexed.entries path
  rw [Ingestion.reportsMismatch_iff validator (by rw [hpaths]; exact hdistinct), hindexed]
  refine and_congr_right fun _ => ?_
  constructor
  · rintro ⟨raw, hraw, rfl, digest, hdigest, hne⟩
    obtain ⟨artifact, hmem, rfl⟩ := List.mem_map.mp hraw
    refine ⟨artifact.bytes, digest, ?_, hdigest, hne⟩
    rw [← originalFiles_get? hdistinct, originalFiles_eq hdistinct]
    refine InsertionMap.get?_of_mem ?_ (List.mem_map_of_mem hmem)
    rw [List.map_map]
    exact hdistinct
  · rintro ⟨bytes, digest, hbytes, hdigest, hne⟩
    obtain ⟨artifact, hfind, rfl⟩ := Option.map_eq_some_iff.mp hbytes
    have hpath : artifact.path = path := by
      have hfound := List.find?_some hfind
      exact of_decide_eq_true hfound
    exact ⟨_, List.mem_map_of_mem (List.mem_of_find?_eq_some hfind), hpath, digest, hdigest, hne⟩

end Reingestion

/-! ## The augmented evidence -/

section Result

variable {text : NumberText} {schemas : FoldSchemas} {frozen : FrozenInput}
  {records : List RoutedRecord}

/-- The frozen evidence with the records that joined it. -/
structure Augments (text : NumberText) (schemas : FoldSchemas) (sha256Hex : Bytes → Sha256Hex)
    (frozen : FrozenInput) (records : List RoutedRecord) (result : FrozenAugmentation) : Prop where
  expected : result.input.expected = frozen.expected
  scope : result.input.executionScopeArtifacts = frozen.executionScopeArtifacts
  paths : ∃ brought, result.input.artifacts.map RawArtifact.path =
      frozen.artifacts.map RawArtifact.path ++ brought ∧ brought.Nodup ∧
    ∀ path, path ∈ brought ↔ fileAt frozen.artifacts path = none ∧
      joinedAt text schemas frozen records path ≠ []
  untouched : ∀ path, joinedAt text schemas frozen records path = [] →
    fileAt result.input.artifacts path = fileAt frozen.artifacts path
  /-- No file is joined in two ways. -/
  oneWay : ∀ path, ∃ fold, ∀ accepted ∈ joinedAt text schemas frozen records path,
    accepted.route.fold = fold
  appended : ∀ path, joinedAt text schemas frozen records path ≠ [] →
    (∀ accepted ∈ joinedAt text schemas frozen records path, accepted.route.fold = .appendLine) →
    fileAt result.input.artifacts path = some ((fileAt frozen.artifacts path).getD [] ++
      (joinedAt text schemas frozen records path).flatMap (lineOf text))
  folded : ∀ path fold, (∀ accepted ∈ joinedAt text schemas frozen records path,
      accepted.route.fold = .document fold) →
    (joinedAt text schemas frozen records path).foldlM (fun current accepted =>
        (foldLateDocument text schemas fold current accepted.record.lateRecord).map some)
      (fileAt frozen.artifacts path) = .ok (fileAt result.input.artifacts path)
  problems : result.problems = records.zipIdx.filterMap fun entry =>
    (refusal pathOf (joinLateRecord text schemas) (fileAt frozen.artifacts)
      (records.take entry.2) entry.1).map joinProblem
  unindexed : frozen.indexedDigests = none → result.input.indexedDigests = none
  digests : ∀ indexed ∈ frozen.indexedDigests, ∃ kept ∈ result.input.indexedDigests,
    ∀ entry, entry ∈ kept.entries ↔
      entry ∈ indexed.entries ∧ ¬ SetAside text schemas sha256Hex frozen records entry

theorem augmented_lines (hdistinct : (frozen.artifacts.map RawArtifact.path).Nodup) {path : String}
    (hsome : joinedAt text schemas frozen records path ≠ [])
    (hlines : ∀ accepted ∈ joinedAt text schemas frozen records path,
      accepted.route.fold = .appendLine) :
    fileAt (augmentedArtifacts frozen (joinAll text schemas frozen records).changed) path =
      some ((fileAt frozen.artifacts path).getD [] ++
        (joinedAt text schemas frozen records path).flatMap (lineOf text)) := by
  have hname : foldOfName (fileName path) = .appendLine := by
    obtain ⟨accepted, hmem⟩ := List.exists_mem_of_ne_nil _ hsome
    rw [← mem_joinedAt_fold hmem]
    exact hlines accepted hmem
  have hall : ∀ accepted ∈ recordsAt pathOf path records, accepted.route.fold = .appendLine := by
    intro accepted hmem
    have hpath : accepted.route.path = path := of_decide_eq_true (List.mem_filter.mp hmem).2
    rw [routeLateRecord_fold accepted.routed, hpath, hname]
  have hvalue := @foldl_joinAt_lines text schemas (fileAt frozen.artifacts path) _ hall
  rw [← fileAt_augmented hdistinct] at hvalue
  have hpresent : fileAt (augmentedArtifacts frozen (joinAll text schemas frozen records).changed)
      path ≠ none := by
    rw [fileAt_augmentedArtifacts hdistinct]
    intro hnone
    exact hsome ((changed_none_iff hdistinct records path).mp (Option.or_eq_none_iff.mp hnone).1)
  obtain ⟨bytes, hbytes⟩ := Option.ne_none_iff_exists'.mp hpresent
  rw [hbytes, Option.getD_some] at hvalue
  rw [hbytes, hvalue]
  rfl

theorem mem_brought_iff (hdistinct : (frozen.artifacts.map RawArtifact.path).Nodup) (path : String) :
    path ∈ ((joinAll text schemas frozen records).changed.filter fun entry =>
        ((originalFiles frozen.artifacts).get? entry.1).isNone).map Prod.fst ↔
      fileAt frozen.artifacts path = none ∧ joinedAt text schemas frozen records path ≠ [] := by
  rw [ne_eq, ← changed_none_iff hdistinct, List.mem_map]
  constructor
  · rintro ⟨entry, hmem, rfl⟩
    obtain ⟨hchanged, hnone⟩ := List.mem_filter.mp hmem
    rw [originalFiles_get? hdistinct, Option.isNone_iff_eq_none] at hnone
    refine ⟨hnone, ?_⟩
    rw [joinAll_eq hdistinct] at hchanged ⊢
    rw [InsertionMap.get?_of_mem (keyedRun_nodup records) hchanged]
    intro h
    cases h
  · rintro ⟨hnone, hchanged⟩
    obtain ⟨bytes, hbytes⟩ := Option.ne_none_iff_exists'.mp hchanged
    refine ⟨(path, bytes), List.mem_filter.mpr ⟨InsertionMap.mem_of_get? hbytes, ?_⟩, rfl⟩
    rw [originalFiles_get? hdistinct, hnone]
    rfl

theorem augments (sha256Hex : Bytes → Sha256Hex)
    (hdistinct : (frozen.artifacts.map RawArtifact.path).Nodup) :
    Augments text schemas sha256Hex frozen records
      (augmentFrozenEvidence text schemas sha256Hex frozen records) where
  expected := rfl
  scope := rfl
  paths := by
    refine ⟨_, augmentedArtifacts_paths frozen _, ?_, mem_brought_iff hdistinct⟩
    rw [joinAll_eq hdistinct]
    exact (List.filter_sublist.map Prod.fst).nodup (keyedRun_nodup records)
  untouched := by
    intro path hnone
    exact (fileAt_augmented hdistinct records path).trans (foldl_joinAt_of_joiners_nil hnone)
  oneWay := fun path => ⟨_, fun _ hmem => mem_joinedAt_fold hmem⟩
  appended := fun path hsome hlines => augmented_lines hdistinct hsome hlines
  folded := by
    intro path fold hdocuments
    refine (foldlM_documents hdocuments).trans (congrArg Except.ok ?_)
    exact (fileAt_augmented hdistinct records path).symm
  problems := by
    change (joinAll text schemas frozen records).refused.map joinProblem = _
    rw [joinAll_eq hdistinct, keyedRun_refused, List.map_filterMap]
  unindexed := by
    intro hnone
    change frozen.indexedDigests.map _ = none
    rw [hnone]
    rfl
  digests := by
    intro indexed hindexed
    refine ⟨_, ?_, mem_setAsideExtended hdistinct records indexed⟩
    change frozen.indexedDigests.map _ = _
    rw [Option.mem_def.mp hindexed]
    rfl

theorem augmented_indexedDigest {sha256Hex : Bytes → Sha256Hex}
    (hdistinct : (frozen.artifacts.map RawArtifact.path).Nodup) {path : String} {digest : Sha256Hex}
    (h : (augmentFrozenEvidence text schemas sha256Hex frozen records).input.indexedDigest path =
      some digest) :
    frozen.indexedDigest path = some digest ∧
      ¬ SetAside text schemas sha256Hex frozen records (path, digest) := by
  unfold FrozenInput.indexedDigest augmentFrozenEvidence at h
  unfold FrozenInput.indexedDigest
  cases hindexed : frozen.indexedDigests with
  | none =>
    rw [hindexed] at h
    cases h
  | some indexed =>
    rw [hindexed] at h
    have hmem := InsertionMap.mem_of_get? h
    rw [mem_setAsideExtended hdistinct] at hmem
    exact ⟨InsertionMap.get?_of_mem indexed.distinct hmem.1, hmem.2⟩

/-- The augmented evidence disagrees with the index where the frozen evidence did, and where the
records bring an indexed file that the frozen evidence lacks. -/
theorem mismatch_of_augmented {read : Bytes → Ingestion.EvidenceFile}
    (hdistinct : (frozen.artifacts.map RawArtifact.path).Nodup)
    (validator : Ingestion.RecordValidator) {path : String}
    (h : Ingestion.ReportsMismatch validator ((augmentFrozenEvidence text schemas
      (fun bytes => (read bytes).sha256) frozen records).input.toIngestion read) path) :
    Ingestion.ReportsMismatch validator (frozen.toIngestion read) path ∨
      (fileAt frozen.artifacts path = none ∧ (frozen.indexedDigest path).isSome) := by
  have hchanged : ((joinAll text schemas frozen records).changed.map Prod.fst).Nodup := by
    rw [joinAll_eq hdistinct]
    exact keyedRun_nodup records
  obtain ⟨hvalid, bytes, digest, hbytes, hdigest, hne⟩ :=
    (reportsMismatch_toIngestion validator (augmentedArtifacts_nodup hdistinct hchanged) read
      path).mp h
  obtain ⟨hindexed, hkept⟩ := augmented_indexedDigest hdistinct hdigest
  cases hfrozen : fileAt frozen.artifacts path with
  | none =>
    right
    rw [hindexed]
    exact ⟨rfl, rfl⟩
  | some frozenBytes =>
    left
    refine (reportsMismatch_toIngestion validator hdistinct read path).mpr
      ⟨hvalid, frozenBytes, digest, hfrozen, hindexed, ?_⟩
    by_cases hnone : joinedAt text schemas frozen records path = []
    · have hsame := (augments (fun bytes => (read bytes).sha256) hdistinct).untouched path hnone
      have hboth : some bytes = some frozenBytes := hbytes.symm.trans (hsame.trans hfrozen)
      rw [← Option.some.inj hboth]
      exact hne
    · intro hmet
      exact hkept ⟨hnone, frozenBytes, hfrozen, hmet.symm⟩

/-- The late records join their files and change nothing else, and no file that the frozen evidence
holds disagrees with the index unless it did before. -/
theorem augmentation_joins_records (text : NumberText) (schemas : FoldSchemas)
    (read : Bytes → Ingestion.EvidenceFile) (frozen : FrozenInput) (records : List RoutedRecord)
    (hdistinct : (frozen.artifacts.map RawArtifact.path).Nodup) :
    Augments text schemas (fun bytes => (read bytes).sha256) frozen records
        (augmentFrozenEvidence text schemas (fun bytes => (read bytes).sha256) frozen records) ∧
      ∀ validator path, Ingestion.ReportsMismatch validator ((augmentFrozenEvidence text schemas
          (fun bytes => (read bytes).sha256) frozen records).input.toIngestion read) path →
        Ingestion.ReportsMismatch validator (frozen.toIngestion read) path ∨
          (fileAt frozen.artifacts path = none ∧ (frozen.indexedDigest path).isSome) :=
  ⟨augments _ hdistinct, fun validator _ h => mismatch_of_augmented hdistinct validator h⟩

/-! ## A file that only the index knows -/

def runnerEvent : JsonDocument :=
  .object
    [(jsString "event_id", .string (jsString "dbe36737-f44e-4028-b7ee-2daf3093327f")),
     (jsString "execution_manifest_sha256", .string (jsString "2984caaa5b239ade122795836daf9a192274668b9ae3ccaeba026eee004ec052")),
     (jsString "occurred_at", .string (jsString "2026-10-05T12:04:50.000Z")),
     (jsString "phase", .string (jsString "TRIALS")),
     (jsString "reasons", .array []),
     (jsString "record_type", .string (jsString "phase_transition_recorded")),
     (jsString "run_id", .string (jsString "b42ee7a8-4b45-43d7-8ca3-cb72ceae84c4")),
     (jsString "schema_version", .number (.finite (doubleOfNat 1 one_lt_bound))),
     (jsString "source", .string (jsString "runner")),
     (jsString "source_instance_id", .string (jsString "14f07508-d729-44a9-9316-85ec257e833b")),
     (jsString "source_sequence", .number (.finite (doubleOfNat 4 (by decide)))),
     (jsString "status", .string (jsString "started"))]

def lateRunnerEvent : RoutedRecord where
  record := ⟨.runnerJournal, "phase_transition_recorded", none, runnerEvent⟩
  route := ⟨runnerJournalPath, .appendLine, true⟩
  lineNumber := 1
  routed := by decide +kernel

def emptyDigest : Sha256Hex := "e3b0c44298fc1c149afbf4c8996fb92427ae41e4649b934ca495991b7852b855"

def indexedInput (artifacts : List RawArtifact) : FrozenInput where
  artifacts := artifacts
  expected := []
  executionScopeArtifacts := []
  indexedDigests := some ⟨[(runnerJournalPath, emptyDigest)], by simp⟩

def readRunnerJournal (bytes : Bytes) : Ingestion.EvidenceFile where
  sha256 :=
    if bytes = [] then emptyDigest
    else "6f6a338b5cd8dfdc51f420ffab229ff07b41734fb29b0065f372519881c70959"
  document := .error "not one JSON document"
  lines := []

theorem lineOf_ne_nil (text : NumberText) (accepted : RoutedRecord) : lineOf text accepted ≠ [] := by
  unfold lineOf recordFileBytes utf8
  rw [List.flatMap_append]
  intro h
  have hline := (List.append_eq_nil_iff.mp h).2
  revert hline
  decide

theorem fileAt_lateRunnerEvent (schemas : FoldSchemas) {artifacts : List RawArtifact}
    (hartifacts : artifacts = [] ∨ artifacts = [⟨runnerJournalPath, []⟩]) :
    fileAt (augmentFrozenEvidence exactText schemas (fun bytes => (readRunnerJournal bytes).sha256)
      (indexedInput artifacts) [lateRunnerEvent]).input.artifacts runnerJournalPath =
      some (lineOf exactText lateRunnerEvent) := by
  rcases hartifacts with rfl | rfl
  · rfl
  · rfl

theorem readRunnerJournal_line :
    (readRunnerJournal (lineOf exactText lateRunnerEvent)).sha256 =
      "6f6a338b5cd8dfdc51f420ffab229ff07b41734fb29b0065f372519881c70959" := by
  unfold readRunnerJournal
  rw [if_neg (lineOf_ne_nil _ _)]

def acceptingSchemas : FoldSchemas := ⟨fun _ _ => true, fun _ _ => true, fun _ _ => ""⟩

def silentValidator : Ingestion.RecordValidator := ⟨fun _ => []⟩

theorem brought_file_disagrees :
    ¬ Ingestion.ReportsMismatch silentValidator ((indexedInput []).toIngestion readRunnerJournal)
        runnerJournalPath ∧
      Ingestion.ReportsMismatch silentValidator ((augmentFrozenEvidence exactText acceptingSchemas
        (fun bytes => (readRunnerJournal bytes).sha256) (indexedInput [])
        [lateRunnerEvent]).input.toIngestion readRunnerJournal) runnerJournalPath := by
  constructor
  · have hdistinct : ((indexedInput []).artifacts.map RawArtifact.path).Nodup := List.nodup_nil
    rw [reportsMismatch_toIngestion silentValidator hdistinct]
    rintro ⟨-, bytes, digest, hbytes, -⟩
    cases hbytes
  · have hnodup : ((augmentFrozenEvidence exactText acceptingSchemas
        (fun bytes => (readRunnerJournal bytes).sha256) (indexedInput [])
        [lateRunnerEvent]).input.artifacts.map RawArtifact.path).Nodup :=
      List.nodup_singleton runnerJournalPath
    rw [reportsMismatch_toIngestion silentValidator hnodup]
    refine ⟨by decide +kernel, _, emptyDigest, fileAt_lateRunnerEvent acceptingSchemas (.inl rfl),
      rfl, ?_⟩
    rw [readRunnerJournal_line]
    decide

theorem extended_journal_agrees :
    fileAt (augmentFrozenEvidence exactText acceptingSchemas
        (fun bytes => (readRunnerJournal bytes).sha256)
        (indexedInput [⟨runnerJournalPath, []⟩]) [lateRunnerEvent]).input.artifacts
        runnerJournalPath = some (lineOf exactText lateRunnerEvent) ∧
      ¬ Ingestion.ReportsMismatch silentValidator ((augmentFrozenEvidence exactText acceptingSchemas
        (fun bytes => (readRunnerJournal bytes).sha256) (indexedInput [⟨runnerJournalPath, []⟩])
        [lateRunnerEvent]).input.toIngestion readRunnerJournal) runnerJournalPath := by
  have hdistinct : ((indexedInput [⟨runnerJournalPath, []⟩]).artifacts.map RawArtifact.path).Nodup :=
    List.nodup_singleton runnerJournalPath
  have hresult := augmentation_joins_records exactText acceptingSchemas readRunnerJournal _
    [lateRunnerEvent] hdistinct
  refine ⟨fileAt_lateRunnerEvent acceptingSchemas (.inr rfl), fun hreports => ?_⟩
  rcases hresult.2 silentValidator runnerJournalPath hreports with hfrozen | ⟨hnone, -⟩
  · rw [reportsMismatch_toIngestion silentValidator hdistinct] at hfrozen
    obtain ⟨-, bytes, digest, hbytes, hdigest, hne⟩ := hfrozen
    cases hbytes
    cases hdigest
    exact hne rfl
  · cases hnone

end Result

end RefundStudy.LateEvidence
