/-
  The files that disagree with the evidence index (`evidence-ingestion/core-digests.ts`,
  `indexMismatch`).
-/
import RefundStudy.Ingestion.FurtherArtifacts

set_option autoImplicit false

namespace RefundStudy.Ingestion

open Foundation Record Package

/-- The index mismatches among the examined artifacts of an input. -/
def indexFindings (validator : RecordValidator) (input : IngestionInput) : List IngestionFinding :=
  ((inputArtifacts validator input).filter fun artifact =>
    decide (artifact.origin ≠ .executionScope)).flatMap (indexMismatch input.indexedDigests)

/-- Ingestion reports that a file disagrees with the evidence index. -/
def ReportsMismatch (validator : RecordValidator) (input : IngestionInput) (path : String) : Prop :=
  ∃ finding ∈ indexFindings validator input, finding.artifactPath = some path

/-! ## The artifacts read -/

section Read

variable {expected : List ExpectedArtifact}

def parsedFile (expected : List ExpectedArtifact) (scope : Bool) (raw : RawArtifact) :
    ParsedArtifact :=
  (parseArtifact raw (originOf expected raw.path scope) (expectedByPath expected raw.path)).1

theorem parsedFile_path (scope : Bool) (raw : RawArtifact) :
    (parsedFile expected scope raw).path = raw.path :=
  (parseArtifact_origin raw _ _).1

theorem parsedFile_origin (scope : Bool) (raw : RawArtifact) :
    (parsedFile expected scope raw).origin = originOf expected raw.path scope :=
  (parseArtifact_origin raw _ _).2

theorem parsedFile_sha256 (scope : Bool) (raw : RawArtifact) :
    (parsedFile expected scope raw).sha256 = raw.bytes.sha256 := by
  unfold parsedFile parseArtifact
  dsimp only
  split <;> rfl

theorem originOf_false_ne (path : String) : originOf expected path false ≠ .executionScope := by
  unfold originOf
  rw [if_neg Bool.false_ne_true]
  split
  · intro h
    cases h
  · intro h
    cases h

theorem foldl_readArtifact_distinct (files : List RawArtifact) :
    ∀ {reading : ArtifactReading}, (files.map RawArtifact.path).Nodup →
      (∀ raw ∈ files, ∀ artifact ∈ reading.artifacts, artifact.path ≠ raw.path) →
      ((files.map fun raw => (raw, false)).foldl (readArtifact expected) reading).artifacts =
        reading.artifacts ++
          (files.filter fun raw => (invalidPathReason raw.path).isNone).map
            (parsedFile expected false) := by
  induction files with
  | nil =>
    intro reading _ _
    exact (List.append_nil _).symm
  | cons raw rest ih =>
    intro reading hdistinct hfresh
    rw [List.map_cons, List.nodup_cons] at hdistinct
    have hrest : ∀ other ∈ rest, raw.path ≠ other.path := fun other hmem heq =>
      hdistinct.1 (heq ▸ List.mem_map_of_mem hmem)
    rw [List.map_cons, List.foldl_cons, List.filter_cons]
    cases hpath : invalidPathReason raw.path with
    | some violation =>
      have hstep : (readArtifact expected reading (raw, false)).artifacts =
          reading.artifacts := by
        unfold readArtifact acceptPath
        simp only [hpath]
      rw [ih hdistinct.2 (by
        rw [hstep]
        exact fun other hmem => hfresh other (List.mem_cons_of_mem _ hmem)), hstep]
      rfl
    | none =>
      have hnone : reading.artifacts.find? (fun artifact => decide (artifact.path = raw.path)) =
          none := by
        rw [List.find?_eq_none]
        intro artifact hmem hsame
        exact hfresh raw List.mem_cons_self artifact hmem (of_decide_eq_true hsame)
      have hstep : (readArtifact expected reading (raw, false)).artifacts =
          reading.artifacts ++ [parsedFile expected false raw] := by
        unfold readArtifact acceptPath
        simp only [hpath, hnone]
        rfl
      rw [ih hdistinct.2 (by
        rw [hstep]
        intro other hmem artifact hartifact
        rcases List.mem_append.mp hartifact with hold | hnew
        · exact hfresh other (List.mem_cons_of_mem _ hmem) artifact hold
        · rw [List.mem_singleton.mp hnew, parsedFile_path]
          exact hrest other hmem), hstep, List.append_assoc]
      rfl

theorem foldl_readArtifact_scope (files : List RawArtifact) :
    ∀ {reading : ArtifactReading},
      ((files.map fun raw => (raw, true)).foldl (readArtifact expected) reading).artifacts.filter
          (fun artifact => decide (artifact.origin ≠ .executionScope)) =
        reading.artifacts.filter fun artifact => decide (artifact.origin ≠ .executionScope) := by
  induction files with
  | nil =>
    intro reading
    rfl
  | cons raw rest ih =>
    intro reading
    rw [List.map_cons, List.foldl_cons, ih]
    unfold readArtifact
    split
    · rfl
    · have horigin : (parseArtifact raw (originOf expected raw.path true)
          (expectedByPath expected raw.path)).1.origin = .executionScope :=
        parsedFile_origin true raw
      simp only [List.filter_append, List.filter_cons, horigin]
      simp

theorem examined_readArtifacts {input : IngestionInput}
    (hdistinct : (input.artifacts.map RawArtifact.path).Nodup) :
    (readArtifacts input).artifacts.filter
        (fun artifact => decide (artifact.origin ≠ .executionScope)) =
      (input.artifacts.filter fun raw => (invalidPathReason raw.path).isNone).map
        (parsedFile input.expected false) := by
  unfold readArtifacts readingOrder
  dsimp only
  rw [List.foldl_append, foldl_readArtifact_scope,
    foldl_readArtifact_distinct input.artifacts hdistinct fun _ _ _ hmem => absurd hmem
      List.not_mem_nil]
  simp only [List.nil_append]
  rw [List.filter_eq_self]
  intro artifact hmem
  obtain ⟨raw, -, rfl⟩ := List.mem_map.mp hmem
  rw [decide_eq_true_eq, parsedFile_origin]
  exact originOf_false_ne raw.path

end Read

theorem indexMismatch_path_iff (digests : Option (List (String × Sha256Hex)))
    (artifact : IngestedArtifact) (path : String) :
    (∃ finding ∈ indexMismatch digests artifact, finding.artifactPath = some path) ↔
      invalidPathReason path = none ∧ artifact.path = path ∧
        ∃ indexed, (digests.bind fun digests => digests.lookup path) = some indexed ∧
          indexed ≠ artifact.sha256 := by
  have hlocated : ∀ detail, (ingestionFinding .coreFileDigestMismatch detail
      { artifactPath := some artifact.path }).artifactPath = some path ↔
      invalidPathReason path = none ∧ artifact.path = path := by
    intro detail
    change (some artifact.path).filter (fun path => (invalidPathReason path).isNone) = some path ↔ _
    rw [Option.filter_eq_some_iff, Option.some.injEq, Option.isNone_iff_eq_none]
    exact and_comm
  unfold indexMismatch
  constructor
  · rintro ⟨finding, hmem, hpath⟩
    split at hmem
    · cases hmem
    · rename_i indexed hindexed
      split at hmem
      · cases hmem
      · rename_i hne
        rw [List.mem_singleton.mp hmem, hlocated] at hpath
        obtain ⟨hvalid, rfl⟩ := hpath
        exact ⟨hvalid, rfl, indexed, hindexed, hne⟩
  · rintro ⟨hvalid, rfl, indexed, hindexed, hne⟩
    simp only [hindexed]
    rw [if_neg hne]
    exact ⟨_, List.mem_singleton_self _, (hlocated _).mpr ⟨hvalid, rfl⟩⟩

theorem reportsMismatch_iff (validator : RecordValidator) {input : IngestionInput}
    (hdistinct : (input.artifacts.map RawArtifact.path).Nodup) (path : String) :
    ReportsMismatch validator input path ↔
      invalidPathReason path = none ∧ ∃ raw ∈ input.artifacts, raw.path = path ∧
        ∃ indexed, (input.indexedDigests.bind fun digests => digests.lookup path) = some indexed ∧
          indexed ≠ raw.bytes.sha256 := by
  have hexamined : ((inputArtifacts validator input).filter fun artifact =>
      decide (artifact.origin ≠ .executionScope)) =
      (input.artifacts.filter fun raw => (invalidPathReason raw.path).isNone).map fun raw =>
        classifyArtifact validator (inputScope validator input)
          (parsedFile input.expected false raw) := by
    have hmap := congrArg (List.map (classifyArtifact validator (inputScope validator input)))
      (examined_readArtifacts hdistinct)
    rw [List.map_map] at hmap
    rw [inputArtifacts, List.filter_map]
    exact hmap
  have hpath : ∀ raw, (classifyArtifact validator (inputScope validator input)
      (parsedFile input.expected false raw)).path = raw.path := parsedFile_path false
  have hsha256 : ∀ raw, (classifyArtifact validator (inputScope validator input)
      (parsedFile input.expected false raw)).sha256 = raw.bytes.sha256 := parsedFile_sha256 false
  unfold ReportsMismatch indexFindings
  rw [hexamined]
  constructor
  · rintro ⟨finding, hmem, hlocated⟩
    obtain ⟨artifact, hartifact, hfinding⟩ := List.mem_flatMap.mp hmem
    obtain ⟨raw, hraw, rfl⟩ := List.mem_map.mp hartifact
    obtain ⟨hvalid, hsame, indexed, hindexed, hne⟩ :=
      (indexMismatch_path_iff _ _ path).mp ⟨finding, hfinding, hlocated⟩
    rw [hpath] at hsame
    rw [hsha256] at hne
    exact ⟨hvalid, raw, (List.mem_filter.mp hraw).1, hsame, indexed, hindexed, hne⟩
  · rintro ⟨hvalid, raw, hraw, hsame, indexed, hindexed, hne⟩
    obtain ⟨finding, hfinding, hlocated⟩ := (indexMismatch_path_iff input.indexedDigests
      (classifyArtifact validator (inputScope validator input)
        (parsedFile input.expected false raw)) path).mpr
      ⟨hvalid, by rw [hpath, hsame], indexed, hindexed, by rw [hsha256]; exact hne⟩
    refine ⟨finding, List.mem_flatMap.mpr ⟨_, List.mem_map_of_mem ?_, hfinding⟩, hlocated⟩
    rw [List.mem_filter, hsame, hvalid]
    exact ⟨hraw, rfl⟩

end RefundStudy.Ingestion
