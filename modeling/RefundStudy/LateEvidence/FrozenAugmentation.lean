/-
  The frozen evidence with its late records (`trial-oracle/late-evidence/frozen-augmentation.ts`,
  BR-RUA-043).
-/
import RefundStudy.Foundation.KeyedJoins
import RefundStudy.Ingestion.Reading
import RefundStudy.LateEvidence.Assessment
import RefundStudy.LateEvidence.RecordRouting

set_option autoImplicit false

namespace RefundStudy.LateEvidence

open Foundation Record Store Package

/-- An accepted late record, with its place in the frozen evidence. -/
structure RoutedRecord where
  record : LateEvidenceRecord
  route : LateRoute
  lineNumber : Nat
  routed : routeLateRecord record = some route

/-- `ReadonlyMap<string, Sha256Hex>`. -/
structure DigestIndex where
  entries : InsertionMap String Sha256Hex
  distinct : (entries.map Prod.fst).Nodup

/-- `IngestionInput`, with the bytes of its files. -/
structure FrozenInput where
  artifacts : List RawArtifact
  expected : List Ingestion.ExpectedArtifact
  executionScopeArtifacts : List RawArtifact
  indexedDigests : Option DigestIndex

/-! ## Joining -/

/-- Why a record cannot join its file. -/
inductive JoinRefusal where
  | unfoldable (why : FoldRefusal)
  | endsWithoutNewline

/-- A `LATE_DOCUMENT_UNFOLDABLE` problem, with what its detail tells. -/
structure JoinProblem where
  problem : LateProblem
  lineNumber : Nat
  why : JoinRefusal

def newline : UInt8 := 0x0a

section Augmentation

variable (text : NumberText) (schemas : FoldSchemas)

def joinLateRecord (accepted : RoutedRecord) (current : Option Bytes) : Except JoinRefusal Bytes :=
  match accepted.route.fold with
  | .document fold =>
    match foldLateDocument text schemas fold current accepted.record.lateRecord with
    | .ok folded => .ok folded
    | .error why => .error (.unfoldable why)
  | .appendLine =>
    let existing := current.getD []
    if existing ≠ [] ∧ existing.getLast? ≠ some newline then .error .endsWithoutNewline
    else .ok (existing ++ recordFileBytes text accepted.record.lateRecord)

def joinProblem (refused : RoutedRecord × JoinRefusal) : JoinProblem where
  problem := ⟨.lateDocumentUnfoldable, refused.1.route.path⟩
  lineNumber := refused.1.lineNumber
  why := refused.2

def originalFiles (artifacts : List RawArtifact) : InsertionMap String Bytes :=
  artifacts.foldl (fun files artifact => files.set artifact.path artifact.bytes) []

def joinAll (frozen : FrozenInput) (records : List RoutedRecord) :
    KeyedState RoutedRecord String Bytes JoinRefusal :=
  keyedRun (fun accepted => accepted.route.path) (joinLateRecord text schemas)
    (originalFiles frozen.artifacts).get? records

/-- The files with what joined them, and the files the records bring. -/
def augmentedArtifacts (frozen : FrozenInput) (changed : InsertionMap String Bytes) :
    List RawArtifact :=
  (frozen.artifacts.map fun artifact =>
      ⟨artifact.path, (changed.get? artifact.path).getD artifact.bytes⟩) ++
    (changed.filter fun entry => ((originalFiles frozen.artifacts).get? entry.1).isNone).map
      fun entry => ⟨entry.1, entry.2⟩

def keepsDigest (sha256Hex : Bytes → Sha256Hex) (original changed : InsertionMap String Bytes)
    (entry : String × Sha256Hex) : Bool :=
  (changed.get? entry.1).isNone ||
    match original.get? entry.1 with
    | none => true
    | some frozenBytes => decide (sha256Hex frozenBytes ≠ entry.2)

def setAsideExtended (sha256Hex : Bytes → Sha256Hex) (indexed : DigestIndex)
    (original changed : InsertionMap String Bytes) : DigestIndex where
  entries := indexed.entries.filter (keepsDigest sha256Hex original changed)
  distinct := (List.filter_sublist.map Prod.fst).nodup indexed.distinct

structure FrozenAugmentation where
  input : FrozenInput
  problems : List JoinProblem

def augmentFrozenEvidence (sha256Hex : Bytes → Sha256Hex) (frozen : FrozenInput)
    (records : List RoutedRecord) : FrozenAugmentation :=
  let state := joinAll text schemas frozen records
  { input :=
      { artifacts := augmentedArtifacts frozen state.changed
        expected := frozen.expected
        executionScopeArtifacts := frozen.executionScopeArtifacts
        indexedDigests := frozen.indexedDigests.map fun indexed =>
          setAsideExtended sha256Hex indexed (originalFiles frozen.artifacts) state.changed }
    problems := state.refused.map joinProblem }

end Augmentation

end RefundStudy.LateEvidence
