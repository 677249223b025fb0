/-
  What ingestion classifies, and how findings are merged
  (`evidence-ingestion/ingestion-findings.ts`, BR-RUA-034).
-/
import RefundStudy.Foundation.InsertionMap
import RefundStudy.Package.Layout
import RefundStudy.Record.Vocabulary
import Mathlib.Data.List.Sort

set_option autoImplicit false

namespace RefundStudy.Ingestion

open Foundation Record Package

/-- `INGESTION_FINDING_CODES`. -/
inductive IngestionFindingCode where
  | equivalentDuplicateCollapsed
  | conflictingEventContent
  | conflictingSourceSequence
  | sourceSequenceGap
  | causalPredecessorMissing
  | duplicateLedgerTransactionId
  | ledgerPaginationIncomplete
  | coreFileDigestMismatch
  | artifactMissing
  | artifactUnparseable
  | recordSchemaInvalid
  | correlationMissing
  | ledgerLargerThanExpected
  deriving DecidableEq

def IngestionFindingCode.text : IngestionFindingCode → String
  | .equivalentDuplicateCollapsed => "EQUIVALENT_DUPLICATE_COLLAPSED"
  | .conflictingEventContent => "CONFLICTING_EVENT_CONTENT"
  | .conflictingSourceSequence => "CONFLICTING_SOURCE_SEQUENCE"
  | .sourceSequenceGap => "SOURCE_SEQUENCE_GAP"
  | .causalPredecessorMissing => "CAUSAL_PREDECESSOR_MISSING"
  | .duplicateLedgerTransactionId => "DUPLICATE_LEDGER_TRANSACTION_ID"
  | .ledgerPaginationIncomplete => "LEDGER_PAGINATION_INCOMPLETE"
  | .coreFileDigestMismatch => "CORE_FILE_DIGEST_MISMATCH"
  | .artifactMissing => "ARTIFACT_MISSING"
  | .artifactUnparseable => "ARTIFACT_UNPARSEABLE"
  | .recordSchemaInvalid => "RECORD_SCHEMA_INVALID"
  | .correlationMissing => "CORRELATION_MISSING"
  | .ledgerLargerThanExpected => "LEDGER_LARGER_THAN_EXPECTED"

def findingSubject : IngestionFindingCode → String
  | .artifactMissing => "BR-RUA-037"
  | .artifactUnparseable | .recordSchemaInvalid => "BR-RUA-033"
  | .correlationMissing => "BR-RUA-008"
  | _ => "BR-RUA-034"

structure IngestionFinding where
  code : IngestionFindingCode
  subject : String
  artifactPath : Option String
  eventId : Option Uuid4
  sourceInstanceKey : Option String
  detail : String
  occurrences : Nat
  deriving DecidableEq

structure FindingLocation where
  artifactPath : Option String := none
  eventId : Option Uuid4 := none
  sourceInstanceKey : Option String := none
  occurrences : Nat := 1

def aggregatedFirstLimit : Nat := 150

/-- A path that is not normalized is left out. -/
def ingestionFinding (code : IngestionFindingCode) (detail : String) (location : FindingLocation) :
    IngestionFinding where
  code := code
  subject := findingSubject code
  artifactPath := location.artifactPath.filter fun path => (invalidPathReason path).isNone
  eventId := location.eventId
  sourceInstanceKey := location.sourceInstanceKey
  detail := boundedText detail
  occurrences := location.occurrences

def aggregatedDetail (first : String) (occurrences : Nat) : String :=
  let described := boundedText first aggregatedFirstLimit
  if 1 < occurrences then described ++ " (and " ++ toString (occurrences - 1) ++ " more)"
  else described

def mergeKey (finding : IngestionFinding) : IngestionFindingCode × String × String :=
  (finding.code, finding.artifactPath.getD "", finding.sourceInstanceKey.getD "")

def mergeGroup : List IngestionFinding → List IngestionFinding
  | [] => []
  | [finding] => [finding]
  | first :: second :: rest =>
    let group := first :: second :: rest
    [{ first with
        detail := aggregatedDetail first.detail group.length
        occurrences := (group.map IngestionFinding.occurrences).sum }]

/-- One turn of the loop of `mergeFindings`. -/
def addToMerge (merged : InsertionMap (IngestionFindingCode × String × String)
    (List IngestionFinding)) (finding : IngestionFinding) :
    InsertionMap (IngestionFindingCode × String × String) (List IngestionFinding) :=
  merged.set (mergeKey finding) ((merged.get? (mergeKey finding)).getD [] ++ [finding])

def mergeFindings (findings : List IngestionFinding) : List IngestionFinding :=
  (findings.foldl addToMerge []).values.flatMap mergeGroup

/-- `compareFindings`, as the order `sort` puts findings in. -/
def findingLe (first second : IngestionFinding) : Bool :=
  let keys (finding : IngestionFinding) : List (List Nat) :=
    [utf16Units finding.code.text, utf16Units (finding.artifactPath.getD ""),
      utf16Units (finding.sourceInstanceKey.getD ""),
      (finding.eventId.map fun id => [id]).getD [], utf16Units finding.detail]
  decide (keys first ≤ keys second)

def sortFindings (findings : List IngestionFinding) : List IngestionFinding :=
  findings.insertionSort fun first second => findingLe first second

end RefundStudy.Ingestion
