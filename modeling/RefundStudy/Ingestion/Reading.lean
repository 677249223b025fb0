/-
  From bytes to classified records (`evidence-ingestion/artifact-reading.ts`,
  `scope-resolution.ts`, `record-classification.ts`, `located-records.ts`; design 8.2 steps I1 and
  I2).

  A file is given as the digest of its bytes and what the parsers read in them (`EvidenceFile`);
  the catalogue's schemas (`RecordValidator`) are a parameter.
-/
import RefundStudy.Ingestion.Records
import RefundStudy.Ingestion.SequenceDensity

set_option autoImplicit false

namespace RefundStudy.Ingestion

open Record Package

/-! ## Inputs -/

/-- The exact bytes of a file, as ingestion sees them: their digest (`sha256Hex`), the document they
are (`parseJsonDocument`) and the numbered lines they are (`parseJsonl`).  A failed parse is the text
that describes it. -/
structure EvidenceFile where
  sha256 : Sha256Hex
  document : Except String RecordValue
  lines : List (Nat × Except String RecordValue)

structure RawArtifact where
  path : String
  bytes : EvidenceFile

inductive ArtifactRequirement where
  | required
  | conditional
  | optional
  deriving DecidableEq

def ArtifactRequirement.text : ArtifactRequirement → String
  | .required => "required"
  | .conditional => "conditional"
  | .optional => "optional"

structure ExpectedArtifact where
  path : String
  artifactClass : ArtifactClass
  requirement : ArtifactRequirement

structure IngestionInput where
  artifacts : List RawArtifact
  expected : List ExpectedArtifact
  executionScopeArtifacts : List RawArtifact
  indexedDigests : Option (List (String × Sha256Hex)) := none

/-- `createRecordValidator`: what the schema of a record's own type finds wrong with it, described;
nothing for a valid record. -/
structure RecordValidator where
  violations : RecordValue → List String

/-! ## Artifacts -/

structure ParsedValue where
  lineNumber : Option Nat
  value : RecordValue

structure ParsedArtifact where
  path : String
  sha256 : Sha256Hex
  origin : ArtifactOrigin
  artifactClass : Option ArtifactClass
  requirement : Option ArtifactRequirement
  parsed : Bool
  values : List ParsedValue

inductive RecordValidity where
  | valid
  | schemaInvalid
  | correlationMissing
  deriving DecidableEq

structure IngestedRecord where
  lineNumber : Option Nat
  value : RecordValue
  validity : RecordValidity

/-- A record that is read as its type: a schema-invalid one never is. -/
def IngestedRecord.usable (record : IngestedRecord) : Bool :=
  decide (record.validity ≠ .schemaInvalid)

structure IngestedArtifact where
  path : String
  sha256 : Sha256Hex
  origin : ArtifactOrigin
  artifactClass : Option ArtifactClass
  requirement : Option ArtifactRequirement
  parsed : Bool
  records : List IngestedRecord

def pathViolationText : PathViolation → String
  | .empty => "EMPTY_PATH"
  | .absolutePath => "ABSOLUTE_PATH"
  | .parentTraversal => "PARENT_TRAVERSAL"
  | .nonNormalizedPath => "NON_NORMALIZED_PATH"

variable (expected : List ExpectedArtifact)

/-- Of two entries with one path the later one counts. -/
def expectedByPath (path : String) : Option ExpectedArtifact :=
  (expected.filter fun entry => decide (entry.path = path)).getLast?

def originOf (path : String) (scope : Bool) : ArtifactOrigin :=
  if scope then .executionScope
  else if (expectedByPath expected path).isSome then .subject
  else .supplementary

/-- Where a parsed line stands, for a detail. -/
def positionText : Option Nat → String
  | none => "document"
  | some line => "line " ++ toString line

def missingArtifactFinding (artifact : ExpectedArtifact) : IngestionFinding :=
  ingestionFinding .artifactMissing
    (artifact.path ++ " (" ++ artifact.artifactClass.text ++ ") is absent; expected the " ++
      artifact.requirement.text ++ " artifact to be present")
    { artifactPath := some artifact.path }

/-- `jsonlValues` or `documentValue`, by the suffix of the path. -/
def positionedValues (raw : RawArtifact) : List (Option Nat × Except String RecordValue) :=
  if ".jsonl".toList.isSuffixOf raw.path.toList then
    raw.bytes.lines.map fun line => (some line.1, line.2)
  else [(none, raw.bytes.document)]

def parseArtifact (raw : RawArtifact) (origin : ArtifactOrigin)
    (expected : Option ExpectedArtifact) : ParsedArtifact × List IngestionFinding :=
  let lines := positionedValues raw
  let failures := lines.filterMap fun line =>
    match line.2 with
    | .ok _ => none
    | .error what => some (positionText line.1 ++ ": " ++ what)
  let artifact : ParsedArtifact :=
    { path := raw.path
      sha256 := raw.bytes.sha256
      origin := origin
      artifactClass := expected.map ExpectedArtifact.artifactClass
      requirement := expected.map ExpectedArtifact.requirement
      parsed := failures.isEmpty
      values := lines.filterMap fun line => line.2.toOption.map (ParsedValue.mk line.1) }
  match failures with
  | [] => (artifact, [])
  | first :: _ =>
    (artifact, [ingestionFinding .artifactUnparseable
      (aggregatedDetail ("expected strict UTF-8 JSON; " ++ first) failures.length)
      { artifactPath := some raw.path, occurrences := failures.length }])

/-- `none` accepts, otherwise the findings of the refusal. -/
def acceptPath (raw : RawArtifact) (seen : List ParsedArtifact) : Option (List IngestionFinding) :=
  match invalidPathReason raw.path with
  | some violation =>
    some [ingestionFinding .artifactUnparseable
      ("artifact path " ++ boundedJsonText raw.path ++ " is " ++ pathViolationText violation ++
        "; expected a normalized package-relative POSIX path") {}]
  | none =>
    match seen.find? fun artifact => decide (artifact.path = raw.path) with
    | none => none
    | some earlier =>
      if earlier.sha256 = raw.bytes.sha256 then some []
      else some [ingestionFinding .artifactUnparseable
        (raw.path ++ " is given twice with different bytes; expected one byte sequence per " ++
          "path (the first is kept)")
        { artifactPath := some raw.path }]

structure ArtifactReading where
  artifacts : List ParsedArtifact
  findings : List IngestionFinding

/-- One turn of the loop of `readArtifacts`. -/
def readArtifact (reading : ArtifactReading) (source : RawArtifact × Bool) : ArtifactReading :=
  match acceptPath source.1 reading.artifacts with
  | some refused => { reading with findings := reading.findings ++ refused }
  | none =>
    let parsed := parseArtifact source.1 (originOf expected source.1.path source.2)
      (expectedByPath expected source.1.path)
    { artifacts := reading.artifacts ++ [parsed.1]
      findings := reading.findings ++ parsed.2 }

/-- The artifacts in the order they are read, each with whether it is execution scope. -/
def readingOrder (input : IngestionInput) : List (RawArtifact × Bool) :=
  (input.artifacts.map fun raw => (raw, false)) ++
    input.executionScopeArtifacts.map fun raw => (raw, true)

def missingRequired (artifacts : List ParsedArtifact) : List IngestionFinding :=
  (expected.filter fun entry =>
    decide (entry.requirement = .required) &&
      !artifacts.any fun artifact => decide (artifact.path = entry.path)).map missingArtifactFinding

def readArtifacts (input : IngestionInput) : ArtifactReading :=
  let reading := (readingOrder input).foldl (readArtifact input.expected) ⟨[], []⟩
  { reading with
    findings := reading.findings ++ missingRequired input.expected reading.artifacts }

/-! ## Validation -/

variable (validator : RecordValidator)

/-- Only an object of a catalogued type has a schema. -/
def validate (value : RecordValue) : List String :=
  match value.body with
  | .notObject => ["/ type: expected a JSON object record"]
  | .uncatalogued =>
    ["/record_type record_type: record_type is not catalogued; expected one of RECORD_TYPES"]
  | _ => validator.violations value

def validateAs (recordType : String) (value : RecordValue) : List String :=
  match value.body.recordType with
  | none => validate validator value
  | some declared =>
    if declared = recordType then validate validator value
    else ["/record_type const: record_type is " ++ boundedJsonText declared ++ "; expected " ++
      boundedJsonText recordType]

def expectedRecordShape (artifactClass : Option ArtifactClass) : Option ExpectedRecordShape :=
  artifactClass.map recordShapeByClass

def isUnitFile (origin : ArtifactOrigin) (artifactClass : Option ArtifactClass) : Bool :=
  decide (origin = .subject) &&
    match artifactClass with
    | none => false
    | some found => !executionLevelClasses.contains found

def checkShape (shape : Option ExpectedRecordShape) (value : RecordValue) : List String :=
  match shape with
  | none => validate validator value
  | some (.recordType recordType) => validateAs validator recordType value
  | some .anyEvent =>
    let violations := validate validator value
    if !violations.isEmpty || value.asEvent.isSome then violations
    else ["/record_type record_type: record_type " ++
      boundedJsonText (value.body.recordType.getD "") ++
      " is not a journal event; expected an event record type"]

/-! ## Scope -/

structure SubjectTrial where
  trialId : String
  trialManifestSha256 : Sha256Hex
  scenario : Scenario

structure EvidenceScope where
  isTrial : Bool
  execution : Option ScopedExecution
  executionManifestSha256 : Option Sha256Hex
  trial : Option SubjectTrial
  reevaluation : Bool

/-- The subject's manifest of this class, when its document is schema-valid. -/
def validManifest (artifacts : List ParsedArtifact)
    (artifactClass : ArtifactClass) : Option (RecordValue × ParsedArtifact) := do
  let artifact ← artifacts.find? fun candidate =>
    decide (candidate.origin = .subject ∧ candidate.artifactClass = some artifactClass)
  let document ← artifact.values.head?
  if (validateAs validator artifactClass.text document.value).isEmpty then
    some (document.value, artifact)
  else none

/-- The schema requires the id member of the manifest's kind. -/
def executionIdentityOf (value : RecordValue) : Option ScopedExecution :=
  match value.body with
  | .executionManifest kind =>
    (value.correlation.executionId (executionIdField kind)).ownString.map (ScopedExecution.mk kind)
  | _ => none

/-- The schema requires the manifest's `trial_id`. -/
def subjectTrialOf (value : RecordValue) (sha256 : Sha256Hex) : Option SubjectTrial :=
  match value.body with
  | .trialManifest manifest =>
    value.correlation.trialId.ownString.map fun trialId => ⟨trialId, sha256, manifest.scenario⟩
  | _ => none

def resolveScope (artifacts : List ParsedArtifact)
    (expected : List ExpectedArtifact) (reevaluation : Bool) : EvidenceScope :=
  let isTrial := expected.any fun entry => decide (entry.artifactClass = .trialManifest)
  let execution := validManifest validator artifacts .executionManifest
  let trial := if isTrial then validManifest validator artifacts .trialManifest else none
  { isTrial := isTrial
    execution := execution.bind fun manifest => executionIdentityOf manifest.1
    executionManifestSha256 := execution.map fun manifest => manifest.2.sha256
    trial := trial.bind fun manifest => subjectTrialOf manifest.1 manifest.2.sha256
    reevaluation := reevaluation }

/-! ## Classification -/

/-- `PLACEHOLDER_UUID` and `PLACEHOLDER_SHA256`. -/
def placeholderUuid : Member := .text "00000000-0000-4000-8000-000000000000"
def placeholderSha256 : Member :=
  .text "0000000000000000000000000000000000000000000000000000000000000000"

/-- Correlation members a record lacks together, and how they are filled. -/
structure CorrelationUnit where
  names : List String
  fill : Correlation → Correlation

def ExecutionIdField.text : ExecutionIdField → String
  | .runId => "run_id"
  | .variantValidationId => "variant_validation_id"
  | .transportProbeId => "transport_probe_id"

def fillExecutionId (field : ExecutionIdField) (correlation : Correlation) : Correlation :=
  match field with
  | .runId => { correlation with runId := placeholderUuid }
  | .variantValidationId => { correlation with variantValidationId := placeholderUuid }
  | .transportProbeId => { correlation with transportProbeId := placeholderUuid }

def absentTrialMembers (correlation : Correlation) : CorrelationUnit where
  names :=
    (if correlation.trialId.present then [] else ["trial_id"]) ++
      (if correlation.trialManifestSha256.present then [] else ["trial_manifest_sha256"])
  fill filled :=
    { filled with
      trialId := if correlation.trialId.present then filled.trialId else placeholderUuid
      trialManifestSha256 :=
        if correlation.trialManifestSha256.present then filled.trialManifestSha256
        else placeholderSha256 }

structure Judge where
  shape : Option ExpectedRecordShape
  trialUnit : Bool
  executionField : ExecutionIdField

def absentCorrelation (judge : Judge) (correlation : Correlation) : List CorrelationUnit :=
  (if hasExecutionId correlation then []
    else [⟨[judge.executionField.text], fillExecutionId judge.executionField⟩]) ++
  (if correlation.executionManifestSha256.present then []
    else [⟨["execution_manifest_sha256"],
      fun filled => { filled with executionManifestSha256 := placeholderSha256 }⟩]) ++
  (if judge.trialUnit && !(absentTrialMembers correlation).names.isEmpty then
    [absentTrialMembers correlation] else [])

/-- Every non-empty choice of the absent units is tried. -/
def someFillValidates (judge : Judge) (value : RecordValue)
    (absent : List CorrelationUnit) : Bool :=
  (List.range (2 ^ absent.length)).any fun mask =>
    decide (1 ≤ mask) &&
      let chosen := (absent.zipIdx.filter fun unit => mask.testBit unit.2).map Prod.fst
      (checkShape validator judge.shape
        { value with
          correlation := chosen.foldl (fun filled unit => unit.fill filled)
            value.correlation }).isEmpty

/-- `DIGEST_BOUND_INPUT_TYPES`: a payment and an approved decision carry no correlation member. -/
def isDigestBoundInput : RecordBody → Bool
  | .payment _ => true
  | .approvedDecision _ => true
  | _ => false

def lacksTrialIdentity (judge : Judge) (value : RecordValue) : Bool :=
  judge.trialUnit && !isDigestBoundInput value.body && value.correlation.trialId.ownString.isNone

def classifyValue (judge : Judge) (value : RecordValue) : RecordValidity × List String :=
  let violations := checkShape validator judge.shape value
  if violations.isEmpty then
    if lacksTrialIdentity judge value then (.correlationMissing, ["trial_id absent"])
    else (.valid, [])
  else
    let absent := absentCorrelation judge value.correlation
    if value.body ≠ .notObject ∧ !absent.isEmpty ∧ someFillValidates validator judge value absent then
      (.correlationMissing,
        [String.intercalate ", " (absent.flatMap CorrelationUnit.names) ++ " absent"])
    else (.schemaInvalid, violations)

/-- The record shape named in a detail. -/
def expectationText : Option ExpectedRecordShape → String
  | none => "catalogued"
  | some .anyEvent => "journal event"
  | some (.recordType name) => name

/-- `aggregate`: one finding for all records of one kind in an artifact. -/
def aggregateRecords (code : IngestionFindingCode) (path expectation : String)
    (entries : List (ParsedValue × List String)) : List IngestionFinding :=
  match entries with
  | [] => []
  | first :: _ =>
    [ingestionFinding code
      (aggregatedDetail (expectation ++ "; " ++ positionText first.1.lineNumber ++ ": " ++
        String.intercalate "; " (first.2.take 3)) entries.length)
      { artifactPath := some path, occurrences := entries.length }]

def judgeOf (scope : EvidenceScope) (artifact : ParsedArtifact) : Judge where
  shape := expectedRecordShape artifact.artifactClass
  trialUnit := scope.isTrial && isUnitFile artifact.origin artifact.artifactClass
  executionField := (scope.execution.map fun active => executionIdField active.kind).getD .runId

/-- The records of an artifact with what `classifyValue` says about each. -/
def recordOutcomes (scope : EvidenceScope)
    (artifact : ParsedArtifact) : List (ParsedValue × RecordValidity × List String) :=
  artifact.values.map fun parsed =>
    (parsed, classifyValue validator (judgeOf scope artifact) parsed.value)

def classifyArtifact (scope : EvidenceScope) (artifact : ParsedArtifact) : IngestedArtifact where
  path := artifact.path
  sha256 := artifact.sha256
  origin := artifact.origin
  artifactClass := artifact.artifactClass
  requirement := artifact.requirement
  parsed := artifact.parsed
  records := (recordOutcomes validator scope artifact).map fun entry =>
    ⟨entry.1.lineNumber, entry.1.value, entry.2.1⟩

/-- `classifyArtifact`: the findings. -/
def classificationFindings (scope : EvidenceScope)
    (artifact : ParsedArtifact) : List IngestionFinding :=
  let outcomes := recordOutcomes validator scope artifact
  let invalid := outcomes.filter fun entry => decide (entry.2.1 = .schemaInvalid)
  let uncorrelated := outcomes.filter fun entry => decide (entry.2.1 = .correlationMissing)
  aggregateRecords .recordSchemaInvalid artifact.path
    ("expected a valid " ++ expectationText (judgeOf scope artifact).shape ++ " record")
    (invalid.map fun entry => (entry.1, entry.2.2)) ++
  aggregateRecords .correlationMissing artifact.path
    "expected execution and trial correlation members"
    (uncorrelated.map fun entry => (entry.1, entry.2.2))

/-! ## Located records -/

structure LocatedRecord (α : Type) where
  record : α
  artifactPath : String
  artifactSha256 : Sha256Hex
  lineNumber : Option Nat
  origin : ArtifactOrigin
  correlationMissing : Bool

def locateRecord {α : Type} (artifact : IngestedArtifact) (record : IngestedRecord) (typed : α) :
    LocatedRecord α where
  record := typed
  artifactPath := artifact.path
  artifactSha256 := artifact.sha256
  lineNumber := record.lineNumber
  origin := artifact.origin
  correlationMissing := decide (record.validity = .correlationMissing)

def subjectArtifact (artifacts : List IngestedArtifact) (artifactClass : ArtifactClass) :
    Option IngestedArtifact :=
  artifacts.find? fun artifact =>
    decide (artifact.origin = .subject ∧ artifact.artifactClass = some artifactClass)

/-- The first record of the subject's artifact, when it is usable. -/
def soleRecord {α : Type} (read : RecordBody → Option α) (artifacts : List IngestedArtifact)
    (artifactClass : ArtifactClass) : Option (LocatedRecord α) := do
  let artifact ← subjectArtifact artifacts artifactClass
  let record ← artifact.records.head?
  if record.usable then (read record.value.body).map (locateRecord artifact record) else none

/-- Every usable record of the subject's artifact, in line order. -/
def streamRecords {α : Type} (read : RecordBody → Option α) (artifacts : List IngestedArtifact)
    (artifactClass : ArtifactClass) : List (LocatedRecord α) :=
  match subjectArtifact artifacts artifactClass with
  | none => []
  | some artifact =>
    (artifact.records.filter IngestedRecord.usable).filterMap fun record =>
      (read record.value.body).map (locateRecord artifact record)

end RefundStudy.Ingestion
