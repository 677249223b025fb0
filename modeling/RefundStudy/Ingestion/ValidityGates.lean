/-
  The validity gates ingestion owns (`evidence-ingestion/traceability-gate.ts`,
  `identity-integrity-gate.ts`, `evidence-integrity-gate.ts`; design 8.3): G2 traceability, G3
  identity integrity and G8 evidence integrity.
-/
import RefundStudy.Ingestion.Evidence

set_option autoImplicit false

namespace RefundStudy.Ingestion

open Foundation Record Package

variable (evidence : IngestedEvidence)

def subjectArtifacts : List IngestedArtifact :=
  evidence.artifacts.filter fun artifact => decide (artifact.origin = .subject)

variable (artifact : IngestedArtifact)

def usableRecords : List IngestedRecord :=
  artifact.records.filter IngestedRecord.usable

def indexedDigest (indexed : Option (List (String × Sha256Hex))) (path : String) :
    Option Sha256Hex :=
  indexed.bind fun digests => digests.lookup path

/-! ## G2 traceability -/

/-- `SUBJECT` of the traceability gate. -/
def traceabilitySubject : String := "BR-RUA-008"

def namesOtherTrial (correlation : Correlation) (scope : EvidenceScope) : Bool :=
  match correlation.trialId.ownString with
  | none => false
  | some named =>
    isUnitFile artifact.origin artifact.artifactClass &&
      (!scope.isTrial || scope.trial.any fun trial => decide (named ≠ trial.trialId))

/-- The cause of a record that names another execution or trial. -/
def foreignCause (record : IngestedRecord) (code identity field : String)
    (named : Option String) : GateCause where
  value := .invalid
  reason := reasonAt traceabilitySubject code
    ("expected the active " ++ identity ++ " identity; a record of " ++ artifact.path ++ " names " ++
      field ++ " " ++ boundedText (named.getD "undefined"))
    (some (recordRef artifact record))
  refs := [recordRef artifact record]

def foreignRecordCause (scope : EvidenceScope) (record : IngestedRecord) : Option GateCause :=
  let correlation := record.value.correlation
  match scope.execution.bind (otherExecutionField correlation) with
  | some field =>
    some (foreignCause artifact record "EXECUTION_IDENTITY_MISMATCH" "execution" field.text
      (correlation.executionId field).ownString)
  | none =>
    if namesOtherTrial artifact correlation scope then
      some (foreignCause artifact record "TRIAL_IDENTITY_MISMATCH" "trial" "trial_id"
        correlation.trialId.ownString)
    else none

def foreignRecordCauses (scope : EvidenceScope) (artifact : IngestedArtifact) : List GateCause :=
  (usableRecords artifact).filterMap (foreignRecordCause artifact scope)

variable (subject : List IngestedArtifact)

def digestCauses (scope : EvidenceScope) : List GateCause :=
  (checkCoreDigests subject scope none).map fun finding =>
    { value := .invalid
      reason := findingReason finding
      refs := (subject.filter fun artifact =>
        decide (some artifact.path = finding.artifactPath)).map artifactRef }

def rejectionText : TrialMessageRejectionReason → String
  | .schemaInvalid => "SCHEMA_INVALID"
  | .correlationMissing => "CORRELATION_MISSING"
  | .executionIdentityMismatch => "EXECUTION_IDENTITY_MISMATCH"
  | .trialManifestDigestMismatch => "TRIAL_MANIFEST_DIGEST_MISMATCH"
  | .noActiveTrial => "NO_ACTIVE_TRIAL"

/-- What a consumer's rejection says about traceability (D-28). -/
def rejectionValue : TrialMessageRejectionReason → Option CauseValue
  | .executionIdentityMismatch => some .invalid
  | .trialManifestDigestMismatch => some .invalid
  | .correlationMissing => some .unverified
  | .schemaInvalid => none
  | .noActiveTrial => none

def rejectionCause (event : IndexedEvent) : Option GateCause :=
  match event.record.body with
  | .trialMessageRejected rejection =>
    (rejectionValue rejection).map fun value =>
      { value := value
        reason := reasonAt traceabilitySubject "TRIAL_MESSAGE_REJECTED"
          ("expected the trial message to be accepted; the consumer rejected it with " ++
            rejectionText rejection)
          (some (eventRef event))
        refs := [eventRef event] }
  | _ => none

def rejectionCauses : List GateCause :=
  evidence.events.subject.filterMap rejectionCause

def correlationCauses : List GateCause :=
  subject.flatMap fun artifact =>
    (evidence.findings.filter fun finding =>
      decide (finding.code = .correlationMissing ∧ finding.artifactPath = some artifact.path)).map
        fun finding => ⟨.unverified, findingReason finding, [artifactRef artifact]⟩

def unresolvedCause (event : IndexedEvent) : Option GateCause :=
  (evidence.events.unresolvedCausation.get? event.record.eventId).map fun missing =>
    { value := .unverified
      reason := reasonAt traceabilitySubject "CAUSAL_PREDECESSOR_MISSING"
        ("expected every causal predecessor of " ++ event.record.body.recordType ++
          " to resolve; absent " ++
          boundedText (String.intercalate ", " (missing.map uuidString)))
        (some (eventRef event))
      refs := [eventRef event] }

def unresolvedCauses : List GateCause :=
  evidence.events.subject.filterMap (unresolvedCause evidence)

def unresolvedManifests (scope : EvidenceScope) : List ArtifactClass :=
  (if scope.execution.isNone then [ArtifactClass.executionManifest] else []) ++
    (if scope.isTrial && scope.trial.isNone then [ArtifactClass.trialManifest] else [])

def manifestCause (expected : ExpectedArtifact) : GateCause :=
  match subject.find? fun candidate => decide (candidate.path = expected.path) with
  | none =>
    { value := .unverified
      reason :=
        { code := "ARTIFACT_MISSING"
          subject := traceabilitySubject
          artifactPath := some expected.path
          detail := "expected the " ++ expected.artifactClass.text ++
            " to correlate records against; it is absent" }
      refs := [] }
  | some artifact =>
    { value := .unverified
      reason := reasonAt traceabilitySubject "MANIFEST_UNUSABLE"
        ("expected a schema-valid " ++ expected.artifactClass.text ++ "; " ++ artifact.path ++
          " is unusable")
        (some (artifactRef artifact))
      refs := [artifactRef artifact] }

def manifestCauses : List GateCause :=
  (evidence.expected.filter fun expected =>
    (unresolvedManifests evidence.scope).contains expected.artifactClass).map
      (manifestCause subject)

/-- A reference that pins another package's index points outside this one. -/
def referenceCause (record : IngestedRecord)
    (indexed : Option (List (String × Sha256Hex))) (entry : ReferenceEntry) : Option GateCause :=
  match entry.artifactPath, entry.artifactSha256, entry.packageIndexSha256 with
  | some path, some digest, none =>
    match indexedDigest indexed path with
    | none =>
      some
        { value := .unverified
          reason := reasonAt traceabilitySubject "EVIDENCE_REF_UNRESOLVED"
            ("expected every evidence reference to name indexed bytes; " ++ boundedText path ++
              " is not in the evidence index")
            (some (recordRef artifact record))
          refs := [recordRef artifact record] }
    | some found =>
      if found = digest then none
      else some
        { value := .invalid
          reason := reasonAt traceabilitySubject "EVIDENCE_REF_DIGEST_MISMATCH"
            ("expected " ++ boundedText path ++ " at the indexed digest " ++ found ++
              "; the reference names " ++ boundedText digest)
            (some (recordRef artifact record))
          refs := [recordRef artifact record] }
  | _, _, _ => none

def referenceCauses (indexed : Option (List (String × Sha256Hex))) (artifact : IngestedArtifact) :
    List GateCause :=
  (usableRecords artifact).flatMap fun record =>
    record.value.evidenceRefs.filterMap (referenceCause artifact record indexed)

def traceabilityCauses : List GateCause :=
  let subject := subjectArtifacts evidence
  subject.flatMap (foreignRecordCauses evidence.scope) ++ digestCauses subject evidence.scope ++
    rejectionCauses evidence ++ correlationCauses evidence subject ++ unresolvedCauses evidence ++
    manifestCauses evidence subject ++
    if evidence.scope.reevaluation then
      subject.flatMap (referenceCauses evidence.indexedDigests)
    else []

def assessTraceability : GateAssessment :=
  assembleGate .traceability (traceabilityCauses evidence)
    (((subjectArtifacts evidence).filter fun artifact =>
      decide (artifact.artifactClass = some .executionManifest ∨
        artifact.artifactClass = some .trialManifest)).map artifactRef)

/-! ## G3 identity integrity -/

/-- `SUBJECT` of the identity gate. -/
def identitySubject : String := "INV-RUA-001"

def IdentityKind.text : IdentityKind → String
  | .attemptId => "attempt_id"
  | .providerRequestId => "provider_request_id"
  | .providerCallId => "provider_call_id"
  | .providerTransactionId => "provider_transaction_id"
  | .providerCommitId => "provider_commit_id"

def collisionText (collision : IdentityCollision) : String :=
  collision.kind.text ++ " " ++ boundedText (uuidString collision.id)

def creationText (collision : IdentityCollision) : String :=
  "created by " ++ toString collision.originEventIds.length ++ " events across partitions " ++
    boundedText (String.intercalate ", " collision.partitions)

def reuseCauses : List GateCause :=
  evidence.identities.callerCollisions.map fun collision =>
    { value := .invalid
      reason := reasonAt identitySubject "CALLER_IDENTITY_REUSED"
        ("expected " ++ collisionText collision ++ " to be unique in the execution scope; " ++
          creationText collision)
        collision.refs.head?
      refs := collision.refs }

def unregisteredCauses : List GateCause :=
  evidence.identities.unregisteredAttempts.map fun attempt =>
    { value := .unverified
      reason := reasonAt identitySubject "ATTEMPT_UNREGISTERED"
        ("expected attempt " ++ boundedText (uuidString attempt.1) ++
          " to have an attempt_registered event; none was read")
        (some attempt.2)
      refs := [attempt.2] }

def callerJournalCauses : List GateCause :=
  match evidence.expected.find? fun entry => decide (entry.artifactClass = .callerJournal) with
  | none => []
  | some expected =>
    match subjectArtifact evidence.artifacts .callerJournal with
    | none =>
      [{ value := .unverified
         reason :=
          { code := "ARTIFACT_MISSING"
            subject := identitySubject
            artifactPath := some expected.path
            detail := "expected the caller journal to hold every attempt registration; " ++
              expected.path ++ " is absent" }
         refs := [] }]
    | some journal =>
      (evidence.findings.filter fun finding =>
        decide (finding.artifactPath = some journal.path ∧
          (finding.code = .artifactUnparseable ∨ finding.code = .sourceSequenceGap))).map
            fun finding => ⟨.unverified, findingReason finding, [artifactRef journal]⟩

/-- `scopeCauses`: an earlier trial that cannot be read leaves reuse unprovable. -/
def scopeCause : Option GateCause :=
  if decide (artifact.origin ≠ .executionScope) ||
      (artifact.parsed && artifact.records.all IngestedRecord.usable) then none
  else some
    { value := .unverified
      reason := reasonAt identitySubject "IDENTITY_SCOPE_INCOMPLETE"
        ("expected the execution scope's earlier evidence to be readable; " ++ artifact.path ++
          " has unreadable records")
        (some (artifactRef artifact))
      refs := [artifactRef artifact] }

def assessIdentityIntegrity : GateAssessment :=
  assembleGate .identityIntegrity
    (reuseCauses evidence ++ unregisteredCauses evidence ++ callerJournalCauses evidence ++
      evidence.artifacts.filterMap scopeCause)
    ((subjectArtifact evidence.artifacts .callerJournal).map artifactRef).toList

/-! ## G8 evidence integrity -/

def invalidatingCodes : List IngestionFindingCode :=
  [.conflictingEventContent, .conflictingSourceSequence, .coreFileDigestMismatch]

def unreadableCodes : List IngestionFindingCode := [.artifactUnparseable, .recordSchemaInvalid]

def isRequiredEvidence : Bool :=
  decide (artifact.origin = .subject) &&
    decide (artifact.requirement = some .required ∨ artifact.requirement = some .conditional)

def isJudgedEvidence : Bool :=
  decide (artifact.origin = .subject) ||
    (indexedDigest evidence.indexedDigests artifact.path).isSome

def findingArtifact (finding : IngestionFinding) : Option IngestedArtifact :=
  finding.artifactPath.bind fun path =>
    evidence.artifacts.find? fun artifact => decide (artifact.path = path)

def findingCause (finding : IngestionFinding) : Option GateCause :=
  match findingArtifact evidence finding with
  | none => none
  | some artifact =>
    if (invalidatingCodes.contains finding.code && isJudgedEvidence evidence artifact) ||
        (unreadableCodes.contains finding.code && isRequiredEvidence artifact) then
      some ⟨.invalid, findingReason finding,
        [{ artifactRef artifact with eventId := finding.eventId }]⟩
    else none

def collisionCauses : List GateCause :=
  evidence.identities.providerCollisions.map fun collision =>
    { value := .invalid
      reason := reasonAt identitySubject "PROVIDER_IDENTITY_COLLISION"
        ("expected provider-generated " ++ collisionText collision ++ " to be unique; " ++
          creationText collision)
        collision.refs.head?
      refs := collision.refs }

def indexCauses : List GateCause :=
  match evidence.indexedDigests with
  | some [] =>
    [⟨.unverified, reasonAt "BR-RUA-034" "EVIDENCE_INDEX_MISSING"
      "expected the evidence index of the frozen package to re-evaluate against; none was given"
      none, []⟩]
  | _ => []

def assessEvidenceIntegrity : GateAssessment :=
  assembleGate .evidenceIntegrity
    (evidence.findings.filterMap (findingCause evidence) ++ collisionCauses evidence ++
      indexCauses evidence)
    ((evidence.artifacts.filter isRequiredEvidence).map artifactRef)

end RefundStudy.Ingestion
