/-
  The late-evidence assessment of one execution
  (`trial-oracle/late-evidence/assess-late-evidence.ts`, `trial-reassessment.ts`,
  `monitoring-outcome.ts`, `projection-changes.ts`, `late-evidence-reasons.ts`; BR-RUA-043).

  Reading, folding, ingesting, evaluating and the schema of the assessment are parameters
  (`AssessorDeps`).
-/
import RefundStudy.Foundation.InsertionMap
import RefundStudy.Foundation.Program
import RefundStudy.Package.Verifier

set_option autoImplicit false

namespace RefundStudy.LateEvidence

open Foundation Record Package

/-! ## Monitoring -/

inductive LateMonitoringOutcome where
  | complete
  | shortened
  | skipped
  | failed
  deriving DecidableEq

/-- The declared outcome and the declared times, each an instant or a text that is none. -/
structure LateMonitoring where
  outcome : LateMonitoringOutcome
  startedAt : Option (Except String UtcMillis)
  endedAt : Option (Except String UtcMillis)

structure MonitoringWindow where
  startedAt : Option UtcMillis
  endedAt : Option UtcMillis

/-- `LATE_PROBLEM_CODES`. -/
inductive LateProblemCode where
  | lateStreamMissing
  | lateStreamTruncated
  | lateRecordUnreadable
  | lateRecordSchemaInvalid
  | lateRecordForeign
  | lateSequenceBroken
  | lateRecordTypeMismatch
  | lateRecordUnroutable
  | lateTrialManifestMismatch
  | lateDocumentUnfoldable
  deriving DecidableEq

structure LateProblem where
  code : LateProblemCode
  artifactPath : String

/-- The structured reasons of an assessment or of its refusal, with what their details quote. -/
inductive LateReason where
  | monitoringWindowInvalid
  | monitoringDeclared (outcome : LateMonitoringOutcome)
  | monitoringWindowShort (lastedMs : Int)
  | problem (first : LateProblem) (count : Nat)
  | lateRecordWithoutFrozenResult (lineNumber count : Nat)
  | lateStreamMisplaced (path : String)
  | frozenResultRefused (code path : String)
  | reevaluationRefused (path code : String)
  | reevaluationTrialMismatch (path : String)
  | frozenResultNotReproduced (path field : String)
  | assessmentSchemaInvalid

def malformedTime : Option (Except String UtcMillis) → Bool
  | some (.error _) => true
  | some (.ok _) => false
  | none => false

def instantOf (time : Option (Except String UtcMillis)) : Option UtcMillis :=
  time.bind Except.toOption

def monitoringWindow (monitoring : LateMonitoring) : Except LateReason MonitoringWindow :=
  if monitoring.outcome = .skipped then .ok ⟨none, none⟩
  else if malformedTime monitoring.startedAt || malformedTime monitoring.endedAt then
    .error .monitoringWindowInvalid
  else
    match instantOf monitoring.startedAt, instantOf monitoring.endedAt with
    | none, some _ => .error .monitoringWindowInvalid
    | some started, some ended =>
      if ended < started then .error .monitoringWindowInvalid
      else .ok ⟨some started, some ended⟩
    | started, none => .ok ⟨started, none⟩

/-- `MINIMUM_MONITORING_MS`. -/
def minimumMonitoringMs : Int := 120000

def windowLength (window : MonitoringWindow) : Int :=
  match window.startedAt, window.endedAt with
  | some started, some ended => (ended : Int) - started
  | _, _ => 0

/-- The groups of `lateProblemReasons`, in order of first appearance. -/
def problemGroups (problems : List LateProblem) :
    InsertionMap LateProblemCode (LateProblem × Nat) :=
  problems.foldl (fun groups problem =>
    match groups.get? problem.code with
    | none => groups.set problem.code (problem, 1)
    | some (first, count) => groups.set problem.code (first, count + 1)) []

def lateProblemReasons (problems : List LateProblem) : List LateReason :=
  (problemGroups problems).values.map fun group => .problem group.1 group.2

structure EffectiveMonitoring where
  outcome : LateMonitoringOutcome
  window : MonitoringWindow
  reasons : List LateReason

def effectiveMonitoring (declared : LateMonitoringOutcome) (window : MonitoringWindow)
    (problems : List LateProblem) : EffectiveMonitoring :=
  let problemReasons := lateProblemReasons problems
  if declared ≠ .complete then
    ⟨declared, window, .monitoringDeclared declared :: problemReasons⟩
  else if 0 < problemReasons.length then ⟨.failed, window, problemReasons⟩
  else
    let lasted := windowLength window
    if lasted < minimumMonitoringMs then
      ⟨.shortened, window, [.monitoringWindowShort lasted]⟩
    else ⟨.complete, window, []⟩

/-! ## Projections -/

/-- The vocabularies of its members are not read here. -/
structure VerdictProjection where
  preservationVerdict : String
  trialValidity : String
  gates : List (String × String)
  rules : List (String × String)
  correctCompletion : Option Bool

/-- A projected value: a text, a boolean or `null`. -/
inductive ProjectedValue where
  | text (value : String)
  | boolean (value : Bool)
  | null
  deriving DecidableEq

structure ProjectionChange where
  field : String
  frozen : ProjectedValue
  reassessed : ProjectedValue

/-- The fields of a numbered list of pairs, under their JSON pointers. -/
def pairFields (pointer firstName secondName : String) (pairs : List (String × String)) :
    InsertionMap String ProjectedValue :=
  pairs.zipIdx.flatMap fun entry =>
    let at_ := pointer ++ "/" ++ toString entry.2 ++ "/"
    [(at_ ++ firstName, .text entry.1.1), (at_ ++ secondName, .text entry.1.2)]

def projectionFields (projection : VerdictProjection) : InsertionMap String ProjectedValue :=
  [("/preservation_verdict", .text projection.preservationVerdict),
    ("/trial_validity", .text projection.trialValidity)] ++
  pairFields "/validity_gates" "gate" "value" projection.gates ++
  pairFields "/rule_results" "rule_id" "result" projection.rules ++
  [("/correct_completion",
    match projection.correctCompletion with
    | none => .null
    | some value => .boolean value)]

def projectionChanges (frozen reassessed : VerdictProjection) : List ProjectionChange :=
  let before := projectionFields frozen
  let after := projectionFields reassessed
  let fields := before.map Prod.fst ++
    (after.map Prod.fst).filter fun field => decide (field ∉ before.map Prod.fst)
  fields.filterMap fun field =>
    let frozenValue := (before.get? field).getD .null
    let reassessedValue := (after.get? field).getD .null
    if frozenValue = reassessedValue then none
    else some ⟨field, frozenValue, reassessedValue⟩

/-! ## Reassessments -/

/-- What the assessment reads of an `OracleResult`. -/
structure OracleResult where
  trialId : Uuid4
  trialManifestSha256 : Sha256Hex
  projection : VerdictProjection

structure ArtifactRef where
  artifactPath : String
  artifactSha256 : Sha256Hex

/-- `Evidence` is what the oracle ingests. -/
structure FrozenTrial (Evidence : Type) where
  frozen : Evidence
  result : OracleResult
  resultRef : ArtifactRef

/-- What the assessment reads of an `AcceptedLateRecord`: the trial its record names, whether its
route is an execution-level file, and its line. -/
structure AcceptedLateRecord where
  trialId : Option Uuid4
  shared : Bool
  lineNumber : Nat

structure LateStreamReading where
  accepted : List AcceptedLateRecord
  problems : List LateProblem

structure FrozenResultReassessment where
  frozenResultRef : ArtifactRef
  trialId : Uuid4
  status : LateEvidenceStatus
  changes : List ProjectionChange

structure RawArtifact where
  path : String
  bytes : Bytes

/-- With the trials as `readFrozenTrials` reads them. -/
structure LateEvidenceInput (Evidence : Type) where
  executionManifestSha256 : Sha256Hex
  monitoring : LateMonitoring
  stream : Option RawArtifact
  trials : Except (List LateReason) (List (FrozenTrial Evidence))
  assessedAt : UtcMillis

structure LateEvidenceAssessment where
  executionManifestSha256 : Sha256Hex
  monitoring : LateMonitoringOutcome
  lateEvidenceStatus : LateEvidenceStatus
  monitoringStartedAt : Option UtcMillis
  monitoringEndedAt : Option UtcMillis
  correlatedRecordCount : Nat
  reassessments : List FrozenResultReassessment
  reasons : List LateReason
  evidenceRefs : List ArtifactRef
  assessedAt : UtcMillis

structure AssessorDeps (Evidence : Type) where
  sha256Hex : Bytes → Sha256Hex
  /-- `readLateStream`, given the frozen trials' ids with their manifest digests. -/
  readLateStream : Option RawArtifact → List (Uuid4 × Sha256Hex) → LateStreamReading
  /-- `augmentFrozenEvidence`. -/
  augmentFrozenEvidence : Evidence → List AcceptedLateRecord → Evidence × List LateProblem
  /-- `evaluateTrial` of the ingested evidence, or the code of its refusal. -/
  evaluateTrial : Evidence → UtcMillis → Except String OracleResult
  /-- `validateAs('late_evidence_assessment', ...)`. -/
  conforms : LateEvidenceAssessment → Bool

section Assessor

variable {Evidence : Type} (deps : AssessorDeps Evidence)

structure TrialReevaluation (Evidence : Type) where
  trial : FrozenTrial Evidence
  counted : Nat
  changes : List ProjectionChange
  problems : List LateProblem

/-- One step of `reevaluatedProjections`. -/
def reevaluatedProjection (trial : FrozenTrial Evidence) (evidence : Evidence)
    (assessedAt : UtcMillis) : Except (List LateReason) VerdictProjection :=
  match deps.evaluateTrial evidence assessedAt with
  | .error code => .error [.reevaluationRefused trial.resultRef.artifactPath code]
  | .ok result =>
    if result.trialId ≠ trial.result.trialId then
      .error [.reevaluationTrialMismatch trial.resultRef.artifactPath]
    else .ok result.projection

def reevaluateTrial (trial : FrozenTrial Evidence) (accepted : List AcceptedLateRecord)
    (assessedAt : UtcMillis) : Except (List LateReason) (TrialReevaluation Evidence) :=
  let trialId := trial.result.trialId
  let joining := accepted.filter fun late => decide (late.trialId = some trialId) || late.shared
  let counted := (joining.filter fun late =>
    decide (late.trialId = none) || decide (late.trialId = some trialId)).length
  if counted = 0 then .ok ⟨trial, counted, [], []⟩
  else do
    let augmented := deps.augmentFrozenEvidence trial.frozen joining
    let baseline ← reevaluatedProjection deps trial trial.frozen assessedAt
    let reassessed ← reevaluatedProjection deps trial augmented.1 assessedAt
    let frozen := trial.result.projection
    match projectionChanges frozen baseline with
    | first :: _ => .error [.frozenResultNotReproduced trial.resultRef.artifactPath first.field]
    | [] => .ok ⟨trial, counted, projectionChanges frozen reassessed, augmented.2⟩

def reassessmentStatus (counted changed : Nat) (monitoringComplete : Bool) :
    LateEvidenceStatus :=
  if 0 < changed then .contradictory
  else if !monitoringComplete then .unverified
  else if counted = 0 then .none else .consistent

def reassessmentOf (reevaluation : TrialReevaluation Evidence) (monitoringComplete : Bool) :
    FrozenResultReassessment where
  frozenResultRef := reevaluation.trial.resultRef
  trialId := reevaluation.trial.result.trialId
  status := reassessmentStatus reevaluation.counted reevaluation.changes.length monitoringComplete
  changes := reevaluation.changes

/-- The status of `monitoringFields`. -/
def lateEvidenceStatus (monitoring : EffectiveMonitoring) (correlated : Nat)
    (reassessments : List FrozenResultReassessment) : LateEvidenceStatus :=
  if monitoring.outcome ≠ .complete then .unverified
  else if correlated = 0 then .none
  else if reassessments.any fun reassessment => decide (reassessment.status = .contradictory) then
    .contradictory
  else .consistent

/-- `EXECUTION_PATHS.lateEvidenceStream`. -/
def lateEvidenceStreamPath : String := "late-evidence/late-evidence-stream.jsonl"

def missingStream (input : LateEvidenceInput Evidence) : List LateProblem :=
  if input.stream.isSome || decide (input.monitoring.outcome = .skipped) then []
  else [⟨.lateStreamMissing, lateEvidenceStreamPath⟩]

def withoutFrozenResult (accepted : List AcceptedLateRecord) (trialIds : List Uuid4) :
    List LateReason :=
  let orphans := accepted.filter fun late =>
    match late.trialId with
    | none => false
    | some trialId => decide (trialId ∉ trialIds)
  match orphans with
  | [] => []
  | first :: _ => [.lateRecordWithoutFrozenResult first.lineNumber orphans.length]

def misplacedStream (input : LateEvidenceInput Evidence) : Option LateReason :=
  match input.stream with
  | none => none
  | some stream =>
    if stream.path = lateEvidenceStreamPath then none
    else some (.lateStreamMisplaced stream.path)

/-- The execution identity is left out. -/
def assessLateEvidence (input : LateEvidenceInput Evidence) :
    Except (List LateReason) LateEvidenceAssessment := do
  let window ← (monitoringWindow input.monitoring).mapError fun reason => [reason]
  match misplacedStream input with
  | some misplaced => .error [misplaced]
  | none => do
    let trials ← input.trials
    let trialManifests := trials.map fun trial =>
      (trial.result.trialId, trial.result.trialManifestSha256)
    let reading := deps.readLateStream input.stream trialManifests
    let reevaluations ← trials.mapM fun trial =>
      reevaluateTrial deps trial reading.accepted input.assessedAt
    let problems := missingStream input ++ reading.problems ++
      reevaluations.flatMap TrialReevaluation.problems
    let monitoring := effectiveMonitoring input.monitoring.outcome window problems
    let reassessments := reevaluations.map fun reevaluation =>
      reassessmentOf reevaluation (decide (monitoring.outcome = .complete))
    let assessment : LateEvidenceAssessment :=
      { executionManifestSha256 := input.executionManifestSha256
        monitoring := monitoring.outcome
        lateEvidenceStatus := lateEvidenceStatus monitoring reading.accepted.length reassessments
        monitoringStartedAt := monitoring.window.startedAt
        monitoringEndedAt := monitoring.window.endedAt
        correlatedRecordCount := reading.accepted.length
        reassessments := reassessments
        reasons := monitoring.reasons ++
          withoutFrozenResult reading.accepted (trialManifests.map Prod.fst)
        evidenceRefs := input.stream.toList.map fun stream =>
          ⟨stream.path, deps.sha256Hex stream.bytes⟩
        assessedAt := input.assessedAt }
    if deps.conforms assessment then .ok assessment else .error [.assessmentSchemaInvalid]

end Assessor

/-! ## A contradiction and its two statuses -/

section Contradiction

variable {Evidence : Type} {deps : AssessorDeps Evidence} {input : LateEvidenceInput Evidence}
  {assessment : LateEvidenceAssessment}

theorem reevaluateTrial_changes {trial : FrozenTrial Evidence}
    {accepted : List AcceptedLateRecord} {assessedAt : UtcMillis}
    {reevaluation : TrialReevaluation Evidence}
    (h : reevaluateTrial deps trial accepted assessedAt = .ok reevaluation)
    (hchanges : reevaluation.changes ≠ []) : accepted ≠ [] := by
  rintro rfl
  simp only [reevaluateTrial, List.filter_nil, List.length_nil, if_true] at h
  obtain rfl := Except.ok.inj h
  exact hchanges rfl

/-- What an assessment says about the reevaluations it was made from. -/
structure AssessedFrom (deps : AssessorDeps Evidence) (assessment : LateEvidenceAssessment)
    (monitoring : EffectiveMonitoring) (accepted : List AcceptedLateRecord)
    (reevaluations : List (TrialReevaluation Evidence)) : Prop where
  reevaluated : ∀ reevaluation ∈ reevaluations, ∃ trial assessedAt,
    reevaluateTrial deps trial accepted assessedAt = .ok reevaluation
  outcome : assessment.monitoring = monitoring.outcome
  reassessments : assessment.reassessments = reevaluations.map fun reevaluation =>
    reassessmentOf reevaluation (decide (monitoring.outcome = .complete))
  status : assessment.lateEvidenceStatus =
    lateEvidenceStatus monitoring accepted.length assessment.reassessments

theorem assessLateEvidence_ok (h : assessLateEvidence deps input = .ok assessment) :
    ∃ monitoring accepted reevaluations,
      AssessedFrom deps assessment monitoring accepted reevaluations := by
  unfold assessLateEvidence at h
  obtain ⟨window, -, h⟩ := exists_of_bind_eq_ok h
  split at h
  · cases h
  · obtain ⟨trials, -, h⟩ := exists_of_bind_eq_ok h
    obtain ⟨reevaluations, hreevaluations, h⟩ := exists_of_bind_eq_ok h
    dsimp only at h
    split at h
    · obtain rfl := Except.ok.inj h
      refine ⟨_, _, reevaluations, ?_, rfl, rfl, rfl⟩
      intro reevaluation hmem
      obtain ⟨trial, -, htrial⟩ := mem_of_mapM_ok hreevaluations reevaluation hmem
      exact ⟨trial, _, htrial⟩
    · cases h

theorem reassessmentStatus_contradictory {counted changed : Nat} {monitoringComplete : Bool}
    (h : reassessmentStatus counted changed monitoringComplete = .contradictory) :
    0 < changed := by
  unfold reassessmentStatus at h
  split at h
  · assumption
  · split at h
    · cases h
    · split at h <;> cases h

/-- A contradictory reassessment makes the assessment contradictory after complete monitoring
and leaves it unverified otherwise. -/
theorem status_of_contradiction (h : assessLateEvidence deps input = .ok assessment)
    {reassessment : FrozenResultReassessment} (hmem : reassessment ∈ assessment.reassessments)
    (hcontradictory : reassessment.status = .contradictory) :
    assessment.lateEvidenceStatus =
      if assessment.monitoring = .complete then .contradictory else .unverified := by
  obtain ⟨monitoring, accepted, reevaluations, hfrom⟩ := assessLateEvidence_ok h
  have hany : assessment.reassessments.any
      (fun found => decide (found.status = .contradictory)) = true :=
    List.any_eq_true.mpr ⟨reassessment, hmem, decide_eq_true hcontradictory⟩
  have haccepted : accepted.length ≠ 0 := by
    rw [hfrom.reassessments] at hmem
    obtain ⟨reevaluation, hreevaluation, rfl⟩ := List.mem_map.mp hmem
    obtain ⟨trial, assessedAt, htrial⟩ := hfrom.reevaluated reevaluation hreevaluation
    have hchanged := reassessmentStatus_contradictory hcontradictory
    intro hzero
    exact reevaluateTrial_changes htrial (List.ne_nil_of_length_pos hchanged)
      (List.length_eq_zero_iff.mp hzero)
  rw [hfrom.status, hfrom.outcome]
  unfold lateEvidenceStatus
  by_cases hcomplete : monitoring.outcome = .complete
  · simp [hcomplete, haccepted, hany]
  · simp [hcomplete]

end Contradiction

/-! ## The verifier -/

def lastAssessing (chain : List ParsedAmendment) : Option ParsedAmendment :=
  (chain.filter fun amendment => amendment.index.amendmentKind == .lateEvidence ||
    amendment.index.amendmentKind == .reassessment).getLast?

theorem finalAssessmentReasons_of_last {chain : List ParsedAmendment} {last : ParsedAmendment}
    {parse : Bytes → Option LateEvidenceStatus} {file : PackageFile}
    {status : LateEvidenceStatus} (hlast : lastAssessing chain = some last)
    (hfile : fileAt last.files lateEvidenceAssessmentPath = some file)
    (hparse : parse file.bytes = some status) :
    finalAssessmentReasons chain parse =
      if status = .contradictory then [contradictory last] else [] := by
  unfold lastAssessing at hlast
  simp only [finalAssessmentReasons, hlast, hfile, Option.bind_some, hparse]

/-- A contradiction the assessor found reaches the verifier after complete monitoring, whatever
else the package holds; after incomplete monitoring the assessment itself is unverified and the
final assessment gives no reason. -/
theorem contradiction_reaches_verifier {Evidence : Type} {deps : AssessorDeps Evidence}
    {input : LateEvidenceInput Evidence} {assessment : LateEvidenceAssessment}
    {package : PackageVerificationInput} {readers : PackageVerifierDeps}
    {last : ParsedAmendment} {file : PackageFile} {reassessment : FrozenResultReassessment}
    (hassessed : assessLateEvidence deps input = .ok assessment)
    (hlast : lastAssessing (resolveAmendmentGraph (graphInput package readers)).selectedChain =
      some last)
    (hfile : fileAt last.files lateEvidenceAssessmentPath = some file)
    (hcarried : readers.parseLateEvidenceAssessment file.bytes =
      some assessment.lateEvidenceStatus)
    (hmem : reassessment ∈ assessment.reassessments)
    (hcontradictory : reassessment.status = .contradictory) :
    (assessment.monitoring = .complete →
      (verifyPackage package readers).eligible = false ∧
        ∃ reason ∈ (verifyPackage package readers).reasons, reason.code = .contradictoryChain) ∧
    (assessment.monitoring ≠ .complete → assessment.lateEvidenceStatus = .unverified ∧
      finalAssessmentReasons (resolveAmendmentGraph (graphInput package readers)).selectedChain
        readers.parseLateEvidenceAssessment = []) := by
  have hstatus := status_of_contradiction hassessed hmem hcontradictory
  have hreasons := finalAssessmentReasons_of_last hlast hfile hcarried
  constructor
  · intro hcomplete
    rw [hstatus, if_pos hcomplete, if_pos rfl] at hreasons
    have hin : contradictory last ∈ (verifyPackage package readers).reasons := by
      simp only [verifyPackage, hreasons]
      exact List.mem_append_right _ List.mem_cons_self
    refine ⟨?_, contradictory last, hin, rfl⟩
    rw [Bool.eq_false_iff]
    intro heligible
    rw [List.isEmpty_iff.mp heligible] at hin
    cases hin
  · intro hincomplete
    rw [if_neg hincomplete] at hstatus
    refine ⟨hstatus, ?_⟩
    rw [hreasons, hstatus]
    rfl

/-! ## One execution with a late transaction -/

def verdictOnly (verdict : String) : VerdictProjection := ⟨verdict, "valid", [], [], none⟩

def lateTransactionDeps : AssessorDeps Bool where
  sha256Hex := plainDigest
  readLateStream _ _ := ⟨[⟨some 4, false, 1⟩], []⟩
  augmentFrozenEvidence _ _ := (true, [])
  evaluateTrial folded _ := .ok ⟨4, "m", verdictOnly (if folded then "fail" else "pass")⟩
  conforms _ := true

def lateTransactionInput (outcome : LateMonitoringOutcome) : LateEvidenceInput Bool where
  executionManifestSha256 := plainDigest (asciiBytes "manifest")
  monitoring := ⟨outcome, some (.ok 1000), some (.ok 121000)⟩
  stream := some ⟨lateEvidenceStreamPath, []⟩
  trials := .ok [⟨false, ⟨4, "m", verdictOnly "pass"⟩, ⟨"trials/4/derived/oracle-result.json", "r"⟩⟩]
  assessedAt := 130000

def lateAmendmentDeps (status : LateEvidenceStatus) : PackageVerifierDeps :=
  { plainDeps with
    parseAmendmentIndex := fun bytes =>
      if bytes = asciiBytes "amendment" then
        some ⟨⟨some 1, none, none⟩, plainDigest (asciiBytes "manifest"), 7, .lateEvidence, 1,
          plainDigest (asciiBytes "index"), none,
          [plainEntry lateEvidenceAssessmentPath "assessment" .lateEvidenceAssessment], 0⟩
      else none
    parseLateEvidenceAssessment := fun bytes =>
      if bytes = asciiBytes "assessment" then some status else none }

def lateAmendedPackage : PackageVerificationInput :=
  { amendedPackage with
    amendments := [⟨"0001-a", [⟨amendmentIndexPath, asciiBytes "amendment"⟩,
      ⟨lateEvidenceAssessmentPath, asciiBytes "assessment"⟩], []⟩] }

def lateTransactionAssessment (outcome : LateMonitoringOutcome) : Option LateEvidenceAssessment :=
  (assessLateEvidence lateTransactionDeps (lateTransactionInput outcome)).toOption

theorem lateTransaction_assessed (outcome : LateMonitoringOutcome) (status : LateEvidenceStatus)
    (h : ((lateTransactionAssessment outcome).map fun assessment =>
      (assessment.monitoring, assessment.lateEvidenceStatus,
        assessment.reassessments.map FrozenResultReassessment.status)) =
      some (outcome, status, [.contradictory])) :
    ∃ assessment reassessment, assessLateEvidence lateTransactionDeps
        (lateTransactionInput outcome) = .ok assessment ∧ assessment.monitoring = outcome ∧
      assessment.lateEvidenceStatus = status ∧ reassessment ∈ assessment.reassessments ∧
      reassessment.status = .contradictory := by
  unfold lateTransactionAssessment at h
  cases hassessed : assessLateEvidence lateTransactionDeps (lateTransactionInput outcome) with
  | error reasons =>
    rw [hassessed] at h
    cases h
  | ok assessment =>
    rw [hassessed] at h
    obtain ⟨houtcome, hrest⟩ := Prod.mk.inj (Option.some.inj h)
    obtain ⟨hstatus, hstatuses⟩ := Prod.mk.inj hrest
    have hmem : LateEvidenceStatus.contradictory ∈
        assessment.reassessments.map FrozenResultReassessment.status := by
      rw [hstatuses]
      exact List.mem_cons_self
    obtain ⟨reassessment, hreassessment, hcontradictory⟩ := List.mem_map.mp hmem
    exact ⟨assessment, reassessment, rfl, houtcome, hstatus, hreassessment, hcontradictory⟩

def lateAmendment (status : LateEvidenceStatus) : Option ParsedAmendment :=
  lastAssessing (resolveAmendmentGraph
    (graphInput lateAmendedPackage (lateAmendmentDeps status))).selectedChain

theorem lateAmendment_carries (status : LateEvidenceStatus)
    (h : ((lateAmendment status).bind fun last =>
      (fileAt last.files lateEvidenceAssessmentPath).map PackageFile.bytes) =
      some (asciiBytes "assessment")) :
    ∃ last file, lateAmendment status = some last ∧
      fileAt last.files lateEvidenceAssessmentPath = some file ∧
      (lateAmendmentDeps status).parseLateEvidenceAssessment file.bytes = some status := by
  obtain ⟨last, hlast, hbytes⟩ := Option.bind_eq_some_iff.mp h
  obtain ⟨file, hfile, hcontent⟩ := Option.map_eq_some_iff.mp hbytes
  refine ⟨last, file, hlast, hfile, ?_⟩
  rw [hcontent]
  rfl

theorem contradiction_reaches_verifier_complete :
    ((verifyPackage lateAmendedPackage (lateAmendmentDeps .contradictory)).eligible = false ∧
      ∃ reason ∈ (verifyPackage lateAmendedPackage (lateAmendmentDeps .contradictory)).reasons,
        reason.code = .contradictoryChain) ∧
    ∃ assessment,
      assessLateEvidence lateTransactionDeps (lateTransactionInput .shortened) = .ok assessment ∧
      assessment.lateEvidenceStatus = .unverified ∧
      finalAssessmentReasons (resolveAmendmentGraph
          (graphInput lateAmendedPackage (lateAmendmentDeps .unverified))).selectedChain
        (lateAmendmentDeps .unverified).parseLateEvidenceAssessment = [] := by
  constructor
  · obtain ⟨assessment, reassessment, hassessed, houtcome, hstatus, hmem, hcontradictory⟩ :=
      lateTransaction_assessed .complete .contradictory (by decide +kernel)
    obtain ⟨last, file, hlast, hfile, hparse⟩ :=
      lateAmendment_carries .contradictory (by decide +kernel)
    have hcarried := hparse.trans (congrArg some hstatus.symm)
    exact (contradiction_reaches_verifier hassessed hlast hfile hcarried hmem
      hcontradictory).1 houtcome
  · obtain ⟨assessment, reassessment, hassessed, houtcome, hstatus, hmem, hcontradictory⟩ :=
      lateTransaction_assessed .shortened .unverified (by decide +kernel)
    obtain ⟨last, file, hlast, hfile, hparse⟩ :=
      lateAmendment_carries .unverified (by decide +kernel)
    have hcarried := hparse.trans (congrArg some hstatus.symm)
    refine ⟨assessment, hassessed, (contradiction_reaches_verifier hassessed hlast hfile hcarried
      hmem hcontradictory).2 ?_⟩
    rw [houtcome]
    decide

theorem shortened_contradiction_eligible : ∃ assessment reassessment last file,
    assessLateEvidence lateTransactionDeps (lateTransactionInput .shortened) = .ok assessment ∧
    lastAssessing (resolveAmendmentGraph
      (graphInput lateAmendedPackage (lateAmendmentDeps .unverified))).selectedChain = some last ∧
    fileAt last.files lateEvidenceAssessmentPath = some file ∧
    (lateAmendmentDeps .unverified).parseLateEvidenceAssessment file.bytes =
      some assessment.lateEvidenceStatus ∧
    reassessment ∈ assessment.reassessments ∧ reassessment.status = .contradictory ∧
    (verifyPackage lateAmendedPackage (lateAmendmentDeps .unverified)).eligible = true := by
  obtain ⟨assessment, reassessment, hassessed, -, hstatus, hmem, hcontradictory⟩ :=
    lateTransaction_assessed .shortened .unverified (by decide +kernel)
  obtain ⟨last, file, hlast, hfile, hparse⟩ :=
    lateAmendment_carries .unverified (by decide +kernel)
  have hcarried := hparse.trans (congrArg some hstatus.symm)
  exact ⟨assessment, reassessment, last, file, hassessed, hlast, hfile, hcarried, hmem,
    hcontradictory, by decide +kernel⟩

end RefundStudy.LateEvidence
