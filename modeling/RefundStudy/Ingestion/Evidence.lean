/-
  The ingested evidence (`evidence-ingestion/ingest-evidence.ts`, `core-digests.ts`,
  `ledger-view.ts`, `observation-view.ts`, `identity-registry.ts`; design 8.2 steps I3, I7 and
  I8).
-/
import RefundStudy.Ingestion.GateAssessment

set_option autoImplicit false

namespace RefundStudy.Ingestion

open Foundation Record Package Settlement

/-! ## Core digests -/

structure DigestReference where
  member : String
  expectation : String
  actual : Sha256Hex
  binds : Correlation → Bool
  claimed : Correlation → Option String

def digestReferences (scope : EvidenceScope) : List DigestReference :=
  (match scope.execution, scope.executionManifestSha256 with
    | some execution, some digest =>
      [{ member := "execution_manifest_sha256"
         expectation := "the execution manifest digest"
         actual := digest
         binds := fun correlation =>
          decide ((correlation.executionId (executionIdField execution.kind)).ownString =
            some execution.id)
         claimed := fun correlation => correlation.executionManifestSha256.ownString }]
    | _, _ => []) ++
  (match scope.trial with
    | some trial =>
      [{ member := "trial_manifest_sha256"
         expectation := "the trial manifest digest"
         actual := trial.trialManifestSha256
         binds := fun correlation => decide (correlation.trialId.ownString = some trial.trialId)
         claimed := fun correlation => correlation.trialManifestSha256.ownString }]
    | none => [])

/-- The records of an artifact that claim another digest than a reference's, with their claims. -/
def mismatchedRecords (artifact : IngestedArtifact) (reference : DigestReference) :
    List (IngestedRecord × String) :=
  (artifact.records.filter IngestedRecord.usable).filterMap fun record =>
    match reference.claimed record.value.correlation with
    | none => none
    | some claimed =>
      if reference.binds record.value.correlation && decide (claimed ≠ reference.actual) then
        some (record, claimed)
      else none

def mismatchFinding (path : String) (reference : DigestReference)
    (mismatched : List (IngestedRecord × String)) : List IngestionFinding :=
  match mismatched with
  | [] => []
  | first :: _ =>
    [ingestionFinding .coreFileDigestMismatch
      (aggregatedDetail (positionText first.1.lineNumber ++ ": " ++ reference.member ++ " names " ++
        boundedJsonText first.2 ++ "; expected " ++ reference.expectation) mismatched.length)
      { artifactPath := some path
        eventId := first.1.value.asEvent.map EventRecord.eventId
        occurrences := mismatched.length }]

def referenceMismatches (references : List DigestReference) (artifact : IngestedArtifact) :
    List IngestionFinding :=
  references.flatMap fun reference =>
    mismatchFinding artifact.path reference (mismatchedRecords artifact reference)

def trialManifestPinMembers : List (String × ArtifactClass × (TrialManifest → Sha256Hex)) :=
  [("resource_manifest_sha256", .resourceManifest, TrialManifest.resourceManifestSha256),
    ("payment_sha256", .payment, TrialManifest.paymentSha256),
    ("approved_decision_sha256", .approvedDecision, TrialManifest.approvedDecisionSha256)]

variable (artifacts : List IngestedArtifact)

/-- The valid trial manifest among the artifacts. -/
def pinningManifest : Option (IngestedArtifact × TrialManifest) := do
  let manifest ← artifacts.find? fun artifact =>
    decide (artifact.artifactClass = some .trialManifest)
  let record ← manifest.records.head?
  match record.validity, record.value.body with
  | .valid, .trialManifest pins => some (manifest, pins)
  | _, _ => none

def trialManifestPins : List IngestionFinding :=
  match pinningManifest artifacts with
  | none => []
  | some (manifest, pins) =>
    trialManifestPinMembers.flatMap fun pin =>
      match artifacts.find? fun artifact => decide (artifact.artifactClass = some pin.2.1) with
      | none => []
      | some pinned =>
        if pin.2.2 pins = pinned.sha256 then []
        else [ingestionFinding .coreFileDigestMismatch
          (pin.1 ++ " names " ++ pin.2.2 pins ++ "; expected the digest of " ++ pinned.path)
          { artifactPath := some manifest.path }]

def indexMismatch (indexedDigests : Option (List (String × Sha256Hex)))
    (artifact : IngestedArtifact) : List IngestionFinding :=
  match indexedDigests.bind fun digests => digests.lookup artifact.path with
  | none => []
  | some indexed =>
    if indexed = artifact.sha256 then []
    else [ingestionFinding .coreFileDigestMismatch
      ("bytes digest to " ++ artifact.sha256 ++ "; expected the evidence index digest " ++ indexed)
      { artifactPath := some artifact.path }]

def checkCoreDigests (scope : EvidenceScope)
    (indexedDigests : Option (List (String × Sha256Hex))) : List IngestionFinding :=
  let examined := artifacts.filter fun artifact => decide (artifact.origin ≠ .executionScope)
  trialManifestPins examined ++
    examined.flatMap (referenceMismatches (digestReferences scope)) ++
    examined.flatMap (indexMismatch indexedDigests)

/-! ## The ledger -/

inductive LedgerStatus where
  | present
  | missing
  | unusable
  deriving DecidableEq

structure LedgerView where
  status : LedgerStatus
  snapshot : Option (LocatedRecord LedgerSnapshot)
  transactions : List LedgerTransaction
  duplicateTransactionIds : List Uuid4
  paginationComplete : Bool
  paginationProblems : List String

/-- One turn of the loop of `duplicateTransactionIds`: the ids seen and those repeated. -/
def addSeen (sets : List Uuid4 × List Uuid4) (id : Uuid4) : List Uuid4 × List Uuid4 :=
  if id ∈ sets.1 then (sets.1, if id ∈ sets.2 then sets.2 else sets.2 ++ [id])
  else (sets.1 ++ [id], sets.2)

def duplicateTransactionIds (transactions : List LedgerTransaction) : List Uuid4 :=
  ((transactions.map LedgerTransaction.providerTransactionId).foldl addSeen ([], [])).2.insertionSort
    (· ≤ ·)

def pageProblems (page : LedgerPage) (index : Nat) (next : Option LedgerPage) : List String :=
  let label := "page " ++ toString (index + 1)
  let numbering :=
    if page.pageNumber = index + 1 then []
    else [label ++ " is numbered " ++ toString page.pageNumber ++ "; expected " ++
      toString (index + 1)]
  match next, page.nextCursor with
  | none, none => numbering
  | none, some cursor => numbering ++ ["the last page has next_cursor " ++ cursor]
  | some _, none =>
    numbering ++ [label ++ " has no next_cursor although page " ++ toString (index + 2) ++
      " follows"]
  | some following, some cursor =>
    if following.startCursor = some cursor then numbering
    else numbering ++ ["page " ++ toString (index + 2) ++ " does not start at " ++ label ++
      "'s next_cursor " ++ cursor]

def paginationProblems (snapshot : LedgerSnapshot) : List String :=
  let declared := (snapshot.pages.map LedgerPage.itemCount).sum
  (if snapshot.complete then [] else ["complete is false"]) ++
    (if snapshot.pages.isEmpty then ["no page is recorded"] else []) ++
    (snapshot.pages.zipIdx.flatMap fun page =>
      pageProblems page.1 page.2 snapshot.pages[page.2 + 1]?) ++
    (if declared = snapshot.transactions.length then []
      else ["page item counts sum to " ++ toString declared ++ "; the snapshot holds " ++
        toString snapshot.transactions.length])

def RecordBody.asLedgerSnapshot : RecordBody → Option LedgerSnapshot
  | .ledgerSnapshot snapshot => some snapshot
  | _ => none

def expectedTransactionCount : Nat := 1

/-- The view `readLedger` gives. -/
def ledgerView : LedgerView :=
  match soleRecord RecordBody.asLedgerSnapshot artifacts .ledgerSnapshot with
  | none =>
    let status := if (subjectArtifact artifacts .ledgerSnapshot).isNone then LedgerStatus.missing
      else .unusable
    { status := status
      snapshot := none
      transactions := []
      duplicateTransactionIds := []
      paginationComplete := false
      paginationProblems := ["ledger snapshot is " ++
        if status = .missing then "missing" else "unusable"] }
  | some snapshot =>
    { status := .present
      snapshot := some snapshot
      transactions := snapshot.record.transactions
      duplicateTransactionIds := duplicateTransactionIds snapshot.record.transactions
      paginationComplete := (paginationProblems snapshot.record).isEmpty
      paginationProblems := paginationProblems snapshot.record }

/-- The findings of `readLedger`: duplicates, pagination and size. -/
def ledgerFindings : List IngestionFinding :=
  match soleRecord RecordBody.asLedgerSnapshot artifacts .ledgerSnapshot with
  | none => []
  | some snapshot =>
    let duplicates := duplicateTransactionIds snapshot.record.transactions
    let problems := paginationProblems snapshot.record
    let count := snapshot.record.transactions.length
    (match duplicates with
      | [] => []
      | first :: _ =>
        [ingestionFinding .duplicateLedgerTransactionId
          (aggregatedDetail ("expected one transaction per provider_transaction_id; " ++
            uuidString first ++ " appears more than once") duplicates.length)
          { artifactPath := some snapshot.artifactPath, occurrences := duplicates.length }]) ++
    (match problems with
      | [] => []
      | first :: _ =>
        [ingestionFinding .ledgerPaginationIncomplete
          (aggregatedDetail ("expected complete pagination; " ++ first) problems.length)
          { artifactPath := some snapshot.artifactPath, occurrences := problems.length }]) ++
    (if count ≤ expectedTransactionCount then []
      else [ingestionFinding .ledgerLargerThanExpected
        ("expected at most " ++ toString expectedTransactionCount ++
          " transaction; the snapshot holds " ++ toString count ++ ", every one kept")
        { artifactPath := some snapshot.artifactPath }])

/-! ## Observations -/

def RecordBody.asPayment : RecordBody → Option Payment
  | .payment found => some found
  | _ => none

def RecordBody.asApprovedDecision : RecordBody → Option ApprovedDecision
  | .approvedDecision decision => some decision
  | _ => none

def RecordBody.asConfiguration : RecordBody → Option Scenario
  | .providerTrialConfiguration scenario => some scenario
  | _ => none

def RecordBody.asTreatmentSnapshot : RecordBody → Option TreatmentStateSnapshot
  | .treatmentStateSnapshot snapshot => some snapshot
  | _ => none

def RecordBody.asDlqSnapshot : RecordBody → Option (List DlqMessage)
  | .dlqSnapshot messages => some messages
  | _ => none

def RecordBody.asSettlementSample : RecordBody → Option SettlementSample
  | .settlementSample sample => some sample
  | _ => none

/-- The members the fidelity and the oracle read. -/
structure ObservationView where
  payment : Option (LocatedRecord Payment)
  approvedDecision : Option (LocatedRecord ApprovedDecision)
  providerConfiguration : Option (LocatedRecord Scenario)
  treatmentSnapshot : Option (LocatedRecord TreatmentStateSnapshot)
  dlqSnapshot : Option (LocatedRecord (List DlqMessage))
  settlementSamples : List (LocatedRecord SettlementSample)

/-- The view `readObservations` gives. -/
def observationView : ObservationView where
  payment := soleRecord RecordBody.asPayment artifacts .payment
  approvedDecision := soleRecord RecordBody.asApprovedDecision artifacts .approvedDecision
  providerConfiguration :=
    soleRecord RecordBody.asConfiguration artifacts .providerTrialConfiguration
  treatmentSnapshot := soleRecord RecordBody.asTreatmentSnapshot artifacts .treatmentStateSnapshot
  dlqSnapshot := soleRecord RecordBody.asDlqSnapshot artifacts .dlqSnapshot
  settlementSamples := streamRecords RecordBody.asSettlementSample artifacts .settlementSamples

/-- The DLQ snapshot is required once a sample correlates a message. -/
def conditionalDlqSnapshot (view : ObservationView) (artifacts : List IngestedArtifact)
    (expected : List ExpectedArtifact) : List IngestionFinding :=
  match expected.find? fun entry => decide (entry.artifactClass = .dlqSnapshot) with
  | none => []
  | some declared =>
    if (view.settlementSamples.any fun sample => !sample.record.correlatedDlqMessageIds.isEmpty) &&
        (subjectArtifact artifacts .dlqSnapshot).isNone then
      [missingArtifactFinding { declared with requirement := .required }]
    else []

/-! ## Identities -/

structure IdentityOccurrence where
  kind : IdentityKind
  id : Uuid4
  originEventId : Option Uuid4
  partition : String
  pairedAttempt : Option Uuid4
  ledgerItem : Option (String × Nat)
  examined : Bool
  ref : EvidenceRef

/-- `CALLER_KINDS`, `COMMIT_KINDS`, `CALL_KINDS` and `LEDGER_KINDS`. -/
def callerKinds : List IdentityKind := [.attemptId, .providerRequestId]
def commitKinds : List IdentityKind := [.providerTransactionId, .providerCommitId]
def callKinds : List IdentityKind := [.providerCallId]
def ledgerKinds : List IdentityKind := callerKinds ++ callKinds ++ commitKinds

def originKinds : ReadBody → List IdentityKind
  | .attemptRegistered _ => callerKinds
  | .providerCallReceived _ => callKinds
  | .providerWarmupCompleted _ => callKinds
  | .providerCallRejected _ => callKinds
  | .providerTransactionCommitted _ => commitKinds
  | .providerCommitFailed _ => commitKinds
  | _ => []

def appearanceKinds : ReadBody → List IdentityKind
  | .dispatchStarted _ => callerKinds
  | .attemptNotDispatched _ => callerKinds
  | .attemptOutcomeRecorded _ _ _ _ => callerKinds
  | .transportSettledAfterTimeout _ _ => callerKinds
  | .providerCallAccepted _ _ => callerKinds ++ callKinds
  | .providerTransactionCommitted _ => callerKinds ++ callKinds
  | .providerCommitFailed _ => callKinds
  | _ => []

/-- A rejected call creates its id only at the execution level. -/
def createsIdentities (event : IndexedEvent) : Bool :=
  match event.record.body with
  | .providerCallRejected _ => decide (event.partition = executionPartition)
  | _ => true

def eventOccurrence (event : IndexedEvent) (creates : Bool) (kind : IdentityKind) :
    Option IdentityOccurrence :=
  (event.record.body.identity kind).map fun id =>
    { kind := kind
      id := id
      originEventId := if creates then some event.record.eventId else none
      partition := event.partition
      pairedAttempt :=
        if kind = .providerRequestId then event.record.body.identity .attemptId else none
      ledgerItem := none
      examined := decide (event.origin = .subject)
      ref := eventRef event }

def eventOccurrences (event : IndexedEvent) : List IdentityOccurrence :=
  let origin := if createsIdentities event then originKinds event.record.body else []
  let appearance := (appearanceKinds event.record.body).filter fun kind => !origin.contains kind
  origin.filterMap (eventOccurrence event true) ++
    appearance.filterMap (eventOccurrence event false)

def transactionIdentity (transaction : LedgerTransaction) : IdentityKind → Uuid4
  | .attemptId => transaction.attemptId
  | .providerRequestId => transaction.providerRequestId
  | .providerCallId => transaction.providerCallId
  | .providerTransactionId => transaction.providerTransactionId
  | .providerCommitId => transaction.providerCommitId

/-- `ledgerOccurrences` of one transaction. -/
def transactionOccurrences (artifact : IngestedArtifact) (partition : String)
    (transaction : LedgerTransaction × Nat) : List IdentityOccurrence :=
  ledgerKinds.map fun kind =>
    { kind := kind
      id := transactionIdentity transaction.1 kind
      originEventId := none
      partition := partition
      pairedAttempt := if kind = .providerRequestId then some transaction.1.attemptId else none
      ledgerItem := some (artifact.path, transaction.2)
      examined := decide (artifact.origin = .subject)
      ref := { artifactRef artifact with
        jsonPointer := some ("/transactions/" ++ toString transaction.2) } }

/-- `ledgerSnapshots` and `ledgerOccurrences` of one artifact. -/
def ledgerOccurrences (artifact : IngestedArtifact) : List IdentityOccurrence :=
  (artifact.records.filter IngestedRecord.usable).flatMap fun record =>
    match record.value.body with
    | .ledgerSnapshot snapshot =>
      snapshot.transactions.zipIdx.flatMap
        (transactionOccurrences artifact (partitionOf record.value.correlation))
    | _ => []

structure IdentityCollision where
  kind : IdentityKind
  id : Uuid4
  originEventIds : List Uuid4
  partitions : List String
  refs : List EvidenceRef

structure IdentityRegistry where
  callerCollisions : List IdentityCollision
  providerCollisions : List IdentityCollision
  unregisteredAttempts : List (Uuid4 × EvidenceRef)

/-- The occurrences of each identity, in order of first appearance. -/
def byIdentity (occurrences : List IdentityOccurrence) :
    InsertionMap (IdentityKind × Uuid4) (List IdentityOccurrence) :=
  occurrences.foldl (fun groups occurrence =>
    groups.set (occurrence.kind, occurrence.id)
      ((groups.get? (occurrence.kind, occurrence.id)).getD [] ++ [occurrence])) []

def isJudgedCollision (group : List IdentityOccurrence) : Bool :=
  let origins := (group.filterMap IdentityOccurrence.originEventId).dedup
  let partitions := (group.map IdentityOccurrence.partition).dedup
  let attempts := (group.filterMap IdentityOccurrence.pairedAttempt).dedup
  let items := (group.filterMap fun entry =>
    if commitKinds.contains entry.kind then entry.ledgerItem else none).dedup
  (group.any IdentityOccurrence.examined) &&
    (decide (1 < origins.length) || decide (1 < partitions.length) ||
      decide (1 < attempts.length) || decide (1 < items.length))

def toCollision (key : IdentityKind × Uuid4) (group : List IdentityOccurrence) :
    IdentityCollision where
  kind := key.1
  id := key.2
  originEventIds := (group.filterMap IdentityOccurrence.originEventId).dedup.insertionSort (· ≤ ·)
  partitions := (group.map IdentityOccurrence.partition).dedup.insertionSort
    fun first second => codeUnitsLe first second
  refs := sortEvidenceRefs (group.map IdentityOccurrence.ref)

/-- The runner's canary timeout references none. -/
def referencesAttempt (event : IndexedEvent) : Bool :=
  decide (event.record.source ≠ .runner) &&
    match event.record.body with
    | .dispatchStarted _ | .attemptNotDispatched _ | .attemptOutcomeRecorded _ _ _ _
    | .callerTimeoutRecorded _ _ | .transportSettledAfterTimeout _ _ | .providerCallAccepted _ _
    | .providerTransactionCommitted _ => true
    | _ => false

/-- An attempt is registered when some event created its id. -/
def isRegistered (groups : InsertionMap (IdentityKind × Uuid4) (List IdentityOccurrence))
    (attemptId : Uuid4) : Bool :=
  ((groups.get? (.attemptId, attemptId)).getD []).any fun entry => entry.originEventId.isSome

def unregisteredAttempts (events : List IndexedEvent)
    (groups : InsertionMap (IdentityKind × Uuid4) (List IdentityOccurrence)) :
    List (Uuid4 × EvidenceRef) :=
  events.filterMap fun event =>
    match event.record.body.identity .attemptId with
    | none => none
    | some attemptId =>
      if decide (event.origin = .subject) && referencesAttempt event &&
          !isRegistered groups attemptId then
        some (attemptId, eventRef event)
      else none

def buildIdentityRegistry (events : List IndexedEvent) (artifacts : List IngestedArtifact) :
    IdentityRegistry :=
  let groups := byIdentity (events.flatMap eventOccurrences ++ artifacts.flatMap ledgerOccurrences)
  let collisions := (groups.filter fun entry => isJudgedCollision entry.2).map
    fun entry => toCollision entry.1 entry.2
  { callerCollisions := collisions.filter fun collision => callerKinds.contains collision.kind
    providerCollisions := collisions.filter fun collision => !callerKinds.contains collision.kind
    unregisteredAttempts := unregisteredAttempts events groups }

/-! ## Ingestion -/

structure EventIndex where
  byId : InsertionMap Uuid4 IndexedEvent
  subject : List IndexedEvent
  instances : InsertionMap String SourceInstanceView
  conflictingEventIds : List Uuid4
  unresolvedCausation : InsertionMap Uuid4 (List Uuid4)

structure IngestedEvidence where
  scope : EvidenceScope
  expected : List ExpectedArtifact
  artifacts : List IngestedArtifact
  events : EventIndex
  ledger : LedgerView
  observations : ObservationView
  identities : IdentityRegistry
  findings : List IngestionFinding
  collapsedDuplicateCount : Nat
  indexedDigests : Option (List (String × Sha256Hex))

def IndexedEvent.sequenced (event : IndexedEvent) : SequencedEvent where
  eventId := event.record.eventId
  source := event.record.source
  sourceInstanceId := event.record.sourceInstanceId
  sourceSequence := event.record.sourceSequence
  artifactPath := event.artifactPath
  origin := event.origin

section Ingest

variable (validator : RecordValidator) (input : IngestionInput)

def inputScope : EvidenceScope :=
  resolveScope validator (readArtifacts input).artifacts input.expected
    input.indexedDigests.isSome

def inputArtifacts : List IngestedArtifact :=
  (readArtifacts input).artifacts.map
    (classifyArtifact validator (inputScope validator input))

def inputCollapse : EventCollapse := indexEvents (inputArtifacts validator input)

def inputFindings : List IngestionFinding :=
  let reading := readArtifacts input
  let scope := inputScope validator input
  let artifacts := inputArtifacts validator input
  let collapse := inputCollapse validator input
  reading.findings ++
    reading.artifacts.flatMap (classificationFindings validator scope) ++
    checkCoreDigests artifacts scope input.indexedDigests ++
    collapse.findings ++
    (checkSequenceDensity (collapse.byId.values.map IndexedEvent.sequenced)).findings ++
    (resolveCausation collapse.byId).findings ++
    ledgerFindings artifacts ++
    conditionalDlqSnapshot (observationView artifacts) artifacts input.expected

def ingestEvidence : IngestedEvidence :=
  let artifacts := inputArtifacts validator input
  let collapse := inputCollapse validator input
  let indexed := collapse.byId.values
  { scope := inputScope validator input
    expected := input.expected
    artifacts := artifacts
    events :=
      { byId := collapse.byId
        subject := indexed.filter fun event => decide (event.origin = .subject)
        instances := (checkSequenceDensity (indexed.map IndexedEvent.sequenced)).instances
        conflictingEventIds := collapse.conflictingEventIds
        unresolvedCausation := (resolveCausation collapse.byId).unresolved }
    ledger := ledgerView artifacts
    observations := observationView artifacts
    identities := buildIdentityRegistry indexed artifacts
    findings := sortFindings (mergeFindings (inputFindings validator input))
    collapsedDuplicateCount := collapse.collapsedDuplicateCount
    indexedDigests := input.indexedDigests }

end Ingest

end RefundStudy.Ingestion
