/-
  Evidence references and how a validity gate's value is assembled from its causes
  (`record-contract/evidence-refs.ts`, `evidence-ingestion/gate-assessment.ts`; BR-RUA-035,
  design 8.3).
-/
import RefundStudy.Ingestion.EventIndex
import Mathlib.Data.List.Destutter

set_option autoImplicit false

namespace RefundStudy.Ingestion

open Foundation Record Package

/-! ## References -/

structure EvidenceRef where
  artifactPath : String
  artifactSha256 : Sha256Hex
  eventId : Option Uuid4 := none
  jsonPointer : Option String := none
  deriving DecidableEq

/-- The members that order references; an absent one comes before any present one. -/
def EvidenceRef.orderKey (ref : EvidenceRef) : List (List Nat) :=
  [utf16Units ref.artifactPath, utf16Units ref.artifactSha256,
    (ref.eventId.map fun id => [id]).getD [],
    (ref.jsonPointer.map fun pointer => 0 :: utf16Units pointer).getD []]

/-- `compareEvidenceRefs`, as the order references are sorted in. -/
def evidenceRefLe (first second : EvidenceRef) : Bool :=
  decide (first.orderKey ≤ second.orderKey)

def sortEvidenceRefs (refs : List EvidenceRef) : List EvidenceRef :=
  refs.insertionSort fun first second => evidenceRefLe first second

/-- `canonicalRefs` and `uniqueRefs`: sorted, without repeats. -/
def canonicalRefs (refs : List EvidenceRef) : List EvidenceRef :=
  (sortEvidenceRefs refs).destutter (· ≠ ·)

def artifactRef (artifact : IngestedArtifact) : EvidenceRef where
  artifactPath := artifact.path
  artifactSha256 := artifact.sha256

def recordRef (artifact : IngestedArtifact) (record : IngestedRecord) : EvidenceRef :=
  { artifactRef artifact with eventId := record.value.asEvent.map EventRecord.eventId }

def eventRef (event : IndexedEvent) : EvidenceRef where
  artifactPath := event.artifactPath
  artifactSha256 := event.artifactSha256
  eventId := some event.record.eventId

/-! ## Reasons -/

structure StructuredReason where
  code : String
  subject : String
  artifactPath : Option String := none
  eventId : Option Uuid4 := none
  detail : String
  deriving DecidableEq

def reasonAt (subject code detail : String) (ref : Option EvidenceRef) : StructuredReason where
  code := code
  subject := subject
  artifactPath := ref.map EvidenceRef.artifactPath
  eventId := ref.bind EvidenceRef.eventId
  detail := detail

def findingReason (finding : IngestionFinding) : StructuredReason where
  code := finding.code.text
  subject := finding.subject
  artifactPath := finding.artifactPath
  eventId := finding.eventId
  detail := finding.detail

/-- One turn of the loop of `mergeReasons`. -/
def addReason (groups : InsertionMap (String × String) (StructuredReason × Nat))
    (reason : StructuredReason) : InsertionMap (String × String) (StructuredReason × Nat) :=
  let key := (reason.code, reason.artifactPath.getD "")
  match groups.get? key with
  | none => groups.set key (reason, 1)
  | some (head, count) => groups.set key (head, count + 1)

/-- The texts `compareReasons` compares. -/
def reasonOrderKey (reason : StructuredReason) : List (List Nat) :=
  [utf16Units reason.code, utf16Units (reason.artifactPath.getD ""),
    (reason.eventId.map fun id => [id]).getD [], utf16Units reason.detail]

def mergeReasons (reasons : List StructuredReason) : List StructuredReason :=
  let groups := reasons.foldl addReason []
  let merged := groups.values.map fun group =>
    if group.2 = 1 then group.1
    else { group.1 with detail := aggregatedDetail group.1.detail group.2 }
  merged.insertionSort fun first second => reasonOrderKey first ≤ reasonOrderKey second

/-! ## Gates -/

/-- `GATE_IDS`, in G1-G8 order. -/
inductive GateId where
  | independentOracle
  | traceability
  | identityIntegrity
  | controlIntegrity
  | treatmentFidelity
  | ledgerAccess
  | settlement
  | ruleEvidence
  | evidenceIntegrity
  deriving DecidableEq

inductive GateValue where
  | verified
  | unverified
  | invalid
  | notApplicable
  deriving DecidableEq

inductive CauseValue where
  | invalid
  | unverified
  deriving DecidableEq

def CauseValue.gateValue : CauseValue → GateValue
  | .invalid => .invalid
  | .unverified => .unverified

structure GateCause where
  value : CauseValue
  reason : StructuredReason
  refs : List EvidenceRef

structure GateAssessment where
  gate : GateId
  value : GateValue
  reasons : List StructuredReason
  evidenceRefs : List EvidenceRef
  deriving DecidableEq

def decidingCauses (causes : List GateCause) : List GateCause :=
  let invalid := causes.filter fun cause => decide (cause.value = .invalid)
  if invalid.isEmpty then causes else invalid

def assembleGate (gate : GateId) (causes : List GateCause) (verifiedRefs : List EvidenceRef) :
    GateAssessment :=
  match decidingCauses causes with
  | [] => ⟨gate, .verified, [], canonicalRefs verifiedRefs⟩
  | first :: rest =>
    { gate := gate
      value := first.value.gateValue
      reasons := mergeReasons ((first :: rest).map GateCause.reason)
      evidenceRefs := canonicalRefs ((first :: rest).flatMap GateCause.refs) }

def causesValue (causes : List GateCause) : GateValue :=
  if causes.any fun cause => decide (cause.value = .invalid) then .invalid
  else if causes.isEmpty then .verified
  else .unverified

theorem assembleGate_value (gate : GateId) (causes : List GateCause)
    (verifiedRefs : List EvidenceRef) :
    (assembleGate gate causes verifiedRefs).value = causesValue causes := by
  unfold assembleGate causesValue decidingCauses
  by_cases hany : (causes.any fun cause => decide (cause.value = .invalid)) = true
  · -- some cause is invalid, and only such causes decide
    rw [if_pos hany]
    obtain ⟨cause, hmem, hinvalid⟩ := List.any_eq_true.mp hany
    have hne : causes.filter (fun cause => decide (cause.value = .invalid)) ≠ [] :=
      List.ne_nil_of_mem (List.mem_filter.mpr ⟨hmem, hinvalid⟩)
    cases hlist : causes.filter fun cause => decide (cause.value = .invalid) with
    | nil => exact absurd hlist hne
    | cons first rest =>
      have hfirst : first ∈ causes.filter fun cause => decide (cause.value = .invalid) := by
        rw [hlist]
        exact List.mem_cons_self
      have hvalue : first.value = .invalid := of_decide_eq_true (List.mem_filter.mp hfirst).2
      simp [hvalue, CauseValue.gateValue]
  · have hnone : causes.filter (fun cause => decide (cause.value = .invalid)) = [] := by
      rw [List.filter_eq_nil_iff]
      intro cause hmem hinvalid
      exact hany (List.any_eq_true.mpr ⟨cause, hmem, hinvalid⟩)
    rw [if_neg hany, hnone]
    cases causes with
    | nil => rfl
    | cons first rest =>
      have hfirst : first.value = .unverified := by
        cases hvalue : first.value with
        | unverified => rfl
        | invalid =>
          exact absurd (List.any_eq_true.mpr ⟨first, List.mem_cons_self, by simp [hvalue]⟩) hany
      simp [hfirst, CauseValue.gateValue]

theorem causesValue_verified {causes : List GateCause} :
    causesValue causes = .verified ↔ causes = [] := by
  unfold causesValue
  constructor
  · intro h
    split at h
    · cases h
    · split at h
      · rename_i hempty
        exact List.isEmpty_iff.mp hempty
      · cases h
  · intro h
    simp [h]

theorem assembleGate_verified {gate : GateId} {causes : List GateCause}
    {verifiedRefs : List EvidenceRef} :
    (assembleGate gate causes verifiedRefs).value = .verified ↔ causes = [] := by
  rw [assembleGate_value, causesValue_verified]

theorem assembleGate_applicable (gate : GateId) (causes : List GateCause)
    (verifiedRefs : List EvidenceRef) :
    (assembleGate gate causes verifiedRefs).value ≠ .notApplicable := by
  rw [assembleGate_value]
  unfold causesValue
  split
  · decide
  · split <;> decide

@[simp] theorem assembleGate_gate (gate : GateId) (causes : List GateCause)
    (verifiedRefs : List EvidenceRef) :
    (assembleGate gate causes verifiedRefs).gate = gate := by
  unfold assembleGate
  split <;> rfl

end RefundStudy.Ingestion
