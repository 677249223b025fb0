/-
  Recorded cleanup actions as documents, and the schema that accepts them
  (`event-journal/journal-event.ts`, `cleanup_action_recorded.schema.json` and its shared
  definitions).

  The texts that describe a violation are left out.
-/
import RefundStudy.ActionJournal.Actions
import RefundStudy.Journal.Writer

set_option autoImplicit false

namespace RefundStudy.ActionJournal

open Foundation Record Store
open Cleanup (CleanupStep StepStatus CleanupMode OwnershipBasis CleanupResourceAction
  cleanupSteps basesByAction)
open Journal (isSourceSequence maxSourceSequence)

variable {members : InsertionMap JsString JsonDocument} {name : String} {value : Option JsString}

/-! ## Actions -/

structure CleanupActionBody where
  step : CleanupStep
  stepStatus : StepStatus
  cleanupMode : CleanupMode
  cleanupInduced : Bool
  action : JsString
  resourceType : Option JsString := none
  resourceIdentifier : Option JsString := none
  ownershipBasis : Option OwnershipBasis := none
  reasons : List StructuredReason

structure CleanupActionEntry where
  body : CleanupActionBody
  occurredAt : JsString

def stepNumber (step : CleanupStep) : Nat := cleanupSteps.idxOf step + 1

def stepOfNumber (number : Nat) : Option CleanupStep :=
  cleanupSteps.find? fun step => stepNumber step = number

abbrev Names (α : Type) : Type := List (String × α)

def readName {α : Type} (names : Names α) (text : JsString) : Option α :=
  (names.find? fun entry => jsString entry.1 = text).map Prod.snd

def stepStatusText : StepStatus → String
  | .started => "started"
  | .ended .succeeded => "succeeded"
  | .ended .failed => "failed"
  | .ended .skipped => "skipped"

/-- `CLEANUP_MODES`. -/
def cleanupModeText : CleanupMode → String
  | .normal => "NORMAL"
  | .emergency => "EMERGENCY"

/-- `OWNERSHIP_BASES`. -/
def ownershipBasisText : OwnershipBasis → String
  | .owned .recordedStack => "recorded_stack"
  | .owned .resourceManifestAndTags => "resource_manifest_and_tags"
  | .owned .tagsNameTypeCreatedAfterFreeze => "tags_name_type_created_after_freeze"
  | .ambiguous => "ambiguous"
  | .excludedBaseline => "excluded_baseline"

/-- `CLEANUP_RESOURCE_ACTIONS`. -/
def resourceActionText : CleanupResourceAction → String
  | .deleted => "DELETED"
  | .alreadyAbsent => "ALREADY_ABSENT"
  | .deleteFailed => "DELETE_FAILED"
  | .skippedAmbiguous => "SKIPPED_AMBIGUOUS"
  | .excludedBaseline => "EXCLUDED_BASELINE"

def namesOf {α : Type} (name : α → String) (values : List α) : Names α :=
  values.map fun value => (name value, value)

def stepStatusNames : Names StepStatus :=
  namesOf stepStatusText [.started, .ended .succeeded, .ended .failed, .ended .skipped]

def cleanupModeNames : Names CleanupMode := namesOf cleanupModeText [.normal, .emergency]

def ownershipBasisNames : Names OwnershipBasis :=
  namesOf ownershipBasisText [.owned .recordedStack, .owned .resourceManifestAndTags,
    .owned .tagsNameTypeCreatedAfterFreeze, .ambiguous, .excludedBaseline]

def resourceActionNames : Names CleanupResourceAction :=
  namesOf resourceActionText
    [.deleted, .alreadyAbsent, .deleteFailed, .skippedAmbiguous, .excludedBaseline]

/-- An action as cleanup records it: it has a name; a resource is a type and an identifier, both
named or both absent; a basis comes with a resource; what was done to an owned resource comes
with the basis of that decision. -/
structure CleanupActionBody.Recordable (body : CleanupActionBody) : Prop where
  action : isUpperSnake body.action = true
  resource : body.resourceType.isSome = body.resourceIdentifier.isSome
  resourceType : ∀ name ∈ body.resourceType, name ≠ []
  resourceIdentifier : ∀ name ∈ body.resourceIdentifier, name ≠ []
  basis : body.ownershipBasis.isSome = true → body.resourceIdentifier.isSome = true
  allowed : ∀ action, readName resourceActionNames body.action = some action →
    ∃ basis ∈ basesByAction action, body.ownershipBasis = some basis

/-! ## Events -/

structure ExecutionIdentity where
  kind : ExecutionKind
  id : Uuid4Text

/-- `JournalScope` of the partition of the execution. -/
structure JournalScope where
  execution : ExecutionIdentity
  executionManifestSha256 : Sha256Text

structure EventEnvelope where
  scope : JournalScope
  eventId : Uuid4Text
  occurredAt : UtcMillisText
  sourceInstanceId : Uuid4Text
  sourceSequence : Nat
  sequence_valid : isSourceSequence sourceSequence = true

def identityKey : ExecutionKind → String
  | .run => "run_id"
  | .transportProbe => "transport_probe_id"
  | .variantValidation => "variant_validation_id"

def textMember (name : String) (value : JsString) : JsString × JsonDocument :=
  (jsString name, .string value)

def optionalMember (name : String) (value : Option JsString) : List (JsString × JsonDocument) :=
  value.toList.map (textMember name)

def integerMember (name : String) (value : Nat) (h : value < 2 ^ 53) : JsString × JsonDocument :=
  (jsString name, .number (.finite (doubleOfNat value h)))

def reasonMembers (reason : StructuredReason) : List (JsString × JsonDocument) :=
  [textMember "code" reason.code, textMember "subject" reason.subject] ++
    optionalMember "artifact_path" reason.artifactPath ++
    optionalMember "event_id" reason.eventId ++ [textMember "detail" reason.detail]

def reasonDocument (reason : StructuredReason) : JsonDocument := .object (reasonMembers reason)

theorem stepNumber_le (step : CleanupStep) : 1 ≤ stepNumber step ∧ stepNumber step ≤ 12 := by
  cases step <;> decide

def bodyMembers (body : CleanupActionBody) : List (JsString × JsonDocument) :=
  [integerMember "step" (stepNumber body.step) (by have := stepNumber_le body.step; omega),
    textMember "step_status" (jsString (stepStatusText body.stepStatus)),
    textMember "cleanup_mode" (jsString (cleanupModeText body.cleanupMode)),
    (jsString "cleanup_induced", .bool body.cleanupInduced),
    textMember "action" body.action] ++
  optionalMember "resource_type" body.resourceType ++
  optionalMember "resource_identifier" body.resourceIdentifier ++
  optionalMember "ownership_basis"
    (body.ownershipBasis.map fun basis => jsString (ownershipBasisText basis)) ++
  [(jsString "reasons", JsonDocument.array (body.reasons.map reasonDocument))]

theorem sequence_lt {sequence : Nat} (h : isSourceSequence sequence = true) :
    sequence < 2 ^ 53 := by
  have hrange : 1 ≤ sequence ∧ sequence ≤ 999999999999 := of_decide_eq_true h
  omega

def envelopeMembers (envelope : EventEnvelope) : List (JsString × JsonDocument) :=
  [integerMember "schema_version" 1 (by decide),
    textMember "record_type" (jsString "cleanup_action_recorded"),
    textMember "event_id" envelope.eventId.val,
    textMember (identityKey envelope.scope.execution.kind) envelope.scope.execution.id.val,
    textMember "execution_manifest_sha256" envelope.scope.executionManifestSha256.val,
    textMember "occurred_at" envelope.occurredAt.val,
    textMember "source" (jsString "cleanup"),
    textMember "source_instance_id" envelope.sourceInstanceId.val,
    integerMember "source_sequence" envelope.sourceSequence (sequence_lt envelope.sequence_valid)]

def buildJournalEvent (body : CleanupActionBody) (envelope : EventEnvelope) : JsonDocument :=
  .object (bodyMembers body ++ envelopeMembers envelope)

/-! ## The schema -/

section Schema

variable (members : InsertionMap JsString JsonDocument)

def member (name : String) : Option JsonDocument := members.get? (jsString name)

def requiredText (name : String) (check : JsString → Bool) : Option JsString :=
  match member members name with
  | some (.string text) => if check text then some text else none
  | _ => none

def optionalText (name : String) (check : JsString → Bool) : Option (Option JsString) :=
  match member members name with
  | none => some none
  | some (.string text) => if check text then some (some text) else none
  | some _ => none

def requiredInteger (name : String) (least most : Nat) : Option Nat :=
  match member members name with
  | some (.number value) =>
    (naturalOf value).filter fun number => decide (least ≤ number ∧ number ≤ most)
  | _ => none

def requiredBool (name : String) : Option Bool :=
  match member members name with
  | some (.bool value) => some value
  | _ => none

def requiredName {α : Type} (names : Names α) (name : String) : Option α :=
  (requiredText members name fun _ => true).bind (readName names)

def optionalName {α : Type} (names : Names α) (name : String) : Option (Option α) :=
  match optionalText members name fun _ => true with
  | none => none
  | some none => some none
  | some (some text) => (readName names text).map some

/-- `additionalProperties: false`. -/
def onlyNamed (names : List String) : Bool :=
  members.all fun entry => (names.map jsString).contains entry.1

end Schema

/-- `structured_reason`. -/
def readReason : JsonDocument → Option StructuredReason
  | .object members => do
    guard (onlyNamed members ["code", "subject", "artifact_path", "event_id", "detail"] = true)
    let code ← requiredText members "code" isUpperSnake
    let subject ← requiredText members "subject" fun text => !text.isEmpty
    let artifactPath ← optionalText members "artifact_path" isPackageRelativePath
    let eventId ← optionalText members "event_id" isUuid4
    let detail ← requiredText members "detail" fun text => !text.isEmpty
    return ⟨code, subject, artifactPath, eventId, detail⟩
  | _ => none

/-- `structured_reasons`. -/
def readReasons (members : InsertionMap JsString JsonDocument) : Option (List StructuredReason) :=
  match member members "reasons" with
  | some (.array items) => items.mapM readReason
  | _ => none

structure IdentityFields where
  runId : Option JsString
  variantValidationId : Option JsString
  transportProbeId : Option JsString

def executionIdentityFields (identity : ExecutionIdentity) : IdentityFields :=
  match identity.kind with
  | .run => ⟨some identity.id.val, none, none⟩
  | .transportProbe => ⟨none, none, some identity.id.val⟩
  | .variantValidation => ⟨none, some identity.id.val, none⟩

/-- `execution_identity`: exactly one of the three ids. -/
def readIdentity (members : InsertionMap JsString JsonDocument) : Option IdentityFields := do
  let runId ← optionalText members "run_id" isUuid4
  let variantValidationId ← optionalText members "variant_validation_id" isUuid4
  let transportProbeId ← optionalText members "transport_probe_id" isUuid4
  guard ([runId, variantValidationId, transportProbeId].countP Option.isSome = 1)
  return ⟨runId, variantValidationId, transportProbeId⟩

def textsOf (items : List JsonDocument) : Option (List JsString) :=
  items.mapM fun
    | .string text => some text
    | _ => none

def isAscending : List JsString → Bool
  | first :: second :: rest =>
    unitsLe first second && first != second && isAscending (second :: rest)
  | _ => true

/-- `causation_ids`, when there are any. -/
def causationValid (members : InsertionMap JsString JsonDocument) : Bool :=
  match member members "causation_event_ids" with
  | none => true
  | some (.array items) =>
    match textsOf items with
    | none => false
    | some ids => !ids.isEmpty && ids.all isUuid4 && isAscending ids
  | some _ => false

def recordNames : List String :=
  ["schema_version", "record_type", "event_id", "run_id", "variant_validation_id",
    "transport_probe_id", "execution_manifest_sha256", "occurred_at", "source_instance_id",
    "source_sequence", "causation_event_ids", "source", "step", "step_status", "cleanup_mode",
    "cleanup_induced", "action", "resource_type", "resource_identifier", "ownership_basis",
    "reasons"]

structure CleanupActionRecorded where
  identity : IdentityFields
  executionManifestSha256 : JsString
  occurredAt : JsString
  body : CleanupActionBody

def readBody (members : InsertionMap JsString JsonDocument) : Option CleanupActionBody := do
  let step ← (requiredInteger members "step" 1 12).bind stepOfNumber
  let stepStatus ← requiredName members stepStatusNames "step_status"
  let cleanupMode ← requiredName members cleanupModeNames "cleanup_mode"
  let cleanupInduced ← requiredBool members "cleanup_induced"
  let action ← requiredText members "action" isUpperSnake
  let resourceType ← optionalText members "resource_type" fun text => !text.isEmpty
  let resourceIdentifier ← optionalText members "resource_identifier" fun text => !text.isEmpty
  let ownershipBasis ← optionalName members ownershipBasisNames "ownership_basis"
  guard (resourceType.isSome = resourceIdentifier.isSome)
  guard (ownershipBasis.isSome = true → resourceIdentifier.isSome = true)
  let reasons ← readReasons members
  return ⟨step, stepStatus, cleanupMode, cleanupInduced, action, resourceType, resourceIdentifier,
    ownershipBasis, reasons⟩

/-- `validateAs('cleanup_action_recorded', value)`. -/
def validateCleanupAction : JsonDocument → Option CleanupActionRecorded
  | .object members => do
    guard (onlyNamed members recordNames = true)
    guard (causationValid members = true)
    let _ ← requiredInteger members "schema_version" 1 1
    let _ ← requiredText members "record_type" (· == jsString "cleanup_action_recorded")
    let _ ← requiredText members "event_id" isUuid4
    let identity ← readIdentity members
    let manifest ← requiredText members "execution_manifest_sha256" isSha256
    let occurredAt ← requiredText members "occurred_at" isUtcMillis
    let _ ← requiredText members "source" (· == jsString "cleanup")
    let _ ← requiredText members "source_instance_id" isUuid4
    let _ ← requiredInteger members "source_sequence" 1 9007199254740991
    let body ← readBody members
    return ⟨identity, manifest, occurredAt, body⟩
  | _ => none

/-! ## The order of members does not matter to the schema -/

section Canonical

variable {members : InsertionMap JsString JsonDocument}

abbrev canonicalForm (members : InsertionMap JsString JsonDocument) :
    InsertionMap JsString JsonDocument :=
  sortMembers (canonicalMembers members)

theorem member_canonical (hdistinct : (members.map Prod.fst).Nodup) (name : String) :
    member (canonicalForm members) name = (member members name).map canonicalDocument :=
  get?_canonical hdistinct (jsString name)

theorem requiredText_canonical (hdistinct : (members.map Prod.fst).Nodup) (name : String)
    (check : JsString → Bool) :
    requiredText (canonicalForm members) name check = requiredText members name check := by
  unfold requiredText
  rw [member_canonical hdistinct]
  cases member members name with
  | none => rfl
  | some value => cases value <;> rfl

theorem optionalText_canonical (hdistinct : (members.map Prod.fst).Nodup) (name : String)
    (check : JsString → Bool) :
    optionalText (canonicalForm members) name check = optionalText members name check := by
  unfold optionalText
  rw [member_canonical hdistinct]
  cases member members name with
  | none => rfl
  | some value => cases value <;> rfl

theorem requiredInteger_canonical (hdistinct : (members.map Prod.fst).Nodup) (name : String)
    (least most : Nat) :
    requiredInteger (canonicalForm members) name least most =
      requiredInteger members name least most := by
  unfold requiredInteger
  rw [member_canonical hdistinct]
  cases member members name with
  | none => rfl
  | some value => cases value <;> rfl

theorem requiredBool_canonical (hdistinct : (members.map Prod.fst).Nodup) (name : String) :
    requiredBool (canonicalForm members) name = requiredBool members name := by
  unfold requiredBool
  rw [member_canonical hdistinct]
  cases member members name with
  | none => rfl
  | some value => cases value <;> rfl

theorem requiredName_canonical {α : Type} (hdistinct : (members.map Prod.fst).Nodup)
    (names : Names α) (name : String) :
    requiredName (canonicalForm members) names name = requiredName members names name := by
  unfold requiredName
  rw [requiredText_canonical hdistinct]

theorem optionalName_canonical {α : Type} (hdistinct : (members.map Prod.fst).Nodup)
    (names : Names α) (name : String) :
    optionalName (canonicalForm members) names name = optionalName members names name := by
  unfold optionalName
  rw [optionalText_canonical hdistinct]

theorem onlyNamed_canonical (names : List String) :
    onlyNamed (canonicalForm members) names = onlyNamed members names := by
  have hall : ∀ entries : InsertionMap JsString JsonDocument,
      onlyNamed entries names = (entries.map Prod.fst).all (names.map jsString).contains := by
    intro entries
    rw [onlyNamed, List.all_map]
    rfl
  rw [hall, hall, ((sortMembers_perm (canonicalMembers members)).map Prod.fst).all_eq,
    canonicalMembers_names]

theorem textsOf_canonical (items : List JsonDocument) :
    textsOf (canonicalItems items) = textsOf items := by
  rw [canonicalItems_eq_map, textsOf, textsOf, List.mapM_map]
  congr 1
  funext item
  cases item <;> rfl

theorem causationValid_canonical (hdistinct : (members.map Prod.fst).Nodup) :
    causationValid (canonicalForm members) = causationValid members := by
  unfold causationValid
  rw [member_canonical hdistinct]
  cases member members "causation_event_ids" with
  | none => rfl
  | some value =>
    cases value with
    | array items =>
      simp only [Option.map_some, canonicalDocument, textsOf_canonical]
    | _ => rfl

theorem readReason_canonical {value : JsonDocument} (h : Writable value) :
    readReason (canonicalDocument value) = readReason value := by
  cases h with
  | object hdistinct _ =>
    simp only [canonicalDocument, readReason, onlyNamed_canonical,
      requiredText_canonical hdistinct, optionalText_canonical hdistinct]
  | _ => rfl

theorem mapM_congr_of_mem {α β : Type} {first second : α → Option β} {items : List α}
    (h : ∀ item ∈ items, first item = second item) : items.mapM first = items.mapM second := by
  induction items with
  | nil => rfl
  | cons item rest ih =>
    rw [List.mapM_cons, List.mapM_cons, h item List.mem_cons_self,
      ih fun other hmem => h other (List.mem_cons_of_mem _ hmem)]

theorem readReasons_canonical (h : Writable (.object members)) :
    readReasons (canonicalForm members) = readReasons members := by
  cases h with
  | object hdistinct hmembers =>
    unfold readReasons
    rw [member_canonical hdistinct]
    cases hfound : member members "reasons" with
    | none => rfl
    | some value =>
      have hvalue : Writable value := hmembers _ (InsertionMap.mem_of_get? hfound)
      cases hvalue with
      | array hitems =>
        simp only [Option.map_some, canonicalDocument, canonicalItems_eq_map]
        rw [List.mapM_map]
        exact mapM_congr_of_mem fun item hmem => readReason_canonical (hitems item hmem)
      | _ => rfl

theorem validateCleanupAction_canonical {value : JsonDocument} (h : Writable value) :
    validateCleanupAction (canonicalDocument value) = validateCleanupAction value := by
  have hwritable := h
  cases h with
  | object hdistinct _ =>
    have hbody : ∀ members : InsertionMap JsString JsonDocument,
        (members.map Prod.fst).Nodup → Writable (.object members) →
        readBody (canonicalForm members) = readBody members := by
      intro members hdistinct hwritable
      simp only [readBody, requiredInteger_canonical hdistinct,
        requiredName_canonical hdistinct, requiredBool_canonical hdistinct,
        requiredText_canonical hdistinct, optionalText_canonical hdistinct,
        optionalName_canonical hdistinct, readReasons_canonical hwritable]
    simp only [canonicalDocument, validateCleanupAction, onlyNamed_canonical,
      causationValid_canonical hdistinct, requiredInteger_canonical hdistinct,
      requiredText_canonical hdistinct, readIdentity, optionalText_canonical hdistinct,
      hbody _ hdistinct hwritable]
  | _ => rfl

end Canonical

/-! ## Every written event is valid -/

section Written

theorem event_names (body : CleanupActionBody) (envelope : EventEnvelope) :
    (bodyMembers body ++ envelopeMembers envelope).map Prod.fst =
      (["step", "step_status", "cleanup_mode", "cleanup_induced", "action"] ++
        (if body.resourceType.isSome then ["resource_type"] else []) ++
        (if body.resourceIdentifier.isSome then ["resource_identifier"] else []) ++
        (if body.ownershipBasis.isSome then ["ownership_basis"] else []) ++
        ["reasons", "schema_version", "record_type", "event_id",
          identityKey envelope.scope.execution.kind, "execution_manifest_sha256", "occurred_at",
          "source", "source_instance_id", "source_sequence"]).map jsString := by
  obtain ⟨_, _, _, _, _, resourceType, resourceIdentifier, ownershipBasis, _⟩ := body
  cases resourceType <;> cases resourceIdentifier <;> cases ownershipBasis <;>
    simp [bodyMembers, envelopeMembers, optionalMember, textMember, integerMember]

theorem event_distinct (body : CleanupActionBody) (envelope : EventEnvelope) :
    ((bodyMembers body ++ envelopeMembers envelope).map Prod.fst).Nodup := by
  rw [event_names]
  refine List.Nodup.map jsString_injective ?_
  cases body.resourceType.isSome <;> cases body.resourceIdentifier.isSome <;>
    cases body.ownershipBasis.isSome <;> cases envelope.scope.execution.kind <;> decide

theorem reason_names (reason : StructuredReason) :
    (reasonMembers reason).map Prod.fst =
      (["code", "subject"] ++ (if reason.artifactPath.isSome then ["artifact_path"] else []) ++
        (if reason.eventId.isSome then ["event_id"] else []) ++ ["detail"]).map jsString := by
  obtain ⟨_, _, artifactPath, eventId, _⟩ := reason
  cases artifactPath <;> cases eventId <;> simp [reasonMembers, optionalMember, textMember]

theorem reason_distinct (reason : StructuredReason) :
    ((reasonMembers reason).map Prod.fst).Nodup := by
  rw [reason_names]
  refine List.Nodup.map jsString_injective ?_
  cases reason.artifactPath.isSome <;> cases reason.eventId.isSome <;> decide

theorem optionalMember_writable
    {entry : JsString × JsonDocument} (h : entry ∈ optionalMember name value) :
    Writable entry.2 := by
  obtain ⟨text, _, rfl⟩ := List.mem_map.mp h
  exact .string text

theorem reasonDocument_writable (reason : StructuredReason) : Writable (reasonDocument reason) := by
  refine .object (reason_distinct reason) fun entry hmem => ?_
  simp only [reasonMembers, List.mem_append, List.mem_cons, List.not_mem_nil, or_false] at hmem
  rcases hmem with (((rfl | rfl) | hmem) | hmem) | rfl
  · exact .string _
  · exact .string _
  · exact optionalMember_writable hmem
  · exact optionalMember_writable hmem
  · exact .string _

theorem buildJournalEvent_writable (body : CleanupActionBody) (envelope : EventEnvelope) :
    Writable (buildJournalEvent body envelope) := by
  refine .object (event_distinct body envelope) fun entry hmem => ?_
  rcases List.mem_append.mp hmem with hmem | hmem
  · simp only [bodyMembers, List.mem_append, List.mem_cons, List.not_mem_nil, or_false] at hmem
    rcases hmem with ((((rfl | rfl | rfl | rfl | rfl) | hmem) | hmem) | hmem) | rfl
    · exact .number _ _
    · exact .string _
    · exact .string _
    · exact .bool _
    · exact .string _
    · exact optionalMember_writable hmem
    · exact optionalMember_writable hmem
    · exact optionalMember_writable hmem
    · refine .array fun item hitem => ?_
      obtain ⟨reason, _, rfl⟩ := List.mem_map.mp hitem
      exact reasonDocument_writable reason
  · simp only [envelopeMembers, List.mem_cons, List.not_mem_nil, or_false] at hmem
    rcases hmem with rfl | rfl | rfl | rfl | rfl | rfl | rfl | rfl | rfl
    · exact .number _ _
    · exact .string _
    · exact .string _
    · exact .string _
    · exact .string _
    · exact .string _
    · exact .string _
    · exact .string _
    · exact .number _ _

variable {body : CleanupActionBody} {envelope : EventEnvelope}

abbrev eventMembers (body : CleanupActionBody) (envelope : EventEnvelope) :
    InsertionMap JsString JsonDocument :=
  bodyMembers body ++ envelopeMembers envelope

theorem member_of_mem
    (hdistinct : (members.map Prod.fst).Nodup) {value : JsonDocument}
    (h : (jsString name, value) ∈ members) : member members name = some value :=
  InsertionMap.get?_of_mem hdistinct h

theorem member_optional {own : List String}
    (hown : members.map Prod.fst = own.map jsString) (hdistinct : (members.map Prod.fst).Nodup)
    (hpresent : ∀ text, value = some text → textMember name text ∈ members)
    (habsent : value = none → name ∉ own) : member members name = value.map .string := by
  cases hvalue : value with
  | some text => exact member_of_mem hdistinct (hpresent text hvalue)
  | none =>
    refine InsertionMap.get?_of_not_mem ?_
    rw [hown, List.mem_map_of_injective jsString_injective]
    exact habsent hvalue

theorem requiredText_of_member
    {text : JsString} {check : JsString → Bool} (h : member members name = some (.string text))
    (hcheck : check text = true) : requiredText members name check = some text := by
  rw [requiredText, h]
  exact if_pos hcheck

theorem optionalText_of_member
    {check : JsString → Bool}
    (h : member members name = value.map .string) (hcheck : ∀ text ∈ value, check text = true) :
    optionalText members name check = some value := by
  rw [optionalText, h]
  cases value with
  | none => rfl
  | some text => exact if_pos (hcheck text rfl)

theorem requiredInteger_of_member
    {number least most : Nat} (hsafe : number < 2 ^ 53)
    (h : member members name = some (.number (.finite (doubleOfNat number hsafe))))
    (hrange : least ≤ number ∧ number ≤ most) :
    requiredInteger members name least most = some number := by
  simp only [requiredInteger, h, naturalOf_doubleOfNat, Option.filter_some, hrange, and_self,
    decide_true, if_true]

theorem requiredName_of_member {α : Type}
    {names : Names α} {name text : String} {value : α}
    (h : member members name = some (.string (jsString text)))
    (hname : readName names (jsString text) = some value) :
    requiredName members names name = some value := by
  rw [requiredName, requiredText_of_member h rfl, Option.bind_some, hname]

theorem stepOfNumber_stepNumber (step : CleanupStep) : stepOfNumber (stepNumber step) = some step := by
  cases step <;> decide

theorem readName_text {α : Type} [DecidableEq α] {name : α → String} {values : List α}
    (hdistinct : (values.map name).Nodup) {value : α} (h : value ∈ values) :
    readName (namesOf name values) (jsString (name value)) = some value := by
  unfold readName namesOf
  rw [List.find?_map, Option.map_map]
  induction values with
  | nil => cases h
  | cons first rest ih =>
    rw [List.map_cons, List.nodup_cons] at hdistinct
    rw [List.find?_cons]
    by_cases heq : name first = name value
    · have hfirst : first = value := by
        rcases List.mem_cons.mp h with hsame | hrest
        · exact hsame.symm
        · exact absurd (heq ▸ List.mem_map_of_mem hrest) hdistinct.1
      simp [Function.comp, hfirst]
    · have hne : jsString (name first) ≠ jsString (name value) :=
        fun hsame => heq (jsString_injective hsame)
      have hrest : value ∈ rest := by
        rcases List.mem_cons.mp h with hsame | hrest
        · exact absurd (congrArg name hsame.symm) heq
        · exact hrest
      simpa [Function.comp, hne] using ih hdistinct.2 hrest

theorem readName_stepStatus (status : StepStatus) :
    readName stepStatusNames (jsString (stepStatusText status)) = some status :=
  readName_text (by decide) (by cases status with
    | started => decide
    | ended status => cases status <;> decide)

theorem readName_cleanupMode (mode : CleanupMode) :
    readName cleanupModeNames (jsString (cleanupModeText mode)) = some mode :=
  readName_text (by decide) (by cases mode <;> decide)

theorem readName_ownershipBasis (basis : OwnershipBasis) :
    readName ownershipBasisNames (jsString (ownershipBasisText basis)) = some basis :=
  readName_text (by decide) (by cases basis with
    | owned basis => cases basis <;> decide
    | ambiguous => decide
    | excludedBaseline => decide)

theorem onlyNamed_of_names {own names : List String}
    (hown : members.map Prod.fst = own.map jsString) (h : ∀ name ∈ own, name ∈ names) :
    onlyNamed members names = true := by
  rw [onlyNamed, List.all_eq_true]
  intro entry hmem
  have hname : entry.1 ∈ own.map jsString := hown ▸ List.mem_map_of_mem hmem
  obtain ⟨name, hname, heq⟩ := List.mem_map.mp hname
  rw [← heq, List.contains_iff_mem]
  exact List.mem_map_of_mem (h name hname)

theorem readReason_reasonDocument {reason : StructuredReason} (h : reason.Valid) :
    readReason (reasonDocument reason) = some reason := by
  have hdistinct := reason_distinct reason
  have hnames : onlyNamed (reasonMembers reason)
      ["code", "subject", "artifact_path", "event_id", "detail"] = true := by
    refine onlyNamed_of_names (reason_names reason) ?_
    cases reason.artifactPath.isSome <;> cases reason.eventId.isSome <;> decide
  have hcode : requiredText (reasonMembers reason) "code" isUpperSnake = some reason.code :=
    requiredText_of_member (member_of_mem hdistinct (by simp [reasonMembers, textMember])) h.code
  have hsubject : requiredText (reasonMembers reason) "subject" (fun text => !text.isEmpty) =
      some reason.subject :=
    requiredText_of_member (member_of_mem hdistinct (by simp [reasonMembers, textMember]))
      (by simpa using h.subject)
  have hdetail : requiredText (reasonMembers reason) "detail" (fun text => !text.isEmpty) =
      some reason.detail :=
    requiredText_of_member (member_of_mem hdistinct (by simp [reasonMembers, textMember]))
      (by simpa using h.detail)
  have hpath : optionalText (reasonMembers reason) "artifact_path" isPackageRelativePath =
      some reason.artifactPath := by
    refine optionalText_of_member (member_optional (reason_names reason) hdistinct ?_ ?_)
      h.artifactPath
    · intro text heq
      simp [reasonMembers, optionalMember, heq]
    · intro heq
      rw [heq]
      cases reason.eventId.isSome <;> decide
  have hevent : optionalText (reasonMembers reason) "event_id" isUuid4 = some reason.eventId := by
    refine optionalText_of_member (member_optional (reason_names reason) hdistinct ?_ ?_) h.eventId
    · intro text heq
      simp [reasonMembers, optionalMember, heq]
    · intro heq
      rw [heq]
      cases reason.artifactPath.isSome <;> decide
  rw [reasonDocument, readReason, hnames, hcode, hsubject, hpath, hevent, hdetail]
  rfl

theorem readReasons_event (h : ∀ reason ∈ body.reasons, reason.Valid) :
    readReasons (eventMembers body envelope) = some body.reasons := by
  have hmember : member (eventMembers body envelope) "reasons" =
      some (.array (body.reasons.map reasonDocument)) :=
    member_of_mem (event_distinct body envelope) (by simp [bodyMembers])
  rw [readReasons, hmember]
  dsimp only
  generalize body.reasons = reasons at h
  induction reasons with
  | nil => rfl
  | cons reason rest ih =>
    rw [List.map_cons, List.mapM_cons, readReason_reasonDocument (h reason List.mem_cons_self),
      ih fun other hmem => h other (List.mem_cons_of_mem _ hmem)]
    rfl

theorem readBody_event (h : body.Recordable) (hreasons : ∀ reason ∈ body.reasons, reason.Valid) :
    readBody (eventMembers body envelope) = some body := by
  have hdistinct := event_distinct body envelope
  have hnames := event_names body envelope
  have hstep : requiredInteger (eventMembers body envelope) "step" 1 12 =
      some (stepNumber body.step) :=
    requiredInteger_of_member (by have := stepNumber_le body.step; omega)
      (member_of_mem hdistinct (by simp [bodyMembers, integerMember])) (stepNumber_le body.step)
  have hstatus : requiredName (eventMembers body envelope) stepStatusNames "step_status" =
      some body.stepStatus :=
    requiredName_of_member (member_of_mem hdistinct (by simp [bodyMembers, textMember]))
      (readName_stepStatus body.stepStatus)
  have hmode : requiredName (eventMembers body envelope) cleanupModeNames "cleanup_mode" =
      some body.cleanupMode :=
    requiredName_of_member (member_of_mem hdistinct (by simp [bodyMembers, textMember]))
      (readName_cleanupMode body.cleanupMode)
  have hinduced : requiredBool (eventMembers body envelope) "cleanup_induced" =
      some body.cleanupInduced := by
    have hmember : member (eventMembers body envelope) "cleanup_induced" =
        some (.bool body.cleanupInduced) :=
      member_of_mem hdistinct (by simp [bodyMembers])
    rw [requiredBool, hmember]
  have haction : requiredText (eventMembers body envelope) "action" isUpperSnake =
      some body.action :=
    requiredText_of_member (member_of_mem hdistinct (by simp [bodyMembers, textMember])) h.action
  have htype : optionalText (eventMembers body envelope) "resource_type"
      (fun text => !text.isEmpty) = some body.resourceType := by
    refine optionalText_of_member (member_optional hnames hdistinct ?_ ?_) ?_
    · intro text heq
      simp [bodyMembers, optionalMember, heq]
    · intro heq
      rw [heq]
      cases body.resourceIdentifier.isSome <;> cases body.ownershipBasis.isSome <;>
        cases envelope.scope.execution.kind <;> decide
    · intro text heq
      simpa using h.resourceType text heq
  have hidentifier : optionalText (eventMembers body envelope) "resource_identifier"
      (fun text => !text.isEmpty) = some body.resourceIdentifier := by
    refine optionalText_of_member (member_optional hnames hdistinct ?_ ?_) ?_
    · intro text heq
      simp [bodyMembers, optionalMember, heq]
    · intro heq
      rw [heq]
      cases body.resourceType.isSome <;> cases body.ownershipBasis.isSome <;>
        cases envelope.scope.execution.kind <;> decide
    · intro text heq
      simpa using h.resourceIdentifier text heq
  have hbasis : optionalName (eventMembers body envelope) ownershipBasisNames "ownership_basis" =
      some body.ownershipBasis := by
    have htext : optionalText (eventMembers body envelope) "ownership_basis" (fun _ => true) =
        some (body.ownershipBasis.map fun basis => jsString (ownershipBasisText basis)) := by
      refine optionalText_of_member (member_optional hnames hdistinct ?_ ?_) fun _ _ => rfl
      · intro text heq
        simp [bodyMembers, optionalMember, heq]
      · intro heq
        rw [Option.map_eq_none_iff.mp heq]
        cases body.resourceType.isSome <;> cases body.resourceIdentifier.isSome <;>
          cases envelope.scope.execution.kind <;> decide
    rw [optionalName, htext]
    cases body.ownershipBasis with
    | none => rfl
    | some basis =>
      simp only [Option.map_some, readName_ownershipBasis]
  simp only [readBody, hstep, Option.bind_some, stepOfNumber_stepNumber, hstatus, hmode, hinduced,
    haction, htype, hidentifier, hbasis, readReasons_event hreasons, guard, Option.bind_eq_bind,
    if_pos h.resource, if_pos h.basis, Option.pure_def]

theorem readIdentity_event :
    readIdentity (eventMembers body envelope) =
      some (executionIdentityFields envelope.scope.execution) := by
  have hdistinct := event_distinct body envelope
  have hnames := event_names body envelope
  have hpresent : textMember (identityKey envelope.scope.execution.kind)
      envelope.scope.execution.id.val ∈ eventMembers body envelope := by
    simp [envelopeMembers]
  -- an id is there under its own key and under no other
  have hread : ∀ kind : ExecutionKind,
      optionalText (eventMembers body envelope) (identityKey kind) isUuid4 =
        some (if kind = envelope.scope.execution.kind then some envelope.scope.execution.id.val
          else none) := by
    intro kind
    refine optionalText_of_member (member_optional hnames hdistinct ?_ ?_) ?_
    · intro text heq
      split at heq
      · rename_i hkind
        rw [hkind, ← Option.some.inj heq]
        exact hpresent
      · cases heq
    · intro heq
      split at heq
      · cases heq
      · rename_i hkind
        revert hkind
        generalize envelope.scope.execution.kind = other
        cases body.resourceType.isSome <;> cases body.resourceIdentifier.isSome <;>
          cases body.ownershipBasis.isSome <;> cases kind <;> cases other <;> decide
    · intro text heq
      split at heq
      · rw [← Option.some.inj heq]
        exact envelope.scope.execution.id.property
      · cases heq
  have hrun := hread .run
  have hprobe := hread .transportProbe
  have hvariant := hread .variantValidation
  simp only [identityKey] at hrun hprobe hvariant
  simp only [readIdentity, hrun, hprobe, hvariant, Option.bind_eq_bind, Option.bind_some,
    executionIdentityFields]
  cases envelope.scope.execution.kind <;> rfl

theorem validateCleanupAction_event (h : body.Recordable)
    (hreasons : ∀ reason ∈ body.reasons, reason.Valid) :
    validateCleanupAction (buildJournalEvent body envelope) =
      some ⟨executionIdentityFields envelope.scope.execution,
        envelope.scope.executionManifestSha256.val, envelope.occurredAt.val, body⟩ := by
  have hdistinct := event_distinct body envelope
  have hnames := event_names body envelope
  have honly : onlyNamed (eventMembers body envelope) recordNames = true := by
    refine onlyNamed_of_names hnames ?_
    cases body.resourceType.isSome <;> cases body.resourceIdentifier.isSome <;>
      cases body.ownershipBasis.isSome <;> cases envelope.scope.execution.kind <;> decide
  have hcausation : causationValid (eventMembers body envelope) = true := by
    have hmember : member (eventMembers body envelope) "causation_event_ids" = none := by
      refine InsertionMap.get?_of_not_mem ?_
      rw [hnames, List.mem_map_of_injective jsString_injective]
      cases body.resourceType.isSome <;> cases body.resourceIdentifier.isSome <;>
        cases body.ownershipBasis.isSome <;> cases envelope.scope.execution.kind <;> decide
    rw [causationValid, hmember]
  have htext : ∀ {name : String} {value : JsString} {check : JsString → Bool},
      textMember name value ∈ eventMembers body envelope → check value = true →
      requiredText (eventMembers body envelope) name check = some value :=
    fun hmem hcheck => requiredText_of_member (member_of_mem hdistinct hmem) hcheck
  have hversion : requiredInteger (eventMembers body envelope) "schema_version" 1 1 = some 1 :=
    requiredInteger_of_member (by decide) (member_of_mem hdistinct
      (by simp [envelopeMembers, integerMember])) (by omega)
  have hsequence : requiredInteger (eventMembers body envelope) "source_sequence" 1
      9007199254740991 = some envelope.sourceSequence := by
    have hvalid : 1 ≤ envelope.sourceSequence ∧ envelope.sourceSequence ≤ 999999999999 :=
      of_decide_eq_true envelope.sequence_valid
    exact requiredInteger_of_member (sequence_lt envelope.sequence_valid) (member_of_mem hdistinct
      (by simp [envelopeMembers, integerMember])) (by omega)
  have htype : requiredText (eventMembers body envelope) "record_type"
      (· == jsString "cleanup_action_recorded") = some (jsString "cleanup_action_recorded") :=
    htext (by simp [envelopeMembers]) (beq_self_eq_true _)
  have hevent := htext (show textMember "event_id" envelope.eventId.val ∈ _ by
    simp [envelopeMembers]) envelope.eventId.property
  have hmanifest := htext (show textMember "execution_manifest_sha256"
    envelope.scope.executionManifestSha256.val ∈ _ by simp [envelopeMembers])
    envelope.scope.executionManifestSha256.property
  have hoccurred := htext (show textMember "occurred_at" envelope.occurredAt.val ∈ _ by
    simp [envelopeMembers]) envelope.occurredAt.property
  have hsource : requiredText (eventMembers body envelope) "source" (· == jsString "cleanup") =
      some (jsString "cleanup") :=
    htext (by simp [envelopeMembers]) (beq_self_eq_true _)
  have hinstance := htext (show textMember "source_instance_id" envelope.sourceInstanceId.val ∈ _ by
    simp [envelopeMembers]) envelope.sourceInstanceId.property
  simp only [buildJournalEvent, validateCleanupAction, guard, if_pos honly, if_pos hcausation,
    hversion, htype, hevent, readIdentity_event, hmanifest, hoccurred, hsource, hinstance,
    hsequence, readBody_event h hreasons, Option.bind_eq_bind, Option.bind_some, Option.pure_def]

end Written

end RefundStudy.ActionJournal
