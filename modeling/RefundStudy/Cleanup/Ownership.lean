/-
  Which discovered resources cleanup owns (`cleanup/resource-names.ts`, `ownership.ts`,
  `ownership-judgement.ts`; BR-RUA-050).
-/
import RefundStudy.Foundation.InsertionMap
import RefundStudy.Record.Text

set_option autoImplicit false

namespace RefundStudy.Cleanup

open Foundation Record

structure StructuredReason where
  code : String
  subject : String
  deriving DecidableEq

/-! ## Resource names -/

/-- `STACK_RESOURCE_TYPE` and the other resource types of resource-types.ts. -/
def stackResourceType : String := "AWS::CloudFormation::Stack"
def functionResourceType : String := "AWS::Lambda::Function"
def eventSourceMappingResourceType : String := "AWS::Lambda::EventSourceMapping"
def queueResourceType : String := "AWS::SQS::Queue"
def tableResourceType : String := "AWS::DynamoDB::Table"
def logGroupResourceType : String := "AWS::Logs::LogGroup"
def durableExecutionResourceType : String := "AWS::Lambda::DurableExecution"
def dlqMessageResourceType : String := "AWS::SQS::Message"
def treatmentItemResourceType : String := "AWS::DynamoDB::TreatmentItem"
def tableStreamResourceType : String := "AWS::DynamoDB::TableStream"

/-- `[^:]*:` at the start of a text, or `[^:]+:` when the field must not be empty. -/
def skipField (nonempty : Bool) (chars : List Char) : Option (List Char) :=
  match chars.dropWhile (· != ':') with
  | [] => none
  | _ :: rest => if nonempty && chars.head? == some ':' then none else some rest

/-- What follows `arn:<partition>:<service>:<region>:<account>:`. -/
def arnResource (service : String) (chars : List Char) : Option (List Char) := do
  let rest ← chars.dropPrefix? "arn:".toList
  let rest ← skipField true rest
  let rest ← rest.dropPrefix? (service ++ ":").toList
  let rest ← skipField false rest
  skipField false rest

/-- A name that is not empty and holds none of the separators. -/
def wholeName (separators : List Char) (chars : List Char) : Option (List Char) :=
  if chars.isEmpty || chars.any separators.contains then none else some chars

/-- `STACK_ARN_PATTERN`. -/
def stackArnName (chars : List Char) : Option (List Char) := do
  let rest ← arnResource "cloudformation" chars
  let rest ← rest.dropPrefix? "stack/".toList
  match rest.splitOn '/' with
  | [name, guid] => if name.isEmpty || guid.isEmpty then none else some name
  | _ => none

/-- `QUEUE_URL_PATTERN`. -/
def queueUrlName (chars : List Char) : Option (List Char) := do
  let rest ← chars.dropPrefix? "https://".toList
  match rest.splitOn '/' with
  | [host, account, name] =>
    if host.isEmpty || account.isEmpty || name.isEmpty then none else some name
  | _ => none

/-- `QUEUE_ARN_PATTERN`. -/
def queueArnName (chars : List Char) : Option (List Char) := do
  wholeName [':', '/'] (← arnResource "sqs" chars)

/-- `FUNCTION_ARN_PATTERN`: only an unqualified one. -/
def functionArnName (chars : List Char) : Option (List Char) := do
  let rest ← arnResource "lambda" chars
  wholeName [':'] (← rest.dropPrefix? "function:".toList)

/-- `EVENT_SOURCE_MAPPING_ARN_PATTERN`. -/
def eventSourceMappingArnName (chars : List Char) : Option (List Char) := do
  let rest ← arnResource "lambda" chars
  wholeName [':'] (← rest.dropPrefix? "event-source-mapping:".toList)

/-- `TABLE_ARN_PATTERN`. -/
def tableArnName (chars : List Char) : Option (List Char) := do
  let rest ← arnResource "dynamodb" chars
  wholeName ['/'] (← rest.dropPrefix? "table/".toList)

/-- `TABLE_STREAM_ARN_PATTERN`: a stream is named by its table. -/
def tableStreamArnName (chars : List Char) : Option (List Char) := do
  let rest ← arnResource "dynamodb" chars
  let rest ← rest.dropPrefix? "table/".toList
  match rest.splitOn '/' with
  | [name, stream, label] =>
    if name.isEmpty || stream != "stream".toList || label.isEmpty then none else some name
  | _ => none

/-- `LOG_GROUP_ARN_PATTERN`: with or without the `:*` a listing appends. -/
def logGroupArnName (chars : List Char) : Option (List Char) := do
  let rest ← arnResource "logs" chars
  let rest ← rest.dropPrefix? "log-group:".toList
  match rest.splitOn ':' with
  | [name] => if name.isEmpty then none else some name
  | [name, star] => if name.isEmpty || star != ['*'] then none else some name
  | _ => none

def namePatterns (resourceType : String) : List (List Char → Option (List Char)) :=
  if resourceType = stackResourceType then [stackArnName]
  else if resourceType = queueResourceType then [queueUrlName, queueArnName]
  else if resourceType = functionResourceType then [functionArnName]
  else if resourceType = eventSourceMappingResourceType then [eventSourceMappingArnName]
  else if resourceType = tableResourceType then [tableArnName]
  else if resourceType = tableStreamResourceType then [tableStreamArnName]
  else if resourceType = logGroupResourceType then [logGroupArnName]
  else []

/-- The first pattern that matches names the resource. -/
def canonicalResourceName (resourceType identifier : String) : String :=
  match (namePatterns resourceType).findSome? (· identifier.toList) with
  | some name => String.ofList name
  | none => identifier

/-! ## Sightings and the ownership context -/

inductive LeakAuditSurface where
  | tagIndex
  | stack
  | stackResources
  | functions
  | eventSourceMappings
  | durableExecutions
  | queues
  | tables
  | logGroups
  | roles
  deriving DecidableEq

def leakAuditSurfaces : List LeakAuditSurface :=
  [.tagIndex, .stack, .stackResources, .functions, .eventSourceMappings, .durableExecutions,
    .queues, .tables, .logGroups, .roles]

structure ResourceTag where
  key : String
  value : String
  deriving DecidableEq

inductive TagObservation where
  | tagged (tags : List ResourceTag)
  | untaggable
  | unknown (reason : StructuredReason)
  deriving DecidableEq

structure DiscoveredResource where
  resourceType : String
  identifier : String
  surface : LeakAuditSurface
  tags : TagObservation
  createdAt : Option UtcMillis := none
  managedByStackId : Option String := none

def resourceKey (resourceType identifier : String) : String :=
  resourceType ++ "|" ++ canonicalResourceName resourceType identifier

/-- The `resourceKey` of a sighting. -/
def DiscoveredResource.key (resource : DiscoveredResource) : String :=
  resourceKey resource.resourceType resource.identifier

inductive ProvisioningStatus where
  | succeeded
  | partly
  | failed
  deriving DecidableEq

structure BaselineExclusions where
  names : List String
  namePrefixes : List String

structure OwnershipContext where
  executionId : String
  studyId : String
  runTags : List ResourceTag
  recordedStackId : Option String
  provisioningStatus : ProvisioningStatus
  manifestMembers : List String
  executionManifestFrozenAt : UtcMillis
  expectedResourceTypes : List String
  deterministicNamePrefixes : List String
  deterministicNames : List String
  baseline : BaselineExclusions

/-- `RUN_ID_TAG`. -/
def runIdTag : String := "suc:run_id"

/-- `STUDY_ID_TAG`. -/
def studyIdTag : String := "suc:study_id"

/-! ## One sighting -/

/-- `OWNED_BASES`. -/
inductive OwnedBasis where
  | recordedStack
  | resourceManifestAndTags
  | tagsNameTypeCreatedAfterFreeze
  deriving DecidableEq

/-- `ambiguous` has at least one reason. -/
inductive OwnershipDecision where
  | owned (basis : OwnedBasis)
  | ambiguous (first : StructuredReason) (others : List StructuredReason)
  | excludedBaseline
  deriving DecidableEq

/-- Membership in `DIRECTLY_DELETABLE_BASES`. -/
def isDirectlyDeletable : OwnedBasis → Bool
  | .resourceManifestAndTags | .tagsNameTypeCreatedAfterFreeze => true
  | .recordedStack => false

def startsWith (text start : String) : Bool := start.toList.isPrefixOf text.toList

section Sighting

variable (resource : DiscoveredResource) (context : OwnershipContext)

def isBaseline : Bool :=
  let name := canonicalResourceName resource.resourceType resource.identifier
  context.baseline.names.contains name || context.baseline.namePrefixes.any (startsWith name)

/-- `isRecordedStack` of ownership.ts. -/
def isRecordedStack (resourceType identifier : String) (stackId : Option String) : Bool :=
  resourceType == stackResourceType && stackId == some identifier

def isManagedByRecordedStack (member : Bool) : Bool :=
  match context.recordedStackId with
  | none => false
  | some stackId =>
    resource.managedByStackId == some stackId || (member && resource.tags == .untaggable)

def singleTagValue (key : String) : Option String :=
  match resource.tags with
  | .tagged tags =>
    match tags.filter (·.key == key) with
    | [tag] => some tag.value
    | _ => none
  | .untaggable | .unknown _ => none

def carriesRunSpecificTags : Bool :=
  singleTagValue resource runIdTag == some context.executionId &&
    singleTagValue resource studyIdTag == some context.studyId

def ownershipReason (code : String) : StructuredReason := ⟨code, "BR-RUA-050"⟩

def hasExpectedTypeOrName : Bool :=
  let name := canonicalResourceName resource.resourceType resource.identifier
  context.expectedResourceTypes.contains resource.resourceType ||
    context.deterministicNames.contains name ||
    context.deterministicNamePrefixes.any (startsWith name)

def creationFailure : Option StructuredReason :=
  match resource.createdAt with
  | none => some (ownershipReason "CREATION_TIME_UNKNOWN")
  | some createdAt =>
    if context.executionManifestFrozenAt < createdAt then none
    else some (ownershipReason "CREATED_BEFORE_MANIFEST_FREEZE")

/-- Every failed condition of the partial-manifest rule, in rule order. -/
def unrecordedOwnershipFailures : List StructuredReason :=
  (if context.provisioningStatus = .succeeded then [ownershipReason "NOT_IN_COMPLETE_MANIFEST"]
    else []) ++
  (if context.runTags.all fun tag => singleTagValue resource tag.key == some tag.value then []
    else [ownershipReason "RUN_TAGS_NOT_PROVEN"]) ++
  (if hasExpectedTypeOrName resource context then []
    else [ownershipReason "UNEXPECTED_TYPE_AND_NAME"]) ++
  (creationFailure resource context).toList

def decideManifestMember : OwnershipDecision :=
  if carriesRunSpecificTags resource context then .owned .resourceManifestAndTags
  else if isManagedByRecordedStack resource context true then .owned .recordedStack
  else .ambiguous (ownershipReason "RUN_TAGS_NOT_PROVEN") []

def proveOwnership : OwnershipDecision :=
  if isBaseline resource context then .excludedBaseline
  else if isRecordedStack resource.resourceType resource.identifier context.recordedStackId then
    .owned .recordedStack
  else if context.manifestMembers.contains resource.key then decideManifestMember resource context
  else
    match unrecordedOwnershipFailures resource context with
    | [] => .owned .tagsNameTypeCreatedAfterFreeze
    | first :: others =>
      if isManagedByRecordedStack resource context false then .owned .recordedStack
      else .ambiguous first others

end Sighting

/-! ## All sightings of one resource -/

structure JudgedResource where
  resource : DiscoveredResource
  decision : OwnershipDecision

def evidenceRank : OwnershipDecision → Nat
  | .excludedBaseline => 0
  | .owned basis => if isDirectlyDeletable basis then 1 else 2
  | .ambiguous _ _ => 3

def judge (context : OwnershipContext) (resource : DiscoveredResource) : JudgedResource :=
  ⟨resource, proveOwnership resource context⟩

/-- What one sighting does to the map: it is kept when it is the first of its key or ranks
strictly before the one kept so far. -/
def judgeSighting (context : OwnershipContext) (judged : InsertionMap String JudgedResource)
    (resource : DiscoveredResource) : InsertionMap String JudgedResource :=
  let candidate := judge context resource
  match judged.get? resource.key with
  | none => judged.set resource.key candidate
  | some kept =>
    if evidenceRank candidate.decision < evidenceRank kept.decision then
      judged.set resource.key candidate
    else judged

def judgeOwnership (resources : List DiscoveredResource) (context : OwnershipContext) :
    InsertionMap String JudgedResource :=
  resources.foldl (judgeSighting context) []

/-- `OWNERSHIP_BASES`: how the journal names a decision. -/
inductive OwnershipBasis where
  | owned (basis : OwnedBasis)
  | ambiguous
  | excludedBaseline
  deriving DecidableEq

def OwnershipDecision.recordedBasis : OwnershipDecision → OwnershipBasis
  | .owned basis => .owned basis
  | .ambiguous _ _ => .ambiguous
  | .excludedBaseline => .excludedBaseline

/-! ## What a decision to delete rests on -/

section Evidence

variable {resource : DiscoveredResource} {context : OwnershipContext}

/-- Exactly one tag of the sighting has this key, and it has this value. -/
def CarriesOnce (resource : DiscoveredResource) (key value : String) : Prop :=
  ∃ tags, resource.tags = .tagged tags ∧ tags.filter (·.key == key) = [⟨key, value⟩]

theorem singleTagValue_eq_some {key value : String} :
    singleTagValue resource key = some value ↔ CarriesOnce resource key value := by
  unfold singleTagValue CarriesOnce
  constructor
  · intro h
    split at h
    · rename_i tags htags
      split at h
      · rename_i tag hfilter
        have hkey : tag.key = key := by
          have hmem : tag ∈ tags.filter (·.key == key) := by rw [hfilter]; simp
          simpa using (List.mem_filter.mp hmem).2
        obtain ⟨tagKey, tagValue⟩ := tag
        obtain rfl : tagKey = key := hkey
        obtain rfl := Option.some.inj h
        exact ⟨tags, htags, hfilter⟩
      · cases h
    · cases h
    · cases h
  · rintro ⟨tags, htags, hfilter⟩
    rw [htags]
    simp only [hfilter]

/-- Rule 3: a member of the resource manifest with the run-specific tags. -/
def ManifestOwned (resource : DiscoveredResource) (context : OwnershipContext) : Prop :=
  resource.key ∈ context.manifestMembers ∧ CarriesOnce resource runIdTag context.executionId ∧
    CarriesOnce resource studyIdTag context.studyId

def ExpectedType (resource : DiscoveredResource) (context : OwnershipContext) : Prop :=
  resource.resourceType ∈ context.expectedResourceTypes

/-- The resource has a deterministic name, or one with a deterministic start. -/
def ExpectedName (resource : DiscoveredResource) (context : OwnershipContext) : Prop :=
  canonicalResourceName resource.resourceType resource.identifier ∈ context.deterministicNames ∨
    ∃ start ∈ context.deterministicNamePrefixes,
      startsWith (canonicalResourceName resource.resourceType resource.identifier) start = true

/-- Rule 4: every condition on a resource that a partial manifest does not name. -/
structure PartialManifestOwned (resource : DiscoveredResource) (context : OwnershipContext) :
    Prop where
  incomplete : context.provisioningStatus ≠ .succeeded
  runTags : ∀ tag ∈ context.runTags, CarriesOnce resource tag.key tag.value
  expected : ExpectedType resource context ∨ ExpectedName resource context
  created : ∃ createdAt, resource.createdAt = some createdAt ∧
    context.executionManifestFrozenAt < createdAt

theorem hasExpectedTypeOrName_iff : hasExpectedTypeOrName resource context = true ↔
    ExpectedType resource context ∨ ExpectedName resource context := by
  simp [hasExpectedTypeOrName, ExpectedType, ExpectedName, or_assoc]

theorem unrecordedOwnershipFailures_nil
    (h : unrecordedOwnershipFailures resource context = []) :
    PartialManifestOwned resource context := by
  unfold unrecordedOwnershipFailures at h
  simp only [List.append_eq_nil_iff] at h
  obtain ⟨⟨⟨hstatus, htags⟩, hexpected⟩, hcreated⟩ := h
  refine ⟨?_, ?_, ?_, ?_⟩
  · intro hsucceeded
    rw [if_pos hsucceeded] at hstatus
    cases hstatus
  · split at htags
    · rename_i hall
      intro tag htag
      have htagged := List.all_eq_true.mp hall tag htag
      exact singleTagValue_eq_some.mp (by simpa using htagged)
    · cases htags
  · split at hexpected
    · rename_i hhas
      exact hasExpectedTypeOrName_iff.mp hhas
    · cases hexpected
  · unfold creationFailure at hcreated
    cases hat : resource.createdAt with
    | none => simp [hat] at hcreated
    | some createdAt =>
      simp only [hat] at hcreated
      split at hcreated
      · rename_i hlt
        exact ⟨createdAt, rfl, hlt⟩
      · cases hcreated

/-- A basis that allows direct deletion rests on rule 3 or rule 4, and never on a baseline
resource or on the recorded stack. -/
theorem deletable_evidence {basis : OwnedBasis}
    (h : proveOwnership resource context = .owned basis)
    (hdelete : isDirectlyDeletable basis = true) :
    isBaseline resource context = false ∧
    isRecordedStack resource.resourceType resource.identifier context.recordedStackId = false ∧
    ((basis = .resourceManifestAndTags ∧ ManifestOwned resource context) ∨
      (basis = .tagsNameTypeCreatedAfterFreeze ∧ PartialManifestOwned resource context)) := by
  unfold proveOwnership at h
  split at h
  · cases h
  · rename_i hbaseline
    split at h
    · obtain rfl := OwnershipDecision.owned.inj h
      cases hdelete
    · rename_i hstack
      refine ⟨by simpa using hbaseline, by simpa using hstack, ?_⟩
      split at h
      · rename_i hmember
        unfold decideManifestMember at h
        split at h
        · rename_i htags
          obtain rfl := OwnershipDecision.owned.inj h
          simp only [carriesRunSpecificTags, Bool.and_eq_true, beq_iff_eq] at htags
          exact .inl ⟨rfl, by simpa using hmember, singleTagValue_eq_some.mp htags.1,
            singleTagValue_eq_some.mp htags.2⟩
        · split at h
          · obtain rfl := OwnershipDecision.owned.inj h
            cases hdelete
          · cases h
      · split at h
        · rename_i hnone
          obtain rfl := OwnershipDecision.owned.inj h
          exact .inr ⟨rfl, unrecordedOwnershipFailures_nil hnone⟩
        · split at h
          · obtain rfl := OwnershipDecision.owned.inj h
            cases hdelete
          · cases h

/-- The basis that goes with a rank, for a resource that the manifest names or does not. -/
def basisOfRank (member : Bool) : Nat → OwnershipBasis
  | 0 => .excludedBaseline
  | 1 => .owned (if member then .resourceManifestAndTags else .tagsNameTypeCreatedAfterFreeze)
  | 2 => .owned .recordedStack
  | _ => .ambiguous

theorem recordedBasis_eq : (proveOwnership resource context).recordedBasis =
    basisOfRank (context.manifestMembers.contains resource.key)
      (evidenceRank (proveOwnership resource context)) := by
  unfold proveOwnership
  split
  · rfl
  · split
    · rfl
    · split
      · rename_i hmember
        rw [hmember]
        unfold decideManifestMember
        split
        · rfl
        · split <;> rfl
      · rename_i hmember
        simp only [Bool.not_eq_true] at hmember
        rw [hmember]
        split
        · rfl
        · split <;> rfl

end Evidence

/-! ## The merge -/

section Merge

variable {context : OwnershipContext}

def keepBetter (context : OwnershipContext) (kept : Option JudgedResource)
    (resource : DiscoveredResource) : Option JudgedResource :=
  match kept with
  | none => some (judge context resource)
  | some kept =>
    if evidenceRank (judge context resource).decision < evidenceRank kept.decision then
      some (judge context resource)
    else some kept

theorem judgeSighting_get? (judged : InsertionMap String JudgedResource)
    (resource : DiscoveredResource) (key : String) :
    (judgeSighting context judged resource).get? key =
      if resource.key = key then keepBetter context (judged.get? key) resource
      else judged.get? key := by
  unfold judgeSighting
  by_cases hkey : resource.key = key
  · subst hkey
    rw [if_pos rfl]
    cases hkept : judged.get? resource.key with
    | none => simp [keepBetter]
    | some kept =>
      simp only [keepBetter]
      split
      · simp
      · exact hkept
  · rw [if_neg hkey]
    have hne : key ≠ resource.key := fun heq => hkey heq.symm
    dsimp only
    split
    · exact InsertionMap.get?_set_of_ne _ hne _
    · split
      · exact InsertionMap.get?_set_of_ne _ hne _
      · rfl

theorem foldl_judgeSighting_get? (resources : List DiscoveredResource)
    (judged : InsertionMap String JudgedResource) (key : String) :
    (resources.foldl (judgeSighting context) judged).get? key =
      (resources.filter (·.key = key)).foldl (keepBetter context) (judged.get? key) := by
  induction resources generalizing judged with
  | nil => rfl
  | cons resource rest ih =>
    rw [List.foldl_cons, ih, judgeSighting_get?]
    by_cases hkey : resource.key = key <;> simp [hkey]

theorem foldl_keepBetter {sightings : List DiscoveredResource} {start : Option JudgedResource}
    {kept : JudgedResource} (h : sightings.foldl (keepBetter context) start = some kept) :
    (start = some kept ∨ ∃ resource ∈ sightings, kept = judge context resource) ∧
    (∀ earlier, start = some earlier → evidenceRank kept.decision ≤ evidenceRank earlier.decision) ∧
    ∀ resource ∈ sightings,
      evidenceRank kept.decision ≤ evidenceRank (proveOwnership resource context) := by
  induction sightings generalizing start with
  | nil =>
    have hstart : start = some kept := h
    refine ⟨.inl hstart, fun earlier hearlier => ?_, fun _ hmem => by cases hmem⟩
    obtain rfl := Option.some.inj (hstart.symm.trans hearlier)
    exact Nat.le_refl _
  | cons resource rest ih =>
    rw [List.foldl_cons] at h
    obtain ⟨hfrom, hstart, hrest⟩ := ih h
    have hnext : ∃ next, keepBetter context start resource = some next ∧
        (start = some next ∨ next = judge context resource) ∧
        (∀ earlier, start = some earlier →
          evidenceRank next.decision ≤ evidenceRank earlier.decision) ∧
        evidenceRank next.decision ≤ evidenceRank (proveOwnership resource context) := by
      cases start with
      | none =>
        refine ⟨judge context resource, rfl, .inr rfl, fun other hother => ?_, le_rfl⟩
        cases hother
      | some earlier =>
        simp only [keepBetter]
        split
        · rename_i hlt
          refine ⟨_, rfl, .inr rfl, fun other hother => ?_, Nat.le_refl _⟩
          obtain rfl := Option.some.inj hother
          exact Nat.le_of_lt hlt
        · rename_i hge
          refine ⟨_, rfl, .inl rfl, fun other hother => ?_, Nat.le_of_not_lt hge⟩
          obtain rfl := Option.some.inj hother
          exact Nat.le_refl _
    obtain ⟨next, hkeep, hwhere, hbefore, hhere⟩ := hnext
    have hle := hstart next hkeep
    refine ⟨?_, fun earlier hearlier => Nat.le_trans hle (hbefore earlier hearlier), ?_⟩
    · rcases hfrom with hfrom | ⟨other, hmem, rfl⟩
      · obtain rfl := Option.some.inj (hkeep.symm.trans hfrom)
        rcases hwhere with hwhere | rfl
        · exact .inl hwhere
        · exact .inr ⟨resource, List.mem_cons_self, rfl⟩
      · exact .inr ⟨other, List.mem_cons_of_mem _ hmem, rfl⟩
    · intro other hmem
      rcases List.mem_cons.mp hmem with rfl | hmem
      · exact Nat.le_trans hle hhere
      · exact hrest other hmem

theorem foldl_keepBetter_isSome {sightings : List DiscoveredResource}
    {start : Option JudgedResource} : (sightings.foldl (keepBetter context) start).isSome =
      (start.isSome || !sightings.isEmpty) := by
  induction sightings generalizing start with
  | nil => simp
  | cons resource rest ih =>
    rw [List.foldl_cons, ih]
    have hkeep : (keepBetter context start resource).isSome = true := by
      unfold keepBetter
      split
      · rfl
      · split <;> rfl
    simp [hkeep]

/-- What the map holds for a key is a sighting with that key, and no sighting with that key
ranks before it. -/
theorem judgeOwnership_get? {resources : List DiscoveredResource} {key : String}
    {kept : JudgedResource} (h : (judgeOwnership resources context).get? key = some kept) :
    kept.resource ∈ resources ∧ kept.resource.key = key ∧
    kept.decision = proveOwnership kept.resource context ∧
    ∀ resource ∈ resources, resource.key = key →
      evidenceRank kept.decision ≤ evidenceRank (proveOwnership resource context) := by
  unfold judgeOwnership at h
  rw [foldl_judgeSighting_get?] at h
  obtain ⟨hfrom, -, hall⟩ := foldl_keepBetter h
  rcases hfrom with hfrom | ⟨resource, hmem, rfl⟩
  · cases hfrom
  · obtain ⟨hin, hkey⟩ := List.mem_filter.mp hmem
    refine ⟨hin, by simpa [judge] using hkey, rfl, fun other hother hsame => ?_⟩
    exact hall other (List.mem_filter.mpr ⟨hother, by simpa using hsame⟩)

theorem judgeOwnership_nodup (resources : List DiscoveredResource) :
    ((judgeOwnership resources context).map Prod.fst).Nodup := by
  unfold judgeOwnership
  have hstep : ∀ (rest : List DiscoveredResource) (judged : InsertionMap String JudgedResource),
      (judged.map Prod.fst).Nodup →
      ((rest.foldl (judgeSighting context) judged).map Prod.fst).Nodup := by
    intro rest
    induction rest with
    | nil => exact fun _ h => h
    | cons resource rest ih =>
      intro judged h
      refine ih _ ?_
      unfold judgeSighting
      dsimp only
      split
      · exact InsertionMap.nodup_set h _ _
      · split
        · exact InsertionMap.nodup_set h _ _
        · exact h
  exact hstep resources [] List.nodup_nil

/-- The basis recorded for a resource does not depend on the order of its sightings. -/
theorem judgeOwnership_perm {resources others : List DiscoveredResource}
    (hperm : resources.Perm others) (key : String) :
    ((judgeOwnership resources context).get? key).map (·.decision.recordedBasis) =
      ((judgeOwnership others context).get? key).map (·.decision.recordedBasis) := by
  have hsome : ((judgeOwnership resources context).get? key).isSome =
      ((judgeOwnership others context).get? key).isSome := by
    unfold judgeOwnership
    rw [foldl_judgeSighting_get?, foldl_judgeSighting_get?, foldl_keepBetter_isSome,
      foldl_keepBetter_isSome]
    have hfilter := hperm.filter (·.key = key)
    congr 2
    exact Bool.eq_iff_iff.mpr (by
      rw [List.isEmpty_iff, List.isEmpty_iff]
      exact ⟨fun h => by rw [h] at hfilter; exact hfilter.symm.eq_nil,
        fun h => by rw [h] at hfilter; exact hfilter.eq_nil⟩)
  cases hleft : (judgeOwnership resources context).get? key with
  | none =>
    rw [hleft] at hsome
    rw [Option.isSome_eq_false_iff.mp hsome.symm |> Option.isNone_iff_eq_none.mp]
  | some left =>
    cases hright : (judgeOwnership others context).get? key with
    | none =>
      rw [hleft, hright] at hsome
      cases hsome
    | some right =>
      obtain ⟨hmemL, hkeyL, hdecL, hminL⟩ := judgeOwnership_get? hleft
      obtain ⟨hmemR, hkeyR, hdecR, hminR⟩ := judgeOwnership_get? hright
      have hle := hminL right.resource (hperm.mem_iff.mpr hmemR) hkeyR
      have hge := hminR left.resource (hperm.mem_iff.mp hmemL) hkeyL
      rw [← hdecR] at hle
      rw [← hdecL] at hge
      have hrank := Nat.le_antisymm hle hge
      rw [Option.map_some, Option.map_some, hdecL, hdecR, recordedBasis_eq, recordedBasis_eq,
        hkeyL, hkeyR, ← hdecL, ← hdecR, hrank]

end Merge

end RefundStudy.Cleanup
