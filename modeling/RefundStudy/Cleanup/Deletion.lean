/-
  Step 9: the recorded stack, then every remaining resource cleanup may delete itself
  (`cleanup/owned-resource-deletion.ts`, `surface-sweep.ts`; BR-RUA-048, BR-RUA-050).
-/
import RefundStudy.Cleanup.Ports

set_option autoImplicit false

namespace RefundStudy.Cleanup

open Foundation Record

variable {ownership : OwnershipContext} {resource : DiscoveredResource} {stackId : String}

/-! ## The recorded stack -/

/-- `STACK_DELETE_POLL_INTERVAL_MS`. -/
def stackDeletePollIntervalMs : Nat := 15000

def stackDeleteMaxPolls : Nat := 240

inductive StackDeletion where
  | deleted
  | alreadyAbsent
  | deleteFailed (reason : StructuredReason)

/-- What a read says while the stack is still there at the last poll, or `none` before it. -/
def stackStillThere (stackId : String) (poll : Nat) : Option StackDeletion :=
  if poll < stackDeleteMaxPolls then none
  else some (.deleteFailed ⟨"STACK_DELETE_TIMED_OUT", stackId⟩)

def stackPollOutcome (stackId : String) (read : StackRead) (poll : Nat) : Option StackDeletion :=
  match read with
  | .absent => some .deleted
  | .present status =>
    if status = "DELETE_COMPLETE" then some .deleted
    else if status = "DELETE_FAILED" then
      some (.deleteFailed ⟨"STACK_DELETE_FAILED", stackId⟩)
    else stackStillThere stackId poll
  | .failed _ => stackStillThere stackId poll

def isGone : StackRead → Bool
  | .absent => true
  | .present status => status = "DELETE_COMPLETE"
  | .failed _ => false

/-- One sleep and one read of `awaitStackDeletion`. -/
def pollStack (stackId : String) (poll : Nat) : CleanupM (Option StackDeletion) := do
  let _ ← callPort (.sleep stackDeletePollIntervalMs)
  let read ← callPort (.describe stackId)
  return stackPollOutcome stackId read poll

/-- `awaitStackDeletion` with `remaining` polls after this one; the last poll always settles. -/
def awaitStackDeletion (stackId : String) : Nat → CleanupM StackDeletion
  | 0 => do
    let settled ← pollStack stackId stackDeleteMaxPolls
    return settled.getD (.deleteFailed ⟨"STACK_DELETE_TIMED_OUT", stackId⟩)
  | remaining + 1 => do
    match ← pollStack stackId (stackDeleteMaxPolls - (remaining + 1)) with
    | some settled => return settled
    | none => awaitStackDeletion stackId remaining

def deleteStackAndWait (stackId : String) : CleanupM StackDeletion := do
  if isGone (← callPort (.describe stackId)) then
    return .alreadyAbsent
  else
    let request : Option StructuredReason ← callPort (.requestDelete stackId)
    match request with
    | some reason => return .deleteFailed reason
    | none => awaitStackDeletion stackId (stackDeleteMaxPolls - 1)

/-- What `record` is called with for one resource. -/
def resourceItem (resourceType identifier : String) (basis : OwnershipBasis)
    (action : CleanupResourceAction) (reasons : List StructuredReason) : ItemAction :=
  { action := .resource action
    resourceType := resourceType
    resourceIdentifier := identifier
    ownershipBasis := some basis
    reasons := reasons }

def deleteRecordedStack (stackId : String) (record : ItemAction → CleanupM Unit) :
    CleanupM (List StructuredReason) := do
  let item := resourceItem stackResourceType stackId (.owned .recordedStack)
  match ← deleteStackAndWait stackId with
  | .deleteFailed reason =>
    record (item .deleteFailed [reason])
    return [reason]
  | .deleted =>
    record (item .deleted [])
    return []
  | .alreadyAbsent =>
    record (item .alreadyAbsent [])
    return []

/-! ## The sweep -/

structure SurfaceSighting where
  surface : LeakAuditSurface
  queryOk : Bool
  resources : List DiscoveredResource
  reasons : List StructuredReason

/-- What a presence check keeps of one resource of the tag index, and the reason it failed. -/
def confirmResource (resource : DiscoveredResource) :
    CleanupM (List (Except StructuredReason DiscoveredResource)) := do
  let answer : Except Thrown PresenceCheck ← askPort (.confirmPresence resource)
  match answer with
  | .ok .present => return [.ok resource]
  | .ok .absent => return []
  | .ok (.failed reason) => return [.error reason]
  | .error _ => return [.error ⟨"PRESENCE_CHECK_THREW", resource.identifier⟩]

def confirmedOf (checks : List (Except StructuredReason DiscoveredResource)) :
    List DiscoveredResource :=
  checks.flatMap fun
    | .ok resource => [resource]
    | .error _ => []

def failuresOf (checks : List (Except StructuredReason DiscoveredResource)) :
    List StructuredReason :=
  checks.flatMap fun
    | .ok _ => []
    | .error reason => [reason]

/-- The name of a surface, as a reason's subject. -/
def LeakAuditSurface.text : LeakAuditSurface → String
  | .tagIndex => "tag_index"
  | .stack => "stack"
  | .stackResources => "stack_resources"
  | .functions => "functions"
  | .eventSourceMappings => "event_source_mappings"
  | .durableExecutions => "durable_executions"
  | .queues => "queues"
  | .tables => "tables"
  | .logGroups => "log_groups"
  | .roles => "roles"

/-- The tag index alone is confirmed resource by resource. -/
def sightSurface (surface : LeakAuditSurface) : CleanupM (List SurfaceSighting) := do
  let answer : Except Thrown (Except StructuredReason (List DiscoveredResource)) ←
    askPort (.query surface)
  match answer with
  | .error _ => return [⟨surface, false, [], [⟨"SURFACE_QUERY_THREW", surface.text⟩]⟩]
  | .ok (.error reason) => return [⟨surface, false, [], [reason]⟩]
  | .ok (.ok resources) =>
    if surface = .tagIndex then
      let checks ← collect confirmResource resources
      return [⟨surface, (failuresOf checks).isEmpty, confirmedOf checks, failuresOf checks⟩]
    else
      return [⟨surface, true, resources, []⟩]

def sweepSurfaces : CleanupM (List SurfaceSighting) := collect sightSurface leakAuditSurfaces

/-! ## The remaining resources -/

def settleRemainingResource (entry : JudgedResource) (record : ItemAction → CleanupM Unit) :
    CleanupM (List StructuredReason) := do
  let item := resourceItem entry.resource.resourceType entry.resource.identifier
  match entry.decision with
  | .excludedBaseline =>
    record (item .excludedBaseline .excludedBaseline [])
    return []
  | .ambiguous first others =>
    record (item .ambiguous .skippedAmbiguous (first :: others))
    return []
  | .owned basis =>
    if isDirectlyDeletable basis then
      let deletion : ResourceDeletion ← callPort (.delete entry.resource)
      match deletion with
      | .failed reason =>
        record (item (.owned basis) .deleteFailed [reason])
        return [reason]
      | .deleted =>
        record (item (.owned basis) .deleted [])
        return []
      | .alreadyAbsent =>
        record (item (.owned basis) .alreadyAbsent [])
        return []
    else
      let reason : StructuredReason :=
        ⟨"STACK_BOUNDARY_RESOURCE_REMAINS", entry.resource.identifier⟩
      record (item (.owned basis) .deleteFailed [reason])
      return [reason]

/-- One round of the loop over the judged resources: the recorded stack was settled before. -/
def settleUnlessStack (stackId : Option String) (record : ItemAction → CleanupM Unit)
    (entry : JudgedResource) : CleanupM (List StructuredReason) :=
  if isRecordedStack entry.resource.resourceType entry.resource.identifier stackId then pure []
  else settleRemainingResource entry record

/-- One round of `recordVanishedFailures`. -/
def recordVanished (judged : InsertionMap String JudgedResource) (stackId : Option String)
    (record : ItemAction → CleanupM Unit) (earlier : CleanupResource) :
    CleanupM (List StructuredReason) := do
  if isRecordedStack earlier.resourceType earlier.resourceIdentifier stackId ||
      (judged.get? (resourceKey earlier.resourceType earlier.resourceIdentifier)).isSome then
    return []
  else
    record (resourceItem earlier.resourceType earlier.resourceIdentifier earlier.ownershipBasis
      .alreadyAbsent [])
    return []

def recordVanishedFailures (sightings : List SurfaceSighting)
    (judged : InsertionMap String JudgedResource) (stackId : Option String)
    (earlierFailures : List CleanupResource) (record : ItemAction → CleanupM Unit) :
    CleanupM (List StructuredReason) :=
  if sightings.all (·.queryOk) then collect (recordVanished judged stackId record) earlierFailures
  else pure []

/-- The stack part of `deleteOwnedResources`. -/
def settleStack (stackId : Option String) (record : ItemAction → CleanupM Unit) :
    CleanupM (List StructuredReason) :=
  match stackId with
  | none => pure []
  | some stackId => deleteRecordedStack stackId record

def deleteOwnedResources (ownership : OwnershipContext) (earlierFailures : List CleanupResource)
    (record : ItemAction → CleanupM Unit) : CleanupM StepOutcome := do
  let stackId := ownership.recordedStackId
  let stackFailures ← settleStack stackId record
  let sightings ← sweepSurfaces
  let judged := judgeOwnership (sightings.flatMap (·.resources)) ownership
  let failures ← collect (settleUnlessStack stackId record) judged.values
  let _ ← recordVanishedFailures sightings judged stackId earlierFailures record
  return outcomeFromFailures (stackFailures ++ sightings.flatMap (·.reasons) ++ failures)

/-! ## What a run saw and what it deleted -/

/-- The resources an exchange shows: what a surface other than the tag index lists, and what of
the tag index is confirmed present. -/
def sightedBy : CleanupExchange → List DiscoveredResource
  | ⟨.port (.query surface), .ok (.ok resources)⟩ => if surface = .tagIndex then [] else resources
  | ⟨.port (.confirmPresence resource), .ok .present⟩ => [resource]
  | _ => []

def deletedBy : CleanupExchange → List DiscoveredResource
  | ⟨.port (.delete resource), _⟩ => [resource]
  | _ => []

def stackRequestedBy : CleanupExchange → List String
  | ⟨.port (.requestDelete stackId), _⟩ => [stackId]
  | _ => []

def sightedIn (trace : List CleanupExchange) : List DiscoveredResource := trace.flatMap sightedBy

/-- The resources a run calls `deleter.delete` for. -/
def deletedIn (trace : List CleanupExchange) : List DiscoveredResource := trace.flatMap deletedBy

def stackRequestsIn (trace : List CleanupExchange) : List String := trace.flatMap stackRequestedBy

@[simp] theorem sightedIn_append (front back : List CleanupExchange) :
    sightedIn (front ++ back) = sightedIn front ++ sightedIn back := List.flatMap_append

@[simp] theorem deletedIn_append (front back : List CleanupExchange) :
    deletedIn (front ++ back) = deletedIn front ++ deletedIn back := List.flatMap_append

@[simp] theorem stackRequestsIn_append (front back : List CleanupExchange) :
    stackRequestsIn (front ++ back) = stackRequestsIn front ++ stackRequestsIn back :=
  List.flatMap_append

theorem NoPort.reads_nothing {trace : List CleanupExchange} (h : NoPort trace) :
    sightedIn trace = [] ∧ deletedIn trace = [] ∧ stackRequestsIn trace = [] := by
  have heach : ∀ exchange ∈ trace, sightedBy exchange = [] ∧ deletedBy exchange = [] ∧
      stackRequestedBy exchange = [] := by
    rintro ⟨request, reply⟩ hmem
    cases request with
    | port request => exact absurd rfl (h _ hmem request)
    | append body | now | totalTargetExceeded => exact ⟨rfl, rfl, rfl⟩
  refine ⟨?_, ?_, ?_⟩
  · exact List.flatMap_eq_nil_iff.mpr fun exchange hmem => (heach exchange hmem).1
  · exact List.flatMap_eq_nil_iff.mpr fun exchange hmem => (heach exchange hmem).2.1
  · exact List.flatMap_eq_nil_iff.mpr fun exchange hmem => (heach exchange hmem).2.2

section Specs

variable {mode : CleanupMode} {start : List CleanupActionEntry}

abbrev recordDeletion (mode : CleanupMode) : ItemAction → CleanupM Unit :=
  recordItem mode .ownedResourcesDelete

/-- Nothing seen, nothing deleted, and at most the deletion of this stack requested. -/
def OnlyStack (stackId : Option String) (_ : List CleanupActionEntry)
    (trace : List CleanupExchange) : Prop :=
  sightedIn trace = [] ∧ deletedIn trace = [] ∧ ∀ id ∈ stackRequestsIn trace, stackId = some id

theorem onlyStack_accumulates (stackId : Option String) : Accumulates (OnlyStack stackId) where
  nil := ⟨rfl, rfl, fun _ hmem => by cases hmem⟩
  append := by
    rintro emitted emitted' trace trace' ⟨hs, hd, hr⟩ ⟨hs', hd', hr'⟩
    refine ⟨by simp [hs, hs'], by simp [hd, hd'], ?_⟩
    intro id hmem
    rw [stackRequestsIn_append, List.mem_append] at hmem
    exact hmem.elim (hr id) (hr' id)

theorem recordDeletion_onlyStack {stackId : Option String} (item : ItemAction) :
    KeepsAccount (OnlyStack stackId) (recordDeletion mode item) :=
  KeepsAccount.recordAction fun _ _ hquiet => by
    obtain ⟨hs, hd, hr⟩ := hquiet.reads_nothing
    exact ⟨hs, hd, fun id hmem => by rw [hr] at hmem; cases hmem⟩

theorem pollStack_onlyStack (poll : Nat) :
    KeepsAccount (OnlyStack (some stackId)) (pollStack stackId poll) := by
  have hA := onlyStack_accumulates (some stackId)
  refine Keeps.bind hA (KeepsAccount.callPort fun _ => ⟨rfl, rfl, nofun⟩) fun _ => ?_
  refine Keeps.bind hA (KeepsAccount.callPort fun _ => ⟨rfl, rfl, nofun⟩) fun _ => ?_
  exact Keeps.pure hA

theorem awaitStackDeletion_onlyStack (remaining : Nat) :
    KeepsAccount (OnlyStack (some stackId)) (awaitStackDeletion stackId remaining) := by
  have hA := onlyStack_accumulates (some stackId)
  induction remaining with
  | zero => exact Keeps.bind hA (pollStack_onlyStack _) fun _ => Keeps.pure hA
  | succ remaining ih =>
    refine Keeps.bind hA (pollStack_onlyStack _) fun settled => ?_
    cases settled with
    | some settled => exact Keeps.pure hA
    | none => exact ih

theorem deleteRecordedStack_onlyStack :
    KeepsAccount (OnlyStack (some stackId)) (deleteRecordedStack stackId (recordDeletion mode)) := by
  have hA := onlyStack_accumulates (some stackId)
  have hwait : KeepsAccount (OnlyStack (some stackId)) (deleteStackAndWait stackId) := by
    refine Keeps.bind hA (KeepsAccount.callPort fun _ => ⟨rfl, rfl, nofun⟩) fun read => ?_
    split
    · exact Keeps.pure hA
    · refine Keeps.bind hA (KeepsAccount.callPort fun _ => ⟨rfl, rfl, ?_⟩) fun request => ?_
      · intro id hmem
        rw [List.mem_singleton.mp hmem]
      · cases request with
        | some reason => exact Keeps.pure hA
        | none => exact awaitStackDeletion_onlyStack _
  refine Keeps.bind hA hwait fun deletion => ?_
  cases deletion <;>
    exact Keeps.bind hA (recordDeletion_onlyStack _) fun _ => Keeps.pure hA

/-- A loop over programs that never throw and whose results are read off their exchanges. -/
theorem collect_reads {α β γ : Type} {body : α → CleanupM (List β)} {read : β → List γ}
    {shows : CleanupExchange → List γ}
    {A : List CleanupActionEntry → List CleanupExchange → Prop} (hA : Accumulates A)
    {items : List α}
    (h : ∀ item ∈ items, ∀ start, Logs start (body item)
      fun result emitted trace => A emitted trace ∧
        ∃ values, result = .ok values ∧ values.flatMap read = trace.flatMap shows) :
    Logs start (collect body items) fun result emitted trace =>
      A emitted trace ∧ ∃ values, result = .ok values ∧
        values.flatMap read = trace.flatMap shows := by
  induction items generalizing start with
  | nil => exact Emits.pure ⟨hA.nil, [], rfl, rfl⟩
  | cons item rest ih =>
    refine Emits.andThen (h item List.mem_cons_self start) ?_
    rintro here emitted trace ⟨hacc, values, heq, hread⟩
    obtain rfl := Except.ok.inj heq
    refine Emits.andThen (ih fun other hmem => h other (List.mem_cons_of_mem _ hmem)) ?_
    rintro more emitted' trace' ⟨hacc', values, heq', hread'⟩
    obtain rfl := Except.ok.inj heq'
    refine Emits.pure ⟨?_, here ++ more, rfl, ?_⟩
    · rw [List.append_nil, List.append_nil]
      exact hA.append hacc hacc'
    · simp [hread, hread']

theorem confirmResource_reads (resource : DiscoveredResource) :
    Logs start (confirmResource resource) fun result _ trace =>
      (deletedIn trace = [] ∧ stackRequestsIn trace = []) ∧
        ∃ checks, result = .ok checks ∧ confirmedOf checks = sightedIn trace := by
  refine Emits.andThen (askPort_emits _) ?_
  rintro answer emitted trace ⟨_, heq, rfl, rfl⟩
  obtain rfl := Except.ok.inj heq
  match answer with
  | .ok .present | .ok .absent | .ok (.failed reason) | .error thrown =>
    exact Emits.pure ⟨⟨rfl, rfl⟩, _, rfl, rfl⟩

def NoDeletion (_ : List CleanupActionEntry) (trace : List CleanupExchange) : Prop :=
  deletedIn trace = [] ∧ stackRequestsIn trace = []

theorem noDeletion_accumulates : Accumulates NoDeletion where
  nil := ⟨rfl, rfl⟩
  append := by
    rintro _ _ _ _ ⟨hd, hr⟩ ⟨hd', hr'⟩
    exact ⟨by simp [hd, hd'], by simp [hr, hr']⟩

theorem sightSurface_reads (surface : LeakAuditSurface) :
    Logs start (sightSurface surface) fun result emitted trace =>
      NoDeletion emitted trace ∧ ∃ sightings, result = .ok sightings ∧
        sightings.flatMap (·.resources) = trace.flatMap sightedBy := by
  refine Emits.andThen (askPort_emits _) ?_
  rintro answer emitted trace ⟨_, heq, rfl, rfl⟩
  obtain rfl := Except.ok.inj heq
  match answer with
  | .error thrown | .ok (.error reason) => exact Emits.pure ⟨⟨rfl, rfl⟩, _, rfl, rfl⟩
  | .ok (.ok resources) =>
    dsimp only
    split
    · rename_i htag
      subst htag
      refine Emits.andThen (collect_reads noDeletion_accumulates
        fun resource _ _ => confirmResource_reads resource) ?_
      rintro checks emitted trace ⟨⟨hd, hr⟩, _, heq, hread⟩
      obtain rfl := Except.ok.inj heq
      refine Emits.pure ⟨⟨?_, ?_⟩, _, rfl, ?_⟩
      · simpa [deletedIn, deletedBy] using hd
      · simpa [stackRequestsIn, stackRequestedBy] using hr
      · simpa [sightedBy, confirmedOf] using hread
    · rename_i hother
      refine Emits.pure ⟨⟨rfl, rfl⟩, _, rfl, ?_⟩
      simp [sightedBy, hother]

theorem sweepSurfaces_reads :
    Logs start sweepSurfaces fun result emitted trace =>
      NoDeletion emitted trace ∧ ∃ sightings, result = .ok sightings ∧
        sightings.flatMap (·.resources) = sightedIn trace :=
  collect_reads noDeletion_accumulates fun surface _ _ => sightSurface_reads surface

def JudgedResource.deletable (entry : JudgedResource) : Bool :=
  match entry.decision with
  | .owned basis => isDirectlyDeletable basis
  | .ambiguous _ _ | .excludedBaseline => false

/-- The resources a run deletes when nothing throws. -/
def deletionTargets (resources : List DiscoveredResource) (ownership : OwnershipContext) :
    List DiscoveredResource :=
  ((judgeOwnership resources ownership).values.filter (·.deletable)).map (·.resource)

/-- Nothing seen, no stack deletion requested, and these resources deleted. -/
def Deletes (targets : List DiscoveredResource) (trace : List CleanupExchange) : Prop :=
  sightedIn trace = [] ∧ stackRequestsIn trace = [] ∧ deletedIn trace = targets

theorem recordDeletion_deletes (item : ItemAction) :
    Logs start (recordDeletion mode item) fun result _ trace =>
      result = .ok () ∧ Deletes [] trace :=
  (recordAction_emits _).weaken fun _ _ _ ⟨hok, hquiet, _⟩ =>
    ⟨hok, hquiet.reads_nothing.1, hquiet.reads_nothing.2.2, hquiet.reads_nothing.2.1⟩

/-- Record an item after an exchange that deleted `targets`, then return. -/
theorem record_return {α : Type} {item : ItemAction} {value : α}
    {targets : List DiscoveredResource} (trace : List CleanupExchange)
    (h : Deletes targets trace) :
    Logs start (do recordDeletion mode item; pure value)
      fun _ _ trace' => Deletes targets (trace ++ trace') := by
  obtain ⟨hs, hr, hd⟩ := h
  refine Emits.andThen (recordDeletion_deletes item) ?_
  rintro _ emitted trace' ⟨-, hs', hr', hd'⟩
  exact Emits.pure ⟨by simp [hs, hs'], by simp [hr, hr'], by simp [hd, hd']⟩

theorem settleRemainingResource_deletes (entry : JudgedResource) :
    Logs start (settleRemainingResource entry (recordDeletion mode))
      fun _ _ trace => Deletes (if entry.deletable then [entry.resource] else []) trace := by
  unfold settleRemainingResource JudgedResource.deletable
  cases entry.decision with
  | excludedBaseline => exact record_return [] ⟨rfl, rfl, rfl⟩
  | ambiguous first others => exact record_return [] ⟨rfl, rfl, rfl⟩
  | owned basis =>
    dsimp only
    by_cases hdelete : isDirectlyDeletable basis = true
    · rw [if_pos hdelete, if_pos hdelete]
      refine Emits.bind (callPort_emits (R := fun _ _ trace => Deletes [entry.resource] trace)
        fun _ => ⟨rfl, rfl, rfl⟩) ?_ fun _ _ _ h => h
      intro deletion emitted trace h
      cases deletion <;> exact record_return _ h
    · rw [if_neg hdelete, if_neg hdelete]
      exact record_return [] ⟨rfl, rfl, rfl⟩

theorem deletable_not_stack
    (h : (judge ownership resource).deletable = true) :
    isRecordedStack resource.resourceType resource.identifier ownership.recordedStackId =
      false := by
  unfold JudgedResource.deletable judge at h
  dsimp only at h
  split at h
  · rename_i basis hdecision
    exact (deletable_evidence hdecision h).2.1
  · cases h
  · cases h

theorem settleUnlessStack_deletes {entry : JudgedResource}
    (hentry : entry = judge ownership entry.resource) :
    Logs start (settleUnlessStack ownership.recordedStackId (recordDeletion mode) entry)
      fun _ _ trace => Deletes (if entry.deletable then [entry.resource] else []) trace := by
  unfold settleUnlessStack
  split
  · rename_i hstack
    have hnot : entry.deletable = false := by
      cases hdelete : entry.deletable with
      | false => rfl
      | true =>
        rw [hentry] at hdelete
        rw [deletable_not_stack hdelete] at hstack
        cases hstack
    rw [hnot]
    exact Emits.pure ⟨rfl, rfl, rfl⟩
  · exact settleRemainingResource_deletes entry

/-- The loop over the judged resources deletes the deletable ones in order; when it throws, it
has deleted the first of them. -/
theorem settleAll_deletes {entries : List JudgedResource}
    (hentries : ∀ entry ∈ entries, entry = judge ownership entry.resource) :
    Logs start (collect (settleUnlessStack ownership.recordedStackId (recordDeletion mode)) entries)
      fun result _ trace => ∃ done, Deletes done trace ∧
        done <+: (entries.filter (·.deletable)).map (·.resource) ∧
        ((∃ value, result = .ok value) →
          done = (entries.filter (·.deletable)).map (·.resource)) := by
  induction entries generalizing start with
  | nil => exact Emits.pure ⟨[], ⟨rfl, rfl, rfl⟩, List.prefix_rfl, fun _ => rfl⟩
  | cons entry rest ih =>
    have hsplit : ((entry :: rest).filter (·.deletable)).map (·.resource) =
        (if entry.deletable then [entry.resource] else []) ++
          (rest.filter (·.deletable)).map (·.resource) := by
      by_cases hdelete : entry.deletable = true <;> simp [hdelete]
    refine Emits.bind (settleUnlessStack_deletes (hentries entry List.mem_cons_self)) ?_ ?_
    · rintro here emitted trace ⟨hs, hr, hd⟩
      refine Emits.bind (ih fun other hmem => hentries other (List.mem_cons_of_mem _ hmem)) ?_ ?_
      · rintro more emitted' trace' ⟨done, ⟨hs', hr', hd'⟩, -, hall⟩
        obtain rfl := hall ⟨more, rfl⟩
        refine Emits.pure ⟨_, ⟨?_, ?_, rfl⟩, ?_, fun _ => ?_⟩
        · simp [hs, hs']
        · simp [hr, hr']
        · simp [hsplit, hd, hd']
        · simp [hsplit, hd, hd']
      · rintro error emitted' trace' ⟨done, ⟨hs', hr', hd'⟩, hprefix, -⟩
        refine ⟨_, ⟨?_, ?_, rfl⟩, ?_, fun ⟨_, heq⟩ => by cases heq⟩
        · simp [hs, hs']
        · simp [hr, hr']
        · rw [deletedIn_append, hd, hd', hsplit]
          exact (List.prefix_append_right_inj _).mpr hprefix
    · rintro error emitted trace h
      refine ⟨_, h, ?_, fun ⟨_, heq⟩ => by cases heq⟩
      rw [hsplit]
      exact List.prefix_append _ _

theorem recordVanishedFailures_onlyStack (sightings : List SurfaceSighting)
    (judged : InsertionMap String JudgedResource) (stackId : Option String)
    (earlierFailures : List CleanupResource) :
    KeepsAccount (OnlyStack stackId)
      (recordVanishedFailures sightings judged stackId earlierFailures (recordDeletion mode)) := by
  have hA := onlyStack_accumulates stackId
  unfold recordVanishedFailures
  split
  · refine KeepsAccount.collect hA fun earlier _ => ?_
    unfold recordVanished
    split
    · exact Keeps.pure hA
    · exact Keeps.bind hA (recordDeletion_onlyStack _) fun _ => Keeps.pure hA
  · exact Keeps.pure hA

theorem judged_values {resources : List DiscoveredResource}
    {entry : JudgedResource} (hmem : entry ∈ (judgeOwnership resources ownership).values) :
    (judgeOwnership resources ownership).get? entry.resource.key = some entry ∧
      entry = judge ownership entry.resource := by
  obtain ⟨⟨key, kept⟩, hin, rfl⟩ := List.mem_map.mp hmem
  have hget := InsertionMap.get?_of_mem (judgeOwnership_nodup resources) hin
  obtain ⟨-, hkey, hdecision, -⟩ := judgeOwnership_get? hget
  refine ⟨by rw [hkey]; exact hget, ?_⟩
  obtain ⟨resource, decision⟩ := kept
  obtain rfl : decision = proveOwnership resource ownership := hdecision
  rfl

/-- What a run of step 9 deletes is a first part of the targets of what it saw, and all of them
when it returns; and it requests the deletion of the recorded stack only. -/
theorem deleteOwnedResources_deletes (ownership : OwnershipContext)
    (earlierFailures : List CleanupResource) :
    Logs start (deleteOwnedResources ownership earlierFailures (recordDeletion mode))
      fun result _ trace =>
        deletedIn trace <+: deletionTargets (sightedIn trace) ownership ∧
        ((∃ outcome, result = .ok outcome) →
          deletedIn trace = deletionTargets (sightedIn trace) ownership) ∧
        ∀ id ∈ stackRequestsIn trace, ownership.recordedStackId = some id := by
  have hA := onlyStack_accumulates ownership.recordedStackId
  have hstack : KeepsAccount (OnlyStack ownership.recordedStackId)
      (settleStack ownership.recordedStackId (recordDeletion mode)) := by
    cases ownership.recordedStackId with
    | none => exact Keeps.pure (onlyStack_accumulates none)
    | some stackId => exact deleteRecordedStack_onlyStack
  refine Emits.bind (hstack start) ?_ ?_
  · rintro stackFailures emitted₁ trace₁ ⟨hs₁, hd₁, hr₁⟩
    refine Emits.andThen sweepSurfaces_reads ?_
    rintro sightings emitted₂ trace₂ ⟨⟨hd₂, hr₂⟩, _, heq, hs₂⟩
    obtain rfl := Except.ok.inj heq
    rw [hs₂]
    refine Emits.bind (settleAll_deletes fun entry hmem => (judged_values hmem).2) ?_ ?_
    · rintro failures emitted₃ trace₃ ⟨done, ⟨hs₃, hr₃, hd₃⟩, -, hall⟩
      obtain rfl := hall ⟨failures, rfl⟩
      have hrest : KeepsAccount (OnlyStack ownership.recordedStackId) (do
          let _ ← recordVanishedFailures sightings
            (judgeOwnership (sightedIn trace₂) ownership) ownership.recordedStackId
            earlierFailures (recordDeletion mode)
          return outcomeFromFailures
            (stackFailures ++ sightings.flatMap (·.reasons) ++ failures)) :=
        Keeps.bind hA (recordVanishedFailures_onlyStack _ _ _ _) fun _ => Keeps.pure hA
      refine (hrest _).weaken ?_
      rintro result emitted₄ trace₄ ⟨hs₄, hd₄, hr₄⟩
      have hsighted : sightedIn (trace₁ ++ (trace₂ ++ (trace₃ ++ trace₄))) = sightedIn trace₂ := by
        simp [hs₁, hs₃, hs₄]
      have hdeleted : deletedIn (trace₁ ++ (trace₂ ++ (trace₃ ++ trace₄))) =
          deletionTargets (sightedIn trace₂) ownership := by
        simp [hd₁, hd₂, hd₃, hd₄, deletionTargets]
      rw [hsighted, hdeleted]
      refine ⟨List.prefix_rfl, fun _ => rfl, fun id hmem => ?_⟩
      simp only [stackRequestsIn_append, hr₂, hr₃, List.nil_append, List.mem_append] at hmem
      exact hmem.elim (hr₁ id) (hr₄ id)
    · rintro error emitted₃ trace₃ ⟨done, ⟨hs₃, hr₃, hd₃⟩, hfirst, -⟩
      refine ⟨?_, fun ⟨_, heq⟩ => (by cases heq), fun id hmem => ?_⟩
      · simpa [hs₁, hs₃, hd₁, hd₂, hd₃, deletionTargets] using hfirst
      · simp only [stackRequestsIn_append, hr₂, hr₃, List.append_nil] at hmem
        exact hr₁ id hmem
  · rintro error emitted trace ⟨hs, hd, hr⟩
    refine ⟨?_, fun ⟨_, heq⟩ => (by cases heq), hr⟩
    rw [hd]
    exact List.nil_prefix

end Specs

/-! ## Only owned resources are deleted, whatever the order of the sightings -/

section Results

variable {ownership : OwnershipContext} {resources others : List DiscoveredResource}

theorem mem_deletionTargets :
    resource ∈ deletionTargets resources ownership ↔
      (judgeOwnership resources ownership).get? resource.key = some (judge ownership resource) ∧
        (judge ownership resource).deletable = true := by
  unfold deletionTargets
  simp only [List.mem_map, List.mem_filter]
  constructor
  · rintro ⟨entry, ⟨hmem, hdelete⟩, rfl⟩
    obtain ⟨hget, heq⟩ := judged_values hmem
    rw [← heq]
    exact ⟨hget, hdelete⟩
  · rintro ⟨hget, hdelete⟩
    exact ⟨_, ⟨List.mem_map.mpr ⟨_, InsertionMap.mem_of_get? hget, rfl⟩, hdelete⟩, rfl⟩

/-- A target was seen, no sighting of its key is a baseline resource, and its own sighting
proves its ownership by the manifest or by the partial-manifest rule. -/
theorem deletionTargets_owned
    (hmem : resource ∈ deletionTargets resources ownership) :
    resource ∈ resources ∧
    (∀ sighting ∈ resources, sighting.key = resource.key → isBaseline sighting ownership = false) ∧
    (ManifestOwned resource ownership ∨ PartialManifestOwned resource ownership) := by
  obtain ⟨hget, hdelete⟩ := mem_deletionTargets.mp hmem
  obtain ⟨hin, -, -, hmin⟩ := judgeOwnership_get? hget
  unfold JudgedResource.deletable judge at hdelete
  dsimp only at hdelete
  split at hdelete
  · rename_i basis hdecision
    obtain ⟨-, -, howned⟩ := deletable_evidence hdecision hdelete
    refine ⟨hin, fun sighting hsighting hkey => ?_, ?_⟩
    · have hle : evidenceRank (proveOwnership resource ownership) ≤
          evidenceRank (proveOwnership sighting ownership) := hmin sighting hsighting hkey
      rw [hdecision] at hle
      simp only [evidenceRank, if_pos hdelete] at hle
      -- a baseline sighting would rank before every owned one
      cases hbaseline : isBaseline sighting ownership with
      | false => rfl
      | true =>
        have hrank : proveOwnership sighting ownership = .excludedBaseline := by
          simp [proveOwnership, hbaseline]
        rw [hrank] at hle
        exact absurd hle (by decide)
    · rcases howned with ⟨-, h⟩ | ⟨-, h⟩
      · exact .inl h
      · exact .inr h
  · cases hdelete
  · cases hdelete

theorem deleted_key_iff (key : String) :
    (∃ resource ∈ deletionTargets resources ownership, resource.key = key) ↔
      ∃ basis, isDirectlyDeletable basis = true ∧
        ((judgeOwnership resources ownership).get? key).map (·.decision.recordedBasis) =
          some (.owned basis) := by
  constructor
  · rintro ⟨resource, hmem, rfl⟩
    obtain ⟨hget, hdelete⟩ := mem_deletionTargets.mp hmem
    rw [hget]
    unfold JudgedResource.deletable at hdelete
    split at hdelete
    · rename_i basis hdecision
      exact ⟨basis, hdelete, by rw [Option.map_some, hdecision]; rfl⟩
    · cases hdelete
    · cases hdelete
  · rintro ⟨basis, hdelete, hbasis⟩
    obtain ⟨kept, hget, hrecorded⟩ := Option.map_eq_some_iff.mp hbasis
    have hmem : kept ∈ (judgeOwnership resources ownership).values :=
      List.mem_map.mpr ⟨_, InsertionMap.mem_of_get? hget, rfl⟩
    obtain ⟨-, hkey, -, -⟩ := judgeOwnership_get? hget
    obtain ⟨hself, heq⟩ := judged_values hmem
    refine ⟨kept.resource, mem_deletionTargets.mpr ⟨by rw [← heq]; exact hself, ?_⟩, hkey⟩
    rw [← heq]
    unfold JudgedResource.deletable
    cases hdecision : kept.decision with
    | owned other =>
      rw [hdecision] at hrecorded
      obtain rfl := OwnershipBasis.owned.inj hrecorded
      exact hdelete
    | ambiguous first more =>
      rw [hdecision] at hrecorded
      cases hrecorded
    | excludedBaseline =>
      rw [hdecision] at hrecorded
      cases hrecorded

/-- One complete run of step 9, whatever the ports answer. -/
def DeletionRun (ownership : OwnershipContext) (earlierFailures : List CleanupResource)
    (trace : List CleanupExchange) (result : Except Thrown StepOutcome) : Prop :=
  ∃ mode state state', Traced
    ((deleteOwnedResources ownership earlierFailures (recordDeletion mode)).run.run state) trace
    (result, state')

/-- In every run of step 9, whatever the sightings and the ports: `deleter.delete` is called only
for a resource that was seen, no sighting of whose key is a baseline resource, and some sighting
of whose key is a manifest member with exactly one matching run tag and one matching study tag or
meets every partial-manifest condition; and only the recorded stack's deletion is requested.  Two
runs that return after sightings that differ in their order only delete the same keys, and the
ownership basis of every key is the same. -/
theorem deletes_owned_in_any_order {earlierFailures : List CleanupResource}
    {trace : List CleanupExchange} {result : Except Thrown StepOutcome}
    (hrun : DeletionRun ownership earlierFailures trace result) :
    (∀ resource ∈ deletedIn trace, resource ∈ sightedIn trace ∧
      (∀ sighting ∈ sightedIn trace, sighting.key = resource.key →
        isBaseline sighting ownership = false) ∧
      ∃ sighting ∈ sightedIn trace, sighting.key = resource.key ∧
        (ManifestOwned sighting ownership ∨ PartialManifestOwned sighting ownership)) ∧
    (∀ stackId ∈ stackRequestsIn trace, ownership.recordedStackId = some stackId) ∧
    ∀ earlierFailures' trace' outcome outcome', DeletionRun ownership earlierFailures' trace'
        (.ok outcome') → result = .ok outcome → (sightedIn trace).Perm (sightedIn trace') →
      ∀ key, ((∃ resource ∈ deletedIn trace, resource.key = key) ↔
          ∃ resource ∈ deletedIn trace', resource.key = key) ∧
        ((judgeOwnership (sightedIn trace) ownership).get? key).map (·.decision.recordedBasis) =
          ((judgeOwnership (sightedIn trace') ownership).get? key).map
            (·.decision.recordedBasis) := by
  obtain ⟨mode, state, state', htraced⟩ := hrun
  obtain ⟨-, -, hfirst, hall, hstack⟩ :=
    deleteOwnedResources_deletes ownership earlierFailures state rfl trace _ htraced
  refine ⟨fun resource hmem => ?_, hstack, ?_⟩
  · obtain ⟨hin, hbaseline, howned⟩ := deletionTargets_owned (hfirst.subset hmem)
    exact ⟨hin, hbaseline, resource, hin, rfl, howned⟩
  · rintro earlierFailures' trace' outcome outcome' ⟨mode', _, _, htraced'⟩ hok hperm key
    obtain ⟨-, -, -, hall', -⟩ :=
      deleteOwnedResources_deletes ownership earlierFailures' _ rfl trace' _ htraced'
    have hbasis : ((judgeOwnership (sightedIn trace) ownership).get? key).map
        (·.decision.recordedBasis) = ((judgeOwnership (sightedIn trace') ownership).get? key).map
        (·.decision.recordedBasis) := judgeOwnership_perm hperm key
    refine ⟨?_, hbasis⟩
    rw [hall ⟨outcome, hok⟩, hall' ⟨outcome', rfl⟩, deleted_key_iff, deleted_key_iff, hbasis]

end Results

def failedProvisioning : OwnershipContext where
  executionId := "run"
  studyId := "study"
  runTags := [⟨runIdTag, "run"⟩]
  recordedStackId := none
  provisioningStatus := .failed
  manifestMembers := []
  executionManifestFrozenAt := 1
  expectedResourceTypes := ["AWS::IAM::Role"]
  deterministicNamePrefixes := ["suc1-"]
  deterministicNames := []
  baseline := ⟨["CDKToolkit"], []⟩

def strayRole : DiscoveredResource :=
  ⟨"AWS::IAM::Role", "stray", .roles, .tagged [⟨runIdTag, "run"⟩], some 2, none⟩

def strayPorts : (request : CleanupCall) → CleanupReply request
  | .port (.query .roles) => .ok (.ok [strayRole])
  | .port (.query _) => .ok (.ok [])
  | .port (.delete _) => .ok .deleted
  | .port _ => .error ()
  | .append _ => .appended 3
  | .now => (3 : UtcMillis)
  | .totalTargetExceeded => false

def strayRun : List CleanupExchange × Except Thrown StepOutcome × RunState :=
  ((deleteOwnedResources failedProvisioning [] (recordDeletion .normal)).run.run
    ⟨[], none, false, [], ⟨.inconclusive, []⟩⟩).answered strayPorts

theorem strayRun_returns : DeletionRun failedProvisioning [] strayRun.1 (.ok ⟨.succeeded, []⟩) :=
  ⟨.normal, _, _, Program.answered_traced strayPorts _⟩

theorem deletes_owned_in_any_order_stray :
    deletedIn strayRun.1 = [strayRole] ∧ isBaseline strayRole failedProvisioning = false ∧
    ∃ sighting ∈ sightedIn strayRun.1, sighting.key = strayRole.key ∧
      (ManifestOwned sighting failedProvisioning ∨
        PartialManifestOwned sighting failedProvisioning) := by
  have hdeleted : deletedIn strayRun.1 = [strayRole] := rfl
  obtain ⟨hin, hbaseline, howned⟩ := (deletes_owned_in_any_order strayRun_returns).1 strayRole
    (by rw [hdeleted]; exact List.mem_singleton_self _)
  exact ⟨hdeleted, hbaseline strayRole hin rfl, howned⟩

def undatedRole : DiscoveredResource := { strayRole with createdAt := none, surface := .tagIndex }

def earlyRole : DiscoveredResource := { strayRole with createdAt := some 0 }

theorem stray_deleted_and_reasons_by_order :
    (DeletionRun failedProvisioning [] strayRun.1 (.ok ⟨.succeeded, []⟩) ∧
      strayRole ∈ deletedIn strayRun.1 ∧ sightedIn strayRun.1 = [strayRole] ∧
      ¬ ManifestOwned strayRole failedProvisioning ∧
      ¬ ExpectedName strayRole failedProvisioning) ∧
    [undatedRole, earlyRole].Perm [earlyRole, undatedRole] ∧
    ((judgeOwnership [undatedRole, earlyRole] failedProvisioning).get? strayRole.key).map
        (·.decision) ≠
      ((judgeOwnership [earlyRole, undatedRole] failedProvisioning).get? strayRole.key).map
        (·.decision) := by
  refine ⟨⟨strayRun_returns, ?_, rfl, ?_, ?_⟩, List.Perm.swap _ _ _, by decide⟩
  · have hdeleted : deletedIn strayRun.1 = [strayRole] := rfl
    rw [hdeleted]
    exact List.mem_singleton_self _
  · rintro ⟨hmember, -⟩
    cases hmember
  · rintro (hname | ⟨start, hstart, hname⟩)
    · cases hname
    · rw [List.mem_singleton.mp hstart] at hname
      exact absurd hname (by decide)

end RefundStudy.Cleanup
