/-
  What step 9 owes the account of cleanup: once it counts as succeeded, no resource is left as
  not deleted (BR-RUA-050, BR-RUA-051, AC-RUA-011).

  A later run may have lost the end of the journal, so the invariant speaks about every first part
  of it.
-/
import RefundStudy.Cleanup.Rerun
import RefundStudy.Foundation.Grouping

set_option autoImplicit false

namespace RefundStudy.Cleanup

open Foundation Record

variable {front back : List CleanupActionEntry} {step : CleanupStep}

/-! ## Outcomes of resources -/

variable (entries : List CleanupActionEntry)

/-- What the entries say about resources, in order. -/
def outcomesIn : List CleanupResource :=
  entries.filterMap fun entry => resourceEntryOf entry.body

def CleanupResource.key (resource : CleanupResource) : String :=
  resourceKey resource.resourceType resource.resourceIdentifier

@[simp] theorem outcomesIn_append (front back : List CleanupActionEntry) :
    outcomesIn (front ++ back) = outcomesIn front ++ outcomesIn back :=
  List.filterMap_append

theorem foldResources_eq : foldResources entries =
      (InsertionMap.latest CleanupResource.key (outcomesIn entries)).values := by
  unfold foldResources InsertionMap.latest
  congr 1
  generalize ([] : InsertionMap String CleanupResource) = held
  induction entries generalizing held with
  | nil => rfl
  | cons entry rest ih =>
    rw [List.foldl_cons, ih]
    have hcons : outcomesIn (entry :: rest) =
        (resourceEntryOf entry.body).toList ++ outcomesIn rest := by
      unfold outcomesIn
      rw [List.filterMap_cons]
      cases resourceEntryOf entry.body <;> rfl
    rw [hcons, List.foldl_append]
    cases resourceEntryOf entry.body with
    | none => rfl
    | some resource => rfl

def NoDeleteFailed : Prop :=
  ∀ resource ∈ foldResources entries, resource.action ≠ .deleteFailed

/-- The entries record no failed deletion. -/
def Unfailed : Prop :=
  ∀ outcome ∈ outcomesIn entries, outcome.action ≠ .deleteFailed

def Records (key : String) : Prop :=
  ∃ outcome ∈ outcomesIn entries, outcome.key = key

theorem Unfailed.append (h : Unfailed front)
    (h' : Unfailed back) : Unfailed (front ++ back) := by
  intro outcome hmem
  rw [outcomesIn_append, List.mem_append] at hmem
  exact hmem.elim (h outcome) (h' outcome)

theorem Records.append_left {key : String}
    (h : Records front key) : Records (front ++ back) key := by
  obtain ⟨outcome, hmem, hkey⟩ := h
  exact ⟨outcome, by rw [outcomesIn_append]; exact List.mem_append_left _ hmem, hkey⟩

theorem Records.append_right {key : String}
    (h : Records back key) : Records (front ++ back) key := by
  obtain ⟨outcome, hmem, hkey⟩ := h
  exact ⟨outcome, by rw [outcomesIn_append]; exact List.mem_append_right _ hmem, hkey⟩

/-- New entries without a failure clear the account when they record every key that failed. -/
theorem noDeleteFailed_append {before more : List CleanupActionEntry} (hmore : Unfailed more)
    (hcleared : ∀ failure ∈ foldResources before, failure.action = .deleteFailed →
      Records more failure.key) : NoDeleteFailed (before ++ more) := by
  intro resource hmem hfailed
  rw [foldResources_eq, outcomesIn_append] at hmem
  obtain ⟨front, back, heq, hafter⟩ := InsertionMap.mem_values_latest.mp hmem
  rcases List.append_eq_append_iff.mp heq with ⟨between, hfront, hback⟩ | ⟨between, hbefore, hrest⟩
  · -- the resource was recorded by the new entries
    refine hmore resource ?_ hfailed
    rw [hback]
    exact List.mem_append_right _ List.mem_cons_self
  · cases between with
    | nil =>
      refine hmore resource ?_ hfailed
      rw [List.nil_append] at hrest
      rw [← hrest]
      exact List.mem_cons_self
    | cons first later =>
      rw [List.cons_append, List.cons.injEq] at hrest
      obtain ⟨rfl, rfl⟩ := hrest
      have hearlier : resource ∈ foldResources before := by
        rw [foldResources_eq]
        exact InsertionMap.mem_values_latest.mpr ⟨front, later, hbefore,
          fun other hother => hafter other (List.mem_append_left _ hother)⟩
      obtain ⟨outcome, houtcome, hkey⟩ := hcleared resource hearlier hfailed
      exact hafter outcome (List.mem_append_right _ houtcome) hkey

theorem foldResources_append {before more : List CleanupActionEntry} (h : outcomesIn more = []) :
    foldResources (before ++ more) = foldResources before := by
  rw [foldResources_eq, foldResources_eq, outcomesIn_append, h, List.append_nil]

/-! ## What step 9 records -/

section Settling

variable {mode : CleanupMode} {start : List CleanupActionEntry} {stackId : Option String}

/-- A part of step 9 that returns no failure recorded no failed deletion and an outcome under
every key it owes. -/
def Settles (owed : String → Prop) (result : Except Thrown (List StructuredReason))
    (emitted : List CleanupActionEntry) (_ : List CleanupExchange) : Prop :=
  result = .ok [] → Unfailed emitted ∧ ∀ key, owed key → Records emitted key

/-- What every value of a loop satisfies, every round's values satisfy. -/
theorem collect_each {α β : Type} {P : β → Prop} {body : α → CleanupM (List β)}
    (h : ∀ item, Returns (body item) fun values => ∀ value ∈ values, P value) (items : List α) :
    Returns (collect body items) fun values => ∀ value ∈ values, P value := by
  induction items with
  | nil => exact Yields.pure fun _ hmem => absurd hmem List.not_mem_nil
  | cons item rest ih =>
    refine Yields.bind (h item) fun here hhere => ?_
    refine Yields.bind ih fun more hmore => ?_
    refine Yields.pure fun value hmem => ?_
    exact (List.mem_append.mp hmem).elim (hhere value) (hmore value)

theorem sweepSurfaces_explains : Returns sweepSurfaces fun sightings =>
    ∀ sighting ∈ sightings, sighting.reasons = [] → sighting.queryOk = true := by
  refine collect_each (fun surface => ?_) _
  refine Yields.bind (Q := fun _ => True) (fun _ => (askPort_emits _).weaken fun _ _ _ _ _ _ =>
    trivial) fun answer _ => ?_
  match answer with
  | .error thrown | .ok (.error reason) =>
    refine Yields.pure fun sighting hmem hnone => ?_
    rw [List.mem_singleton.mp hmem] at hnone
    cases hnone
  | .ok (.ok resources) =>
    dsimp only
    split
    · refine Yields.bind (Q := fun _ => True) (collect_returns (fun resource => ?_) _)
        fun checks _ => ?_
      · exact fun start => (confirmResource_reads resource).weaken fun _ _ _ _ _ _ => trivial
      · refine Yields.pure fun sighting hmem hnone => ?_
        rw [List.mem_singleton.mp hmem] at hnone ⊢
        exact List.isEmpty_iff.mpr hnone
    · refine Yields.pure fun sighting hmem _ => ?_
      rw [List.mem_singleton.mp hmem]

theorem recordOutcome_settles {resourceType identifier : String} {basis : OwnershipBasis}
    {action : CleanupResourceAction} {reasons value : List StructuredReason}
    (h : action = .deleteFailed → value ≠ []) :
    Logs start (do
      recordDeletion mode (resourceItem resourceType identifier basis action reasons)
      pure value) (Settles (· = resourceKey resourceType identifier)) := by
  refine Emits.andThen (recordAction_emits _) ?_
  rintro _ emitted trace ⟨-, -, occurredAt, rfl⟩
  refine Emits.pure fun hvalue => ?_
  obtain rfl := Except.ok.inj hvalue
  rw [List.append_nil]
  refine ⟨fun outcome hmem => ?_, fun key hkey => ?_⟩
  · rw [List.mem_singleton.mp hmem]
    exact fun hfailed => h hfailed rfl
  · exact ⟨_, List.mem_singleton_self _, hkey.symm⟩

theorem Quiet.then_settles {α : Type} {owed : String → Prop} {m : CleanupM α}
    {rest : α → CleanupM (List StructuredReason)} (h : Quiet m)
    (hrest : ∀ value start, Logs start (rest value) (Settles owed)) :
    Logs start (m >>= rest) (Settles owed) := by
  refine Emits.bind (h start) ?_ ?_
  · rintro value emitted trace ⟨rfl, -⟩
    exact (hrest value _).weaken fun _ _ _ hsettles => hsettles
  · intro error emitted trace _ heq
    cases heq

theorem settleStack_settles : Logs start (settleStack stackId (recordDeletion mode))
    (Settles fun key => ∃ id, stackId = some id ∧ key = resourceKey stackResourceType id) := by
  cases stackId with
  | none =>
    refine Emits.pure fun _ => ⟨fun outcome hmem => absurd hmem List.not_mem_nil, ?_⟩
    rintro key ⟨id, heq, -⟩
    cases heq
  | some id =>
    refine (deleteStackAndWait_quiet id).then_settles fun deletion start => ?_
    have howed : ∀ key, (∃ other, some id = some other ∧
        key = resourceKey stackResourceType other) → key = resourceKey stackResourceType id := by
      rintro key ⟨other, heq, hkey⟩
      rw [hkey, Option.some.inj heq]
    cases deletion with
    | deleteFailed reason =>
      refine (recordOutcome_settles fun _ => List.cons_ne_nil _ _).weaken ?_
      intro _ _ _ h hnone
      exact ⟨(h hnone).1, fun key hkey => (h hnone).2 key (howed key hkey)⟩
    | deleted | alreadyAbsent =>
      refine (recordOutcome_settles fun hfailed => by cases hfailed).weaken ?_
      intro _ _ _ h hnone
      exact ⟨(h hnone).1, fun key hkey => (h hnone).2 key (howed key hkey)⟩

theorem settleRemainingResource_settles (entry : JudgedResource) :
    Logs start (settleRemainingResource entry (recordDeletion mode))
      (Settles (· = entry.resource.key)) := by
  unfold settleRemainingResource
  cases entry.decision with
  | excludedBaseline => exact recordOutcome_settles fun hfailed => by cases hfailed
  | ambiguous first others => exact recordOutcome_settles fun hfailed => by cases hfailed
  | owned basis =>
    dsimp only
    split
    · refine (callPort_quiet rfl).then_settles fun deletion start => ?_
      cases deletion with
      | failed reason => exact recordOutcome_settles fun _ => List.cons_ne_nil _ _
      | deleted | alreadyAbsent => exact recordOutcome_settles fun hfailed => by cases hfailed
    · exact recordOutcome_settles fun _ => List.cons_ne_nil _ _

theorem collect_settles {α : Type} {body : α → CleanupM (List StructuredReason)}
    {owed : α → String → Prop}
    (h : ∀ item start, Logs start (body item) (Settles (owed item)))
    (items : List α) : Logs start (collect body items)
      (Settles fun key => ∃ item ∈ items, owed item key) := by
  induction items generalizing start with
  | nil =>
    refine Emits.pure fun _ => ⟨fun outcome hmem => absurd hmem List.not_mem_nil, ?_⟩
    rintro key ⟨item, hmem, -⟩
    cases hmem
  | cons item rest ih =>
    refine Emits.bind (h item start) ?_ ?_
    · intro here emitted trace hhere
      refine Emits.bind ih ?_ ?_
      · intro more emitted' trace' hmore
        refine Emits.pure fun hnone => ?_
        obtain ⟨rfl, rfl⟩ := List.append_eq_nil_iff.mp (Except.ok.inj hnone)
        obtain ⟨hunfailed, hrecords⟩ := hhere rfl
        obtain ⟨hunfailed', hrecords'⟩ := hmore rfl
        rw [List.append_nil]
        refine ⟨hunfailed.append hunfailed', ?_⟩
        rintro key ⟨other, hmem, howed⟩
        rcases List.mem_cons.mp hmem with rfl | hmem
        · exact (hrecords key howed).append_left
        · exact (hrecords' key ⟨other, hmem, howed⟩).append_right
      · intro error emitted' trace' _ heq
        cases heq
    · intro error emitted trace _ heq
      cases heq

theorem settleUnlessStack_settles (entry : JudgedResource) :
    Logs start (settleUnlessStack stackId (recordDeletion mode) entry)
      (Settles fun key => key = entry.resource.key ∧
        isRecordedStack entry.resource.resourceType entry.resource.identifier stackId = false) := by
  unfold settleUnlessStack
  split
  · rename_i hstack
    refine Emits.pure fun _ => ⟨fun outcome hmem => absurd hmem List.not_mem_nil, ?_⟩
    rintro key ⟨-, hnot⟩
    rw [hstack] at hnot
    cases hnot
  · refine (settleRemainingResource_settles entry).weaken fun _ _ _ h hnone => ?_
    exact ⟨(h hnone).1, fun key hkey => (h hnone).2 key hkey.1⟩

theorem recordVanished_settles (judged : InsertionMap String JudgedResource)
    (earlier : CleanupResource) :
    Logs start (recordVanished judged stackId (recordDeletion mode) earlier)
      (Settles fun key => key = earlier.key ∧
        isRecordedStack earlier.resourceType earlier.resourceIdentifier stackId = false ∧
        judged.get? earlier.key = none) := by
  unfold recordVanished
  split
  · rename_i hseen
    refine Emits.pure fun _ => ⟨fun outcome hmem => absurd hmem List.not_mem_nil, ?_⟩
    rintro key ⟨-, hstack, hnone⟩
    have hget : judged.get? (resourceKey earlier.resourceType earlier.resourceIdentifier) = none :=
      hnone
    rw [hstack, hget] at hseen
    cases hseen
  · refine (recordOutcome_settles fun hfailed => by cases hfailed).weaken fun _ _ _ h hnone => ?_
    exact ⟨(h hnone).1, fun key hkey => (h hnone).2 key hkey.1⟩

theorem recordVanishedFailures_settles (sightings : List SurfaceSighting)
    (judged : InsertionMap String JudgedResource) (earlierFailures : List CleanupResource)
    (hanswered : ∀ sighting ∈ sightings, sighting.queryOk = true) :
    Logs start
      (recordVanishedFailures sightings judged stackId earlierFailures (recordDeletion mode))
      fun result emitted _ => (∃ values, result = .ok values) → Unfailed emitted ∧
        ∀ earlier ∈ earlierFailures,
          isRecordedStack earlier.resourceType earlier.resourceIdentifier stackId = false →
          judged.get? earlier.key = none → Records emitted earlier.key := by
  have hreturns : Returns
      (collect (recordVanished judged stackId (recordDeletion mode)) earlierFailures)
      fun values => ∀ value ∈ values, False := by
    refine collect_each (fun earlier => ?_) _
    unfold recordVanished
    split
    · exact Yields.pure fun _ hmem => absurd hmem List.not_mem_nil
    · refine Yields.bind (Q := fun _ => True) (fun start => (recordAction_emits _).weaken
        fun _ _ _ _ _ _ => trivial) fun _ _ => ?_
      exact Yields.pure fun _ hmem => absurd hmem List.not_mem_nil
  unfold recordVanishedFailures
  rw [if_pos (List.all_eq_true.mpr hanswered)]
  refine ((collect_settles (fun earlier _ => recordVanished_settles judged earlier)
    earlierFailures).both
    (hreturns start)).weaken ?_
  rintro result emitted trace ⟨hsettles, hnone⟩ ⟨values, rfl⟩
  obtain rfl : values = [] := List.eq_nil_iff_forall_not_mem.mpr (hnone values rfl)
  obtain ⟨hunfailed, hrecords⟩ := hsettles rfl
  exact ⟨hunfailed, fun earlier hmem hstack hget =>
    hrecords earlier.key ⟨earlier, hmem, rfl, hstack, hget⟩⟩

theorem isRecordedStack_key {resourceType identifier : String}
    (h : isRecordedStack resourceType identifier stackId = true) :
    ∃ id, stackId = some id ∧
      resourceKey resourceType identifier = resourceKey stackResourceType id := by
  unfold isRecordedStack at h
  rw [Bool.and_eq_true, beq_iff_eq, beq_iff_eq] at h
  exact ⟨identifier, h.2, by rw [h.1]⟩

theorem outcomeFromFailures_succeeded {failures : List StructuredReason} :
    (outcomeFromFailures failures).status = .succeeded ↔ failures = [] := by
  unfold outcomeFromFailures
  cases failures <;> simp

theorem judged_recorded {resources : List DiscoveredResource} {ownership : OwnershipContext}
    {key : String} {kept : JudgedResource}
    (hget : (judgeOwnership resources ownership).get? key = some kept)
    (hstack : ∀ key, (∃ id, ownership.recordedStackId = some id ∧
      key = resourceKey stackResourceType id) → Records front key)
    (hremaining : ∀ key, (∃ entry ∈ (judgeOwnership resources ownership).values,
      key = entry.resource.key ∧ isRecordedStack entry.resource.resourceType
        entry.resource.identifier ownership.recordedStackId = false) → Records back key) :
    Records (front ++ back) key := by
  obtain ⟨-, hkey, -⟩ := judgeOwnership_get? hget
  have hmem : kept ∈ (judgeOwnership resources ownership).values :=
    List.mem_map.mpr ⟨_, InsertionMap.mem_of_get? hget, rfl⟩
  cases hrecorded : isRecordedStack kept.resource.resourceType kept.resource.identifier
      ownership.recordedStackId with
  | true =>
    obtain ⟨id, hid, hsame⟩ := isRecordedStack_key hrecorded
    refine (hstack key ⟨id, hid, ?_⟩).append_left
    rw [← hkey, ← hsame]
    rfl
  | false => exact (hremaining key ⟨kept, hmem, hkey.symm, hrecorded⟩).append_right

/-- A run of step 9 that ends as succeeded leaves no resource as not deleted, whatever failed
before it. -/
theorem deleteOwnedResources_settles (ownership : OwnershipContext)
    (before : List CleanupActionEntry) :
    Logs start (deleteOwnedResources ownership (earlierDeleteFailures (foldCleanupActions before))
        (recordDeletion mode)) fun result emitted _ =>
      ∀ outcome, result = .ok outcome → outcome.status = .succeeded →
        NoDeleteFailed (before ++ emitted) := by
  refine Emits.bind settleStack_settles ?_ ?_
  · intro stackFailures emitted₁ trace₁ hstack
    refine Emits.bind ((sweepSurfaces_quiet _).both (sweepSurfaces_explains _)) ?_ ?_
    · rintro sightings emitted₂ trace₂ ⟨⟨rfl, -⟩, hexplains⟩
      refine Emits.bind (collect_settles (fun entry _ => settleUnlessStack_settles entry) _) ?_ ?_
      · intro failures emitted₃ trace₃ hremaining
        by_cases hclean : stackFailures ++ sightings.flatMap (·.reasons) ++ failures = []
        · obtain ⟨hfront, rfl⟩ := List.append_eq_nil_iff.mp hclean
          obtain ⟨rfl, hreasons⟩ := List.append_eq_nil_iff.mp hfront
          have hanswered : ∀ sighting ∈ sightings, sighting.queryOk = true := fun sighting hmem =>
            hexplains sightings rfl sighting hmem (List.flatMap_eq_nil_iff.mp hreasons sighting hmem)
          obtain ⟨hunfailed₁, hrecords₁⟩ := hstack rfl
          obtain ⟨hunfailed₃, hrecords₃⟩ := hremaining rfl
          refine Emits.bind (recordVanishedFailures_settles sightings _ _ hanswered) ?_ ?_
          · intro values emitted₄ trace₄ hvanished
            obtain ⟨hunfailed₄, hrecords₄⟩ := hvanished ⟨values, rfl⟩
            refine Emits.pure fun outcome _ _ => ?_
            rw [List.append_nil, List.nil_append]
            refine noDeleteFailed_append
              (hunfailed₁.append (hunfailed₃.append hunfailed₄)) fun failure hmem hfailed => ?_
            have hearlier : failure ∈ earlierDeleteFailures (foldCleanupActions before) :=
              List.mem_filter.mpr ⟨hmem, decide_eq_true hfailed⟩
            cases hrecorded : isRecordedStack failure.resourceType failure.resourceIdentifier
                ownership.recordedStackId with
            | true =>
              obtain ⟨id, hid, hsame⟩ := isRecordedStack_key hrecorded
              exact (hrecords₁ _ ⟨id, hid, hsame⟩).append_left
            | false =>
              cases hget : (judgeOwnership (sightings.flatMap (·.resources)) ownership).get?
                  failure.key with
              | none => exact (hrecords₄ failure hearlier hrecorded hget).append_right.append_right
              | some kept =>
                rw [← List.append_assoc]
                exact (judged_recorded hget hrecords₁ hrecords₃).append_left
          · intro error emitted trace _ outcome heq
            cases heq
        · -- a failure of the stack, of a surface or of a resource fails the step
          have hfails : Returns (do
              let _ ← recordVanishedFailures sightings
                (judgeOwnership (sightings.flatMap (·.resources)) ownership)
                ownership.recordedStackId (earlierDeleteFailures (foldCleanupActions before))
                (recordDeletion mode)
              return outcomeFromFailures
                (stackFailures ++ sightings.flatMap (·.reasons) ++ failures))
              fun outcome => outcome.status ≠ .succeeded := by
            refine Yields.bind (Q := fun _ => True) (fun start =>
              (recordVanishedFailures_onlyStack _ _ _ _ start).weaken fun _ _ _ _ _ _ => trivial)
              fun _ _ => Yields.pure fun hsucceeded => ?_
            exact hclean (outcomeFromFailures_succeeded.mp hsucceeded)
          refine (hfails _).weaken fun result emitted trace h outcome heq hsucceeded => ?_
          exact absurd hsucceeded (h outcome heq)
      · intro error emitted trace _ outcome heq
        cases heq
    · intro error emitted trace _ outcome heq
      cases heq
  · intro error emitted trace _ outcome heq
    cases heq

end Settling

/-! ## What holds of every entry of a step -/

def EachEntry (P : CleanupActionEntry → Prop) (emitted : List CleanupActionEntry)
    (_ : List CleanupExchange) : Prop :=
  ∀ entry ∈ emitted, P entry

theorem eachEntry_accumulates (P : CleanupActionEntry → Prop) : Accumulates (EachEntry P) where
  nil := fun _ hmem => absurd hmem List.not_mem_nil
  append := by
    intro emitted emitted' trace trace' h h' entry hmem
    exact (List.mem_append.mp hmem).elim (h entry) (h' entry)

abbrev OfStep (step : CleanupStep) : List CleanupActionEntry → List CleanupExchange → Prop :=
  EachEntry fun entry => entry.body.step = step

/-- The entry `recordItem` leaves. -/
def itemEntry (mode : CleanupMode) (step : CleanupStep) (item : ItemAction)
    (occurredAt : UtcMillis) : CleanupActionEntry where
  body :=
    { step := step
      stepStatus := .started
      cleanupMode := mode
      cleanupInduced := item.cleanupInduced
      action := item.action
      resourceType := some item.resourceType
      resourceIdentifier := some item.resourceIdentifier
      ownershipBasis := item.ownershipBasis
      reasons := item.reasons.map conformingReason }
  occurredAt := occurredAt

def CleanupAction.isResource : CleanupAction → Bool
  | .resource _ => true
  | _ => false

section Walk

variable {mode : CleanupMode} {step : CleanupStep} {P : CleanupActionEntry → Prop}

theorem Quiet.eachEntry {α : Type} {m : CleanupM α} (h : Quiet m) : KeepsAccount (EachEntry P) m := by
  refine fun start => (h start).weaken fun _ emitted _ hquiet => ?_
  rw [hquiet.1]
  exact fun _ hmem => absurd hmem List.not_mem_nil

theorem callPort_eachEntry (request : PortCall) : KeepsAccount (EachEntry P) (callPort request) :=
  KeepsAccount.callPort fun _ _ hmem => absurd hmem List.not_mem_nil

theorem recordItem_eachEntry {item : ItemAction}
    (h : ∀ occurredAt, P (itemEntry mode step item occurredAt)) :
    KeepsAccount (EachEntry P) (recordItem mode step item) := by
  refine KeepsAccount.recordAction fun occurredAt trace _ entry hmem => ?_
  rw [List.mem_singleton.mp hmem]
  exact h occurredAt

/-- A step leaves only entries that `P` holds of, when `P` holds of what is recorded for an item
and for a resource with a basis `B` allows. -/
theorem runCleanupStep_each {B : OwnershipBasis → CleanupResourceAction → Prop}
    (hB : ∀ action, ∀ basis ∈ basesByAction action, B basis action)
    (hitem : ∀ item, item.action.isResource = false →
      ∀ occurredAt, P (itemEntry mode step item occurredAt))
    (hresource : ∀ resourceType identifier basis action reasons, B basis action → ∀ occurredAt,
      P (itemEntry mode step (resourceItem resourceType identifier basis action reasons) occurredAt))
    (input : CleanupInput) {fold : CleanupFold}
    (hearlier : ∀ earlier ∈ earlierDeleteFailures fold, B earlier.ownershipBasis .alreadyAbsent) :
    KeepsAccount (EachEntry P) (runCleanupStep step mode input fold (recordItem mode step)) := by
  have hA := eachEntry_accumulates P
  have hreturn : ∀ {α : Type} {item : ItemAction} {value : α}, item.action.isResource = false →
      KeepsAccount (EachEntry P) (do recordItem mode step item; pure value) :=
    fun hother => Keeps.bind hA (recordItem_eachEntry (hitem _ hother)) fun _ => Keeps.pure hA
  cases step with
  | lateEvidenceCutoff | lateAssessmentFreeze | preCleanupSnapshot =>
    exact callPort_eachEntry _
  | consumersDisable =>
    refine Keeps.bind hA (KeepsAccount.collect hA fun mappingId _ => ?_) fun _ => Keeps.pure hA
    refine Keeps.bind hA (disableOne_quiet mappingId).eachEntry fun result => ?_
    cases result <;> exact hreturn rfl
  | barriersReleaseAndExecutionsStop =>
    refine Keeps.bind hA (KeepsAccount.collect hA fun partition _ => ?_) fun _ => ?_
    · refine Keeps.bind hA (callPort_eachEntry _) fun outcome => ?_
      cases outcome <;> exact hreturn rfl
    · refine Keeps.bind hA (KeepsAccount.collect hA fun functionName _ => ?_) fun _ => Keeps.pure hA
      refine Keeps.bind hA (callPort_eachEntry _) fun listing => ?_
      cases listing with
      | error reason => exact hreturn rfl
      | ok arns =>
        refine KeepsAccount.collect hA fun arn _ => ?_
        refine Keeps.bind hA (callPort_eachEntry _) fun outcome => ?_
        cases outcome <;> exact hreturn rfl
  | cleanupInducedTransitionsRecord =>
    refine Keeps.bind hA (KeepsAccount.collect hA fun _ _ => hreturn rfl) fun _ => ?_
    exact Keeps.bind hA (KeepsAccount.collect hA fun _ _ => hreturn rfl) fun _ => Keeps.pure hA
  | dlqEvidenceCapture =>
    refine Keeps.bind hA (callPort_eachEntry _) fun report => ?_
    exact Keeps.bind hA (KeepsAccount.collect hA fun _ _ => hreturn rfl) fun _ => Keeps.pure hA
  | capturedDlqMessagesDelete =>
    change KeepsAccount _ (deleteCapturedDlqMessages _ _ _)
    unfold deleteCapturedDlqMessages
    split
    · exact Keeps.pure hA
    · refine Keeps.bind hA (deleteCaptured_quiet _ _).eachEntry fun report => ?_
      refine Keeps.bind hA (KeepsAccount.collect hA fun _ _ => hreturn rfl) fun _ => ?_
      refine Keeps.bind hA (KeepsAccount.collect hA fun _ _ => hreturn rfl) fun _ => ?_
      exact Keeps.bind hA (KeepsAccount.collect hA fun _ _ => hreturn rfl) fun _ => Keeps.pure hA
  | ownedResourcesDelete =>
    exact deleteOwnedResources_keeps hA hB Quiet.eachEntry
      (fun _ _ _ _ _ hbasis => recordItem_eachEntry (hresource _ _ _ _ _ hbasis)) _ hearlier
  | discoverySurfacesAudit => exact (auditTotally_quiet.bind fun _ => .pure _).eachEntry
  | stableAbsenceConfirm => exact Keeps.bind hA (Keeps.inspect hA) fun _ => Keeps.pure hA
  | resultsFreeze => exact Keeps.pure hA

theorem runCleanupStep_ofStep (input : CleanupInput) (fold : CleanupFold) :
    KeepsAccount (OfStep step) (runCleanupStep step mode input fold (recordItem mode step)) :=
  runCleanupStep_each (B := fun _ _ => True) (fun _ _ _ => trivial) (fun _ _ _ => rfl)
    (fun _ _ _ _ _ _ _ => rfl) input fun _ _ => trivial

theorem OfStep.outcomes {emitted : List CleanupActionEntry} {trace : List CleanupExchange}
    (h : OfStep step emitted trace) (hstep : step ≠ .ownedResourcesDelete) :
    outcomesIn emitted = [] := by
  refine List.filterMap_eq_nil_iff.mpr fun entry hmem => ?_
  have hother : ¬ entry.body.step = .ownedResourcesDelete := by
    rw [h entry hmem]
    exact hstep
  unfold resourceEntryOf
  split
  · rw [if_neg hother]
  · rfl

end Walk

/-! ## One run -/

/-- With step 9 succeeded, no resource is left as not deleted. -/
def DeletionSettled : Prop :=
  HasSucceeded entries .ownedResourcesDelete → NoDeleteFailed entries

/-- The same of every first part of the entries, whatever of the end is lost. -/
def AlwaysSettled : Prop :=
  ∀ first, first <+: entries → DeletionSettled first

theorem AlwaysSettled.append {entries more : List CleanupActionEntry} (h : AlwaysSettled entries)
    (hmore : ∀ first, first <+: more → DeletionSettled (entries ++ first)) :
    AlwaysSettled (entries ++ more) := by
  intro first hfirst
  rcases List.prefix_or_prefix_of_prefix hfirst (List.prefix_append entries more) with
    hwithin | ⟨rest, rfl⟩
  · exact h first hwithin
  · exact hmore rest ((List.prefix_append_right_inj entries).mp hfirst)

theorem AlwaysSettled.append_other {entries more : List CleanupActionEntry}
    (h : AlwaysSettled entries) (hstatus : stepEntries .ownedResourcesDelete more = [])
    (houtcomes : outcomesIn more = []) : AlwaysSettled (entries ++ more) := by
  refine h.append fun first hfirst hsucceeded => ?_
  have hstatus' : stepEntries .ownedResourcesDelete first = [] :=
    List.prefix_nil.mp (hstatus ▸ hfirst.filter _)
  have houtcomes' : outcomesIn first = [] :=
    List.prefix_nil.mp (houtcomes ▸ hfirst.filterMap _)
  rw [HasSucceeded, latestStatus_append hstatus'] at hsucceeded
  unfold NoDeleteFailed
  rw [foldResources_append houtcomes']
  exact h entries List.prefix_rfl hsucceeded

section Run

variable {mode : CleanupMode} {input : CleanupInput} {start : List CleanupActionEntry}

theorem IsStepEntry.outcomes {status : StepStatus} {entry : CleanupActionEntry}
    (h : IsStepEntry step status entry) : outcomesIn [entry] = [] := by
  obtain ⟨-, haction, -⟩ := h
  simp [outcomesIn, resourceEntryOf, haction]

theorem started_not_succeeded {entries middle : List CleanupActionEntry}
    {first : CleanupActionEntry} (hfirst : IsStepEntry step .started first)
    (hmiddle : stepEntries step middle = []) :
    ¬ HasSucceeded (entries ++ first :: middle) step := by
  obtain ⟨hstep, haction, hstatus, -⟩ := hfirst
  rw [HasSucceeded, List.append_cons, latestStatus_append hmiddle,
    latestStatus_concat hstep haction, hstatus]
  intro heq
  cases heq

/-- Step 9 keeps the account, whether it succeeds, fails or throws. -/
theorem runDeletion_settled : Logs start
    (runStep mode input .ownedResourcesDelete) fun result emitted _ => result = .ok () ∧
      (AlwaysSettled (input.history ++ start) →
        AlwaysSettled (input.history ++ start ++ emitted)) := by
  have hstep : ∀ start, Logs start
      (runCleanupStep .ownedResourcesDelete mode input (foldCleanupActions (input.history ++ start))
        (recordItem mode .ownedResourcesDelete)) fun result emitted _ =>
      stepEntries .ownedResourcesDelete emitted = [] ∧
        ∀ outcome, result = .ok outcome → outcome.status = .succeeded →
          NoDeleteFailed (input.history ++ start ++ emitted) := by
    intro start
    refine ((runCleanupStep_account input _ start).both
      (deleteOwnedResources_settles input.ownership (input.history ++ start))).weaken ?_
    rintro result emitted trace ⟨hacc, hsettles⟩
    refine ⟨List.filter_eq_nil_iff.mpr fun entry hmem => ?_, hsettles⟩
    simp [hacc.inner entry hmem]
  refine (runStep_emits (Q := fun result start emitted =>
    stepEntries .ownedResourcesDelete emitted = [] ∧ ∀ outcome, result = .ok outcome →
      outcome.status = .succeeded → NoDeleteFailed (input.history ++ start ++ emitted))
    hstep).weaken ?_
  rintro result emitted trace ⟨hok, -, -, first, middle, last, status, outcome, rfl, hfirst, hlast,
    ⟨hinner, hsettles⟩, hout⟩
  refine ⟨hok, fun halways => ?_⟩
  have hshape : input.history ++ start ++ (first :: middle ++ [last]) =
      (input.history ++ start ++ first :: middle) ++ [last] := by simp
  have hbefore : AlwaysSettled (input.history ++ start ++ first :: middle) := by
    refine halways.append fun part hpart hsucceeded => ?_
    cases part with
    | nil =>
      rw [List.append_nil] at hsucceeded ⊢
      exact halways _ List.prefix_rfl hsucceeded
    | cons head rest =>
      obtain ⟨rfl, hrest⟩ := List.cons_prefix_cons.mp hpart
      have hnone : stepEntries .ownedResourcesDelete rest = [] :=
        List.prefix_nil.mp (hinner ▸ hrest.filter _)
      exact absurd hsucceeded (started_not_succeeded hfirst hnone)
  rw [hshape]
  refine hbefore.append fun part hpart hsucceeded => ?_
  rcases List.prefix_concat_iff.mp (show part <+: [] ++ [last] from hpart) with rfl | hnil
  · rw [List.nil_append] at hsucceeded ⊢
    rw [hasSucceeded_concat hlast] at hsucceeded
    obtain ⟨value, hvalue, hstatus⟩ := hout hsucceeded
    have hclean := hsettles value hvalue hstatus
    unfold NoDeleteFailed
    rw [foldResources_append hlast.outcomes]
    have hsame : input.history ++ (start ++ [first]) ++ middle =
        input.history ++ start ++ first :: middle := by simp
    rwa [hsame] at hclean
  · obtain rfl := List.prefix_nil.mp hnil
    rw [List.append_nil] at hsucceeded ⊢
    exact hbefore _ List.prefix_rfl hsucceeded

theorem runOther_settled (hother : step ≠ .ownedResourcesDelete) :
    Logs start (runStep mode input step) fun result emitted _ =>
      result = .ok () ∧ (AlwaysSettled (input.history ++ start) →
        AlwaysSettled (input.history ++ start ++ emitted)) := by
  refine (runStep_emits (Q := fun _ _ emitted => outcomesIn emitted = []) fun start =>
    (runCleanupStep_ofStep input _ start).weaken fun _ _ _ h => h.outcomes hother).weaken ?_
  rintro result emitted trace ⟨hok, -, htouches, first, middle, last, status, outcome, rfl, hfirst,
    hlast, hinner, -⟩
  refine ⟨hok, fun halways => halways.append_other (htouches.statuses _ fun hmem => ?_) ?_⟩
  · exact hother (List.mem_singleton.mp hmem).symm
  · rw [← List.singleton_append, List.append_assoc, outcomesIn_append, outcomesIn_append,
      hfirst.outcomes, hinner, hlast.outcomes]
    rfl

theorem runSteps_settled (steps : List CleanupStep) :
    Logs start (runSteps mode input steps) fun result emitted _ =>
      result = .ok () ∧ (AlwaysSettled (input.history ++ start) →
        AlwaysSettled (input.history ++ start ++ emitted)) := by
  refine runSteps_keeps (A := fun before emitted => AlwaysSettled before →
    AlwaysSettled (before ++ emitted)) ?_ ?_ (fun step start => ?_) steps
  · intro before halways
    rwa [List.append_nil]
  · intro before front back hfront hback halways
    rw [← List.append_assoc]
    exact hback (hfront halways)
  · have hrun : Logs start (runStep mode input step) fun result emitted _ =>
        result = .ok () ∧ (AlwaysSettled (input.history ++ start) →
          AlwaysSettled (input.history ++ start ++ emitted)) := by
      by_cases hstep : step = .ownedResourcesDelete
      · subst hstep
        exact runDeletion_settled
      · exact runOther_settled hstep
    refine (runStepIfNeeded_emits hrun fun _ => ⟨rfl, fun halways => ?_⟩).weaken
      fun _ _ _ h => h.1
    rwa [List.append_nil]

/-- The frozen result reports what the entries before the freeze fold to, and the freeze says
nothing about step 9. -/
def Froze (before : List CleanupActionEntry) (result : Except Thrown CleanupRunOutcome)
    (emitted : List CleanupActionEntry) (_ : List CleanupExchange) : Prop :=
  outcomesIn emitted = [] ∧ stepEntries .ownedResourcesDelete emitted = [] ∧
  ∃ outcome, result = .ok outcome ∧
    outcome.cleanupResult.resources = foldResources before ∧
    outcome.cleanupResult.cleanupStatus = deriveCleanupStatus
      (latestStatus before .ownedResourcesDelete) (foldResources before)

theorem freezeEntry_other {status : StepStatus} {entry : CleanupActionEntry}
    (h : IsStepEntry .resultsFreeze status entry) :
    outcomesIn [entry] = [] ∧ stepEntries .ownedResourcesDelete [entry] = [] :=
  ⟨h.outcomes, h.touches.statuses _ (by decide)⟩

theorem freezeRun_froze (runStartedAt : UtcMillis) :
    Logs start (freezeRun mode input runStartedAt) (Froze (input.history ++ start)) := by
  refine (freezeRun_emits runStartedAt).weaken ?_
  rintro result _ trace ⟨-, first, last, status, outcome, startedAt, completedAt, breach, rfl, hfirst,
    hlast, hok, hresult⟩
  obtain ⟨houtcomes, hstatuses⟩ := freezeEntry_other hfirst
  obtain ⟨houtcomes', hstatuses'⟩ := freezeEntry_other hlast
  have hresources : (foldCleanupActions (input.history ++ start ++ [first])).resources =
      foldResources (input.history ++ start) := foldResources_append houtcomes
  have hstatus : stepStatusOf (foldCleanupActions (input.history ++ start ++ [first]))
      .ownedResourcesDelete = latestStatus (input.history ++ start) .ownedResourcesDelete := by
    rw [stepStatusOf_fold, latestStatus_append hstatuses]
  have hboth : ([first, last] : List CleanupActionEntry) = [first] ++ [last] := rfl
  refine ⟨?_, ?_, outcome, hok, ?_, ?_⟩
  · rw [hboth, outcomesIn_append, houtcomes, houtcomes']
    rfl
  · rw [hboth, stepEntries, List.filter_append]
    exact List.append_eq_nil_iff.mpr ⟨hstatuses, hstatuses'⟩
  · rw [hresult]
    exact hresources
  · rw [hresult, ← hstatus, ← hresources]
    rfl

theorem runCleanup_settled : Logs [] (runCleanup mode input)
    fun result emitted _ => (AlwaysSettled input.history → AlwaysSettled (input.history ++ emitted)) ∧
      ∃ outcome, result = .ok outcome ∧
        outcome.cleanupResult.resources = foldResources (input.history ++ emitted) ∧
        outcome.cleanupResult.cleanupStatus = deriveCleanupStatus
          (latestStatus (input.history ++ emitted) .ownedResourcesDelete)
          (foldResources (input.history ++ emitted)) := by
  refine Unfed.bind unfed_clockNow (fun runStartedAt => ?_) fun _ _ _ _ _ h => h
  refine Emits.andThen (runSteps_settled (cleanupStepOrder mode)) ?_
  rintro _ emitted trace ⟨-, hsettled⟩
  rw [List.append_nil] at hsettled
  refine (freezeRun_froze runStartedAt).weaken ?_
  rintro result emitted' trace' ⟨houtcomes, hstatuses, outcome, hok, hresources, hstatus⟩
  rw [List.nil_append, ← foldResources_append houtcomes, List.append_assoc] at hresources hstatus
  rw [← latestStatus_append hstatuses, List.append_assoc] at hstatus
  refine ⟨fun halways => ?_, outcome, hok, hresources, hstatus⟩
  rw [← List.append_assoc]
  exact (hsettled halways).append_other hstatuses houtcomes

end Run

/-! ## Any number of runs, with lost ends -/

def RunRecord.Returned (run : RunRecord) (outcome : CleanupRunOutcome) : Prop :=
  ∃ mode ownership targets findings state',
    Traced ((runCleanup mode ⟨ownership, targets, run.history, findings⟩).run.run
      (RunState.initial ⟨ownership, targets, run.history, findings⟩)) run.trace
      (.ok outcome, state') ∧ state'.entries = run.entries

/-- Cleanup runs of one execution over one journal: each reads the journal or a first part of it,
the rest being lost, and leaves what it read and what it recorded. -/
inductive JournaledRuns : List RunRecord → List CleanupActionEntry → Prop where
  | none : JournaledRuns [] []
  | next {runs : List RunRecord} {journal : List CleanupActionEntry} {run : RunRecord}
      {outcome : CleanupRunOutcome} (hbefore : JournaledRuns runs journal)
      (hhistory : run.history <+: journal) (hreturned : run.Returned outcome) :
      JournaledRuns (runs ++ [run]) (run.history ++ run.entries)

section Sequences

variable {runs : List RunRecord} {run : RunRecord} {journal : List CleanupActionEntry}
  {outcome : CleanupRunOutcome}

theorem RunRecord.Returned.settled (h : run.Returned outcome) :
    (AlwaysSettled run.history → AlwaysSettled (run.history ++ run.entries)) ∧
    outcome.cleanupResult.resources = foldResources (run.history ++ run.entries) ∧
    outcome.cleanupResult.cleanupStatus = deriveCleanupStatus
      (latestStatus (run.history ++ run.entries) .ownedResourcesDelete)
      (foldResources (run.history ++ run.entries)) := by
  obtain ⟨mode, ownership, targets, findings, state', htraced, hentries⟩ := h
  obtain ⟨emitted, hemitted, hsettled, frozen, hok, hfrozen⟩ := runCleanup_settled _ rfl _ _ htraced
  obtain rfl : emitted = run.entries := hemitted.symm.trans hentries
  obtain rfl := Except.ok.inj hok
  exact ⟨hsettled, hfrozen⟩

theorem JournaledRuns.settled (h : JournaledRuns runs journal) : AlwaysSettled journal ∧
    ∀ run ∈ runs, AlwaysSettled (run.history ++ run.entries) := by
  induction h with
  | none =>
    refine ⟨fun first hfirst hsucceeded => ?_, fun _ hmem => absurd hmem List.not_mem_nil⟩
    rw [List.prefix_nil.mp hfirst] at hsucceeded
    cases hsucceeded
  | @next runs journal run outcome hbefore hhistory hreturned ih =>
    have hread : AlwaysSettled run.history := fun first hfirst => ih.1 first (hfirst.trans hhistory)
    have hleft := hreturned.settled.1 hread
    refine ⟨hleft, fun other hmem => ?_⟩
    rcases List.mem_append.mp hmem with hmem | hmem
    · exact ih.2 other hmem
    · rw [List.mem_singleton.mp hmem]
      exact hleft

theorem deriveCleanupStatus_succeeded {status : Option StepStatus} {resources : List CleanupResource} :
    deriveCleanupStatus status resources = .succeeded ↔
      status = some (.ended .succeeded) ∧ ∀ resource ∈ resources, resource.action ≠ .deleteFailed := by
  unfold deriveCleanupStatus
  by_cases hany : resources.any (·.action = .deleteFailed) = true
  · rw [if_pos hany]
    obtain ⟨resource, hmem, hfailed⟩ := List.any_eq_true.mp hany
    refine ⟨fun heq => (by cases heq), fun h => ?_⟩
    exact absurd (of_decide_eq_true hfailed) (h.2 resource hmem)
  · rw [if_neg hany]
    have hnone : ∀ resource ∈ resources, resource.action ≠ .deleteFailed := fun resource hmem hfailed =>
      hany (List.any_eq_true.mpr ⟨resource, hmem, decide_eq_true hfailed⟩)
    by_cases hstatus : status = some (.ended .succeeded)
    · rw [if_pos hstatus]
      exact ⟨fun _ => ⟨hstatus, hnone⟩, fun _ => rfl⟩
    · rw [if_neg hstatus]
      exact ⟨fun heq => (by cases heq), fun h => absurd h.1 hstatus⟩

/-- In every sequence of cleanup runs of one execution, each reading the journal or a first part
of it, in either mode and whatever the ports answer or throw: when step 9 counts as succeeded at
the end of a run, no resource is folded as not deleted; the frozen result reports the resources
so folded, and its status is succeeded exactly when step 9 is, never beside a resource that was
not deleted. -/
theorem succeeded_deletion_reports_no_failure (h : JournaledRuns runs journal) (hmem : run ∈ runs) :
    (stepStatusOf (foldCleanupActions (run.history ++ run.entries)) .ownedResourcesDelete =
        some (.ended .succeeded) →
      ∀ resource ∈ (foldCleanupActions (run.history ++ run.entries)).resources,
        resource.action ≠ .deleteFailed) ∧
    ∀ outcome, run.Returned outcome →
      outcome.cleanupResult.resources =
        (foldCleanupActions (run.history ++ run.entries)).resources ∧
      (outcome.cleanupResult.cleanupStatus = .succeeded ↔
        stepStatusOf (foldCleanupActions (run.history ++ run.entries)) .ownedResourcesDelete =
          some (.ended .succeeded)) ∧
      (outcome.cleanupResult.cleanupStatus = .succeeded →
        ∀ resource ∈ outcome.cleanupResult.resources, resource.action ≠ .deleteFailed) := by
  have hsettled := h.settled.2 run hmem _ List.prefix_rfl
  rw [stepStatusOf_fold]
  refine ⟨hsettled, fun outcome hreturned => ?_⟩
  obtain ⟨-, hresources, hstatus⟩ := hreturned.settled
  rw [hresources, hstatus, deriveCleanupStatus_succeeded]
  refine ⟨rfl, ⟨fun hboth => hboth.1, fun hsucceeded => ⟨hsucceeded, hsettled hsucceeded⟩⟩, ?_⟩
  exact fun hboth => hboth.2

end Sequences

def stuckPorts (roles : List DiscoveredResource) : (request : CleanupCall) → CleanupReply request
  | .port (.query .roles) => .ok (.ok roles)
  | .port (.query _) => .ok (.ok [])
  | .port (.delete resource) => .ok (.failed ⟨"DELETE_CONFLICT", resource.identifier⟩)
  | .port _ => .error ()
  | .append _ => .appended 3
  | .now => (3 : UtcMillis)
  | .totalTargetExceeded => false

def stuckEnd (history : List CleanupActionEntry) (roles : List DiscoveredResource) :=
  ((runCleanup .normal ⟨failedProvisioning, ⟨[], [], [], []⟩, history, []⟩).run.run
    (RunState.initial ⟨failedProvisioning, ⟨[], [], [], []⟩, history, []⟩)).answered
    (stuckPorts roles)

def stuckRun (history : List CleanupActionEntry) (roles : List DiscoveredResource) : RunRecord :=
  ⟨history, (stuckEnd history roles).1, (stuckEnd history roles).2.2.entries⟩

theorem JournaledRuns.then_stuck {runs : List RunRecord} {journal : List CleanupActionEntry}
    (h : JournaledRuns runs journal) (roles : List DiscoveredResource)
    (hok : (stuckEnd journal roles).2.1.toOption.isSome = true) :
    JournaledRuns (runs ++ [stuckRun journal roles])
      (journal ++ (stuckRun journal roles).entries) := by
  have htraced := Program.answered_traced (stuckPorts roles)
    ((runCleanup .normal ⟨failedProvisioning, ⟨[], [], [], []⟩, journal, []⟩).run.run
      (RunState.initial ⟨failedProvisioning, ⟨[], [], [], []⟩, journal, []⟩))
  cases hend : (stuckEnd journal roles).2.1 with
  | ok outcome =>
    have hreturned : (stuckRun journal roles).Returned outcome := by
      refine ⟨.normal, failedProvisioning, ⟨[], [], [], []⟩, [], (stuckEnd journal roles).2.2, ?_,
        rfl⟩
      rw [← hend]
      exact htraced
    exact .next h List.prefix_rfl hreturned
  | error thrown =>
    rw [hend] at hok
    cases hok

def vanishedRole : List RunRecord :=
  [stuckRun [] [strayRole]] ++ [stuckRun (stuckRun [] [strayRole]).entries []]

theorem journaledRuns_vanishedRole : JournaledRuns vanishedRole
    ((stuckRun [] [strayRole]).entries ++ (stuckRun (stuckRun [] [strayRole]).entries []).entries) := by
  have hfirst := JournaledRuns.none.then_stuck [strayRole] (by decide +kernel)
  rw [List.nil_append, List.nil_append] at hfirst
  exact hfirst.then_stuck [] (by decide +kernel)

theorem vanished_role_settled :
    (∃ resource ∈ (foldCleanupActions (stuckRun [] [strayRole]).entries).resources,
      resource.action = .deleteFailed) ∧
    ∀ run ∈ vanishedRole, run.history ≠ [] →
      ∀ resource ∈ (foldCleanupActions (run.history ++ run.entries)).resources,
        resource.action ≠ .deleteFailed := by
  refine ⟨by decide +kernel, fun run hmem hlater => ?_⟩
  refine (succeeded_deletion_reports_no_failure journaledRuns_vanishedRole hmem).1 ?_
  rcases List.mem_append.mp hmem with hmem | hmem
  · rw [List.mem_singleton.mp hmem] at hlater
    exact absurd rfl hlater
  · rw [List.mem_singleton.mp hmem]
    decide +kernel

end RefundStudy.Cleanup
