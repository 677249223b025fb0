/-
  What the equality result tells about the trials (`study-comparison/equality-evaluation.ts`,
  BR-RUA-007).
-/
import RefundStudy.Comparison.EqualityEvaluation

set_option autoImplicit false

namespace RefundStudy.Comparison

open Foundation Record Store Ingestion
open Fidelity (PreservationVerdict)

variable {part : SheetPart} {field : JsString}

/-! ## One projection -/

section Projection

variable {text : NumberText} {id : EqualityProjectionId} {trials : List ComparisonTrialInputs}
  {declared : List DeclaredVariantDifference}

def coveredSheets (id : EqualityProjectionId) (trials : List ComparisonTrialInputs) :
    List CoveredSheet :=
  (coveredTrials id trials).filterMap (sheetOf id)

theorem mem_coveredSheets {covered : CoveredSheet} :
    covered ∈ coveredSheets id trials ↔ HasSheet id trials covered := by
  unfold coveredSheets coveredTrials
  rw [List.mem_filterMap]
  constructor
  · intro h
    obtain ⟨trial, hmem, hsheet⟩ := h
    rw [List.mem_filter] at hmem
    unfold sheetOf at hsheet
    split at hsheet
    · rename_i sheet hinput
      obtain rfl := Option.some.inj hsheet
      exact ⟨hmem.1, hmem.2, hinput⟩
    · cases hsheet
  · intro h
    refine ⟨covered.trial, List.mem_filter.mpr ⟨h.mem, h.covers⟩, ?_⟩
    rw [sheetOf, h.sheet]

def HasUndeclared (text : NumberText) (id : EqualityProjectionId)
    (declared : List DeclaredVariantDifference) (sheets : List CoveredSheet) : Prop :=
  ∃ comparison ∈ comparisons sheets, ∃ field,
    Undeclared text id declared comparison.2 comparison.1 field

/-- Every covered trial has a sheet, and there are as many as the run has slots. -/
def NoGaps (id : EqualityProjectionId) (trials : List ComparisonTrialInputs) : Prop :=
  (coveredTrials id trials).length = (coveredSlots id).length ∧
    ∀ trial ∈ coveredTrials id trials, missingOf id trial = []

theorem exists_difference_iff {sheets : List CoveredSheet} :
    (∃ difference ∈ fieldDifferences text id sheets .common declared ++
        (variantGroups sheets).flatMap fun group =>
          fieldDifferences text id group .withinVariant declared,
      difference.declared = false) ↔ HasUndeclared text id declared sheets := by
  unfold HasUndeclared comparisons
  constructor
  · intro h
    obtain ⟨difference, hmem, hdeclared⟩ := h
    rcases List.mem_append.mp hmem with hcommon | hwithin
    · refine ⟨_, List.mem_cons_self, ?_⟩
      exact exists_undeclared_iff.mp ⟨difference, hcommon, hdeclared⟩
    · obtain ⟨group, hgroup, hdifference⟩ := List.mem_flatMap.mp hwithin
      refine ⟨_, List.mem_cons_of_mem _ (List.mem_map_of_mem hgroup), ?_⟩
      exact exists_undeclared_iff.mp ⟨difference, hdifference, hdeclared⟩
  · intro h
    obtain ⟨comparison, hmem, hundeclared⟩ := h
    rcases List.mem_cons.mp hmem with rfl | hwithin
    · obtain ⟨difference, hdifference, hdeclared⟩ := exists_undeclared_iff.mpr hundeclared
      exact ⟨difference, List.mem_append_left _ hdifference, hdeclared⟩
    · obtain ⟨group, hgroup, rfl⟩ := List.mem_map.mp hwithin
      obtain ⟨difference, hdifference, hdeclared⟩ := exists_undeclared_iff.mpr hundeclared
      refine ⟨difference, List.mem_append_right _ ?_, hdeclared⟩
      exact List.mem_flatMap.mpr ⟨group, hgroup, hdifference⟩

theorem evaluateProjection_result (text : NumberText) (id : EqualityProjectionId)
    (trials : List ComparisonTrialInputs) (declared : List DeclaredVariantDifference) :
    (HasUndeclared text id declared (coveredSheets id trials) ∧
      (evaluateProjection text id trials declared).projection.result = .fail ∧
      (evaluateProjection text id trials declared).reasons ≠ []) ∨
    (¬ HasUndeclared text id declared (coveredSheets id trials) ∧ NoGaps id trials ∧
      (evaluateProjection text id trials declared).projection.result = .pass ∧
      (evaluateProjection text id trials declared).reasons = []) ∨
    (¬ HasUndeclared text id declared (coveredSheets id trials) ∧ ¬ NoGaps id trials ∧
      (evaluateProjection text id trials declared).projection.result = .indeterminate ∧
      (evaluateProjection text id trials declared).reasons ≠ []) := by
  have hdiff := @exists_difference_iff text id declared (coveredSheets id trials)
  unfold evaluateProjection
  simp only
  have hsheets : (trials.filter fun trial => coversScenario id trial.scenario).filterMap
      (sheetOf id) = coveredSheets id trials := rfl
  have hcovered : (trials.filter fun trial => coversScenario id trial.scenario) =
      coveredTrials id trials := rfl
  have hslots : (runTrialOrder.filter fun slot => coversScenario id slot.2) = coveredSlots id := rfl
  rw [hsheets, hcovered, hslots]
  generalize hall : fieldDifferences text id (coveredSheets id trials) .common declared ++
    (variantGroups (coveredSheets id trials)).flatMap (fun group =>
      fieldDifferences text id group .withinVariant declared) = differences at hdiff ⊢
  generalize hreasons : (differences.filter fun difference => !difference.declared).map
    (fun difference => EqualityReason.undeclaredDifference id difference.field difference.values) =
      undeclared
  generalize hgaps : (if (coveredTrials id trials).length = (coveredSlots id).length then []
    else [EqualityReason.coverageGap id (coveredTrials id trials).length (coveredSlots id).length]) ++
      (coveredTrials id trials).flatMap (missingOf id) = gaps
  have hundeclared : HasUndeclared text id declared (coveredSheets id trials) ↔ undeclared ≠ [] := by
    rw [← hdiff, ← hreasons, Ne, List.map_eq_nil_iff, List.filter_eq_nil_iff]
    simp
  have hnone : NoGaps id trials ↔ gaps = [] := by
    rw [← hgaps, List.append_eq_nil_iff, List.flatMap_eq_nil_iff]
    unfold NoGaps
    apply and_congr_left
    intro _
    by_cases hcount : (coveredTrials id trials).length = (coveredSlots id).length <;> simp [hcount]
  rw [hundeclared, hnone]
  cases undeclared with
  | cons reason rest => simp
  | nil => cases gaps <;> simp

end Projection

/-! ## The whole evaluation -/

section Whole

variable {text : NumberText} {trials : List ComparisonTrialInputs}
  {declared : List DeclaredVariantDifference}

theorem mem_equalityProjectionIds (id : EqualityProjectionId) : id ∈ equalityProjectionIds := by
  cases id <;> decide

theorem pass_iff : (evaluateEquality text trials declared).equalityResult = .pass ↔
    ∀ id, ¬ HasUndeclared text id declared (coveredSheets id trials) ∧ NoGaps id trials := by
  have hreasons : ((equalityProjectionIds.map fun id =>
        evaluateProjection text id trials declared).flatMap ProjectionOutcome.reasons = []) ↔
      ∀ id, ¬ HasUndeclared text id declared (coveredSheets id trials) ∧ NoGaps id trials := by
    rw [List.flatMap_eq_nil_iff]
    constructor
    · intro h id
      have hnil := h _ (List.mem_map_of_mem (mem_equalityProjectionIds id))
      rcases evaluateProjection_result text id trials declared with
        ⟨-, -, hne⟩ | ⟨hundeclared, hgaps, -⟩ | ⟨-, -, -, hne⟩
      · exact absurd hnil hne
      · exact ⟨hundeclared, hgaps⟩
      · exact absurd hnil hne
    · intro h outcome hmem
      obtain ⟨id, -, rfl⟩ := List.mem_map.mp hmem
      rcases evaluateProjection_result text id trials declared with
        ⟨hundeclared, -⟩ | ⟨-, -, -, hnil⟩ | ⟨-, hgaps, -⟩
      · exact absurd hundeclared (h id).1
      · exact hnil
      · exact absurd (h id).2 hgaps
  rw [← hreasons]
  unfold evaluateEquality
  simp only
  split
  · rename_i hnil
    exact ⟨fun _ => hnil, fun _ => rfl⟩
  · rename_i first rest hcons
    rw [hcons]
    refine ⟨fun h => ?_, fun h => by cases h⟩
    simp only [failedResult] at h
    split at h
    · cases h
    · cases h

theorem fail_iff : (evaluateEquality text trials declared).equalityResult = .fail ↔
    ∃ id, HasUndeclared text id declared (coveredSheets id trials) := by
  have hfails : (((equalityProjectionIds.map fun id =>
        evaluateProjection text id trials declared).map ProjectionOutcome.projection).any
      fun projection => decide (projection.result = .fail)) = true ↔
      ∃ id, HasUndeclared text id declared (coveredSheets id trials) := by
    simp only [List.any_eq_true, List.mem_map, decide_eq_true_eq]
    constructor
    · intro h
      obtain ⟨_, ⟨_, ⟨id, -, rfl⟩, rfl⟩, hfail⟩ := h
      rcases evaluateProjection_result text id trials declared with
        ⟨hundeclared, -⟩ | ⟨-, -, hpass, -⟩ | ⟨-, -, hopen, -⟩
      · exact ⟨id, hundeclared⟩
      · rw [hpass] at hfail
        cases hfail
      · rw [hopen] at hfail
        cases hfail
    · intro h
      obtain ⟨id, hundeclared⟩ := h
      rcases evaluateProjection_result text id trials declared with
        ⟨-, hfail, -⟩ | ⟨hnone, -⟩ | ⟨hnone, -⟩
      · exact ⟨_, ⟨_, ⟨id, mem_equalityProjectionIds id, rfl⟩, rfl⟩, hfail⟩
      · exact absurd hundeclared hnone
      · exact absurd hundeclared hnone
  have hpass := @pass_iff text trials declared
  rw [← hfails]
  unfold evaluateEquality at hpass ⊢
  simp only at hpass ⊢
  split
  · rename_i hnil
    rw [hnil] at hpass
    constructor
    · intro h
      cases h
    · intro h
      obtain ⟨id, hundeclared⟩ := hfails.mp h
      exact absurd hundeclared (hpass.mp rfl id).1
  · simp only [failedResult]
    split
    · rename_i hany
      exact ⟨fun _ => hany, fun _ => rfl⟩
    · rename_i hnone
      constructor
      · intro h
        cases h
      · intro h
        exact absurd h hnone

end Whole

/-! ## Order -/

section Order

variable {text : NumberText} {id : EqualityProjectionId}
  {declared : List DeclaredVariantDifference}

theorem Undeclared.congr {sheets others : List CoveredSheet}
    (hsame : ∀ covered, covered ∈ sheets ↔ covered ∈ others)
    (h : Undeclared text id declared sheets part field) :
    Undeclared text id declared others part field := by
  obtain ⟨⟨first, hfirst, second, hsecond, hne⟩, hdeclared⟩ := h
  refine ⟨⟨first, (hsame first).mp hfirst, second, (hsame second).mp hsecond, hne⟩, ?_⟩
  rw [← hdeclared]
  unfold isDeclaredDifference
  split
  · rfl
  · congr 1
    rw [Bool.eq_iff_iff, List.all_eq_true, List.all_eq_true]
    unfold valuesOf
    simp only [List.mem_map]
    constructor
    · intro hall shown hmem
      obtain ⟨covered, hcovered, rfl⟩ := hmem
      exact hall _ ⟨covered, (hsame covered).mp hcovered, rfl⟩
    · intro hall shown hmem
      obtain ⟨covered, hcovered, rfl⟩ := hmem
      exact hall _ ⟨covered, (hsame covered).mpr hcovered, rfl⟩

theorem HasUndeclared.congr {sheets others : List CoveredSheet}
    (hsame : ∀ covered, covered ∈ sheets ↔ covered ∈ others)
    (h : HasUndeclared text id declared sheets) : HasUndeclared text id declared others := by
  obtain ⟨comparison, hmem, field, hundeclared⟩ := h
  unfold comparisons at hmem
  rcases List.mem_cons.mp hmem with rfl | hwithin
  · exact ⟨_, List.mem_cons_self, field, hundeclared.congr hsame⟩
  · obtain ⟨group, hgroup, rfl⟩ := List.mem_map.mp hwithin
    obtain ⟨variant, hvariant, rfl⟩ := List.mem_map.mp hgroup
    refine ⟨_, List.mem_cons_of_mem _ (List.mem_map_of_mem (List.mem_map_of_mem hvariant)), field, ?_⟩
    apply hundeclared.congr
    intro covered
    rw [List.mem_filter, List.mem_filter, hsame]

theorem NoGaps.perm {trials others : List ComparisonTrialInputs} (hperm : trials.Perm others)
    (h : NoGaps id trials) : NoGaps id others := by
  have hcovered : (coveredTrials id trials).Perm (coveredTrials id others) := hperm.filter _
  refine ⟨hcovered.length_eq ▸ h.1, fun trial hmem => ?_⟩
  exact h.2 trial (hcovered.mem_iff.mpr hmem)

theorem equalityResult_perm {trials others : List ComparisonTrialInputs}
    (hperm : trials.Perm others) :
    (evaluateEquality text trials declared).equalityResult =
      (evaluateEquality text others declared).equalityResult := by
  have hsame : ∀ id covered, covered ∈ coveredSheets id trials ↔ covered ∈ coveredSheets id others := by
    intro id covered
    exact ((hperm.filter _).filterMap (sheetOf id)).mem_iff
  have hfail : (evaluateEquality text trials declared).equalityResult = .fail ↔
      (evaluateEquality text others declared).equalityResult = .fail := by
    rw [fail_iff, fail_iff]
    constructor
    · rintro ⟨id, h⟩
      exact ⟨id, h.congr (hsame id)⟩
    · rintro ⟨id, h⟩
      exact ⟨id, h.congr fun covered => (hsame id covered).symm⟩
  have hpass : (evaluateEquality text trials declared).equalityResult = .pass ↔
      (evaluateEquality text others declared).equalityResult = .pass := by
    rw [pass_iff, pass_iff]
    constructor
    · intro h id
      refine ⟨fun hundeclared => (h id).1 ?_, (h id).2.perm hperm⟩
      exact hundeclared.congr fun covered => (hsame id covered).symm
    · intro h id
      exact ⟨fun hundeclared => (h id).1 (hundeclared.congr (hsame id)), (h id).2.perm hperm.symm⟩
  cases hfirst : (evaluateEquality text trials declared).equalityResult with
  | pass => exact (hpass.mp hfirst).symm
  | fail => exact (hfail.mp hfirst).symm
  | indeterminate =>
    cases hsecond : (evaluateEquality text others declared).equalityResult with
    | pass => rw [hpass.mpr hsecond] at hfirst; cases hfirst
    | fail => rw [hfail.mpr hsecond] at hfirst; cases hfirst
    | indeterminate => rfl

end Order

/-! ## Agreement -/

section Agreements

variable {text : NumberText} {id : EqualityProjectionId} {trials : List ComparisonTrialInputs}
  {declared : List DeclaredVariantDifference}

theorem exists_comparison (id : EqualityProjectionId) (trials : List ComparisonTrialInputs)
    (part : SheetPart) (naming : CoveredSheet) : ∃ group,
    (part, group) ∈ comparisons (coveredSheets id trials) ∧
      ∀ other, other ∈ group ↔ HasSheet id trials other ∧ Compared part naming other := by
  unfold comparisons Compared
  cases part with
  | common =>
    refine ⟨_, List.mem_cons_self, fun other => ?_⟩
    rw [mem_coveredSheets]
    simp
  | withinVariant =>
    refine ⟨(coveredSheets id trials).filter fun covered =>
      covered.trial.variantId == naming.trial.variantId, ?_, fun other => ?_⟩
    · apply List.mem_cons_of_mem
      apply List.mem_map_of_mem
      unfold variantGroups
      rw [List.mem_map]
      refine ⟨naming.trial.variantId, ?_, rfl⟩
      cases naming.trial.variantId <;> decide
    · rw [List.mem_filter, mem_coveredSheets, beq_iff_eq]
      simp [eq_comm]

theorem declared_shows (law : text.Lawful) (hprints : PrintsJson text)
    {sheets : List CoveredSheet}
    (h : isDeclaredDifference text id field (valuesOf sheets part field) declared = true) :
    isDeclarable id = true ∧ ∃ declaration ∈ declared, declaration.parameter = field ∧
      ∀ covered ∈ sheets,
        Shows part field covered (declaration.value covered.trial.variantId).document := by
  unfold isDeclaredDifference at h
  split at h
  · cases h
  · rename_i declaration hfound
    rw [Bool.and_eq_true, List.all_eq_true] at h
    refine ⟨h.1, declaration, List.mem_of_find?_eq_some hfound, ?_, fun covered hcovered => ?_⟩
    · simpa using List.find?_some hfound
    · have hshown := h.2 _ (List.mem_map_of_mem hcovered)
      simp only at hshown
      cases hvalue : ownValue (covered.sheet.part part) field with
      | none =>
        rw [hvalue] at hshown
        cases hshown
      | some value =>
        rw [hvalue] at hshown
        refine ⟨value, hvalue, ?_⟩
        exact (structurallyEqual_iff law hprints (ownValue_representable hvalue)
          (DeclaredVariantValue.representable _)).mp hshown

theorem valueKey_ownValue_eq_iff (law : text.Lawful) (hprints : PrintsJson text)
    {first second : CoveredSheet} :
    valueKey text (ownValue (first.sheet.part part) field) =
        valueKey text (ownValue (second.sheet.part part) field) ↔
      ShowsSame (ownValue (first.sheet.part part) field)
        (ownValue (second.sheet.part part) field) :=
  valueKey_eq_iff law hprints (fun _ h => ownValue_representable h)
    (fun _ h => ownValue_representable h)

theorem slots_covered (hcount : (coveredTrials id trials).length = (coveredSlots id).length)
    (hdistinct : ((coveredTrials id trials).map fun trial =>
      (trial.variantId, trial.scenario)).Nodup) :
    ∀ slot ∈ coveredSlots id, ∃ trial ∈ coveredTrials id trials,
      (trial.variantId, trial.scenario) = slot := by
  have hsub : ((coveredTrials id trials).map fun trial => (trial.variantId, trial.scenario)) ⊆
      coveredSlots id := by
    intro slot hmem
    obtain ⟨trial, htrial, rfl⟩ := List.mem_map.mp hmem
    have hcovers := (List.mem_filter.mp htrial).2
    refine List.mem_filter.mpr ⟨?_, hcovers⟩
    cases trial.variantId <;> cases trial.scenario <;> decide
  have hperm := (List.subperm_of_subset hdistinct hsub).perm_of_length_le (by
    rw [List.length_map]
    omega)
  intro slot hmem
  exact List.mem_map.mp (hperm.mem_iff.mpr hmem)

theorem sheet_of_noGaps (h : NoGaps id trials) :
    ∀ trial ∈ coveredTrials id trials, ∃ sheet, HasSheet id trials ⟨trial, sheet⟩ := by
  intro trial hmem
  have hnone := h.2 trial hmem
  unfold missingOf at hnone
  split at hnone
  · rename_i sheet hsheet
    exact ⟨sheet, (List.mem_filter.mp hmem).1, (List.mem_filter.mp hmem).2, hsheet⟩
  · cases hnone

theorem agreement_of_pass (law : text.Lawful) (hprints : PrintsJson text)
    (h : (evaluateEquality text trials declared).equalityResult = .pass)
    (id : EqualityProjectionId) : Agreement trials declared id := by
  obtain ⟨hundeclared, hgaps⟩ := pass_iff.mp h id
  refine ⟨sheet_of_noGaps hgaps, hgaps.1, fun hdistinct slot hslot => ?_, ?_⟩
  · obtain ⟨trial, htrial, hpair⟩ := slots_covered hgaps.1 hdistinct slot hslot
    obtain ⟨sheet, hsheet⟩ := sheet_of_noGaps hgaps trial htrial
    exact ⟨_, hsheet, hpair⟩
  · intro part naming field hnaming hfield
    obtain ⟨group, hgroup, hmem⟩ := exists_comparison id trials part naming
    by_cases hdeclared : isDeclaredDifference text id field (valuesOf group part field) declared =
        true
    · obtain ⟨hdeclarable, declaration, hdeclaration, hparameter, hshows⟩ :=
        declared_shows law hprints hdeclared
      refine .inr ⟨hdeclarable, declaration, hdeclaration, hparameter, fun other hother hcompared => ?_⟩
      exact hshows other ((hmem other).mpr ⟨hother, hcompared⟩)
    · obtain ⟨value, hvalue⟩ := ownValue_of_mem hfield
      refine .inl ⟨value, fun other hother hcompared => ?_⟩
      have hkey : valueKey text (ownValue (naming.sheet.part part) field) =
          valueKey text (ownValue (other.sheet.part part) field) := by
        by_contra hne
        refine hundeclared ⟨_, hgroup, field, ⟨naming, ?_, other, ?_, hne⟩, by simpa using hdeclared⟩
        · exact (hmem naming).mpr ⟨hnaming, fun _ => rfl⟩
        · exact (hmem other).mpr ⟨hother, hcompared⟩
      rw [valueKey_ownValue_eq_iff law hprints, hvalue] at hkey
      cases hshown : ownValue (other.sheet.part part) field with
      | none =>
        rw [hshown] at hkey
        exact hkey.elim
      | some shown =>
        rw [hshown] at hkey
        exact ⟨shown, hshown, hkey.symm⟩

theorem fail_of_same_variant (law : text.Lawful) (hprints : PrintsJson text)
    {first second : CoveredSheet} (hfirst : HasSheet id trials first)
    (hsecond : HasSheet id trials second)
    (hvariant : first.trial.variantId = second.trial.variantId)
    (hdiffer : ¬ ShowsSame (ownValue (first.sheet.part part) field)
      (ownValue (second.sheet.part part) field)) :
    (evaluateEquality text trials declared).equalityResult = .fail := by
  obtain ⟨group, hgroup, hmem⟩ := exists_comparison id trials part first
  have hfirstMem := (hmem first).mpr ⟨hfirst, fun _ => rfl⟩
  have hsecondMem := (hmem second).mpr ⟨hsecond, fun _ => hvariant⟩
  rw [fail_iff]
  refine ⟨id, _, hgroup, field, ⟨first, hfirstMem, second, hsecondMem, ?_⟩, ?_⟩
  · rw [Ne, valueKey_ownValue_eq_iff law hprints]
    exact hdiffer
  · by_contra hdeclared
    obtain ⟨-, declaration, -, -, hshows⟩ := declared_shows law hprints (by simpa using hdeclared)
    obtain ⟨value, hvalue, hform⟩ := hshows first hfirstMem
    obtain ⟨other, hother, hotherForm⟩ := hshows second hsecondMem
    apply hdiffer
    rw [hvalue, hother]
    rw [hvariant] at hform
    exact hform.trans hotherForm.symm

end Agreements

/-- Trials pass only in agreement on every projection; two trials of one variant that differ on a
field fail whatever is declared; and the order of the trials does not matter. -/
theorem equality_result_sound {text : NumberText} (law : text.Lawful) (hprints : PrintsJson text)
    (trials : List ComparisonTrialInputs) (declared : List DeclaredVariantDifference) :
    ((evaluateEquality text trials declared).equalityResult = .pass →
      ∀ id, Agreement trials declared id) ∧
    (∀ (id : EqualityProjectionId) (part : SheetPart) (field : JsString)
      (first second : CoveredSheet), HasSheet id trials first → HasSheet id trials second →
      first.trial.variantId = second.trial.variantId →
      ¬ ShowsSame (ownValue (first.sheet.part part) field)
        (ownValue (second.sheet.part part) field) →
      (evaluateEquality text trials declared).equalityResult = .fail) ∧
    ∀ others : List ComparisonTrialInputs, trials.Perm others →
      (evaluateEquality text trials declared).equalityResult =
        (evaluateEquality text others declared).equalityResult := by
  refine ⟨agreement_of_pass law hprints, ?_, fun others hperm => equalityResult_perm hperm⟩
  intro id part field first second hfirst hsecond hvariant hdiffer
  exact fail_of_same_variant law hprints hfirst hsecond hvariant hdiffer

/-! The four trials of a run, with one visibility timeout per variant. -/

def oneField (name value : String) : JsonObject :=
  ⟨[(jsString name, .string (jsString value))],
    .object (List.nodup_singleton _) fun member hmem => by
      rw [List.mem_singleton.mp hmem]
      exact .string _⟩

def slotInput (trialId : Uuid4) (variant : VariantId) (scenario : Scenario) (timeout : String) :
    ComparisonTrialInputs where
  trialId := trialId
  variantId := variant
  scenario := scenario
  projections id :=
    .sheet ⟨if id = .messageSourceProtocol then oneField "visibility" timeout
      else oneField "amount" "100.00", oneField "strategy" timeout, []⟩

def slotInputs : List ComparisonTrialInputs :=
  [slotInput 1 .conventional .control "30", slotInput 2 .durable .control "900",
    slotInput 3 .conventional .commitThenTimeout "30", slotInput 4 .durable .commitThenTimeout "900"]

def visibilityDifference : DeclaredVariantDifference :=
  ⟨jsString "visibility", .string (jsString "30"), .string (jsString "900")⟩

theorem slot_inputs_pass_in_agreement :
    (evaluateEquality exactText slotInputs [visibilityDifference]).equalityResult = .pass ∧
      Agreement slotInputs [visibilityDifference] .messageSourceProtocol ∧
      (evaluateEquality exactText slotInputs.reverse [visibilityDifference]).equalityResult =
        .pass := by
  have hpass : (evaluateEquality exactText slotInputs [visibilityDifference]).equalityResult =
      .pass := by decide +kernel
  obtain ⟨hagreement, -, horder⟩ := equality_result_sound exactText_lawful exactText_printsJson
    slotInputs [visibilityDifference]
  refine ⟨hpass, hagreement hpass _, ?_⟩
  rw [← horder _ (List.reverse_perm _).symm]
  exact hpass

end RefundStudy.Comparison
