/-
  The equality of the compared trials (`study-comparison/equality-evaluation.ts`, BR-RUA-007,
  design 8.14).
-/
import RefundStudy.Fidelity.View
import RefundStudy.Foundation.Grouping
import RefundStudy.Record.StructuralEquality

set_option autoImplicit false

namespace RefundStudy.Comparison

open Foundation Record Store Ingestion
open Fidelity (PreservationVerdict)

/-! ## Inputs -/

inductive VariantId where
  | conventional
  | durable
  deriving DecidableEq

/-- `EQUALITY_PROJECTION_IDS`. -/
inductive EqualityProjectionId where
  | financialInputs
  | controlParameters
  | treatmentParameters
  | messageSourceProtocol
  | providerConfiguration
  | controllerConfiguration
  | callerTiming
  | observationWindow
  deriving DecidableEq

def EqualityProjectionId.text : EqualityProjectionId → String
  | .financialInputs => "financial_inputs"
  | .controlParameters => "control_parameters"
  | .treatmentParameters => "treatment_parameters"
  | .messageSourceProtocol => "message_source_protocol"
  | .providerConfiguration => "provider_configuration"
  | .controllerConfiguration => "controller_configuration"
  | .callerTiming => "caller_timing"
  | .observationWindow => "observation_window"

/-- Members with distinct names and values JSON represents. -/
abbrev JsonObject : Type :=
  { members : InsertionMap JsString JsonDocument // Representable (.object members) }

/-- `Object.keys(fields)`. -/
def fieldNames (fields : JsonObject) : List JsString := fields.val.map Prod.fst

def ownValue (fields : JsonObject) (field : JsString) : Option JsonDocument := fields.val.get? field

structure ProjectionSheet where
  common : JsonObject
  withinVariant : JsonObject
  evidenceRefs : List Ingestion.EvidenceRef

/-- `'common' | 'within_variant'`. -/
inductive SheetPart where
  | common
  | withinVariant

def ProjectionSheet.part (sheet : ProjectionSheet) : SheetPart → JsonObject
  | .common => sheet.common
  | .withinVariant => sheet.withinVariant

/-- A sheet, or one or more reasons why there is none. -/
inductive ProjectionInput where
  | sheet (sheet : ProjectionSheet)
  | missing (first : StructuredReason) (rest : List StructuredReason)

structure ComparisonTrialInputs where
  trialId : Uuid4
  variantId : VariantId
  scenario : Scenario
  projections : EqualityProjectionId → ProjectionInput

inductive DeclaredVariantValue where
  | string (value : JsString)
  | number (value : FiniteDouble)
  | bool (value : Bool)

def DeclaredVariantValue.document : DeclaredVariantValue → JsonDocument
  | .string value => .string value
  | .number value => .number (.finite value)
  | .bool value => .bool value

structure DeclaredVariantDifference where
  parameter : JsString
  conventional : DeclaredVariantValue
  durable : DeclaredVariantValue

def DeclaredVariantDifference.value (declaration : DeclaredVariantDifference) :
    VariantId → DeclaredVariantValue
  | .conventional => declaration.conventional
  | .durable => declaration.durable

/-! ## Evaluation -/

def runTrialOrder : List (VariantId × Scenario) :=
  [(.conventional, .control), (.durable, .control), (.conventional, .commitThenTimeout),
    (.durable, .commitThenTimeout)]

def projectionScenario : EqualityProjectionId → Option Scenario
  | .controlParameters => some .control
  | .treatmentParameters => some .commitThenTimeout
  | _ => none

variable (id : EqualityProjectionId)

/-- `scenario === undefined || trial.scenario === scenario`. -/
def coversScenario (scenario : Scenario) : Bool :=
  match projectionScenario id with
  | none => true
  | some restricted => scenario == restricted

/-- `DECLARABLE_PROJECTIONS`. -/
def isDeclarable : EqualityProjectionId → Bool
  | .messageSourceProtocol => true
  | .callerTiming => true
  | _ => false

structure CoveredSheet where
  trial : ComparisonTrialInputs
  sheet : ProjectionSheet

structure ProjectionDifference where
  field : JsString
  declared : Bool
  values : List (Uuid4 × JsonDocument)

/-- The reasons of a result that is no pass, with what their texts are made of. -/
inductive EqualityReason where
  | undeclaredDifference (id : EqualityProjectionId) (field : JsString)
      (values : List (Uuid4 × JsonDocument))
  | coverageGap (id : EqualityProjectionId) (covered expected : Nat)
  | missingInput (reason : StructuredReason)

structure EqualityProjection where
  projectionId : EqualityProjectionId
  result : PreservationVerdict
  comparedFields : List JsString
  differences : List ProjectionDifference
  evidenceRefs : List Ingestion.EvidenceRef

structure ProjectionOutcome where
  projection : EqualityProjection
  reasons : List EqualityReason

structure EqualityAssessment where
  projections : List EqualityProjection
  equalityResult : PreservationVerdict
  reasons : List EqualityReason

def absentValue : String := "<absent>"

def nullValue : String := "<null>"

def reported : Option JsonDocument → JsonDocument
  | none => .string (jsString absentValue)
  | some .null => .string (jsString nullValue)
  | some value => value

/-- `trial.projections[id]` is a sheet. -/
def sheetOf (trial : ComparisonTrialInputs) : Option CoveredSheet :=
  match trial.projections id with
  | .sheet sheet => some ⟨trial, sheet⟩
  | .missing _ _ => none

/-- `input.missing`. -/
def missingOf (trial : ComparisonTrialInputs) : List EqualityReason :=
  match trial.projections id with
  | .sheet _ => []
  | .missing first rest => (first :: rest).map .missingInput

def variantGroups (sheets : List CoveredSheet) : List (List CoveredSheet) :=
  [VariantId.conventional, .durable].map fun variant =>
    sheets.filter fun covered => covered.trial.variantId == variant

section Evaluation

variable (text : NumberText)

def valueKey : Option JsonDocument → List Char
  | none => absentValue.toList
  | some value => canonicalJson text value

def isDeclaredDifference (id : EqualityProjectionId) (field : JsString)
    (values : List (ComparisonTrialInputs × Option JsonDocument))
    (declared : List DeclaredVariantDifference) : Bool :=
  match declared.find? fun difference => difference.parameter == field with
  | none => false
  | some declaration =>
    isDeclarable id && values.all fun shown =>
      match shown.2 with
      | none => false
      | some value =>
        structurallyEqual text value (declaration.value shown.1.variantId).document

def valuesOf (sheets : List CoveredSheet) (part : SheetPart) (field : JsString) :
    List (ComparisonTrialInputs × Option JsonDocument) :=
  sheets.map fun covered => (covered.trial, ownValue (covered.sheet.part part) field)

def fieldDifference (id : EqualityProjectionId) (sheets : List CoveredSheet) (part : SheetPart)
    (declared : List DeclaredVariantDifference) (field : JsString) : Option ProjectionDifference :=
  let values := valuesOf sheets part field
  let keys := (values.map fun shown => valueKey text shown.2).dedup
  if keys.length ≤ 1 then none
  else
    some ⟨field, isDeclaredDifference text id field values declared,
      values.map fun shown => (shown.1.trialId, reported shown.2)⟩

def fieldDifferences (id : EqualityProjectionId) (sheets : List CoveredSheet) (part : SheetPart)
    (declared : List DeclaredVariantDifference) : List ProjectionDifference :=
  let fields := (sheets.flatMap fun covered => fieldNames (covered.sheet.part part)).eraseDups
  fields.filterMap (fieldDifference text id sheets part declared)

def evaluateProjection (id : EqualityProjectionId) (trials : List ComparisonTrialInputs)
    (declared : List DeclaredVariantDifference) : ProjectionOutcome :=
  let covered := trials.filter fun trial => coversScenario id trial.scenario
  let expected := (runTrialOrder.filter fun slot => coversScenario id slot.2).length
  let sheets := covered.filterMap (sheetOf id)
  let gaps : List EqualityReason :=
    (if covered.length = expected then [] else [.coverageGap id covered.length expected]) ++
      covered.flatMap (missingOf id)
  let differences := fieldDifferences text id sheets .common declared ++
    (variantGroups sheets).flatMap fun group => fieldDifferences text id group .withinVariant declared
  let undeclared := (differences.filter fun difference => !difference.declared).map fun difference =>
    EqualityReason.undeclaredDifference id difference.field difference.values
  let result : PreservationVerdict :=
    if 0 < undeclared.length then .fail else if 0 < gaps.length then .indeterminate else .pass
  let compared := (sheets.flatMap fun covered =>
    fieldNames covered.sheet.common ++ fieldNames covered.sheet.withinVariant).eraseDups
  { projection :=
      { projectionId := id
        result := result
        comparedFields := if 0 < compared.length then compared else [jsString id.text]
        differences := differences
        evidenceRefs := canonicalRefs (sheets.flatMap fun covered => covered.sheet.evidenceRefs) }
    reasons := undeclared ++ gaps }

def equalityProjectionIds : List EqualityProjectionId :=
  [.financialInputs, .controlParameters, .treatmentParameters, .messageSourceProtocol,
    .providerConfiguration, .controllerConfiguration, .callerTiming, .observationWindow]

def failedResult (projections : List EqualityProjection) : PreservationVerdict :=
  if projections.any fun projection => decide (projection.result = .fail) then .fail
  else .indeterminate

def evaluateEquality (trials : List ComparisonTrialInputs)
    (declared : List DeclaredVariantDifference) : EqualityAssessment :=
  let outcomes := equalityProjectionIds.map fun id => evaluateProjection text id trials declared
  let projections := outcomes.map ProjectionOutcome.projection
  match outcomes.flatMap ProjectionOutcome.reasons with
  | [] => ⟨projections, .pass, []⟩
  | first :: rest => ⟨projections, failedResult projections, first :: rest⟩

end Evaluation

/-! ## What a pass stands for -/

/-- Two trials show the same for a field: nothing, or structurally equal values. -/
def ShowsSame : Option JsonDocument → Option JsonDocument → Prop
  | none, none => True
  | some first, some second => structuralForm first = structuralForm second
  | _, _ => False

structure HasSheet (id : EqualityProjectionId) (trials : List ComparisonTrialInputs)
    (covered : CoveredSheet) : Prop where
  mem : covered.trial ∈ trials
  covers : coversScenario id covered.trial.scenario = true
  sheet : covered.trial.projections id = .sheet covered.sheet

/-- The two trials are compared on the fields of this part. -/
def Compared (part : SheetPart) (first second : CoveredSheet) : Prop :=
  part = .withinVariant → first.trial.variantId = second.trial.variantId

def Shows (part : SheetPart) (field : JsString) (covered : CoveredSheet) (value : JsonDocument) :
    Prop :=
  ∃ shown, ownValue (covered.sheet.part part) field = some shown ∧
    structuralForm shown = structuralForm value

def coveredTrials (trials : List ComparisonTrialInputs) : List ComparisonTrialInputs :=
  trials.filter fun trial => coversScenario id trial.scenario

def coveredSlots : List (VariantId × Scenario) :=
  runTrialOrder.filter fun slot => coversScenario id slot.2

/-- Every trial the projection must cover has a sheet, and every field that a sheet names has one
value across the trials it is compared on, or is a declared difference that each of them shows. -/
structure Agreement (trials : List ComparisonTrialInputs)
    (declared : List DeclaredVariantDifference) (id : EqualityProjectionId) : Prop where
  sheets : ∀ trial ∈ coveredTrials id trials, ∃ sheet, HasSheet id trials ⟨trial, sheet⟩
  count : (coveredTrials id trials).length = (coveredSlots id).length
  slots : ((coveredTrials id trials).map fun trial => (trial.variantId, trial.scenario)).Nodup →
    ∀ slot ∈ coveredSlots id, ∃ covered, HasSheet id trials covered ∧
      (covered.trial.variantId, covered.trial.scenario) = slot
  fields : ∀ (part : SheetPart) (naming : CoveredSheet) (field : JsString),
    HasSheet id trials naming → field ∈ fieldNames (naming.sheet.part part) →
    (∃ value, ∀ other, HasSheet id trials other → Compared part naming other →
      Shows part field other value) ∨
    (isDeclarable id = true ∧ ∃ declaration ∈ declared, declaration.parameter = field ∧
      ∀ other, HasSheet id trials other → Compared part naming other →
        Shows part field other (declaration.value other.trial.variantId).document)

section Values

variable {text : NumberText}

theorem ownValue_representable {fields : JsonObject} {field : JsString} {value : JsonDocument}
    (h : ownValue fields field = some value) : Representable value := by
  have hmem := InsertionMap.mem_of_get? h
  cases fields.property with
  | object _ hmembers => exact hmembers (field, value) hmem

theorem ownValue_of_mem {fields : JsonObject} {field : JsString}
    (h : field ∈ fieldNames fields) : ∃ value, ownValue fields field = some value := by
  obtain ⟨⟨name, value⟩, hmem, rfl⟩ := List.mem_map.mp h
  cases fields.property with
  | object hdistinct _ => exact ⟨value, InsertionMap.get?_of_mem hdistinct hmem⟩

theorem mem_fieldNames {fields : JsonObject} {field : JsString} {value : JsonDocument}
    (h : ownValue fields field = some value) : field ∈ fieldNames fields :=
  List.mem_map.mpr ⟨(field, value), InsertionMap.mem_of_get? h, rfl⟩

theorem DeclaredVariantValue.representable (value : DeclaredVariantValue) :
    Representable value.document := by
  cases value with
  | string value => exact .string value
  | number value => exact .number rfl
  | bool value => exact .bool value

theorem structurallyEqual_iff (law : text.Lawful) (hprints : PrintsJson text)
    {first second : JsonDocument} (hfirst : Representable first) (hsecond : Representable second) :
    structurallyEqual text first second = true ↔ structuralForm first = structuralForm second := by
  rw [structurallyEqual, beq_iff_eq]
  exact canonicalJson_eq_iff law hprints hfirst hsecond

/-- Keys are equal exactly when the trials show the same: the marker of an absent value is no
canonical text. -/
theorem valueKey_eq_iff (law : text.Lawful) (hprints : PrintsJson text)
    {first second : Option JsonDocument} (hfirst : ∀ value ∈ first, Representable value)
    (hsecond : ∀ value ∈ second, Representable value) :
    valueKey text first = valueKey text second ↔ ShowsSame first second := by
  have hmarker : absentValue.toList = '<' :: "absent>".toList := by decide
  cases first with
  | none =>
    cases second with
    | none => exact ⟨fun _ => trivial, fun _ => rfl⟩
    | some value =>
      refine ⟨fun h => ?_, fun h => h.elim⟩
      simp only [valueKey, hmarker] at h
      exact absurd h.symm (canonicalJson_ne_bracket law (hsecond value rfl) _)
  | some value =>
    cases second with
    | none =>
      refine ⟨fun h => ?_, fun h => h.elim⟩
      simp only [valueKey, hmarker] at h
      exact absurd h (canonicalJson_ne_bracket law (hfirst value rfl) _)
    | some other => exact canonicalJson_eq_iff law hprints (hfirst value rfl) (hsecond other rfl)

end Values

/-! ## Undeclared differences -/

section Undeclared

variable (text : NumberText) (id : EqualityProjectionId)
  (declared : List DeclaredVariantDifference)

/-- The sheets differ on the field and the difference is not declared. -/
def Undeclared (sheets : List CoveredSheet) (part : SheetPart) (field : JsString) : Prop :=
  (∃ first ∈ sheets, ∃ second ∈ sheets,
    valueKey text (ownValue (first.sheet.part part) field) ≠
      valueKey text (ownValue (second.sheet.part part) field)) ∧
  isDeclaredDifference text id field (valuesOf sheets part field) declared = false

/-- What a projection compares: the common fields of all sheets, the others variant by variant. -/
def comparisons (sheets : List CoveredSheet) : List (SheetPart × List CoveredSheet) :=
  (.common, sheets) :: (variantGroups sheets).map fun group => (.withinVariant, group)

variable {text id declared}

theorem two_keys_iff {sheets : List CoveredSheet} {part : SheetPart} {field : JsString} :
    1 < ((valuesOf sheets part field).map fun shown => valueKey text shown.2).dedup.length ↔
      ∃ first ∈ sheets, ∃ second ∈ sheets,
        valueKey text (ownValue (first.sheet.part part) field) ≠
          valueKey text (ownValue (second.sheet.part part) field) := by
  rw [one_lt_length_dedup]
  simp only [valuesOf, List.map_map, List.mem_map, Function.comp_apply]
  constructor
  · intro h
    obtain ⟨_, ⟨first, hfirst, rfl⟩, _, ⟨second, hsecond, rfl⟩, hne⟩ := h
    exact ⟨first, hfirst, second, hsecond, hne⟩
  · intro h
    obtain ⟨first, hfirst, second, hsecond, hne⟩ := h
    exact ⟨_, ⟨first, hfirst, rfl⟩, _, ⟨second, hsecond, rfl⟩, hne⟩

theorem named_of_ne {sheets : List CoveredSheet} {part : SheetPart} {field : JsString}
    {first second : CoveredSheet} (hfirst : first ∈ sheets) (hsecond : second ∈ sheets)
    (hne : valueKey text (ownValue (first.sheet.part part) field) ≠
      valueKey text (ownValue (second.sheet.part part) field)) :
    field ∈ (sheets.flatMap fun covered => fieldNames (covered.sheet.part part)).eraseDups := by
  rw [List.mem_eraseDups, List.mem_flatMap]
  cases hvalue : ownValue (first.sheet.part part) field with
  | some value => exact ⟨first, hfirst, mem_fieldNames hvalue⟩
  | none =>
    cases hother : ownValue (second.sheet.part part) field with
    | some value => exact ⟨second, hsecond, mem_fieldNames hother⟩
    | none =>
      rw [hvalue, hother] at hne
      exact absurd rfl hne

theorem exists_undeclared_iff {sheets : List CoveredSheet} {part : SheetPart} :
    (∃ difference ∈ fieldDifferences text id sheets part declared, difference.declared = false) ↔
      ∃ field, Undeclared text id declared sheets part field := by
  constructor
  · intro h
    obtain ⟨difference, hmem, hdeclared⟩ := h
    obtain ⟨field, -, hdifference⟩ := List.mem_filterMap.mp hmem
    unfold fieldDifference at hdifference
    simp only at hdifference
    split at hdifference
    · cases hdifference
    · rename_i hkeys
      obtain rfl := Option.some.inj hdifference
      exact ⟨field, two_keys_iff.mp (by omega), hdeclared⟩
  · intro h
    obtain ⟨field, ⟨first, hfirst, second, hsecond, hne⟩, hdeclared⟩ := h
    have hkeys := two_keys_iff.mpr ⟨first, hfirst, second, hsecond, hne⟩
    have hsome : fieldDifference text id sheets part declared field =
        some ⟨field, isDeclaredDifference text id field (valuesOf sheets part field) declared,
          (valuesOf sheets part field).map fun shown => (shown.1.trialId, reported shown.2)⟩ := by
      unfold fieldDifference
      simp only
      rw [if_neg (by omega)]
    exact ⟨_, List.mem_filterMap.mpr ⟨field, named_of_ne hfirst hsecond hne, hsome⟩, hdeclared⟩

end Undeclared

end RefundStudy.Comparison
