/-
  What folding a late document keeps and what it adds
  (`trial-oracle/late-evidence/document-folding.ts`, BR-RUA-043).
-/
import RefundStudy.LateEvidence.DocumentFolding

set_option autoImplicit false

namespace RefundStudy.LateEvidence

open Foundation Record Store

/-! ## Views of a form -/

section Views

variable {document : JsonDocument}

theorem naturalOf_positiveZero (value : Double) : naturalOf value.positiveZero = naturalOf value := by
  cases value with
  | nan => rfl
  | infinite negative => rfl
  | finite value => simp [naturalOf, Double.positiveZero]

theorem memberOf_structuralForm (h : Representable document) (name : JsString) :
    memberOf (structuralForm document) name = (memberOf document name).map structuralForm := by
  cases h with
  | object distinct _ =>
    rw [structuralForm_object]
    exact get?_structuralMembers distinct name
  | array => rw [structuralForm_array]; rfl
  | _ => rfl

theorem listOf_structuralForm (h : Representable document) (name : JsString) :
    listOf (structuralForm document) name = (listOf document name).map structuralForm := by
  unfold listOf
  rw [memberOf_structuralForm h]
  cases memberOf document name with
  | none => rfl
  | some value =>
    cases value with
    | array items => simp
    | object members => simp
    | _ => rfl

theorem naturalValue_form (value : Option JsonDocument) :
    naturalValue (value.map structuralForm) = naturalValue value := by
  cases value with
  | none => rfl
  | some value =>
    cases value with
    | number value =>
      simp [naturalValue, structuralForm, canonicalDocument, zeroed, naturalOf_positiveZero]
    | array items => simp [naturalValue]
    | object members => simp [naturalValue]
    | _ => rfl

theorem naturalIn_structuralForm (h : Representable document) (name : JsString) :
    naturalIn (structuralForm document) name = naturalIn document name := by
  rw [naturalIn, memberOf_structuralForm h, naturalValue_form, naturalIn]

theorem isInteger_structuralForm (least : Nat) (value : Option JsonDocument) :
    isInteger least (value.map structuralForm) = isInteger least value := by
  cases value with
  | none => rfl
  | some value =>
    cases value with
    | number value =>
      simp [isInteger, structuralForm, canonicalDocument, zeroed, naturalOf_positiveZero]
    | array items => simp [isInteger]
    | object members => simp [isInteger]
    | _ => rfl

theorem isCursor_structuralForm (value : Option JsonDocument) :
    isCursor (value.map structuralForm) = isCursor value := by
  cases value with
  | none => rfl
  | some value =>
    cases value with
    | array items => simp [isCursor]
    | object members => simp [isCursor]
    | _ => rfl

theorem isLedgerPage_structuralForm (h : Representable document) :
    isLedgerPage (structuralForm document) = isLedgerPage document := by
  cases h with
  | @object members distinct _ =>
    rw [structuralForm_object]
    simp only [isLedgerPage, get?_structuralMembers distinct, isInteger_structuralForm,
      isCursor_structuralForm]
    congr 4
    have hnames : ∀ names : List JsString, ((structuralMembers members).all fun member =>
        names.contains member.1) = members.all fun member => names.contains member.1 := by
      intro names
      have hsame : ((structuralMembers members).map Prod.fst).all (fun name => names.contains name) =
          (members.map Prod.fst).all fun name => names.contains name :=
        (structuralMembers_names members).all_eq
      rwa [List.all_map, List.all_map] at hsame
    exact hnames _
  | array => rw [structuralForm_array]; rfl
  | _ => rfl

theorem isArrayOf_structuralForm {element : JsonDocument → Bool} {value : Option JsonDocument}
    (helement : ∀ item, Representable item → element (structuralForm item) = element item)
    (h : ∀ found ∈ value, Representable found) :
    isArrayOf element (value.map structuralForm) = isArrayOf element value := by
  cases value with
  | none => rfl
  | some value =>
    cases h value rfl with
    | @array items hitems =>
      rw [Option.map_some, structuralForm_array]
      simp only [isArrayOf, List.all_map]
      rw [Bool.eq_iff_iff, List.all_eq_true, List.all_eq_true]
      constructor
      · intro hall item hmem
        rw [← helement item (hitems item hmem)]
        exact hall item hmem
      · intro hall item hmem
        rw [Function.comp_apply, helement item (hitems item hmem)]
        exact hall item hmem
    | object => simp [isArrayOf]
    | _ => rfl

theorem isValid_structuralForm {schemas : FoldSchemas} (hschemas : schemas.SeesForm)
    (fold : DocumentFold) (h : Representable document) :
    isValid schemas fold (structuralForm document) = isValid schemas fold document := by
  cases h with
  | @object members distinct inside =>
    have hmember : ∀ name, ∀ found ∈ InsertionMap.get? members name, Representable found :=
      fun name found hfound => inside (name, found) (InsertionMap.mem_of_get? hfound)
    have hother : Representable (.object (members.filter fun member => isOther fold member.1)) := by
      refine .object ?_ fun member hmem => inside member (List.mem_filter.mp hmem).1
      exact (List.filter_sublist.map Prod.fst).nodup distinct
    rw [structuralForm_object]
    simp only [isValid]
    rw [← structuralMembers_filter, ← structuralForm_object, hschemas.rest fold _ hother,
      get?_structuralMembers distinct, get?_structuralMembers distinct,
      isArrayOf_structuralForm (hschemas.item fold) (hmember _),
      isArrayOf_structuralForm (fun _ => isLedgerPage_structuralForm) (hmember _)]
  | array => rw [structuralForm_array]; rfl
  | _ => rfl

end Views

/-! ## The items a late document adds -/

section Additions

open Classical in
/-- The late items that occur neither in the frozen list nor earlier in the late one. -/
noncomputable def additions (frozen late : List JsonDocument) : List JsonDocument :=
  (late.zipIdx.filter fun entry => decide (structuralForm entry.1 ∉ frozen.map structuralForm ∧
    structuralForm entry.1 ∉ (late.take entry.2).map structuralForm)).map Prod.fst

variable {text : NumberText} {frozen late : List JsonDocument}

theorem mem_map_canonicalJson_iff (law : text.Lawful) (hprints : PrintsJson text)
    {items : List JsonDocument} (hitems : ∀ item ∈ items, Representable item) {value : JsonDocument}
    (hvalue : Representable value) :
    canonicalJson text value ∈ items.map (canonicalJson text) ↔
      structuralForm value ∈ items.map structuralForm := by
  rw [List.mem_map, List.mem_map]
  constructor
  · rintro ⟨item, hmem, heq⟩
    exact ⟨item, hmem, (canonicalJson_eq_iff law hprints (hitems item hmem) hvalue).mp heq⟩
  · rintro ⟨item, hmem, heq⟩
    exact ⟨item, hmem, (canonicalJson_eq_iff law hprints (hitems item hmem) hvalue).mpr heq⟩

/-- Forms are compared classically; the code compares texts. -/
noncomputable local instance : DecidableEq JsonDocument := fun _ _ => Classical.propDecidable _

theorem additions_eq_fresh (frozen late : List JsonDocument) :
    additions frozen late = fresh structuralForm (frozen.map structuralForm) late := by
  have hfilter := @fresh_eq_filter _ _ _ structuralForm (frozen.map structuralForm) late []
  rw [List.map_nil, List.append_nil, List.nil_append, List.length_nil] at hfilter
  rw [hfilter, additions]

theorem newItems_eq_additions (law : text.Lawful) (hprints : PrintsJson text)
    (hfrozen : ∀ item ∈ frozen, Representable item) (hlate : ∀ item ∈ late, Representable item) :
    newItems text frozen late = additions frozen late := by
  rw [additions_eq_fresh]
  refine fresh_congr (fun item hmem => ?_) fun first hfirst second hsecond => ?_
  · exact mem_map_canonicalJson_iff law hprints hfrozen (hlate item hmem)
  · exact canonicalJson_eq_iff law hprints (hlate first hfirst) (hlate second hsecond)

theorem additions_sublist (frozen late : List JsonDocument) :
    (additions frozen late).Sublist late := by
  rw [additions_eq_fresh]
  exact fresh_sublist _ _

theorem mem_additions_forms {form : JsonDocument} :
    form ∈ (additions frozen late).map structuralForm ↔
      form ∈ late.map structuralForm ∧ form ∉ frozen.map structuralForm := by
  rw [additions_eq_fresh]
  exact mem_fresh_keys

theorem additions_eq_nil :
    additions frozen late = [] ↔ ∀ item ∈ late, structuralForm item ∈ frozen.map structuralForm := by
  rw [additions_eq_fresh]
  exact fresh_eq_nil

end Additions

/-! ## The members of the union -/

section Union

variable {members : InsertionMap JsString JsonDocument} {fold : DocumentFold}

theorem memberOf_set_self (name : JsString) (value : JsonDocument) :
    memberOf (.object (members.set name value)) name = some value :=
  InsertionMap.get?_set_self members name value

theorem memberOf_set_of_ne {name other : JsString} (h : other ≠ name) (value : JsonDocument) :
    memberOf (.object (members.set name value)) other = memberOf (.object members) other :=
  InsertionMap.get?_set_of_ne members h value

theorem representable_set {name : JsString} {value : JsonDocument}
    (h : Representable (.object members)) (hvalue : Representable value) :
    Representable (.object (members.set name value)) := by
  cases h with
  | object distinct inside =>
    refine .object (InsertionMap.nodup_set distinct name value) fun member hmem => ?_
    rcases InsertionMap.mem_set hmem with rfl | hold
    · exact hvalue
    · exact inside member hold

theorem memberOf_representable {document value : JsonDocument} {name : JsString}
    (h : Representable document) (hvalue : memberOf document name = some value) :
    Representable value := by
  cases h with
  | object _ inside => exact inside (name, value) (InsertionMap.mem_of_get? hvalue)
  | _ => cases hvalue

theorem listOf_representable {document : JsonDocument} (h : Representable document)
    (name : JsString) : ∀ item ∈ listOf document name, Representable item := by
  intro item hmem
  unfold listOf at hmem
  split at hmem
  · rename_i items hitems
    cases memberOf_representable h hitems with
    | array hall => exact hall item hmem
  · cases hmem

theorem items_ne_pages (fold : DocumentFold) : fold.items ≠ pagesName := by
  cases fold <;> decide

/-- The pages with the last one counting the added items. -/
def pagesAfter (pages : List JsonDocument) (added : Nat) : List JsonDocument :=
  match pages.getLast? with
  | none => []
  | some last => pages.dropLast ++ [countedPage last added]

theorem listOf_set_of_ne {name other : JsString} (h : other ≠ name) (value : JsonDocument) :
    listOf (.object (members.set name value)) other = listOf (.object members) other := by
  unfold listOf
  rw [memberOf_set_of_ne h]

theorem listOf_of_memberOf {document : JsonDocument} {name : JsString} {items : List JsonDocument}
    (h : memberOf document name = some (.array items)) : listOf document name = items := by
  rw [listOf, h]

theorem withLastPageCount_pages {pages : List JsonDocument}
    (h : memberOf (.object members) pagesName = some (.array pages)) (added : Nat) :
    memberOf (.object (withLastPageCount members added)) pagesName =
      some (.array (pagesAfter pages added)) := by
  unfold withLastPageCount pagesAfter
  simp only
  rw [listOf_of_memberOf h]
  cases hlast : pages.getLast? with
  | none =>
    rw [List.getLast?_eq_none_iff.mp hlast] at h
    exact h
  | some last => exact memberOf_set_self _ _

theorem withLastPageCount_other {name : JsString} (h : name ≠ pagesName) (added : Nat) :
    memberOf (.object (withLastPageCount members added)) name =
      memberOf (.object members) name := by
  unfold withLastPageCount
  simp only
  split
  · rfl
  · exact memberOf_set_of_ne h _

variable {frozen added : List JsonDocument}

theorem memberOf_foldedMembers_items :
    memberOf (.object (foldedMembers fold members frozen added)) fold.items =
      some (.array (frozen ++ added)) := by
  unfold foldedMembers
  simp only
  split
  · rw [withLastPageCount_other (items_ne_pages fold), memberOf_set_self]
  · exact memberOf_set_self _ _

theorem memberOf_foldedMembers_other {name : JsString} (h : isOther fold name = true) :
    memberOf (.object (foldedMembers fold members frozen added)) name =
      memberOf (.object members) name := by
  simp only [isOther, Bool.and_eq_true, bne_iff_ne, Bool.not_eq_true', Bool.and_eq_false_iff,
    beq_eq_false_iff_ne] at h
  unfold foldedMembers
  simp only
  split
  · rename_i hledger
    have hpages : name ≠ pagesName := by
      rcases h.2 with hfold | hpages
      · exact absurd hledger hfold
      · exact hpages
    rw [withLastPageCount_other hpages, memberOf_set_of_ne h.1]
  · exact memberOf_set_of_ne h.1 _

theorem memberOf_foldedMembers_pages {pages : List JsonDocument}
    (h : memberOf (.object members) pagesName = some (.array pages)) :
    memberOf (.object (foldedMembers .ledgerTransactions members frozen added)) pagesName =
      some (.array (pagesAfter pages added.length)) := by
  unfold foldedMembers
  simp only [if_true]
  apply withLastPageCount_pages
  rw [memberOf_set_of_ne (items_ne_pages _).symm]
  exact h

theorem filter_foldedMembers :
    (foldedMembers fold members frozen added).filter (fun member => isOther fold member.1) =
      members.filter fun member => isOther fold member.1 := by
  have hitems : isOther fold fold.items = false := by simp [isOther]
  unfold foldedMembers
  simp only
  split
  · rename_i hledger
    have hpages : isOther fold pagesName = false := by simp [isOther, hledger]
    unfold withLastPageCount
    simp only
    split
    · exact InsertionMap.filter_set members hitems _
    · rw [InsertionMap.filter_set _ hpages, InsertionMap.filter_set members hitems]
  · exact InsertionMap.filter_set members hitems _

end Union

/-! ## Counting the added items -/

section Count

variable {number added : Nat} {last : JsonDocument}

def arrayBound : Nat := 2 ^ 32

theorem doubleOfSum_finite (h : number < 3 * 2 ^ 52) : (doubleOfSum number).isFinite = true := by
  unfold doubleOfSum
  split
  · rfl
  · rfl

theorem naturalOf_doubleOfSum (h : number < 2 ^ 53) :
    naturalOf (doubleOfSum number) = some number := by
  unfold doubleOfSum
  rw [dif_pos h]
  exact naturalOf_doubleOfNat number h

/-- From `2 ^ 53` on a sum rounds to a number that is no safe integer. -/
theorem naturalOf_doubleOfSum_large (hlarge : 2 ^ 53 ≤ number) (hbound : number < 3 * 2 ^ 52) :
    ∃ rounded, naturalOf (doubleOfSum number) = some rounded ∧ 2 ^ 53 ≤ rounded := by
  have hpos : 0 < FiniteDouble.unitsOfOne := Nat.two_pow_pos _
  have hnot : ¬ number < 2 ^ 53 := by omega
  have hvalue : ∀ value : FiniteDouble, value.negative = false → value.exponent = 1 →
      naturalOf (.finite value) = some (value.significand * 2) := by
    intro value hnegative hexponent
    have hunits : value.units = value.significand * 2 * FiniteDouble.unitsOfOne := by
      have hpower : ((1 : Int) + 1074).toNat = 1074 + 1 := by omega
      rw [FiniteDouble.units, hexponent, FiniteDouble.unitsOfOne, Nat.mul_assoc, hpower,
        Nat.pow_succ, Nat.mul_comm 2]
    have hzero : value.positiveZero.negative = false := by
      unfold FiniteDouble.positiveZero
      split
      · rfl
      · exact hnegative
    rw [naturalOf, hunits, Nat.mul_mod_left, if_pos ⟨rfl, hzero⟩, Nat.mul_div_cancel _ hpos]
  unfold doubleOfSum
  rw [dif_neg hnot, dif_pos hbound, hvalue _ rfl rfl]
  refine ⟨_, rfl, ?_⟩
  dsimp only
  split <;> omega

theorem isInteger_some {least : Nat} {value : Option JsonDocument} (h : isInteger least value = true) :
    ∃ double number, value = some (.number double) ∧ naturalOf double = some number ∧
      least ≤ number ∧ number ≤ maxSafeInteger := by
  unfold isInteger at h
  split at h
  · rename_i double
    cases hnumber : naturalOf double with
    | none =>
      rw [hnumber] at h
      cases h
    | some number =>
      rw [hnumber] at h
      simp only [Bool.and_eq_true, decide_eq_true_eq] at h
      exact ⟨double, number, rfl, hnumber, h.1, h.2⟩
  · cases h

theorem isLedgerPage_count (h : isLedgerPage last = true) : ∃ members double,
    last = .object members ∧ InsertionMap.get? members itemCountName = some (.number double) ∧
      naturalOf double = some (naturalIn last itemCountName) ∧
      naturalIn last itemCountName ≤ maxSafeInteger := by
  cases last with
  | object members =>
    simp only [isLedgerPage, Bool.and_eq_true] at h
    obtain ⟨double, number, hvalue, hnumber, -, hmax⟩ := isInteger_some h.1.1.2
    have hcount : naturalIn (.object members) itemCountName = number := by
      unfold naturalIn memberOf
      simp only [hvalue, naturalValue, hnumber, Option.getD_some]
    rw [hcount]
    exact ⟨members, double, rfl, hvalue, hnumber, hmax⟩
  | _ => cases h

theorem countedPage_eq (h : isLedgerPage last = true) (added : Nat) : ∃ members,
    last = .object members ∧ countedPage last added = .object (InsertionMap.set members
      itemCountName (.number (doubleOfSum (naturalIn last itemCountName + added)))) := by
  obtain ⟨members, double, rfl, hvalue, hnumber, -⟩ := isLedgerPage_count h
  refine ⟨members, rfl, ?_⟩
  simp only [countedPage, countPlus, hvalue]
  rw [hnumber, Option.getD_some]

theorem isLedgerPage_countedPage (h : isLedgerPage last = true)
    (hbound : naturalIn last itemCountName + added < 3 * 2 ^ 52) :
    isLedgerPage (countedPage last added) = true ↔
      naturalIn last itemCountName + added ≤ maxSafeInteger := by
  obtain ⟨members, hlast, hcounted⟩ := countedPage_eq h added
  have hcount : isInteger 0 (some (.number (doubleOfSum (naturalIn last itemCountName + added)))) =
      true ↔ naturalIn last itemCountName + added ≤ maxSafeInteger := by
    have hmax : maxSafeInteger = 2 ^ 53 - 1 := rfl
    by_cases hsafe : naturalIn last itemCountName + added < 2 ^ 53
    · simp only [isInteger, naturalOf_doubleOfSum hsafe, Bool.and_eq_true, decide_eq_true_eq]
      exact and_iff_right (Nat.zero_le _)
    · obtain ⟨rounded, hrounded, hlarge⟩ := naturalOf_doubleOfSum_large (by omega) hbound
      simp only [isInteger, hrounded, Bool.and_eq_true, decide_eq_true_eq]
      constructor
      · intro hinteger
        omega
      · intro hinteger
        omega
  rw [hlast] at h
  simp only [isLedgerPage, Bool.and_eq_true] at h
  have hnames : ((InsertionMap.set members itemCountName (.number (doubleOfSum
      (naturalIn last itemCountName + added)))).all fun member =>
      [pageNumberName, itemCountName, startCursorName, nextCursorName].contains member.1) = true := by
    rw [List.all_eq_true]
    intro member hmem
    rcases InsertionMap.mem_set hmem with rfl | hold
    · have hallowed : [pageNumberName, itemCountName, startCursorName, nextCursorName].contains
          itemCountName = true := by decide
      exact hallowed
    · exact List.all_eq_true.mp h.1.1.1.1 member hold
  rw [hcounted]
  simp only [isLedgerPage, Bool.and_eq_true, hnames, true_and, InsertionMap.get?_set_self,
    InsertionMap.get?_set_of_ne members (show pageNumberName ≠ itemCountName by decide),
    InsertionMap.get?_set_of_ne members (show startCursorName ≠ itemCountName by decide),
    InsertionMap.get?_set_of_ne members (show nextCursorName ≠ itemCountName by decide), hcount,
    h.1.1.1.2, h.1.2, h.2, and_true]

theorem countedPage_representable (h : isLedgerPage last = true) (hlast : Representable last)
    (hbound : naturalIn last itemCountName + added < 3 * 2 ^ 52) :
    Representable (countedPage last added) := by
  obtain ⟨members, rfl, hcounted⟩ := countedPage_eq h added
  rw [hcounted]
  exact representable_set hlast (.number (doubleOfSum_finite hbound))

end Count

end RefundStudy.LateEvidence
