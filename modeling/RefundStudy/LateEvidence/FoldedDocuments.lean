/-
  The document a fold returns (`trial-oracle/late-evidence/document-folding.ts`).
-/
import RefundStudy.LateEvidence.FoldingLaws

set_option autoImplicit false

namespace RefundStudy.LateEvidence

open Foundation Record Store

structure Foldable (schemas : FoldSchemas) (fold : DocumentFold) (document : JsonDocument) :
    Prop where
  valid : isValid schemas fold document = true
  representable : Representable document

/-- The item list is an array, and no array is longer than that. -/
def ShortItems (fold : DocumentFold) (document : JsonDocument) : Prop :=
  (listOf document fold.items).length < arrayBound

/-- The last page of a ledger can count so many items more. -/
def CountInRange (fold : DocumentFold) (frozen : JsonDocument) (added : Nat) : Prop :=
  fold = .ledgerTransactions → ∀ last ∈ (listOf frozen pagesName).getLast?,
    naturalIn last itemCountName + added ≤ maxSafeInteger

/-- The pages are the frozen ones, the last of them counting so many items more. -/
structure PagesCounted (pages counted : List JsonDocument) (added : Nat) : Prop where
  before : counted.dropLast.map structuralForm = pages.dropLast.map structuralForm
  length : counted.length = pages.length
  last : ∀ page ∈ counted.getLast?, ∀ frozen ∈ pages.getLast?,
    (∀ name, name ≠ itemCountName →
      (memberOf page name).map structuralForm = (memberOf frozen name).map structuralForm) ∧
    (naturalIn frozen itemCountName + added ≤ maxSafeInteger →
      naturalIn page itemCountName = naturalIn frozen itemCountName + added) ∧
    (maxSafeInteger < naturalIn frozen itemCountName + added →
      maxSafeInteger < naturalIn page itemCountName)

/-- The document is the frozen one with the additions of the late one. -/
structure FoldedFrom (fold : DocumentFold) (frozen late document : JsonDocument) : Prop where
  items : (listOf document fold.items).map structuralForm =
    (listOf frozen fold.items ++
      additions (listOf frozen fold.items) (listOf late fold.items)).map structuralForm
  others : ∀ name, isOther fold name = true →
    (memberOf document name).map structuralForm = (memberOf frozen name).map structuralForm
  pages : fold = .ledgerTransactions → PagesCounted (listOf frozen pagesName)
    (listOf document pagesName)
    (additions (listOf frozen fold.items) (listOf late fold.items)).length

/-! ## The union of a valid document and valid items -/

section Union

variable {schemas : FoldSchemas} {fold : DocumentFold} {frozen : JsonDocument}
  {added : List JsonDocument}

def unionDocument (fold : DocumentFold) (document : JsonDocument) (added : List JsonDocument) :
    JsonDocument :=
  match document with
  | .object members => .object (foldedMembers fold members (listOf document fold.items) added)
  | other => other

theorem isArrayOf_some {element : JsonDocument → Bool} {value : Option JsonDocument}
    (h : isArrayOf element value = true) :
    ∃ items, value = some (.array items) ∧ ∀ item ∈ items, element item = true := by
  unfold isArrayOf at h
  split at h
  · exact ⟨_, rfl, List.all_eq_true.mp h⟩
  · cases h

theorem isValid_parts (h : isValid schemas fold frozen = true) : ∃ members,
    frozen = .object members ∧
    schemas.rest fold (.object (members.filter fun member => isOther fold member.1)) = true ∧
    memberOf frozen fold.items = some (.array (listOf frozen fold.items)) ∧
    (∀ item ∈ listOf frozen fold.items, schemas.item fold item = true) ∧
    (fold = .ledgerTransactions →
      memberOf frozen pagesName = some (.array (listOf frozen pagesName)) ∧
      ∀ page ∈ listOf frozen pagesName, isLedgerPage page = true) := by
  cases frozen with
  | object members =>
    simp only [isValid, Bool.and_eq_true, Bool.or_eq_true, bne_iff_ne] at h
    obtain ⟨⟨hrest, hitems⟩, hpages⟩ := h
    obtain ⟨items, hvalue, hall⟩ := isArrayOf_some hitems
    have hlist : listOf (.object members) fold.items = items := by
      unfold listOf memberOf
      simp only [hvalue]
    refine ⟨members, rfl, hrest, by rw [hlist]; exact hvalue, by rw [hlist]; exact hall, ?_⟩
    intro hledger
    rcases hpages with hother | hpages
    · exact absurd hledger hother
    · obtain ⟨pages, hvalue, hall⟩ := isArrayOf_some hpages
      have hlist : listOf (.object members) pagesName = pages := by
        unfold listOf memberOf
        simp only [hvalue]
      rw [hlist]
      exact ⟨hvalue, hall⟩
  | _ => cases h

theorem mem_pagesAfter {pages : List JsonDocument} {count : Nat} {page : JsonDocument}
    (h : page ∈ pagesAfter pages count) :
    page ∈ pages ∨ ∃ last, pages.getLast? = some last ∧ page = countedPage last count := by
  unfold pagesAfter at h
  cases hlast : pages.getLast? with
  | none =>
    rw [hlast] at h
    cases h
  | some last =>
    rw [hlast] at h
    rcases List.mem_append.mp h with hbefore | hcounted
    · exact .inl ((List.dropLast_sublist _).subset hbefore)
    · exact .inr ⟨last, rfl, List.mem_singleton.mp hcounted⟩

theorem lastPage_bound (h : Foldable schemas .ledgerTransactions frozen)
    (hadded : added.length < arrayBound) {last : JsonDocument}
    (hlast : (listOf frozen pagesName).getLast? = some last) :
    isLedgerPage last = true ∧ naturalIn last itemCountName + added.length < 3 * 2 ^ 52 := by
  obtain ⟨members, -, -, -, -, hledger⟩ := isValid_parts h.valid
  have hpage := (hledger rfl).2 last (List.mem_of_getLast? hlast)
  obtain ⟨-, -, -, -, -, hmax⟩ := isLedgerPage_count hpage
  refine ⟨hpage, ?_⟩
  unfold maxSafeInteger at hmax
  unfold arrayBound at hadded
  omega

theorem unionDocument_representable (h : Foldable schemas fold frozen)
    (hadded : added.length < arrayBound) (hitems : ∀ item ∈ added, Representable item) :
    Representable (unionDocument fold frozen added) := by
  have hfrozen := listOf_representable h.representable fold.items
  obtain ⟨members, rfl, -⟩ := isValid_parts h.valid
  have harray : Representable (.array (listOf (.object members) fold.items ++ added)) := by
    refine .array fun item hmem => ?_
    rcases List.mem_append.mp hmem with hold | hnew
    · exact hfrozen item hold
    · exact hitems item hnew
  have hunion : Representable (.object (InsertionMap.set members fold.items _)) :=
    representable_set h.representable harray
  unfold unionDocument foldedMembers
  simp only
  split
  · rename_i hledger
    subst hledger
    unfold withLastPageCount
    simp only
    rw [listOf_set_of_ne (items_ne_pages _).symm]
    cases hlast : (listOf (.object members) pagesName).getLast? with
    | none => exact hunion
    | some last =>
      obtain ⟨hpage, hbound⟩ := lastPage_bound h hadded hlast
      have hpages := listOf_representable h.representable pagesName
      refine representable_set hunion (.array fun page hmem => ?_)
      rcases List.mem_append.mp hmem with hbefore | hcounted
      · exact hpages page ((List.dropLast_sublist _).subset hbefore)
      · rw [List.mem_singleton.mp hcounted]
        exact countedPage_representable hpage (hpages last (List.mem_of_getLast? hlast)) hbound
  · exact hunion

theorem unionDocument_pages (h : isValid schemas .ledgerTransactions frozen = true)
    (added : List JsonDocument) :
    memberOf (unionDocument .ledgerTransactions frozen added) pagesName =
      some (.array (pagesAfter (listOf frozen pagesName) added.length)) := by
  obtain ⟨members, rfl, -, -, -, hpages⟩ := isValid_parts h
  exact memberOf_foldedMembers_pages (hpages rfl).1

theorem unionDocument_items (h : isValid schemas fold frozen = true) (added : List JsonDocument) :
    memberOf (unionDocument fold frozen added) fold.items =
      some (.array (listOf frozen fold.items ++ added)) := by
  obtain ⟨members, rfl, -⟩ := isValid_parts h
  exact memberOf_foldedMembers_items

theorem unionDocument_other (h : isValid schemas fold frozen = true) (added : List JsonDocument)
    {name : JsString} (hname : isOther fold name = true) :
    memberOf (unionDocument fold frozen added) name = memberOf frozen name := by
  obtain ⟨members, rfl, -⟩ := isValid_parts h
  exact memberOf_foldedMembers_other hname

theorem pagesAfter_valid {pages : List JsonDocument} {count : Nat}
    (hpages : ∀ page ∈ pages, isLedgerPage page = true)
    (hbound : ∀ last, pages.getLast? = some last →
      naturalIn last itemCountName + count < 3 * 2 ^ 52) :
    (∀ page ∈ pagesAfter pages count, isLedgerPage page = true) ↔
      ∀ last ∈ pages.getLast?, naturalIn last itemCountName + count ≤ maxSafeInteger := by
  constructor
  · intro hall last hlast
    have hlast : pages.getLast? = some last := hlast
    have hpage := hpages last (List.mem_of_getLast? hlast)
    apply (isLedgerPage_countedPage hpage (hbound last hlast)).mp
    apply hall
    rw [pagesAfter, hlast]
    exact List.mem_append_right _ List.mem_cons_self
  · intro hrange page hmem
    rcases mem_pagesAfter hmem with hold | ⟨last, hlast, rfl⟩
    · exact hpages page hold
    · have hpage := hpages last (List.mem_of_getLast? hlast)
      exact (isLedgerPage_countedPage hpage (hbound last hlast)).mpr (hrange last hlast)

/-- The union is valid exactly when its last page can count the added items. -/
theorem unionDocument_valid_iff (h : Foldable schemas fold frozen)
    (hadded : added.length < arrayBound) (hitems : ∀ item ∈ added, schemas.item fold item = true) :
    isValid schemas fold (unionDocument fold frozen added) = true ↔
      CountInRange fold frozen added.length := by
  obtain ⟨members, hmembers, hrest, -, hfrozen, hledger⟩ := isValid_parts h.valid
  have hunion : unionDocument fold frozen added =
      .object (foldedMembers fold members (listOf frozen fold.items) added) := by
    rw [hmembers]
    rfl
  have harray : isArrayOf (schemas.item fold) (memberOf (unionDocument fold frozen added) fold.items) =
      true := by
    rw [unionDocument_items h.valid]
    refine List.all_eq_true.mpr fun item hmem => ?_
    rcases List.mem_append.mp hmem with hold | hnew
    · exact hfrozen item hold
    · exact hitems item hnew
  have hvalid : isValid schemas fold (unionDocument fold frozen added) = true ↔
      (fold = .ledgerTransactions →
        isArrayOf isLedgerPage (memberOf (unionDocument fold frozen added) pagesName) = true) := by
    rw [hunion] at harray ⊢
    simp only [isValid, filter_foldedMembers, hrest, Bool.true_and, Bool.and_eq_true,
      Bool.or_eq_true, bne_iff_ne]
    simp only [memberOf] at harray ⊢
    rw [harray]
    tauto
  rw [hvalid]
  unfold CountInRange
  refine forall_congr' fun hfold => ?_
  subst hfold
  have hall := (hledger rfl).2
  have hbound : ∀ last, (listOf frozen pagesName).getLast? = some last →
      naturalIn last itemCountName + added.length < 3 * 2 ^ 52 :=
    fun last hlast => (lastPage_bound h hadded hlast).2
  rw [← pagesAfter_valid hall hbound, unionDocument_pages h.valid]
  exact List.all_eq_true

end Union

/-! ## Pages -/

section Pages

variable {pages counted : List JsonDocument} {count : Nat}

theorem map_form_form {value : Option JsonDocument} (h : ∀ found ∈ value, Representable found) :
    (value.map structuralForm).map structuralForm = value.map structuralForm := by
  cases value with
  | none => rfl
  | some value =>
    rw [Option.map_some, Option.map_some, structuralForm_structuralForm (h value rfl)]

theorem PagesCounted.refl (pages : List JsonDocument) : PagesCounted pages pages 0 := by
  refine ⟨rfl, rfl, fun page hpage frozen hfrozen => ?_⟩
  rw [Option.mem_def] at hpage hfrozen
  rw [hpage, Option.some.injEq] at hfrozen
  subst hfrozen
  exact ⟨fun _ _ => rfl, fun _ => rfl, fun h => h⟩

theorem pagesCounted_after (hpages : ∀ page ∈ pages, isLedgerPage page = true)
    (hbound : ∀ last, pages.getLast? = some last →
      naturalIn last itemCountName + count < 3 * 2 ^ 52) :
    PagesCounted pages (pagesAfter pages count) count := by
  unfold pagesAfter
  cases hlast : pages.getLast? with
  | none =>
    rw [List.getLast?_eq_none_iff.mp hlast]
    exact ⟨rfl, rfl, fun page hpage => by cases hpage⟩
  | some last =>
    have hsplit : pages.dropLast ++ [last] = pages := List.dropLast_append_getLast? last hlast
    refine ⟨by rw [List.dropLast_concat], ?_, fun page hpage frozen hfrozen => ?_⟩
    · conv => rhs; rw [← hsplit]
      rw [List.length_append, List.length_append]
      rfl
    · rw [List.getLast?_concat, Option.mem_some_iff] at hpage
      rw [hlast, Option.mem_some_iff] at hfrozen
      subst hpage hfrozen
      have hvalid := hpages last (List.mem_of_getLast? hlast)
      have hsmall := hbound last hlast
      obtain ⟨members, hmembers, hcounted⟩ := countedPage_eq hvalid count
      have hmax : maxSafeInteger = 2 ^ 53 - 1 := rfl
      have hvalue : naturalIn (countedPage last count) itemCountName =
          (naturalOf (doubleOfSum (naturalIn last itemCountName + count))).getD 0 := by
        rw [hcounted, naturalIn, memberOf_set_self, naturalValue]
      refine ⟨fun name hname => ?_, fun hrange => ?_, fun hlarge => ?_⟩
      · rw [hcounted, memberOf_set_of_ne hname, ← hmembers]
      · rw [hvalue, naturalOf_doubleOfSum (by omega), Option.getD_some]
      · obtain ⟨rounded, hrounded, hge⟩ := naturalOf_doubleOfSum_large (by omega) hsmall
        rw [hvalue, hrounded, Option.getD_some]
        omega

theorem PagesCounted.form (h : PagesCounted pages counted count)
    (hcounted : ∀ page ∈ counted, Representable page) :
    PagesCounted pages (counted.map structuralForm) count := by
  refine ⟨?_, by rw [List.length_map]; exact h.length, fun page hpage frozen hfrozen => ?_⟩
  · rw [← h.before, ← List.map_dropLast, List.map_map]
    apply List.map_congr_left
    intro page hmem
    exact structuralForm_structuralForm (hcounted page ((List.dropLast_sublist _).subset hmem))
  · rw [List.getLast?_map, Option.mem_def, Option.map_eq_some_iff] at hpage
    obtain ⟨original, horiginal, rfl⟩ := hpage
    have hrep := hcounted original (List.mem_of_getLast? horiginal)
    obtain ⟨hother, hrange, hlarge⟩ := h.last original horiginal frozen hfrozen
    rw [naturalIn_structuralForm hrep]
    refine ⟨fun name hname => ?_, hrange, hlarge⟩
    rw [memberOf_structuralForm hrep,
      map_form_form fun found hfound => memberOf_representable hrep hfound]
    exact hother name hname

end Pages

/-! ## The fold -/

section Fold

variable {text : NumberText} {schemas : FoldSchemas} {fold : DocumentFold}
  {frozen late : JsonDocument} {bytes : List UInt8}

theorem foldLateDocument_eq (hfrozen : Foldable schemas fold frozen)
    (hlate : Foldable schemas fold late) (hparsed : parseJsonDocument text bytes = some frozen) :
    foldLateDocument text schemas fold (some bytes) late =
      if (newItems text (listOf frozen fold.items) (listOf late fold.items)).length = 0 then
        .ok bytes
      else .ok (recordFileBytes text (unionDocument fold frozen
        (newItems text (listOf frozen fold.items) (listOf late fold.items)))) := by
  have hitems : ∀ document, Foldable schemas fold document → ∃ members,
      document = .object members ∧
        validItems schemas fold document = some (members, listOf document fold.items) := by
    intro document h
    obtain ⟨members, rfl, -⟩ := isValid_parts h.valid
    exact ⟨members, rfl, if_pos h.valid⟩
  obtain ⟨lateMembers, -, hlateItems⟩ := hitems late hlate
  obtain ⟨members, hmembers, hfrozenItems⟩ := hitems frozen hfrozen
  unfold foldLateDocument
  simp only [hlateItems, hparsed, hfrozenItems]
  rw [hmembers]
  rfl

theorem foldedFrom_refl (hsame : additions (listOf frozen fold.items) (listOf late fold.items) = []) :
    FoldedFrom fold frozen late frozen := by
  refine ⟨by rw [hsame, List.append_nil], fun _ _ => rfl, fun _ => ?_⟩
  rw [hsame]
  exact .refl _

theorem foldedFrom_union (hfrozen : Foldable schemas fold frozen)
    (hlate : Foldable schemas fold late) (hshort : ShortItems fold late) :
    FoldedFrom fold frozen late (structuralForm (unionDocument fold frozen
      (additions (listOf frozen fold.items) (listOf late fold.items)))) := by
  have hadded := Nat.lt_of_le_of_lt (additions_sublist (listOf frozen fold.items)
    (listOf late fold.items)).length_le hshort
  have hnew : ∀ item ∈ additions (listOf frozen fold.items) (listOf late fold.items),
      Representable item := fun item hmem =>
    listOf_representable hlate.representable _ item ((additions_sublist _ _).subset hmem)
  have hunion := unionDocument_representable hfrozen hadded hnew
  refine ⟨?_, fun name hname => ?_, fun hledger => ?_⟩
  · have hitems := unionDocument_items hfrozen.valid
      (additions (listOf frozen fold.items) (listOf late fold.items))
    rw [listOf_structuralForm hunion, listOf_of_memberOf hitems, List.map_map]
    apply List.map_congr_left
    intro item hmem
    apply structuralForm_structuralForm
    rcases List.mem_append.mp hmem with hold | hadd
    · exact listOf_representable hfrozen.representable _ item hold
    · exact hnew item hadd
  · rw [memberOf_structuralForm hunion,
      map_form_form fun found hfound => memberOf_representable hunion hfound,
      unionDocument_other hfrozen.valid _ hname]
  · subst hledger
    have hpages := listOf_of_memberOf (unionDocument_pages hfrozen.valid
      (additions (listOf frozen DocumentFold.ledgerTransactions.items)
        (listOf late DocumentFold.ledgerTransactions.items)))
    rw [listOf_structuralForm hunion]
    refine PagesCounted.form ?_ (listOf_representable hunion pagesName)
    rw [hpages]
    obtain ⟨-, -, -, -, -, hledger⟩ := isValid_parts hfrozen.valid
    exact pagesCounted_after (hledger rfl).2
      fun last hlast => (lastPage_bound hfrozen hadded hlast).2

/-- The fold of valid documents: the bytes, the document they hold, and whether it is valid. -/
theorem fold_result (law : text.Lawful) (hprints : PrintsJson text) (hschemas : schemas.SeesForm)
    (hfrozen : Foldable schemas fold frozen) (hlate : Foldable schemas fold late)
    (hshort : ShortItems fold late) (hparsed : parseJsonDocument text bytes = some frozen) :
    ∃ folded document, foldLateDocument text schemas fold (some bytes) late = .ok folded ∧
      parseJsonDocument text folded = some document ∧ FoldedFrom fold frozen late document ∧
      (additions (listOf frozen fold.items) (listOf late fold.items) = [] → folded = bytes) ∧
      (isValid schemas fold document = true ↔ CountInRange fold frozen
        (additions (listOf frozen fold.items) (listOf late fold.items)).length) := by
  have hsame := newItems_eq_additions law hprints
    (listOf_representable hfrozen.representable fold.items)
    (listOf_representable hlate.representable fold.items)
  rw [foldLateDocument_eq hfrozen hlate hparsed, hsame]
  by_cases hnone : additions (listOf frozen fold.items) (listOf late fold.items) = []
  · refine ⟨bytes, frozen, ?_, hparsed, foldedFrom_refl hnone, fun _ => rfl, ?_⟩
    · rw [if_pos (by rw [hnone]; rfl)]
    · refine ⟨fun _ => ?_, fun _ => hfrozen.valid⟩
      intro hledger last hlast
      subst hledger
      obtain ⟨-, -, -, -, -, hledger⟩ := isValid_parts hfrozen.valid
      have hpage := (hledger rfl).2 last (List.mem_of_getLast? hlast)
      obtain ⟨-, -, -, -, -, hmax⟩ := isLedgerPage_count hpage
      rw [hnone]
      exact hmax
  · have hadded := Nat.lt_of_le_of_lt (additions_sublist (listOf frozen fold.items)
      (listOf late fold.items)).length_le hshort
    have hmem : ∀ item ∈ additions (listOf frozen fold.items) (listOf late fold.items),
        item ∈ listOf late fold.items := fun item hmem => (additions_sublist _ _).subset hmem
    have hunion := unionDocument_representable hfrozen hadded fun item hitem =>
      listOf_representable hlate.representable _ item (hmem item hitem)
    obtain ⟨-, -, -, -, hitems, -⟩ := isValid_parts hlate.valid
    refine ⟨_, _, ?_, parseJsonDocument_recordFile law hprints hunion,
      foldedFrom_union hfrozen hlate hshort, fun h => absurd h hnone, ?_⟩
    · rw [if_neg (by simpa using hnone)]
    · rw [isValid_structuralForm hschemas fold hunion]
      exact unionDocument_valid_iff hfrozen hadded fun item hitem => hitems item (hmem item hitem)

theorem FoldedFrom.additions_again {document : JsonDocument}
    (h : FoldedFrom fold frozen late document) :
    additions (listOf document fold.items) (listOf late fold.items) = [] := by
  rw [additions_eq_nil]
  intro item hmem
  rw [h.items, List.map_append, List.mem_append]
  by_cases hold : structuralForm item ∈ (listOf frozen fold.items).map structuralForm
  · exact .inl hold
  · exact .inr (mem_additions_forms.mpr ⟨List.mem_map_of_mem hmem, hold⟩)

theorem FoldedFrom.mem_items {document : JsonDocument} (h : FoldedFrom fold frozen late document)
    (form : JsonDocument) : form ∈ (listOf document fold.items).map structuralForm ↔
      form ∈ (listOf frozen fold.items).map structuralForm ∨
        form ∈ (listOf late fold.items).map structuralForm := by
  rw [h.items, List.map_append, List.mem_append, mem_additions_forms]
  tauto

/-- Folding a document again finds nothing new, as long as the first fold left a valid document. -/
theorem fold_again (law : text.Lawful) (hprints : PrintsJson text)
    (hlate : Foldable schemas fold late) {folded : List UInt8} {document : JsonDocument}
    (hdocument : parseJsonDocument text folded = some document)
    (hfrom : FoldedFrom fold frozen late document) (hvalid : isValid schemas fold document = true) :
    foldLateDocument text schemas fold (some folded) late = .ok folded := by
  have hrep := parseJsonDocument_representable hdocument
  rw [foldLateDocument_eq ⟨hvalid, hrep⟩ hlate hdocument,
    newItems_eq_additions law hprints (listOf_representable hrep fold.items)
      (listOf_representable hlate.representable fold.items), hfrom.additions_again]
  rfl

theorem fold_refused (hlate : Foldable schemas fold late) {document : JsonDocument}
    (hdocument : parseJsonDocument text bytes = some document)
    (hinvalid : isValid schemas fold document = false) :
    foldLateDocument text schemas fold (some bytes) late =
      .error (.frozenInvalid (schemas.describeFirstViolation fold document)) := by
  obtain ⟨lateMembers, hobject, -⟩ := isValid_parts hlate.valid
  have hlateItems : validItems schemas fold late = some (lateMembers, listOf late fold.items) := by
    have hvalid := hlate.valid
    rw [hobject] at hvalid ⊢
    exact if_pos hvalid
  have hnone : validItems schemas fold document = none := by
    cases document with
    | object members => exact if_neg (by rw [hinvalid]; decide)
    | _ => rfl
  unfold foldLateDocument
  simp only [hlateItems, hdocument, hnone]

end Fold

end RefundStudy.LateEvidence
