/-
  The pagination of a folded ledger (`trial-oracle/late-evidence/document-folding.ts`,
  `evidence-ingestion/ledger-view.ts`).
-/
import RefundStudy.LateEvidence.FoldedDocuments

set_option autoImplicit false

namespace RefundStudy.LateEvidence

open Foundation Record Store Ingestion

/-! ## Ledgers as records -/

/-- How a ledger document is read as a record; the check of its pages looks at none of these. -/
structure LedgerReader where
  writer : JsonDocument → EventSource
  consistentRead : JsonDocument → Bool
  capturedAt : JsonDocument → UtcMillis
  transaction : JsonDocument → LedgerTransaction

/-- A cursor as JSON writes it; equal exactly when the cursors are. -/
def cursorText : Option JsonDocument → Option String
  | some (.string cursor) => some (String.ofList (quotedUnits cursor))
  | _ => none

def readPage (page : JsonDocument) : LedgerPage where
  pageNumber := naturalIn page pageNumberName
  itemCount := naturalIn page itemCountName
  startCursor := cursorText (memberOf page startCursorName)
  nextCursor := cursorText (memberOf page nextCursorName)

def isTrue : Option JsonDocument → Bool
  | some (.bool value) => value
  | _ => false

def LedgerReader.ledger (reader : LedgerReader) (document : JsonDocument) : LedgerSnapshot where
  writer := reader.writer document
  consistentRead := reader.consistentRead document
  capturedAt := reader.capturedAt document
  complete := isTrue (memberOf document completeName)
  pages := (listOf document pagesName).map readPage
  transactions := (listOf document DocumentFold.ledgerTransactions.items).map reader.transaction

theorem cursorText_form (value : Option JsonDocument) :
    cursorText (value.map structuralForm) = cursorText value := by
  cases value with
  | none => rfl
  | some value =>
    cases value with
    | array items => simp [cursorText]
    | object members => simp [cursorText]
    | _ => rfl

theorem isTrue_form (value : Option JsonDocument) :
    isTrue (value.map structuralForm) = isTrue value := by
  cases value with
  | none => rfl
  | some value =>
    cases value with
    | array items => simp [isTrue]
    | object members => simp [isTrue]
    | _ => rfl

/-- Everything about a page but its count. -/
def placeOf (page : LedgerPage) : Nat × Option String × Option String :=
  (page.pageNumber, page.startCursor, page.nextCursor)

theorem placeOf_congr {page other : JsonDocument}
    (h : ∀ name, name ≠ itemCountName →
      (memberOf page name).map structuralForm = (memberOf other name).map structuralForm) :
    placeOf (readPage page) = placeOf (readPage other) := by
  have hnumber : naturalIn page pageNumberName = naturalIn other pageNumberName := by
    rw [naturalIn, ← naturalValue_form, h pageNumberName (by decide), naturalValue_form, naturalIn]
  have hcursor : ∀ name, name ≠ itemCountName →
      cursorText (memberOf page name) = cursorText (memberOf other name) := by
    intro name hname
    rw [← cursorText_form, h name hname, cursorText_form]
  unfold placeOf readPage
  rw [hnumber, hcursor startCursorName (by decide), hcursor nextCursorName (by decide)]

theorem placeOf_form {page : JsonDocument} (h : Representable page) :
    placeOf (readPage (structuralForm page)) = placeOf (readPage page) := by
  apply placeOf_congr
  intro name _
  rw [memberOf_structuralForm h, map_form_form fun found hfound => memberOf_representable h hfound]

theorem itemCount_form {page : JsonDocument} (h : Representable page) :
    (readPage (structuralForm page)).itemCount = (readPage page).itemCount :=
  naturalIn_structuralForm h itemCountName

section Pages

variable {pages counted : List JsonDocument} {count : Nat}

theorem map_view_congr {α : Type} {view : JsonDocument → α} {pages others : List JsonDocument}
    (hview : ∀ page, Representable page → view (structuralForm page) = view page)
    (hpages : ∀ page ∈ pages, Representable page) (hothers : ∀ page ∈ others, Representable page)
    (h : pages.map structuralForm = others.map structuralForm) : pages.map view = others.map view := by
  have hforms : ∀ list : List JsonDocument, (∀ page ∈ list, Representable page) →
      list.map view = (list.map structuralForm).map view := by
    intro list hlist
    rw [List.map_map]
    exact List.map_congr_left fun page hmem => (hview page (hlist page hmem)).symm
  rw [hforms pages hpages, hforms others hothers, h]

theorem PagesCounted.split (h : PagesCounted pages counted count) :
    (pages = [] ∧ counted = []) ∨ ∃ last page, pages = pages.dropLast ++ [last] ∧
      counted = counted.dropLast ++ [page] ∧ pages.getLast? = some last ∧
      counted.getLast? = some page := by
  cases hlast : pages.getLast? with
  | none =>
    have hempty := List.getLast?_eq_none_iff.mp hlast
    have hlength := h.length
    rw [hempty, List.length_nil, List.length_eq_zero_iff] at hlength
    exact .inl ⟨hempty, hlength⟩
  | some last =>
    cases hcounted : counted.getLast? with
    | none =>
      have hlength := h.length
      rw [List.getLast?_eq_none_iff.mp hcounted] at hlength
      rw [List.length_eq_zero_iff.mp hlength.symm] at hlast
      cases hlast
    | some page =>
      exact .inr ⟨last, page, (List.dropLast_append_getLast? last hlast).symm,
        (List.dropLast_append_getLast? page hcounted).symm, rfl, rfl⟩

theorem PagesCounted.places (h : PagesCounted pages counted count)
    (hpages : ∀ page ∈ pages, Representable page)
    (hcounted : ∀ page ∈ counted, Representable page) :
    (counted.map readPage).map placeOf = (pages.map readPage).map placeOf := by
  rcases h.split with ⟨hempty, hnone⟩ | ⟨last, page, hsplit, hother, hlast, hpage⟩
  · rw [hempty, hnone]
  · have hbefore := @map_view_congr _ (fun page => placeOf (readPage page)) _ _ (fun _ => placeOf_form)
      (fun page hmem => hcounted page ((List.dropLast_sublist _).subset hmem))
      (fun page hmem => hpages page ((List.dropLast_sublist _).subset hmem)) h.before
    obtain ⟨hmembers, -⟩ := h.last page hpage last hlast
    rw [hsplit, hother, List.map_map, List.map_map, List.map_append, List.map_append]
    exact congrArg₂ _ hbefore (congrArg (fun place => [place]) (placeOf_congr hmembers))

def declaredCount (pages : List JsonDocument) : Nat :=
  ((pages.map readPage).map LedgerPage.itemCount).sum

/-- The pages count so many items more, or more than any array holds before and after. -/
theorem PagesCounted.declaredCount_eq (h : PagesCounted pages counted count)
    (hpages : ∀ page ∈ pages, Representable page)
    (hcounted : ∀ page ∈ counted, Representable page) (hsome : pages ≠ []) :
    declaredCount counted = declaredCount pages + count ∨
      (maxSafeInteger < declaredCount pages + count ∧ maxSafeInteger < declaredCount counted) := by
  rcases h.split with ⟨hempty, -⟩ | ⟨last, page, hsplit, hother, hlast, hpage⟩
  · exact absurd hempty hsome
  · have hbefore := @map_view_congr _ (fun page => (readPage page).itemCount) _ _ (fun _ => itemCount_form)
      (fun page hmem => hcounted page ((List.dropLast_sublist _).subset hmem))
      (fun page hmem => hpages page ((List.dropLast_sublist _).subset hmem)) h.before
    have hsum : ∀ (list : List JsonDocument) (final : JsonDocument), list = list.dropLast ++ [final] →
        declaredCount list = (list.dropLast.map fun page => (readPage page).itemCount).sum +
          naturalIn final itemCountName := by
      intro list final hlist
      unfold declaredCount
      rw [List.map_map]
      conv => lhs; rw [hlist]
      rw [List.map_append, List.sum_append]
      rfl
    obtain ⟨-, hrange, hlarge⟩ := h.last page hpage last hlast
    rw [hsum counted page hother, hsum pages last hsplit, hbefore]
    by_cases hsafe : naturalIn last itemCountName + count ≤ maxSafeInteger
    · left
      rw [hrange hsafe]
      omega
    · right
      have hover := hlarge (by omega)
      omega

end Pages

theorem connected_of_places {first second : LedgerSnapshot} (h : Connected first)
    (hcomplete : second.complete = first.complete)
    (hplaces : second.pages.map placeOf = first.pages.map placeOf)
    (hcounted : (second.pages.map LedgerPage.itemCount).sum = second.transactions.length) :
    Connected second := by
  have hchain : ∀ pages : List LedgerPage, pages.IsChain LedgerPage.Meets ↔
      (pages.map placeOf).IsChain fun place following =>
        place.2.2 ≠ none ∧ following.2.1 = place.2.2 := by
    intro pages
    rw [List.isChain_map]
    exact Iff.rfl
  have hnumbers : ∀ pages : List LedgerPage,
      pages.map LedgerPage.pageNumber = (pages.map placeOf).map Prod.fst := by
    intro pages
    rw [List.map_map]
    rfl
  have hends : ∀ pages : List LedgerPage, (∀ page ∈ pages.getLast?, page.nextCursor = none) ↔
      ∀ place ∈ (pages.map placeOf).getLast?, place.2.2 = none := by
    intro pages
    rw [List.getLast?_map]
    cases pages.getLast? with
    | none => simp
    | some page => simp [placeOf]
  have hlength : second.pages.length = first.pages.length := by
    rw [← List.length_map placeOf, hplaces, List.length_map]
  refine ⟨hcomplete.trans h.complete, hlength ▸ h.recorded, ?_, ?_, ?_, hcounted⟩
  · rw [hnumbers, hplaces, ← hnumbers, h.numbered, hlength]
  · rw [hchain, hplaces, ← hchain]
    exact h.meets
  · rw [hends, hplaces, ← hends]
    exact h.ends

/-! ## The pagination of a fold -/

section Folded

variable {text : NumberText} {schemas : FoldSchemas} {fold : DocumentFold}
  {frozen late document : JsonDocument} {bytes : List UInt8}

/-- The pages of a fold count its items exactly when those of the frozen ledger did. -/
theorem FoldedFrom.counted_iff (h : FoldedFrom .ledgerTransactions frozen late document)
    (hfrozen : Representable frozen) (hdocument : Representable document)
    (hshort : ShortItems .ledgerTransactions frozen) (hlate : ShortItems .ledgerTransactions late)
    (hsome : listOf frozen pagesName ≠ []) :
    declaredCount (listOf document pagesName) =
        (listOf document DocumentFold.ledgerTransactions.items).length ↔
      declaredCount (listOf frozen pagesName) =
        (listOf frozen DocumentFold.ledgerTransactions.items).length := by
  have hitems := congrArg List.length h.items
  rw [List.length_map, List.length_map, List.length_append] at hitems
  have hadded := (additions_sublist (listOf frozen DocumentFold.ledgerTransactions.items)
    (listOf late DocumentFold.ledgerTransactions.items)).length_le
  have hcounted := (h.pages rfl).declaredCount_eq (listOf_representable hfrozen pagesName)
    (listOf_representable hdocument pagesName) hsome
  have hmax : maxSafeInteger = 2 ^ 53 - 1 := rfl
  have hbound : arrayBound = 2 ^ 32 := rfl
  unfold ShortItems at hshort hlate
  rw [hitems]
  rcases hcounted with hexact | ⟨hbefore, hafter⟩
  · omega
  -- no list of transactions is as long as either count
  · omega

/-- The pages of a fold prove it whole exactly when the frozen pages did. -/
theorem FoldedFrom.pagination_iff (h : FoldedFrom .ledgerTransactions frozen late document)
    (hfrozen : Representable frozen) (hdocument : Representable document)
    (hshort : ShortItems .ledgerTransactions frozen) (hlate : ShortItems .ledgerTransactions late)
    (reader : LedgerReader) :
    paginationProblems (reader.ledger document) = [] ↔
      paginationProblems (reader.ledger frozen) = [] := by
  have hpages := h.pages rfl
  have hplaces : (reader.ledger document).pages.map placeOf =
      (reader.ledger frozen).pages.map placeOf :=
    hpages.places (listOf_representable hfrozen pagesName)
      (listOf_representable hdocument pagesName)
  have hcomplete : (reader.ledger document).complete = (reader.ledger frozen).complete := by
    have hmember := h.others completeName (by decide)
    change isTrue (memberOf document completeName) = isTrue (memberOf frozen completeName)
    rw [← isTrue_form, hmember, isTrue_form]
  have hlength : (listOf document pagesName).length = (listOf frozen pagesName).length :=
    hpages.length
  have hsome : ∀ ledger : JsonDocument, Connected (reader.ledger ledger) →
      0 < (listOf ledger pagesName).length := by
    intro ledger hconnected
    have hrecorded := hconnected.recorded
    rwa [LedgerReader.ledger, List.length_map] at hrecorded
  have hcounted : 0 < (listOf frozen pagesName).length → _ := fun hpositive =>
    h.counted_iff hfrozen hdocument hshort hlate (List.ne_nil_of_length_pos hpositive)
  have hdeclared : ∀ ledger : JsonDocument,
      ((reader.ledger ledger).pages.map LedgerPage.itemCount).sum =
          (reader.ledger ledger).transactions.length ↔
        declaredCount (listOf ledger pagesName) =
          (listOf ledger DocumentFold.ledgerTransactions.items).length := by
    intro ledger
    unfold LedgerReader.ledger declaredCount
    rw [List.length_map]
  rw [paginationProblems_nil, paginationProblems_nil]
  constructor
  · intro hconnected
    refine connected_of_places hconnected hcomplete.symm hplaces.symm ?_
    have hpositive := hlength ▸ hsome document hconnected
    exact (hdeclared frozen).mpr
      ((hcounted hpositive).mp ((hdeclared document).mp hconnected.counted))
  · intro hconnected
    refine connected_of_places hconnected hcomplete hplaces ?_
    have hpositive := hsome frozen hconnected
    exact (hdeclared document).mpr
      ((hcounted hpositive).mpr ((hdeclared frozen).mp hconnected.counted))

/-- The document that is left when one late document is folded after another. -/
def foldTwice (text : NumberText) (schemas : FoldSchemas) (fold : DocumentFold) (bytes : List UInt8)
    (first second : JsonDocument) : Option JsonDocument :=
  match foldLateDocument text schemas fold (some bytes) first with
  | .error _ => none
  | .ok once =>
    match foldLateDocument text schemas fold (some once) second with
    | .error _ => none
    | .ok twice => parseJsonDocument text twice

theorem foldTwice_forms (law : text.Lawful) (hprints : PrintsJson text)
    (hschemas : schemas.SeesForm) (hfrozen : Foldable schemas fold frozen)
    (hparsed : parseJsonDocument text bytes = some frozen) {first second : JsonDocument}
    (hfirst : Foldable schemas fold first) (hsecond : Foldable schemas fold second)
    (hshort : ShortItems fold first) (hother : ShortItems fold second)
    (hrange : CountInRange fold frozen
      (additions (listOf frozen fold.items) (listOf first fold.items)).length) :
    ∃ document, foldTwice text schemas fold bytes first second = some document ∧
      ∀ form, form ∈ (listOf document fold.items).map structuralForm ↔
        form ∈ (listOf frozen fold.items).map structuralForm ∨
          form ∈ (listOf first fold.items).map structuralForm ∨
          form ∈ (listOf second fold.items).map structuralForm := by
  obtain ⟨once, middle, honce, hmiddle, hfrom, -, hvalid⟩ :=
    fold_result law hprints hschemas hfrozen hfirst hshort hparsed
  have hfoldable : Foldable schemas fold middle :=
    ⟨hvalid.mpr hrange, parseJsonDocument_representable hmiddle⟩
  obtain ⟨twice, document, htwice, hdocument, hnext, -⟩ :=
    fold_result law hprints hschemas hfoldable hsecond hother hmiddle
  refine ⟨document, ?_, fun form => ?_⟩
  · unfold foldTwice
    simp only [honce, htwice]
    exact hdocument
  · rw [hnext.mem_items, hfrom.mem_items, or_assoc]

/-- Folding a late document adds the items the frozen one lacks and changes nothing else but a
ledger's last count, keeps what the pagination of a ledger proved, and, while that count is one the
schema admits, changes nothing the second time and leaves the same items in any order. -/
theorem folding_adds_what_is_new (law : text.Lawful) (hprints : PrintsJson text)
    (hschemas : schemas.SeesForm) (hfrozen : Foldable schemas fold frozen)
    (hlate : Foldable schemas fold late) (hshort : ShortItems fold frozen)
    (hlateShort : ShortItems fold late) (hparsed : parseJsonDocument text bytes = some frozen) :
    ∃ folded document, foldLateDocument text schemas fold (some bytes) late = .ok folded ∧
      parseJsonDocument text folded = some document ∧ FoldedFrom fold frozen late document ∧
      (additions (listOf frozen fold.items) (listOf late fold.items) = [] → folded = bytes) ∧
      (fold = .ledgerTransactions → ∀ reader : LedgerReader,
        (paginationProblems (reader.ledger document) = [] ↔
          paginationProblems (reader.ledger frozen) = [])) ∧
      (CountInRange fold frozen
          (additions (listOf frozen fold.items) (listOf late fold.items)).length →
        foldLateDocument text schemas fold (some folded) late = .ok folded ∧
        ∀ other, Foldable schemas fold other → ShortItems fold other →
          CountInRange fold frozen
            (additions (listOf frozen fold.items) (listOf other fold.items)).length →
          ∃ lateFirst lateSecond,
            foldTwice text schemas fold bytes late other = some lateFirst ∧
            foldTwice text schemas fold bytes other late = some lateSecond ∧
            ∀ form, form ∈ (listOf lateFirst fold.items).map structuralForm ↔
              form ∈ (listOf lateSecond fold.items).map structuralForm) := by
  obtain ⟨folded, document, hfolded, hdocument, hfrom, hsame, hvalid⟩ :=
    fold_result law hprints hschemas hfrozen hlate hlateShort hparsed
  refine ⟨folded, document, hfolded, hdocument, hfrom, hsame, ?_, fun hrange => ⟨?_, ?_⟩⟩
  · intro hledger reader
    subst hledger
    exact hfrom.pagination_iff hfrozen.representable (parseJsonDocument_representable hdocument)
      hshort hlateShort reader
  · exact fold_again law hprints hlate hdocument hfrom (hvalid.mpr hrange)
  · intro other hother hotherShort hotherRange
    obtain ⟨lateFirst, hlateFirst, hforms⟩ := foldTwice_forms law hprints hschemas hfrozen hparsed
      hlate hother hlateShort hotherShort hrange
    obtain ⟨lateSecond, hlateSecond, hothers⟩ := foldTwice_forms law hprints hschemas hfrozen
      hparsed hother hlate hotherShort hlateShort hotherRange
    refine ⟨lateFirst, lateSecond, hlateFirst, hlateSecond, fun form => ?_⟩
    rw [hforms, hothers]
    tauto

end Folded

/-! ## A ledger of one page -/

section Sample

def sampleSchemas : FoldSchemas where
  item := fun _ _ => true
  rest := fun _ _ => true
  describeFirstViolation := fun _ _ => "/pages/0/item_count: must be <= 9007199254740991"

def textOf (text : String) : JsonDocument := .string (jsString text)

def sampleLedger (count : FiniteDouble) (transactions : List JsonDocument) : JsonDocument :=
  .object
    [(jsString "captured_at", textOf "2026-10-05T12:07:37.000Z"),
     (completeName, .bool true),
     (jsString "consistent_read", .bool true),
     (jsString "execution_manifest_sha256",
      textOf "9475cbad9d915c4157feb352837acfbb9a8858103d6e695396355e1ab6f3a624"),
     (pagesName, .array [.object
       [(itemCountName, .number (.finite count)),
        (pageNumberName, .number (.finite (doubleOfNat 1 one_lt_bound)))]]),
     (jsString "partition_key",
      textOf "b42ee7a8-4b45-43d7-8ca3-cb72ceae84c4#d1d0a2b9-d331-4919-a5e0-44819414b6e9"),
     (jsString "record_type", textOf "ledger_snapshot"),
     (jsString "run_id", textOf "b42ee7a8-4b45-43d7-8ca3-cb72ceae84c4"),
     (jsString "schema_version", .number (.finite (doubleOfNat 1 one_lt_bound))),
     (DocumentFold.ledgerTransactions.items, .array transactions),
     (jsString "trial_id", textOf "d1d0a2b9-d331-4919-a5e0-44819414b6e9"),
     (jsString "trial_manifest_sha256",
      textOf "87f894c120f93aa1d0dad81039a61d67383c0bfe1930e522a0387b597aeecb68"),
     (jsString "writer", textOf "evidence_collector")]

def sampleTransaction : JsonDocument :=
  .object
    [(jsString "amount_minor", .number (.finite (doubleOfNat 10000 (by decide)))),
     (jsString "attempt_id", textOf "46b2ece1-aeea-4e03-ba92-290977fb4518"),
     (jsString "commit_requested_at", textOf "2026-10-05T12:05:05.520Z"),
     (jsString "currency", textOf "BRL"),
     (jsString "payment_id", textOf "pay-poc-001"),
     (jsString "provider_call_id", textOf "bf79393f-6e5b-4d38-bcee-0b897333b705"),
     (jsString "provider_commit_id", textOf "0022d46e-4a9d-4997-8022-2d668a7febd3"),
     (jsString "provider_request_id", textOf "8c0589c0-1eb8-4ba4-b0cc-3265d71eca8a"),
     (jsString "provider_transaction_id", textOf "45330d17-68f2-490e-a631-e1f052952dda"),
     (jsString "refund_request_id", textOf "ref-poc-001"),
     (jsString "status", textOf "SUCCEEDED")]

theorem built_textOf (numbers : Double → Prop) (text : String) : Built numbers (textOf text) :=
  .string _

theorem representable_sampleTransaction : Representable sampleTransaction := by
  refine .object (by decide +kernel) ?_
  simp only [List.forall_mem_cons, List.not_mem_nil, false_imp_iff, implies_true, and_true,
    built_textOf]
  exact .number rfl

theorem representable_sampleLedger (count : FiniteDouble) {transactions : List JsonDocument}
    (h : ∀ transaction ∈ transactions, Representable transaction) :
    Representable (sampleLedger count transactions) := by
  have hpage : Representable (.object [(itemCountName, .number (.finite count)),
      (pageNumberName, .number (.finite (doubleOfNat 1 one_lt_bound)))]) := by
    refine .object (by simp only [List.map_cons, List.map_nil]; decide +kernel) ?_
    simp only [List.forall_mem_cons, List.not_mem_nil, false_imp_iff, implies_true, and_true]
    exact ⟨.number rfl, .number rfl⟩
  refine .object (by simp only [List.map_cons, List.map_nil]; decide +kernel) ?_
  simp only [List.forall_mem_cons, List.not_mem_nil, false_imp_iff, implies_true, and_true,
    true_and, built_textOf]
  refine ⟨.bool true, .bool true, .array ?_, .number rfl, .array h⟩
  intro page hmem
  rw [List.mem_singleton.mp hmem]
  exact hpage

theorem sampleSchemas_seesForm : sampleSchemas.SeesForm :=
  ⟨fun _ _ _ => rfl, fun _ _ _ => rfl⟩

theorem sampleLedger_file {count : FiniteDouble} {transactions : List JsonDocument}
    (hitems : ∀ transaction ∈ transactions, Representable transaction)
    (hvalid : isValid sampleSchemas .ledgerTransactions (sampleLedger count transactions) = true) :
    parseJsonDocument exactText (recordFileBytes exactText (sampleLedger count transactions)) =
        some (structuralForm (sampleLedger count transactions)) ∧
      Foldable sampleSchemas .ledgerTransactions
        (structuralForm (sampleLedger count transactions)) := by
  have hrep := representable_sampleLedger count hitems
  refine ⟨parseJsonDocument_recordFile exactText_lawful exactText_printsJson hrep, ?_,
    hrep.structuralForm⟩
  rw [isValid_structuralForm sampleSchemas_seesForm _ hrep]
  exact hvalid

def brimmingLedger : JsonDocument := sampleLedger (doubleOfNat maxSafeInteger (by decide)) []

def emptyLedger : JsonDocument := sampleLedger (doubleOfNat 0 zero_lt_bound) []

def lateLedger : JsonDocument := sampleLedger (doubleOfNat 1 one_lt_bound) [sampleTransaction]

theorem lateLedger_foldable : Foldable sampleSchemas .ledgerTransactions lateLedger := by
  refine ⟨by decide +kernel, representable_sampleLedger _ fun transaction hmem => ?_⟩
  rw [List.mem_singleton.mp hmem]
  exact representable_sampleTransaction

theorem additions_single (item : JsonDocument) : additions [] [item] = [item] := by
  have hmem : structuralForm item ∈ (additions [] [item]).map structuralForm :=
    mem_additions_forms.mpr ⟨List.mem_singleton.mpr rfl, List.not_mem_nil⟩
  rcases List.sublist_singleton.mp (additions_sublist [] [item]) with hempty | hsingle
  · rw [hempty] at hmem
    cases hmem
  · exact hsingle

theorem additions_lateLedger (count : FiniteDouble) :
    additions (listOf (structuralForm (sampleLedger count [])) DocumentFold.ledgerTransactions.items)
      (listOf lateLedger DocumentFold.ledgerTransactions.items) = [sampleTransaction] := by
  rw [listOf_structuralForm (representable_sampleLedger count fun _ hmem => by cases hmem)]
  exact additions_single sampleTransaction

theorem countInRange_sampleLedger {number : Nat} (h : number < 2 ^ 53) (added : Nat) :
    CountInRange .ledgerTransactions (structuralForm (sampleLedger (doubleOfNat number h) [])) added ↔
      number + added ≤ maxSafeInteger := by
  have hrep := @representable_sampleLedger (doubleOfNat number h) [] fun _ hmem => by cases hmem
  have hpages : listOf (sampleLedger (doubleOfNat number h) []) pagesName = [.object
      [(itemCountName, .number (.finite (doubleOfNat number h))),
       (pageNumberName, .number (.finite (doubleOfNat 1 one_lt_bound)))]] := rfl
  have hcount : naturalIn (.object [(itemCountName, .number (.finite (doubleOfNat number h))),
      (pageNumberName, .number (.finite (doubleOfNat 1 one_lt_bound)))]) itemCountName = number := by
    change (naturalOf (.finite (doubleOfNat number h))).getD 0 = number
    rw [naturalOf_doubleOfNat number h, Option.getD_some]
  have hpage := listOf_representable hrep pagesName
  rw [hpages] at hpage
  unfold CountInRange
  rw [listOf_structuralForm hrep, hpages, List.map_singleton, List.getLast?_singleton]
  simp only [Option.mem_some_iff, forall_eq', naturalIn_structuralForm (hpage _ List.mem_cons_self),
    hcount, true_imp_iff]

theorem fold_past_the_largest_count :
    Foldable sampleSchemas .ledgerTransactions (structuralForm brimmingLedger) ∧
      Foldable sampleSchemas .ledgerTransactions lateLedger ∧
      parseJsonDocument exactText (recordFileBytes exactText brimmingLedger) =
        some (structuralForm brimmingLedger) ∧
      ∃ folded, foldLateDocument exactText sampleSchemas .ledgerTransactions
          (some (recordFileBytes exactText brimmingLedger)) lateLedger = .ok folded ∧
        foldLateDocument exactText sampleSchemas .ledgerTransactions (some folded) lateLedger ≠
          .ok folded := by
  obtain ⟨hparsed, hfrozen⟩ := @sampleLedger_file (doubleOfNat maxSafeInteger (by decide)) []
    (fun _ hmem => by cases hmem) (by decide +kernel)
  obtain ⟨folded, document, hfolded, hdocument, -, -, hvalid⟩ := fold_result exactText_lawful
    exactText_printsJson sampleSchemas_seesForm hfrozen lateLedger_foldable
    (by unfold ShortItems; decide +kernel) hparsed
  refine ⟨hfrozen, lateLedger_foldable, hparsed, folded, hfolded, ?_⟩
  rw [additions_lateLedger] at hvalid
  have hover : ¬ CountInRange .ledgerTransactions
      (structuralForm (sampleLedger (doubleOfNat maxSafeInteger (by decide)) []))
      [sampleTransaction].length := by
    rw [countInRange_sampleLedger]
    decide
  have hinvalid : isValid sampleSchemas .ledgerTransactions document = false := by
    rw [Bool.eq_false_iff]
    exact fun h => hover (hvalid.mp h)
  rw [fold_refused lateLedger_foldable hdocument hinvalid]
  intro h
  cases h

theorem late_transaction_joins_once :
    ∃ folded document, foldLateDocument exactText sampleSchemas .ledgerTransactions
        (some (recordFileBytes exactText emptyLedger)) lateLedger = .ok folded ∧
      FoldedFrom .ledgerTransactions (structuralForm emptyLedger) lateLedger document ∧
      foldLateDocument exactText sampleSchemas .ledgerTransactions (some folded) lateLedger =
        .ok folded := by
  obtain ⟨hparsed, hfrozen⟩ := @sampleLedger_file (doubleOfNat 0 zero_lt_bound) []
    (fun _ hmem => by cases hmem) (by decide +kernel)
  obtain ⟨folded, document, hfolded, -, hfrom, -, -, hagain⟩ := folding_adds_what_is_new
    exactText_lawful exactText_printsJson sampleSchemas_seesForm hfrozen lateLedger_foldable
    (by unfold ShortItems; decide +kernel) (by unfold ShortItems; decide +kernel) hparsed
  rw [additions_lateLedger] at hagain
  have hrange : CountInRange .ledgerTransactions
      (structuralForm (sampleLedger (doubleOfNat 0 zero_lt_bound) [])) [sampleTransaction].length := by
    rw [countInRange_sampleLedger]
    decide
  exact ⟨folded, document, hfolded, hfrom, (hagain hrange).1⟩

end Sample

end RefundStudy.LateEvidence
