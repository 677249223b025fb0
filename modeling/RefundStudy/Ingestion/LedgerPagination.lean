/-
  What an accepted pagination proves (`evidence-ingestion/ledger-view.ts`,
  `paginationProblems`).
-/
import RefundStudy.Ingestion.Evidence

set_option autoImplicit false

namespace RefundStudy.Ingestion

def LedgerPage.Meets (page following : LedgerPage) : Prop :=
  page.nextCursor ≠ none ∧ following.startCursor = page.nextCursor

/-- The pages follow one another without a break, up to the end of the partition. -/
structure Connected (snapshot : LedgerSnapshot) : Prop where
  complete : snapshot.complete = true
  recorded : 1 ≤ snapshot.pages.length
  numbered : snapshot.pages.map LedgerPage.pageNumber = List.range' 1 snapshot.pages.length
  meets : snapshot.pages.IsChain LedgerPage.Meets
  ends : ∀ page ∈ snapshot.pages.getLast?, page.nextCursor = none
  counted : (snapshot.pages.map LedgerPage.itemCount).sum = snapshot.transactions.length

def BeginsPartition (snapshot : LedgerSnapshot) : Prop :=
  ∀ page ∈ snapshot.pages.head?, page.startCursor = none

/-- One unbroken read of the partition from its beginning to its end. -/
structure CoversPartition (snapshot : LedgerSnapshot) : Prop extends Connected snapshot where
  begins : BeginsPartition snapshot

/-! ## One page -/

theorem pageProblems_nil (page : LedgerPage) (index : Nat) (next : Option LedgerPage) :
    pageProblems page index next = [] ↔
      page.pageNumber = index + 1 ∧ (next = none → page.nextCursor = none) ∧
        ∀ following ∈ next, page.Meets following := by
  unfold pageProblems LedgerPage.Meets
  cases next with
  | none =>
    cases page.nextCursor with
    | none => simp
    | some cursor => simp
  | some following =>
    cases page.nextCursor with
    | none => simp
    | some cursor =>
      by_cases hstart : following.startCursor = some cursor
      · simp [hstart]
      · simp [hstart]

/-! ## The pages together -/

theorem numbered_iff (pages : List LedgerPage) :
    pages.map LedgerPage.pageNumber = List.range' 1 pages.length ↔
      ∀ (index : Nat) (page : LedgerPage), pages[index]? = some page →
        page.pageNumber = index + 1 := by
  constructor
  · intro h index page hpage
    have hindex := (List.getElem?_eq_some_iff.mp hpage).1
    have hmapped : (pages.map LedgerPage.pageNumber)[index]? = some page.pageNumber := by
      rw [List.getElem?_map, hpage, Option.map_some]
    rw [h, List.getElem?_range' hindex] at hmapped
    have := Option.some.inj hmapped
    omega
  · intro h
    apply List.ext_getElem
    · rw [List.length_map, List.length_range']
    · intro index hindex hrange
      rw [List.length_map] at hindex
      rw [List.getElem_map, List.getElem_range',
        h index pages[index] (List.getElem?_eq_getElem hindex)]
      omega

theorem meets_iff (pages : List LedgerPage) :
    pages.IsChain LedgerPage.Meets ↔
      ∀ (index : Nat) (page : LedgerPage), pages[index]? = some page →
        ∀ following ∈ pages[index + 1]?, page.Meets following := by
  rw [List.isChain_iff_getElem]
  constructor
  · intro h index page hpage following hfollowing
    obtain ⟨hindex, rfl⟩ := List.getElem?_eq_some_iff.mp hpage
    obtain ⟨hnext, rfl⟩ := List.getElem?_eq_some_iff.mp hfollowing
    exact h index hnext
  · intro h index hindex
    exact h index _ (List.getElem?_eq_getElem (by omega)) _ (List.getElem?_eq_getElem hindex)

theorem ends_iff (pages : List LedgerPage) :
    (∀ page ∈ pages.getLast?, page.nextCursor = none) ↔
      ∀ (index : Nat) (page : LedgerPage), pages[index]? = some page →
        pages[index + 1]? = none → page.nextCursor = none := by
  rw [List.getLast?_eq_getElem?]
  constructor
  · intro h index page hpage hnone
    have hindex := (List.getElem?_eq_some_iff.mp hpage).1
    have hlength := List.getElem?_eq_none_iff.mp hnone
    have hlast : pages.length - 1 = index := by omega
    apply h page
    rw [hlast]
    exact hpage
  · intro h page hpage
    have hindex := (List.getElem?_eq_some_iff.mp hpage).1
    exact h _ page hpage (List.getElem?_eq_none_iff.mpr (by omega))

theorem pageProblems_all_nil (pages : List LedgerPage) :
    (pages.zipIdx.flatMap fun page => pageProblems page.1 page.2 pages[page.2 + 1]?) = [] ↔
      pages.map LedgerPage.pageNumber = List.range' 1 pages.length ∧
        pages.IsChain LedgerPage.Meets ∧
        ∀ page ∈ pages.getLast?, page.nextCursor = none := by
  have hpages : (pages.zipIdx.flatMap fun page =>
      pageProblems page.1 page.2 pages[page.2 + 1]?) = [] ↔
      ∀ (index : Nat) (page : LedgerPage), pages[index]? = some page →
        pageProblems page index pages[index + 1]? = [] := by
    rw [List.flatMap_eq_nil_iff]
    constructor
    · intro h index page hpage
      exact h (page, index) (List.mk_mem_zipIdx_iff_getElem?.mpr hpage)
    · intro h entry hentry
      exact h entry.2 entry.1 (List.mem_zipIdx_iff_getElem?.mp hentry)
  rw [hpages, numbered_iff, meets_iff, ends_iff]
  constructor
  · intro h
    refine ⟨?_, ?_, ?_⟩
    · intro index page hpage
      exact ((pageProblems_nil _ _ _).mp (h index page hpage)).1
    · intro index page hpage
      exact ((pageProblems_nil _ _ _).mp (h index page hpage)).2.2
    · intro index page hpage
      exact ((pageProblems_nil _ _ _).mp (h index page hpage)).2.1
  · intro h index page hpage
    apply (pageProblems_nil _ _ _).mpr
    exact ⟨h.1 index page hpage, h.2.2 index page hpage, h.2.1 index page hpage⟩

theorem paginationProblems_nil (snapshot : LedgerSnapshot) :
    paginationProblems snapshot = [] ↔ Connected snapshot := by
  have hrecorded : snapshot.pages.isEmpty = false ↔ 1 ≤ snapshot.pages.length := by
    rw [List.isEmpty_eq_false_iff, ← List.length_pos_iff]
    omega
  unfold paginationProblems
  simp only [List.append_eq_nil_iff, pageProblems_all_nil, ite_eq_left_iff, List.cons_ne_nil,
    imp_false, Bool.not_eq_true, Bool.not_eq_false, ite_eq_right_iff, hrecorded, not_not]
  constructor
  · intro h
    obtain ⟨⟨⟨hcomplete, hpages⟩, hnumbered, hmeets, hends⟩, hcounted⟩ := h
    exact ⟨hcomplete, hpages, hnumbered, hmeets, hends, hcounted⟩
  · intro h
    exact ⟨⟨⟨h.complete, h.recorded⟩, h.numbered, h.meets, h.ends⟩, h.counted⟩

/-! ## What acceptance proves -/

/-- An empty list of problems proves the whole partition was read, except for the connected
snapshots whose first page starts at a cursor. -/
theorem accepted_pagination_covers_iff (snapshot : LedgerSnapshot) :
    (paginationProblems snapshot = [] → CoversPartition snapshot) ↔
      (BeginsPartition snapshot ∨ ¬ Connected snapshot) := by
  rw [paginationProblems_nil]
  constructor
  · intro h
    by_cases hconnected : Connected snapshot
    · exact .inl (h hconnected).begins
    · exact .inr hconnected
  · intro h hconnected
    rcases h with hbegins | hbroken
    · exact ⟨hconnected, hbegins⟩
    · exact absurd hconnected hbroken

def tailSnapshot : LedgerSnapshot where
  writer := .evidenceCollector
  consistentRead := true
  capturedAt := 0
  complete := true
  pages := [{ pageNumber := 1, itemCount := 0, startCursor := some "c2", nextCursor := none }]
  transactions := []

theorem tail_read_accepted :
    paginationProblems tailSnapshot = [] ∧ ¬ CoversPartition tailSnapshot := by
  refine ⟨by decide, ?_⟩
  intro hcovers
  have hstart := hcovers.begins _ (Option.mem_some_self _)
  cases hstart

end RefundStudy.Ingestion
