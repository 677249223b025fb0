/-
  The collector's read of the ledger partition (`evidence-collection/ledger-capture.ts`) and what
  ingestion says of it.

  The store need not be honest: it may fail, repeat a cursor or answer with empty pages. It is a
  function of the number of the call, because the calls before it are fixed by its own answers.
-/
import RefundStudy.Ingestion.LedgerPagination
import RefundStudy.Store.PageCursor
import Mathlib.Data.Finset.Card
import Mathlib.Data.Fintype.Card

set_option autoImplicit false

namespace RefundStudy.Collection.Ledger

open Foundation Record Package Ingestion
open Store (JsonObject TableRole)

/-! ## The scope of a capture -/

inductive CaptureUnit where
  | trial (trialId : Uuid4) (trialManifestSha256 : Sha256Hex)
  | probe

structure CaptureScope where
  execution : ExecutionIdentity
  executionManifestSha256 : Sha256Hex
  unit : CaptureUnit

structure QueryPage where
  items : List JsonObject
  nextCursor : Option String

structure CollectorStoreReader where
  queryPartitionPage : Nat → TableRole → String → Option String → Except String QueryPage

def recordOfItem (item : JsonObject) : JsonObject :=
  item.filter fun member => decide (member.1 ≠ "pk") && decide (member.1 ≠ "sk")

def readFailure (code subject target failure : String) (pageNumber : Nat) : StructuredReason where
  code := code
  subject := "BR-RUA-037"
  detail := subject ++ " read of " ++ boundedText target ++ " at page " ++ toString pageNumber ++
    " failed with " ++ boundedText failure ++ "; expected a successful strongly consistent read"

def repeatedLedgerCursor (partitionKey : String) (pageNumber : Nat) : StructuredReason where
  code := "LEDGER_CURSOR_REPEATED"
  subject := "BR-RUA-005"
  detail := "ledger partition " ++ partitionKey ++ " returned an already-seen cursor at page " ++
    toString pageNumber ++ "; expected each page to advance until no cursor remains"

def pageEntry (pageNumber itemCount : Nat) (start next : Option String) : LedgerPage where
  pageNumber := pageNumber
  itemCount := itemCount
  startCursor := start
  nextCursor := next

structure LedgerReadState where
  pages : List LedgerPage := []
  items : List JsonObject := []
  failures : List StructuredReason := []
  complete : Bool := false

/-- The loop of `readLedgerPages`; `none` when the fuel is spent. -/
def readPages (reader : CollectorStoreReader) (partitionKey : String) :
    Nat → LedgerReadState → List String → Option String → Nat → Option LedgerReadState
  | 0, _, _, _, _ => none
  | fuel + 1, state, seen, cursor, call =>
    let pageNumber := call + 1
    match reader.queryPartitionPage call .ledger partitionKey cursor with
    | .error code =>
      some { state with failures := state.failures ++
        [readFailure "LEDGER_READ_FAILED" "ledger" partitionKey code pageNumber] }
    | .ok page =>
      let read := { state with
        pages := state.pages ++
          [pageEntry pageNumber page.items.length cursor page.nextCursor]
        items := state.items ++ page.items }
      match page.nextCursor with
      | none => some { read with complete := true }
      | some next =>
        if next ∈ seen then
          some { read with failures := read.failures ++
            [repeatedLedgerCursor partitionKey pageNumber] }
        else readPages reader partitionKey fuel read (seen ++ [next]) (some next) pageNumber

/-- The `ledger_snapshot` record, with its correlation. -/
structure LedgerSnapshotRecord where
  correlation : CaptureScope
  writer : EventSource
  partitionKey : String
  consistentRead : Bool
  capturedAt : UtcMillis
  complete : Bool
  pages : List LedgerPage
  transactions : List JsonObject

structure LedgerCapture where
  record : LedgerSnapshotRecord
  complete : Bool
  transactionCount : Nat
  failures : List StructuredReason

def LedgerSnapshotRecord.read (record : LedgerSnapshotRecord)
    (typed : JsonObject → LedgerTransaction) : LedgerSnapshot where
  writer := record.writer
  consistentRead := record.consistentRead
  capturedAt := record.capturedAt
  complete := record.complete
  pages := record.pages
  transactions := record.transactions.map typed

/-! ## Following the cursors -/

section Following

variable (reader : CollectorStoreReader) (partitionKey : String)

def cursorAt : Nat → Option String
  | 0 => none
  | call + 1 =>
    (reader.queryPartitionPage call .ledger partitionKey (cursorAt call)).toOption.bind
      QueryPage.nextCursor

def answerAt (call : Nat) : Except String QueryPage :=
  reader.queryPartitionPage call .ledger partitionKey (cursorAt reader partitionKey call)

/-- The call ends the read: no cursor follows it, or one that an earlier call returned. -/
def Settles (call : Nat) : Prop :=
  cursorAt reader partitionKey (call + 1) = none ∨
    ∃ earlier < call,
      cursorAt reader partitionKey (earlier + 1) = cursorAt reader partitionKey (call + 1)

/-- The cursors seen when so many pages are read. -/
def seenAfter (count : Nat) : List String :=
  (List.range count).filterMap fun call => cursorAt reader partitionKey (call + 1)

variable {reader partitionKey} {call count last : Nat}

theorem cursorAt_succ : cursorAt reader partitionKey (call + 1) =
    (answerAt reader partitionKey call).toOption.bind QueryPage.nextCursor := rfl

/-- A call that does not end the read has returned a page with a new cursor. -/
theorem ok_of_not_settles (h : ¬ Settles reader partitionKey call) :
    ∃ page next, answerAt reader partitionKey call = .ok page ∧ page.nextCursor = some next ∧
      cursorAt reader partitionKey (call + 1) = some next ∧
      next ∉ seenAfter reader partitionKey call := by
  unfold Settles at h
  push Not at h
  obtain ⟨hsome, hnew⟩ := h
  cases hcursor : cursorAt reader partitionKey (call + 1) with
  | none => exact absurd hcursor hsome
  | some next =>
    cases hanswer : answerAt reader partitionKey call with
    | error code =>
      rw [cursorAt_succ, hanswer] at hcursor
      cases hcursor
    | ok page =>
      have hnext : page.nextCursor = some next := by
        rw [cursorAt_succ, hanswer] at hcursor
        exact hcursor
      refine ⟨page, next, rfl, hnext, rfl, ?_⟩
      intro hseen
      obtain ⟨earlier, hearlier, hsame⟩ := List.mem_filterMap.mp hseen
      exact hnew earlier (List.mem_range.mp hearlier) (hsame.trans hcursor.symm)

end Following

/-! ## Ending -/

/-- Every cursor the reader returns for the partition is one of these. -/
def ReturnsOnly (reader : CollectorStoreReader) (partitionKey : String)
    (cursors : Finset String) : Prop :=
  ∀ call cursor page next,
    reader.queryPartitionPage call .ledger partitionKey cursor = .ok page →
      page.nextCursor = some next → next ∈ cursors

section Ending

variable {reader : CollectorStoreReader} {partitionKey : String} {cursors : Finset String}
  {last count : Nat} {state : LedgerReadState}

theorem ReturnsOnly.cursorAt_mem (h : ReturnsOnly reader partitionKey cursors) {call : Nat}
    {next : String} (hnext : cursorAt reader partitionKey (call + 1) = some next) :
    next ∈ cursors := by
  rw [cursorAt_succ] at hnext
  cases hanswer : answerAt reader partitionKey call with
  | error code =>
    rw [hanswer] at hnext
    cases hnext
  | ok page =>
    rw [hanswer] at hnext
    exact h call _ page next hanswer hnext

/-- Among one call more than there are cursors, one ends the read. -/
theorem ReturnsOnly.settles (h : ReturnsOnly reader partitionKey cursors) :
    ∃ last ≤ cursors.card, Settles reader partitionKey last := by
  by_contra hnone
  push Not at hnone
  have hmaps : ∀ call ∈ Finset.range (cursors.card + 1),
      (cursorAt reader partitionKey (call + 1)).getD "" ∈ cursors := by
    intro call hcall
    have hbound := Finset.mem_range.mp hcall
    obtain ⟨page, next, -, -, hnext, -⟩ := ok_of_not_settles (hnone call (by omega))
    rw [hnext]
    exact h.cursorAt_mem hnext
  obtain ⟨first, hfirst, second, hsecond, hne, hsame⟩ :=
    Finset.exists_ne_map_eq_of_card_lt_of_maps_to (by simp) hmaps
  have hfirstBound := Finset.mem_range.mp hfirst
  have hsecondBound := Finset.mem_range.mp hsecond
  obtain ⟨-, firstNext, -, -, hfirstNext, -⟩ := ok_of_not_settles (hnone first (by omega))
  obtain ⟨-, secondNext, -, -, hsecondNext, -⟩ := ok_of_not_settles (hnone second (by omega))
  rw [hfirstNext, hsecondNext, Option.getD_some, Option.getD_some] at hsame
  rcases Nat.lt_or_gt_of_ne hne with hless | hless
  · apply hnone second (by omega)
    exact .inr ⟨first, hless, by rw [hfirstNext, hsecondNext, hsame]⟩
  · apply hnone first (by omega)
    exact .inr ⟨second, hless, by rw [hfirstNext, hsecondNext, hsame]⟩

end Ending

end RefundStudy.Collection.Ledger
