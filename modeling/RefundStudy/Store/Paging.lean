/-
  Reading a whole partition by following cursors.
-/
import RefundStudy.Store.CursorRoundTrip
import Mathlib.Data.List.Lex
import Mathlib.Data.Finset.Card

set_option autoImplicit false

namespace RefundStudy.Store

open Foundation

/-- A row of a table: its attributes and the item the store decodes from them. -/
structure TableRow (text : NumberText) where
  raw : AttributeMap
  item : JsonObject
  pk : String
  sk : String
  decoded : decodeStoredItem text (AttributeMap.plain raw) = .ok item
  pk_found : InsertionMap.get? item "pk" = some (.string pk)
  sk_found : InsertionMap.get? item "sk" = some (.string sk)
  key_valid : keyValid ⟨jsString pk, jsString sk⟩ = true

def codePoints : JsString → List Nat
  | [] => []
  | [unit] => [unit.toNat]
  | first :: second :: rest =>
    if isHigh first && isLow second then pairPoint first second :: codePoints rest
    else first.toNat :: codePoints (second :: rest)

def TableRow.place {text : NumberText} (row : TableRow text) : List Nat :=
  codePoints (jsString row.sk)

section Service

variable {text : NumberText}

def rowsAfter (contents : List (TableRow text)) : Option JsString → List (TableRow text)
  | none => contents
  | some sk => contents.filter fun row => decide (codePoints sk < row.place)

def startKey (pk : JsString) (start : Option JsString) : Option ItemKey :=
  start.map fun sk => ⟨pk, sk⟩

/-- An answer to a query: a page of the rows after the start key, and the rows it left. -/
structure Answers (pk : JsString) (contents : List (TableRow text)) (start : Option JsString)
    (output : QueryOutput) (page rest : List (TableRow text)) : Prop where
  rows : rowsAfter contents start = page ++ rest
  items : output.items.getD [] = page.map TableRow.raw
  last : output.lastEvaluatedKey = none → rest = []
  /-- a last evaluated key of the partition stands between the page and the rest -/
  next : ∀ raw, output.lastEvaluatedKey = some raw →
    ∃ key : TableRow text, key.raw = raw ∧ jsString key.pk = pk ∧
      (∀ sk, start = some sk → codePoints sk ≤ key.place) ∧
      (∀ row ∈ page, row.place ≤ key.place) ∧ ∀ row ∈ rest, key.place < row.place

def ServesPartition (tableName : String) (pk : JsString) (contents : List (TableRow text))
    (service : Nat → QueryInput → QueryOutput) : Prop :=
  ∀ call start, ∃ page rest,
    Answers pk contents start (service call ⟨tableName, pk, true, startKey pk start⟩) page rest

/-- Outside these calls a page with a cursor has a row. -/
def IdleOnlyIn (idle : Finset Nat) (service : Nat → QueryInput → QueryOutput) : Prop :=
  ∀ call input, call ∉ idle → (service call input).lastEvaluatedKey ≠ none →
    (service call input).items.getD [] ≠ []

/-! ## One page -/

theorem decodeItems_rows (rows : List (TableRow text)) :
    decodeItems text (rows.map TableRow.raw) = .ok (rows.map TableRow.item) := by
  induction rows with
  | nil => rfl
  | cons row rest ih =>
    rw [List.map_cons, decodeItems, row.decoded]
    simp only [ih]
    rfl

theorem cursorOfItem_row (row : TableRow text) :
    cursorOfItem row.item = .ok (encodePageCursor ⟨jsString row.pk, jsString row.sk⟩) := by
  rw [cursorOfItem, row.pk_found, row.sk_found]

/-- The last evaluated key is the least start from which exactly the rest is left. -/
theorem rowsAfter_next {contents page rest : List (TableRow text)} {start : Option JsString}
    {sk : JsString} (hrows : rowsAfter contents start = page ++ rest)
    (hstart : ∀ earlier, start = some earlier → codePoints earlier ≤ codePoints sk)
    (hpage : ∀ row ∈ page, row.place ≤ codePoints sk) (hrest : ∀ row ∈ rest, codePoints sk < row.place) :
    rowsAfter contents (some sk) = rest := by
  have hagain : rowsAfter contents (some sk) =
      (rowsAfter contents start).filter fun row => decide (codePoints sk < row.place) := by
    cases start with
    | none => rfl
    | some earlier =>
      rw [rowsAfter, rowsAfter, List.filter_filter]
      apply List.filter_congr
      intro row _
      have hle := hstart earlier rfl
      by_cases h : codePoints sk < row.place
      · simp [h, lt_of_le_of_lt hle h]
      · simp [h]
  have hnone : page.filter (fun row => decide (codePoints sk < row.place)) = [] := by
    rw [List.filter_eq_nil_iff]
    intro row hrow
    simpa using hpage row hrow
  have hall : rest.filter (fun row => decide (codePoints sk < row.place)) = rest := by
    rw [List.filter_eq_self]
    intro row hrow
    simpa using hrest row hrow
  rw [hagain, hrows, List.filter_append, hnone, hall, List.nil_append]

def cursorAt (pk : JsString) (start : Option JsString) : Option JsString :=
  start.map fun sk => encodePageCursor ⟨pk, sk⟩

/-- A start key a cursor may carry. -/
def StartValid (pk : JsString) (start : Option JsString) : Prop :=
  ∀ sk, start = some sk → keyValid ⟨pk, sk⟩ = true

variable {tables : StoreTableNames} {table : TableRole} {tableName : String} {pk : JsString}

theorem planQueryPage_cursorAt {start : Option JsString} (htable : tables table = some tableName)
    (hpk : partitionKeyValid pk = true) (hstart : StartValid pk start) :
    planQueryPage text tables table pk (cursorAt pk start) =
      .ok ⟨tableName, pk, true, startKey pk start⟩ := by
  rw [planQueryPage, if_pos hpk, htable]
  cases start with
  | none => rfl
  | some sk =>
    have hread : decodePageCursor text (encodePageCursor ⟨pk, sk⟩) pk =
        .ok ⟨pk, sk⟩ := by
      have hcodec := @decodePageCursor_encode text ⟨pk, sk⟩
      rwa [if_pos (hstart sk rfl)] at hcodec
    simp only [cursorAt, Option.map_some, hread]
    rfl

/-- What a page of the service reads as: the items of its rows, and either no cursor and no rows
left, or a cursor from which exactly the rest is left. -/
theorem readQueryOutput_answers {contents page rest : List (TableRow text)}
    {start : Option JsString} {output : QueryOutput}
    (h : Answers pk contents start output page rest) :
    ∃ next : Option JsString,
      readQueryOutput text output = .ok ⟨page.map TableRow.item, cursorAt pk next⟩ ∧
      StartValid pk next ∧ (next = none → output.lastEvaluatedKey = none ∧ rest = []) ∧
      (next ≠ none → output.lastEvaluatedKey ≠ none ∧ rowsAfter contents next = rest) := by
  have hitems : decodeItems text (output.items.getD []) = .ok (page.map TableRow.item) := by
    rw [h.items, decodeItems_rows]
  cases hlast : output.lastEvaluatedKey with
  | none =>
    refine ⟨none, ?_, ?_, ?_, ?_⟩
    · rw [readQueryOutput, hitems, hlast]
      rfl
    · intro sk hsk
      cases hsk
    · intro _
      exact ⟨rfl, h.last hlast⟩
    · intro hne
      exact absurd rfl hne
  | some raw =>
    obtain ⟨key, hraw, hkeyPk, hstart, hpage, hrest⟩ := h.next raw hlast
    refine ⟨some (jsString key.sk), ?_, ?_, ?_, ?_⟩
    · rw [readQueryOutput, hitems, hlast, ← hraw]
      simp only [Except.bind, key.decoded, cursorOfItem_row, Except.map, hkeyPk, cursorAt,
        Option.map_some]
    · intro sk hsk
      cases hsk
      rw [← hkeyPk]
      exact key.key_valid
    · intro hnone
      cases hnone
    · intro _
      exact ⟨by simp, rowsAfter_next h.rows hstart hpage hrest⟩

/-! ## The whole partition -/

variable {contents : List (TableRow text)} {service : Nat → QueryInput → QueryOutput}

/-- One round of the loop from a start key: it returns everything left, or goes on from a start
key with less or as much left. -/
theorem followCursor_step (htable : tables table = some tableName)
    (hpk : partitionKeyValid pk = true) (hserves : ServesPartition tableName pk contents service)
    (pages call : Nat) {start : Option JsString} (hstart : StartValid pk start) :
    followCursor text tables table pk service (pages + 1) call (cursorAt pk start) =
        .ok (some ((rowsAfter contents start).map TableRow.item)) ∨
    ∃ (next : Option JsString) (page : List (TableRow text)),
      rowsAfter contents start = page ++ rowsAfter contents next ∧ StartValid pk next ∧
      (service call ⟨tableName, pk, true, startKey pk start⟩).lastEvaluatedKey ≠ none ∧
      (service call ⟨tableName, pk, true, startKey pk start⟩).items.getD [] =
        page.map TableRow.raw ∧
      followCursor text tables table pk service (pages + 1) call (cursorAt pk start) =
        (followCursor text tables table pk service pages (call + 1) (cursorAt pk next)).map
          fun rest => rest.map (page.map TableRow.item ++ ·) := by
  obtain ⟨page, rest, hanswer⟩ := hserves call start
  obtain ⟨next, hread, hvalid, hdone, hmore⟩ := readQueryOutput_answers hanswer
  rw [followCursor, planQueryPage_cursorAt htable hpk hstart]
  simp only [Except.bind, hread]
  cases next with
  | none =>
    left
    rw [hanswer.rows, (hdone rfl).2, List.append_nil]
    rfl
  | some sk =>
    right
    obtain ⟨hlast, hrest⟩ := hmore (by simp)
    refine ⟨some sk, page, ?_, hvalid, hlast, hanswer.items, rfl⟩
    rw [hanswer.rows, hrest]

theorem followCursor_complete (htable : tables table = some tableName)
    (hpk : partitionKeyValid pk = true) (hserves : ServesPartition tableName pk contents service)
    (pages : Nat) : ∀ (call : Nat) (start : Option JsString), StartValid pk start →
    followCursor text tables table pk service pages call (cursorAt pk start) = .ok none ∨
    followCursor text tables table pk service pages call (cursorAt pk start) =
      .ok (some ((rowsAfter contents start).map TableRow.item)) := by
  induction pages with
  | zero =>
    intro call start _
    exact .inl rfl
  | succ pages ih =>
    intro call start hstart
    obtain hdone | ⟨next, page, hrows, hvalid, -, -, hfollow⟩ :=
      followCursor_step htable hpk hserves pages call hstart
    · exact .inr hdone
    · rw [hfollow, hrows, List.map_append]
      obtain hrest | hrest := ih (call + 1) next hvalid
      · rw [hrest]
        exact .inl rfl
      · rw [hrest]
        exact .inr rfl

theorem card_idle_succ_lt {idle : Finset Nat} {call : Nat} (h : call ∈ idle) :
    (idle.filter (call + 1 ≤ ·)).card < (idle.filter (call ≤ ·)).card := by
  apply Finset.card_lt_card
  rw [Finset.ssubset_iff_of_subset]
  · exact ⟨call, by simp [h], by simp⟩
  · intro later hlater
    rw [Finset.mem_filter] at hlater ⊢
    exact ⟨hlater.1, by omega⟩

theorem card_idle_succ_le (idle : Finset Nat) (call : Nat) :
    (idle.filter (call + 1 ≤ ·)).card ≤ (idle.filter (call ≤ ·)).card := by
  apply Finset.card_le_card
  intro later hlater
  rw [Finset.mem_filter] at hlater ⊢
  exact ⟨hlater.1, by omega⟩

theorem followCursor_ends (htable : tables table = some tableName)
    (hpk : partitionKeyValid pk = true) (hserves : ServesPartition tableName pk contents service)
    {idle : Finset Nat} (hidle : IdleOnlyIn idle service) (pages : Nat) :
    ∀ (call : Nat) (start : Option JsString), StartValid pk start →
    (rowsAfter contents start).length + (idle.filter (call ≤ ·)).card < pages →
    followCursor text tables table pk service pages call (cursorAt pk start) =
      .ok (some ((rowsAfter contents start).map TableRow.item)) := by
  induction pages with
  | zero =>
    intro call start _ hbound
    omega
  | succ pages ih =>
    intro call start hstart hbound
    obtain hdone | ⟨next, page, hrows, hvalid, hlast, hitems, hfollow⟩ :=
      followCursor_step htable hpk hserves pages call hstart
    · exact hdone
    · have hlength : (rowsAfter contents start).length =
          page.length + (rowsAfter contents next).length := by
        rw [hrows, List.length_append]
      have hsmaller : (rowsAfter contents next).length +
          (idle.filter (call + 1 ≤ ·)).card < pages := by
        by_cases hcall : call ∈ idle
        · have := card_idle_succ_lt hcall
          omega
        · have hne := hidle call _ hcall hlast
          rw [hitems] at hne
          have hpos : page ≠ [] := by
            intro hnil
            rw [hnil] at hne
            exact hne rfl
          have := List.length_pos_iff.mpr hpos
          have := card_idle_succ_le idle call
          omega
      rw [hfollow, ih (call + 1) next hvalid hsmaller, hrows, List.map_append]
      rfl

end Service

/-- The cursor codec and the paging built on it: a key comes back exactly when it is valid; a
text is accepted for a partition exactly when it is the base64url of a JSON object whose members
are a string `pk`, that partition, and a string `sk`, a valid key; and following the cursors of
an unchanging partition returns its rows, each once and in order, and nothing else. -/
theorem cursors_page_partition (text : NumberText) :
    (∀ key, decodePageCursor text (encodePageCursor key) key.pk =
      if keyValid key then .ok key else .error .invalidKey) ∧
    (∀ cursor pk key, decodePageCursor text cursor pk = .ok key ↔
      ∃ bytes members, cursor = base64url bytes ∧
        parseJsonDocument text bytes = some (.object members) ∧
        keyOfMembers members = some key ∧ key.pk = pk ∧ keyValid key = true) ∧
    ∀ (tables : StoreTableNames) (table : TableRole) (tableName : String) (pk : JsString)
      (contents : List (TableRow text)) (service : Nat → QueryInput → QueryOutput),
      tables table = some tableName → partitionKeyValid pk = true →
      ServesPartition tableName pk contents service →
      (∀ pages, followCursor text tables table pk service pages 0 none = .ok none ∨
        followCursor text tables table pk service pages 0 none =
          .ok (some (contents.map TableRow.item))) ∧
      ∀ idle, IdleOnlyIn idle service → ∀ pages, contents.length + idle.card < pages →
        followCursor text tables table pk service pages 0 none =
          .ok (some (contents.map TableRow.item)) := by
  refine ⟨decodePageCursor_encode, fun cursor pk key => decodePageCursor_eq_ok, ?_⟩
  intro tables table tableName pk contents service htable hpk hserves
  have hstart : StartValid pk none := by
    intro sk hsk
    cases hsk
  refine ⟨fun pages => followCursor_complete htable hpk hserves pages 0 none hstart, ?_⟩
  intro idle hidle pages hbound
  have hall : idle.filter (0 ≤ ·) = idle := by simp
  refine followCursor_ends htable hpk hserves hidle pages 0 none hstart ?_
  rw [hall]
  exact hbound

/-! ## Cursors the encoder does not write -/

def swappedText : List Char :=
  '\x7b' :: (stringify skName ++ ':' :: (stringify [0x73] ++ ',' ::
    (stringify pkName ++ ':' :: (stringify [0x70] ++ ['\x7d']))))

theorem parseJsonDocument_swapped (text : NumberText) :
    parseJsonDocument text (utf8 swappedText) =
      some (.object [(skName, .string [0x73]), (pkName, .string [0x70])]) := by
  rw [parseJsonDocument, decodeUtf8Strict_utf8, Option.bind_some]
  rfl

theorem swapped_cursor_accepted :
    (decodePageCursor exactText (base64url (utf8 swappedText)) [0x70] = .ok ⟨[0x70], [0x73]⟩ ∧
      ∀ key, encodePageCursor key ≠ base64url (utf8 swappedText)) ∧
    decodePageCursor exactText (encodePageCursor ⟨[0x70], []⟩) [0x70] = .error .invalidKey := by
  refine ⟨⟨?_, ?_⟩, ?_⟩
  · exact decodePageCursor_eq_ok.mpr ⟨_, _, rfl, parseJsonDocument_swapped exactText, rfl, rfl,
      by decide⟩
  · intro key h
    have hbytes := congrArg bytesOfBase64 h
    rw [encodePageCursor, bytesOfBase64_base64url, bytesOfBase64_base64url] at hbytes
    have hchars := utf8_injective hbytes
    rw [canonicalStrings_key, swappedText] at hchars
    -- the third characters are those of `pk` and `sk`
    have hthird := congrArg (fun chars => chars[2]?) hchars
    simp [stringify, pkName, skName, quotedUnits, quotedUnit, isHigh, isLow] at hthird
  · exact (@decodePageCursor_encode exactText ⟨[0x70], []⟩).trans (if_neg (by decide))

/-! ## A service that gives a row at a time -/

def rowByRow {text : NumberText} (contents : List (TableRow text)) (_call : Nat)
    (input : QueryInput) : QueryOutput :=
  match rowsAfter contents (input.exclusiveStartKey.map ItemKey.sk) with
  | [] => ⟨some [], none⟩
  | row :: _ => ⟨some [row.raw], some row.raw⟩

def keyRow (text : NumberText) (pk sk : String)
    (valid : keyValid ⟨jsString pk, jsString sk⟩ = true) : TableRow text where
  raw := [("pk", .s pk), ("sk", .s sk)]
  item := [("pk", .string pk), ("sk", .string sk)]
  pk := pk
  sk := sk
  decoded := rfl
  pk_found := rfl
  sk_found := rfl
  key_valid := valid

def ledgerRows (text : NumberText) : List (TableRow text) :=
  [keyRow text "run#trial" "tx#1" (by decide), keyRow text "run#trial" "tx#2" (by decide)]

theorem rowByRow_serves {text : NumberText} {contents : List (TableRow text)} {pk : JsString}
    (tableName : String) (hpk : ∀ row ∈ contents, jsString row.pk = pk)
    (hsorted : contents.Pairwise fun first second => first.place < second.place) :
    ServesPartition tableName pk contents (rowByRow contents) := by
  intro call start
  have hstart : (startKey pk start).map ItemKey.sk = start := by
    cases start <;> rfl
  have hsub : rowsAfter contents start ⊆ contents := by
    cases start with
    | none => exact fun _ h => h
    | some sk => exact List.filter_subset_self _
  have hafter : (rowsAfter contents start).Pairwise fun first second =>
      first.place < second.place := by
    cases start with
    | none => exact hsorted
    | some sk => exact hsorted.filter _
  cases hrows : rowsAfter contents start with
  | nil =>
    refine ⟨[], [], ?_, ?_, ?_, ?_⟩
    · exact hrows
    · simp [rowByRow, hstart, hrows]
    · intro _
      rfl
    · intro raw hraw
      simp [rowByRow, hstart, hrows] at hraw
  | cons row rest =>
    have hrow : row ∈ rowsAfter contents start := by simp [hrows]
    refine ⟨[row], rest, ?_, ?_, ?_, ?_⟩
    · exact hrows
    · simp [rowByRow, hstart, hrows]
    · intro hnone
      simp [rowByRow, hstart, hrows] at hnone
    · intro raw hraw
      simp only [rowByRow, hstart, hrows, Option.some.injEq] at hraw
      refine ⟨row, hraw, hpk row (hsub hrow), ?_, ?_, ?_⟩
      · intro sk hsk
        subst hsk
        rw [rowsAfter, List.mem_filter] at hrow
        exact le_of_lt (of_decide_eq_true hrow.2)
      · intro other hother
        rw [List.mem_singleton.mp hother]
      · rw [hrows, List.pairwise_cons] at hafter
        exact hafter.1

theorem ledgerRows_paged :
    ServesPartition "ledger" (jsString "run#trial") (ledgerRows exactText)
      (rowByRow (ledgerRows exactText)) ∧
    followCursor exactText (fun _ => some "ledger") .ledger (jsString "run#trial")
        (rowByRow (ledgerRows exactText)) 3 0 none =
      .ok (some ((ledgerRows exactText).map TableRow.item)) := by
  have hserves : ServesPartition "ledger" (jsString "run#trial") (ledgerRows exactText)
      (rowByRow (ledgerRows exactText)) := by
    apply rowByRow_serves
    · intro row hrow
      simp only [ledgerRows, List.mem_cons, List.not_mem_nil, or_false] at hrow
      obtain rfl | rfl := hrow <;> rfl
    · simp only [ledgerRows, List.pairwise_cons, List.mem_singleton, forall_eq, List.not_mem_nil,
        false_imp_iff, implies_true, List.Pairwise.nil, and_true]
      decide
  have hidle : IdleOnlyIn ∅ (rowByRow (ledgerRows exactText)) := by
    intro call input _ hlast
    unfold rowByRow at hlast ⊢
    split at hlast
    · exact absurd rfl hlast
    · simp [*]
  refine ⟨hserves, ?_⟩
  exact ((cursors_page_partition exactText).2.2 (fun _ => some "ledger") .ledger "ledger" _
    (ledgerRows exactText) _ rfl (by decide) hserves).2 ∅ hidle 3 (by decide)

end RefundStudy.Store
