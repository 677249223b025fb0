/-
  The export of one journal partition (`evidence-collection/journal-export.ts`,
  `evidence-collection/collected-records.ts`).

  Canonical JSON of one record is a parameter; the partition key of a plan is left out.
-/
import RefundStudy.Journal.Writers

set_option autoImplicit false

namespace RefundStudy.Collection

open Foundation Record RefundStudy.Runtime Journal

/-! ## Stored items -/

/-- The record an item holds, without its table key. -/
inductive StoredRecord where
  | event (event : JournalEvent)
  | attemptState (item : AttemptStateItem)
  | requestState (snapshot : RequestStateSnapshot)
  | config (item : ConfigItem)
  | payment (item : PaymentItem)
  | treatment (item : TreatmentItem)
  | ledger (transaction : LedgerTransaction)
  deriving DecidableEq

structure StoredItem where
  sk : List Char
  record : StoredRecord

def recordOfItem (item : StoredItem) : StoredRecord := item.record

def storedRecord : Sigma ItemOf → StoredRecord
  | ⟨.journal _, event⟩ => .event event
  | ⟨.attemptState _, item⟩ => .attemptState item
  | ⟨.requestState _, snapshot⟩ => .requestState snapshot
  | ⟨.rejectedMessageState _, snapshot⟩ => .requestState snapshot
  | ⟨.config, item⟩ => .config item
  | ⟨.payment _, item⟩ => .payment item
  | ⟨.treatment, item⟩ => .treatment item
  | ⟨.ledger _, transaction⟩ => .ledger transaction

/-! ## Reasons -/

inductive CollectedJournalFile where
  | callerJournal
  | providerJournal
  | controllerJournal
  | canaryCallerJournal
  | canaryControllerJournal
  | warmupProviderJournal
  | executionProviderJournal

/-- The structured reasons of a failed export, with what their details quote. -/
inductive ExportReason where
  | partitionReadFailed (table : JournalTable) (code : String) (pageNumber : Nat)
  | partitionCursorRepeated (table : JournalTable) (pageCount : Nat)
  | journalItemUnroutable (table : JournalTable) (sortKey : List Char)
  | recordNotRepresentable (file : CollectedJournalFile) (line : Nat)

def ExportReason.code : ExportReason → String
  | .partitionReadFailed .. => "PARTITION_READ_FAILED"
  | .partitionCursorRepeated .. => "PARTITION_CURSOR_REPEATED"
  | .journalItemUnroutable .. => "JOURNAL_ITEM_UNROUTABLE"
  | .recordNotRepresentable .. => "RECORD_NOT_REPRESENTABLE"

def ExportReason.subject : ExportReason → String
  | .partitionReadFailed .. | .partitionCursorRepeated .. => "BR-RUA-037"
  | .journalItemUnroutable .. | .recordNotRepresentable .. => "BR-RUA-033"

/-! ## Pages -/

/-- The calls of the reader.  `halt` stands where the model's fuel is spent. -/
inductive ReaderCall where
  | queryPartitionPage (table : JournalTable) (cursor : Option (List Char))
  | halt

/-- `QueryPage`. -/
structure PartitionPage where
  items : List StoredItem
  nextCursor : Option (List Char)

@[reducible] def ReaderReply : ReaderCall → Type
  | .queryPartitionPage _ _ => Except String PartitionPage
  | .halt => Empty

/-- The entries of a table's partition behind a cursor, ascending by sort key. -/
def entriesBehind (items : Items) (table : JournalTable) (cursor : Option (List Char)) :
    List (List Char × Sigma ItemOf) :=
  let keyed := items.entries.filterMap fun item =>
    (sortKeyIn table item.1).map fun sortKey => (sortKey, item)
  let behind := keyed.filter fun entry =>
    match cursor with
    | none => true
    | some position => decide (position < entry.1)
  behind.insertionSort fun left right => left.1 ≤ right.1

/-- One page: at least one entry when any is left.  A page that reaches the end may still carry
a cursor. -/
def pageBehind (items : Items) (table : JournalTable) (cursor : Option (List Char)) (size : Nat)
    (trailingCursor : Bool) : PartitionPage :=
  let entries := entriesBehind items table cursor
  let page := entries.take (size + 1)
  let more := trailingCursor || decide (size + 1 < entries.length)
  { items := page.map fun entry => ⟨entry.1, storedRecord entry.2⟩
    nextCursor := if more then page.getLast?.map Prod.fst else none }

/-- What the world leaves open for one page: what the writers do before it is read, how many
items it holds, and whether it fails. -/
inductive ReaderChoice (ι : Type) where
  | page (schedule : List (ι × Choice)) (size : Nat) (trailingCursor : Bool)
  | readFails (schedule : List (ι × Choice)) (code : String)

def answerReader {ι : Type} [DecidableEq ι] (_ : Unit) :
    (request : ReaderCall) → ReaderChoice ι → WriterConfig ι →
      Option (ReaderReply request × WriterConfig ι)
  | .queryPartitionPage table cursor, .page schedule size trailingCursor, cfg =>
    (cfg.play (machine ι) schedule).map fun moved =>
      (.ok (pageBehind moved.world.items table cursor size trailingCursor), moved)
  | .queryPartitionPage _ _, .readFails schedule code, cfg =>
    (cfg.play (machine ι) schedule).map fun moved => (.error code, moved)
  | .halt, _, _ => none

def readerMachine (ι : Type) [DecidableEq ι] :
    Machine Unit ReaderCall ReaderReply (WriterConfig ι) (ReaderChoice ι) := ⟨answerReader⟩

abbrev Collecting (α : Type) : Type := ExceptT ExportReason (Program ReaderCall ReaderReply) α

abbrev queryPartitionPage (table : JournalTable) (cursor : Option (List Char)) :
    Collecting (Except String PartitionPage) :=
  ExceptT.lift (Program.perform (ReaderCall.queryPartitionPage table cursor))

/-! ## The export -/

structure PartitionRead where
  items : List StoredItem
  pageCount : Nat

/-- The loop of `readWholePartition`: `seen` are the cursors returned so far. -/
def readPages (table : JournalTable) (items : List StoredItem) (seen : List (List Char))
    (cursor : Option (List Char)) (pageCount : Nat) : Nat → Collecting PartitionRead
  | 0 => do
    let never ← ExceptT.lift (Program.perform ReaderCall.halt)
    nomatch never
  | fuel + 1 => do
    let pageCount := pageCount + 1
    match ← queryPartitionPage table cursor with
    | .error code => throwThe ExportReason (.partitionReadFailed table code pageCount)
    | .ok page =>
      let items := items ++ page.items
      match page.nextCursor with
      | none => pure ⟨items, pageCount⟩
      | some next =>
        if next ∈ seen then
          throwThe ExportReason (.partitionCursorRepeated table pageCount)
        else readPages table items (seen ++ [next]) (some next) pageCount fuel

def readWholePartition (fuel : Nat) (table : JournalTable) : Collecting PartitionRead :=
  readPages table [] [] none 0 fuel

structure JournalRoute where
  file : CollectedJournalFile
  sources : List EventSource

structure JournalExportPlan where
  table : JournalTable
  routes : List JournalRoute

def callerSources : List EventSource := [.conventionalCaller, .durableCaller, .probeCaller]

structure JournalBucket where
  file : CollectedJournalFile
  sources : List EventSource
  events : List StoredRecord

def isCallerState (plan : JournalExportPlan) (item : StoredItem) : Bool :=
  decide (plan.table = .callerJournal) && callerStateSortKeyPrefix.isPrefixOf item.sk

/-- The bucket holds the source that a sort key names before its first separator; a key without
a separator names itself. -/
def JournalBucket.claims (bucket : JournalBucket) (sortKey : List Char) : Bool :=
  bucket.sources.any fun source =>
    decide ((sourceText source).toList = sortKey.takeWhile fun c => decide (c ≠ '#'))

/-- `bucketOf` and the push: the first bucket that claims the key takes the record. -/
def pushRecord (item : StoredItem) : List JournalBucket → Option (List JournalBucket)
  | [] => none
  | bucket :: rest =>
    if bucket.claims item.sk then
      some ({ bucket with events := bucket.events ++ [recordOfItem item] } :: rest)
    else (pushRecord item rest).map fun pushed => bucket :: pushed

/-- One turn of the loop of `routeJournalItems`. -/
def routeItem (plan : JournalExportPlan) (buckets : List JournalBucket) (item : StoredItem) :
    Except ExportReason (List JournalBucket) :=
  if isCallerState plan item then .ok buckets
  else
    match pushRecord item buckets with
    | none => .error (.journalItemUnroutable plan.table item.sk)
    | some pushed => .ok pushed

def routeJournalItems (items : List StoredItem) (plan : JournalExportPlan) :
    Except ExportReason (List JournalBucket) :=
  items.foldlM (routeItem plan) (plan.routes.map fun route => ⟨route.file, route.sources, []⟩)

structure JournalFileExport where
  file : CollectedJournalFile
  events : List StoredRecord
  bytes : ByteArray

section Encoding

variable (canonicalJsonIfRepresentable : StoredRecord → Option String)

/-- The lines of `encodeRecordLines` from the given line number on. -/
def encodeLines (file : CollectedJournalFile) :
    Nat → List StoredRecord → Except ExportReason (List String)
  | _, [] => .ok []
  | line, record :: rest =>
    match canonicalJsonIfRepresentable record with
    | none => .error (.recordNotRepresentable file line)
    | some text => (encodeLines file (line + 1) rest).map fun lines => (text ++ "\n") :: lines

def encodeRecordLines (records : List StoredRecord) (file : CollectedJournalFile) :
    Except ExportReason ByteArray :=
  (encodeLines canonicalJsonIfRepresentable file 1 records).map fun lines =>
    (String.join lines).toUTF8

/-- The last loop of `exportJournals`. -/
def encodeBucket (bucket : JournalBucket) : Except ExportReason JournalFileExport :=
  (encodeRecordLines canonicalJsonIfRepresentable bucket.events bucket.file).map fun bytes =>
    ⟨bucket.file, bucket.events, bytes⟩

def exportJournals (fuel : Nat) (plan : JournalExportPlan) :
    Collecting (List JournalFileExport) := do
  let read ← readWholePartition fuel plan.table
  let buckets ← ExceptT.mk (.ret (routeJournalItems read.items plan))
  ExceptT.mk (.ret (buckets.mapM (encodeBucket canonicalJsonIfRepresentable)))

end Encoding

/-! ## One page -/

section Pages

variable {items : Items} {table : JournalTable} {cursor : Option (List Char)}
  {entry other : List Char × Sigma ItemOf} {size : Nat}

def Behind (cursor : Option (List Char)) (sortKey : List Char) : Prop :=
  ∀ position, cursor = some position → position < sortKey

theorem mem_entriesBehind : entry ∈ entriesBehind items table cursor ↔
    entry.2 ∈ items.entries ∧ sortKeyIn table entry.2.1 = some entry.1 ∧ Behind cursor entry.1 := by
  have hcursor : (match cursor with
      | none => true
      | some position => decide (position < entry.1)) = true ↔ Behind cursor entry.1 := by
    cases cursor <;> simp [Behind]
  rw [entriesBehind, List.mem_insertionSort, List.mem_filter, hcursor, List.mem_filterMap]
  obtain ⟨sortKey, item⟩ := entry
  constructor
  · rintro ⟨⟨found, hfound, hmap⟩, hbehind⟩
    obtain ⟨text, htext, heq⟩ := Option.map_eq_some_iff.mp hmap
    obtain ⟨rfl, rfl⟩ := Prod.mk.inj heq
    exact ⟨hfound, htext, hbehind⟩
  · rintro ⟨hitem, htext, hbehind⟩
    refine ⟨⟨item, hitem, ?_⟩, hbehind⟩
    simp only at htext
    rw [htext]
    rfl

theorem pairwise_entriesBehind :
    (entriesBehind items table cursor).Pairwise fun left right => left.1 ≤ right.1 := by
  have : Std.Total fun left right : List Char × Sigma ItemOf => left.1 ≤ right.1 :=
    ⟨fun left right => le_total _ _⟩
  have : IsTrans (List Char × Sigma ItemOf) fun left right => left.1 ≤ right.1 :=
    ⟨fun _ _ _ h₁ h₂ => le_trans h₁ h₂⟩
  exact List.pairwise_insertionSort _ _

theorem nodup_entriesBehind :
    (entriesBehind items table cursor).Pairwise fun left right => left.2.1 ≠ right.2.1 := by
  have hentries : items.entries.Pairwise fun left right => left.1 ≠ right.1 := by
    have hnodup := items.nodupKeys
    rw [List.nodupKeys_iff_pairwise] at hnodup
    exact hnodup
  have hkeyed : (items.entries.filterMap fun item =>
      (sortKeyIn table item.1).map fun sortKey => (sortKey, item)).Pairwise
      fun left right => left.2.1 ≠ right.2.1 := by
    refine hentries.filterMap _ fun first second hne left hleft right hright => ?_
    obtain ⟨-, -, rfl⟩ := Option.map_eq_some_iff.mp hleft
    obtain ⟨-, -, rfl⟩ := Option.map_eq_some_iff.mp hright
    exact hne
  refine (List.Perm.pairwise_iff (fun h => Ne.symm h) (List.perm_insertionSort _ _)).mpr ?_
  exact hkeyed.filter _

theorem mem_page_of_lt (hentry : entry ∈ (entriesBehind items table cursor).take (size + 1))
    (hother : other ∈ entriesBehind items table cursor) (hlt : other.1 < entry.1) :
    other ∈ (entriesBehind items table cursor).take (size + 1) := by
  have hsorted := @pairwise_entriesBehind items table cursor
  have hsplit := List.take_append_drop (size + 1) (entriesBehind items table cursor)
  rw [← hsplit, List.pairwise_append] at hsorted
  rw [← hsplit] at hother
  rcases List.mem_append.mp hother with hpage | hrest
  · exact hpage
  · exact absurd hlt (not_lt_of_ge (hsorted.2.2 _ hentry _ hrest))

end Pages

/-! ## The scan -/

def eventItem (key : JournalKey) (event : JournalEvent) : StoredItem :=
  ⟨journalSortKey key, .event event⟩

inductive Genuine (table : JournalTable) : StoredItem → Prop where
  | event (key : JournalKey) (event : JournalEvent) (htable : key.table = table)
      (hkeyed : WellKeyed key event) : Genuine table (eventItem key event)
  | state (key : ItemKey) (item : StoredItem) (hsortKey : sortKeyIn table key = some item.sk)
      (hstate : ∀ journalKey, key ≠ .journal journalKey)
      (hrecord : ∀ event, item.record ≠ .event event) : Genuine table item

/-- What has been read is genuine, the events stand in the order of their keys, and with an event
its predecessor has been read. -/
structure Scanned (table : JournalTable) (items : List StoredItem) : Prop where
  genuine : ∀ item ∈ items, Genuine table item
  ordered : items.Pairwise fun left right => ∀ event event', left.record = .event event →
    right.record = .event event' → left.sk < right.sk
  preceded : ∀ key event, key.table = table → WellKeyed key event → eventItem key event ∈ items →
    key.sequence = 1 ∨ ∃ before event', key = successor before ∧ WellKeyed before event' ∧
      eventItem before event' ∈ items

/-- The cursor is the key of the last item read. -/
structure Frontier (items : List StoredItem) (cursor : Option (List Char)) : Prop where
  reached : ∀ item ∈ items, ∃ position, cursor = some position ∧ item.sk ≤ position
  last : ∀ position, cursor = some position → ∃ item ∈ items, item.sk = position

section Scan

variable {items : List StoredItem} {stored : Items} {table : JournalTable}
  {cursor : Option (List Char)} {size : Nat} {entry : List Char × Sigma ItemOf}

theorem WellKeyed.key_eq {key key' : JournalKey} {event : JournalEvent} (h : WellKeyed key event)
    (h' : WellKeyed key' event) (htable : key.table = key'.table) : key = key' := by
  have hsame : SameSource key key' :=
    ⟨htable, h.source.symm.trans h'.source, h.instanceId.symm.trans h'.instanceId⟩
  exact hsame.eq (h.sequence.symm.trans h'.sequence)

theorem exists_key_of_event {item : Sigma ItemOf} {event : JournalEvent}
    (h : storedRecord item = .event event) : ∃ key, item = ⟨.journal key, event⟩ := by
  obtain ⟨key, value⟩ := item
  cases key with
  | journal key =>
    obtain rfl : value = event := StoredRecord.event.inj h
    exact ⟨key, rfl⟩
  | _ => simp [storedRecord] at h

theorem stored_of_mem {event : JournalEvent} (h : entry ∈ entriesBehind stored table cursor)
    (hevent : storedRecord entry.2 = .event event) : ∃ key, key.table = table ∧
      entry = (journalSortKey key, ⟨.journal key, event⟩) ∧ StoredAt stored key event := by
  obtain ⟨hmem, hsortKey, -⟩ := mem_entriesBehind.mp h
  obtain ⟨text, item⟩ := entry
  obtain ⟨key, rfl⟩ := exists_key_of_event hevent
  simp only [sortKeyIn] at hsortKey
  split at hsortKey
  · rename_i htable
    rw [← Option.some.inj hsortKey]
    exact ⟨key, htable, rfl, AList.mem_lookup_iff.mpr hmem⟩
  · cases hsortKey

theorem genuine_of_mem (hdense : DenseKeys stored) (h : entry ∈ entriesBehind stored table cursor) :
    Genuine table ⟨entry.1, storedRecord entry.2⟩ := by
  by_cases hevent : ∃ event, storedRecord entry.2 = .event event
  · obtain ⟨event, hevent⟩ := hevent
    obtain ⟨key, htable, rfl, hat⟩ := stored_of_mem h hevent
    exact .event key event htable (hdense key event hat).1
  · have hrecord : ∀ event, storedRecord entry.2 ≠ .event event :=
      fun event heq => hevent ⟨event, heq⟩
    refine .state entry.2.1 _ (mem_entriesBehind.mp h).2.1 (fun journalKey hkey => ?_) hrecord
    obtain ⟨text, key, value⟩ := entry
    simp only at hkey
    subst hkey
    exact hrecord value rfl

theorem page_ordered (hdense : DenseKeys stored) :
    ((pageBehind stored table cursor size true).items).Pairwise fun left right =>
      ∀ event event', left.record = .event event → right.record = .event event' →
        left.sk < right.sk := by
  have hpairs := (@pairwise_entriesBehind stored table cursor).and
    (@nodup_entriesBehind stored table cursor)
  have hmem : (entriesBehind stored table cursor).Pairwise fun left right =>
      left ∈ entriesBehind stored table cursor ∧ right ∈ entriesBehind stored table cursor ∧
      (left.1 ≤ right.1 ∧ left.2.1 ≠ right.2.1) := by
    refine hpairs.imp_of_mem ?_
    intro left right hleft hright h
    exact ⟨hleft, hright, h⟩
  refine List.Pairwise.map _ ?_ (hmem.sublist (List.take_sublist _ _))
  rintro left right ⟨hleft, hright, hle, hne⟩ event event' hevent hevent'
  obtain ⟨key, htable, rfl, hat⟩ := stored_of_mem hleft hevent
  obtain ⟨key', htable', rfl, hat'⟩ := stored_of_mem hright hevent'
  refine lt_of_le_of_ne hle fun heq => hne ?_
  have hkeys := journalSortKey_inj (hdense _ _ hat).1.representable
    (hdense _ _ hat').1.representable (htable.trans htable'.symm) heq
  simp only [hkeys]

theorem page_preceded (hdense : DenseKeys stored) (hfrontier : Frontier items cursor)
    (hgenuine : ∀ item ∈ items, Genuine table item) {key : JournalKey} {event : JournalEvent}
    (htable : key.table = table) (hkeyed : WellKeyed key event)
    (hmem : eventItem key event ∈ (pageBehind stored table cursor size true).items) :
    key.sequence = 1 ∨ ∃ before event', key = successor before ∧ WellKeyed before event' ∧
      (eventItem before event' ∈ items ∨
        eventItem before event' ∈ (pageBehind stored table cursor size true).items) := by
  obtain ⟨entry, hentry, heq⟩ := List.mem_map.mp hmem
  obtain ⟨hsk, hrecord⟩ := StoredItem.mk.inj heq
  have hbehind := List.mem_of_mem_take hentry
  obtain ⟨key', htable', rfl, hat⟩ := stored_of_mem hbehind hrecord
  obtain rfl := WellKeyed.key_eq (hdense _ _ hat).1 hkeyed (htable'.trans htable.symm)
  rcases (hdense _ _ hat).2 with hfirst | ⟨before, rfl, event', hbefore⟩
  · exact .inl hfirst
  · right
    have hkeyed' := (hdense _ _ hbefore).1
    have hsame : SameSource before (successor before) := ⟨rfl, rfl, rfl⟩
    have hlt : journalSortKey before < journalSortKey (successor before) :=
      journalSortKey_lt hsame (Nat.lt_succ_self _) hkeyed.representable.sequence
    have hsortKey : sortKeyIn table (.journal before) = some (journalSortKey before) := by
      have hbefore : before.table = table := htable
      simp only [sortKeyIn, hbefore, if_true]
    by_cases hposition : Behind cursor (journalSortKey before)
    · -- the predecessor is behind the cursor too, so it stands before the event on the page
      have hstored : (⟨.journal before, event'⟩ : Sigma ItemOf) ∈ stored.entries :=
        AList.mem_lookup_iff.mp hbefore
      have hother : (journalSortKey before, (⟨.journal before, event'⟩ : Sigma ItemOf)) ∈
          entriesBehind stored table cursor :=
        mem_entriesBehind.mpr ⟨hstored, hsortKey, hposition⟩
      have hpage := mem_page_of_lt hentry hother hlt
      exact ⟨before, event', rfl, hkeyed', .inr (List.mem_map.mpr ⟨_, hpage, rfl⟩)⟩
    · -- the cursor stands between the two, so it is the predecessor
      obtain ⟨position, rfl, hle⟩ : ∃ position, cursor = some position ∧
          journalSortKey before ≤ position := by
        simpa [Behind] using hposition
      have hafter : position < journalSortKey (successor before) :=
        (mem_entriesBehind.mp hbehind).2.2 position rfl
      obtain ⟨item, hitem, rfl⟩ := hfrontier.last position rfl
      cases hgenuine item hitem with
      | event other event'' htable'' hkeyed'' =>
        have hbetween := sortKey_between_successors hkeyed.representable
          (show sortKeyIn before.table (.journal other) = some (journalSortKey other) by
            have hsameTable : other.table = before.table := htable''.trans htable.symm
            simp only [sortKeyIn, hsameTable, if_true])
          (fun other' hother => by
            obtain rfl : other = other' := by simpa using hother
            exact hkeyed''.representable) hle hafter
        obtain rfl : other = before := by simpa using hbetween
        exact ⟨other, event'', rfl, hkeyed'', .inl hitem⟩
      | state other _ hother hstate _ =>
        have hbetween := sortKey_between_successors hkeyed.representable
          (show sortKeyIn before.table other = some item.sk by
            have hsameTable : before.table = table := htable
            rw [hsameTable]
            exact hother)
          (fun other' hkey => absurd hkey (hstate other')) hle hafter
        exact absurd hbetween (hstate before)

theorem Scanned.page (h : Scanned table items) (hfrontier : Frontier items cursor)
    (hdense : DenseKeys stored) (trailingCursor : Bool) :
    Scanned table (items ++ (pageBehind stored table cursor size trailingCursor).items) := by
  have hitems : (pageBehind stored table cursor size trailingCursor).items =
      (pageBehind stored table cursor size true).items := rfl
  rw [hitems]
  refine ⟨fun item hitem => ?_, ?_, fun key event htable hkeyed hmem => ?_⟩
  · rcases List.mem_append.mp hitem with hold | hnew
    · exact h.genuine item hold
    · obtain ⟨entry, hentry, rfl⟩ := List.mem_map.mp hnew
      exact genuine_of_mem hdense (List.mem_of_mem_take hentry)
  · refine List.pairwise_append.mpr ⟨h.ordered, page_ordered hdense, ?_⟩
    intro left hleft right hright event event' _ _
    obtain ⟨position, hposition, hle⟩ := hfrontier.reached left hleft
    obtain ⟨entry, hentry, rfl⟩ := List.mem_map.mp hright
    have hbehind := (mem_entriesBehind.mp (List.mem_of_mem_take hentry)).2.2
    exact lt_of_le_of_lt hle (hbehind position hposition)
  · rcases List.mem_append.mp hmem with hold | hnew
    · rcases h.preceded key event htable hkeyed hold with hfirst | ⟨before, event', hkey, hbefore, hread⟩
      · exact .inl hfirst
      · exact .inr ⟨before, event', hkey, hbefore, List.mem_append_left _ hread⟩
    · rcases page_preceded hdense hfrontier h.genuine htable hkeyed hnew with
        hfirst | ⟨before, event', hkey, hbefore, hread | hread⟩
      · exact .inl hfirst
      · exact .inr ⟨before, event', hkey, hbefore, List.mem_append_left _ hread⟩
      · exact .inr ⟨before, event', hkey, hbefore, List.mem_append_right _ hread⟩

theorem Frontier.page (h : Frontier items cursor) {trailingCursor : Bool} {next : List Char}
    (hnext : (pageBehind stored table cursor size trailingCursor).nextCursor = some next) :
    Frontier (items ++ (pageBehind stored table cursor size trailingCursor).items) (some next) := by
  have hlast : ∃ entry, ((entriesBehind stored table cursor).take (size + 1)).getLast? = some entry ∧
      entry.1 = next := by
    simp only [pageBehind] at hnext
    split at hnext
    · exact Option.map_eq_some_iff.mp hnext
    · cases hnext
  obtain ⟨entry, hentry, rfl⟩ := hlast
  have hmem : entry ∈ (entriesBehind stored table cursor).take (size + 1) :=
    List.mem_of_getLast? hentry
  have hsorted := (@pairwise_entriesBehind stored table cursor).sublist
    (List.take_sublist (size + 1) _)
  refine ⟨fun item hitem => ⟨entry.1, rfl, ?_⟩, fun position hposition => ?_⟩
  · rcases List.mem_append.mp hitem with hold | hnew
    · obtain ⟨position, hposition, hle⟩ := h.reached item hold
      have hbehind := (mem_entriesBehind.mp (List.mem_of_mem_take hmem)).2.2
      exact le_of_lt (lt_of_le_of_lt hle (hbehind position hposition))
    · obtain ⟨other, hother, rfl⟩ := List.mem_map.mp hnew
      obtain ⟨front, hfront⟩ := List.getLast?_eq_some_iff.mp hentry
      rw [hfront, List.pairwise_append] at hsorted
      rw [hfront] at hother
      rcases List.mem_append.mp hother with hearlier | hsame
      · exact hsorted.2.2 other hearlier entry List.mem_cons_self
      · rw [List.mem_singleton.mp hsame]
  · obtain rfl := Option.some.inj hposition
    exact ⟨_, List.mem_append_right _ (List.mem_map.mpr ⟨entry, hmem, rfl⟩), rfl⟩

end Scan

/-! ## The whole read -/

section Read

variable {ι : Type} [DecidableEq ι] {clients : ι → WriterClient} {init cfg cfg' : WriterConfig ι}
  {table : JournalTable} {cursor : Option (List Char)}

/-- A page shows the store at some moment of the writers' run. -/
theorem answers_reader {read : Except String PartitionPage}
    (h : (readerMachine ι).answers () (.queryPartitionPage table cursor) cfg read cfg') :
    Reachable (machine ι).answers cfg cfg' ∧ ∀ page, read = .ok page →
      ∃ size trailingCursor, page = pageBehind cfg'.world.items table cursor size trailingCursor := by
  obtain ⟨choice, hexec⟩ := h
  cases choice with
  | page schedule size trailingCursor =>
    obtain ⟨moved, hplay, heq⟩ := Option.map_eq_some_iff.mp hexec
    obtain ⟨rfl, rfl⟩ := Prod.mk.inj heq
    exact ⟨Config.play_reachable hplay, fun page hpage => ⟨_, _, (Except.ok.inj hpage).symm⟩⟩
  | readFails schedule code =>
    obtain ⟨moved, hplay, heq⟩ := Option.map_eq_some_iff.mp hexec
    obtain ⟨rfl, rfl⟩ := Prod.mk.inj heq
    refine ⟨Config.play_reachable hplay, fun page hpage => ?_⟩
    cases hpage

theorem readPages_scanned (hstarted : Started clients init) (fuel : Nat) {items : List StoredItem}
    {seen : List (List Char)} {pageCount : Nat} (hreach : Reachable (machine ι).answers init cfg)
    (hscanned : Scanned table items) (hfrontier : Frontier items cursor) :
    SafeOk ((readerMachine ι).answers ()) (Interference.none _) (fun _ _ => True)
      (fun read _ => Scanned table read.items) (readPages table items seen cursor pageCount fuel)
      cfg := by
  induction fuel generalizing items seen cursor pageCount cfg with
  | zero =>
    refine SafeOk.call fun w₁ h₁ reply w₂ hanswer => ?_
    cases reply
  | succ fuel ih =>
    refine SafeOk.call fun w₁ h₁ read w₂ hanswer => ⟨trivial, ?_⟩
    obtain rfl : cfg = w₁ := h₁
    obtain ⟨hmoved, hpage⟩ := answers_reader hanswer
    have hlater := hreach.trans hmoved
    cases read with
    | error code => exact SafeOk.throw
    | ok page =>
      obtain ⟨size, trailingCursor, rfl⟩ := hpage page rfl
      have hnow : Scanned table (items ++ (pageBehind w₂.world.items table cursor size
          trailingCursor).items) :=
        hscanned.page hfrontier (hstarted.denseKeys hlater) trailingCursor
      simp only
      split
      · exact SafeOk.pure fun _ _ => hnow
      · rename_i next hnext
        split
        · exact SafeOk.throw
        · exact ih hlater hnow (hfrontier.page hnext)

theorem readWholePartition_scanned (hstarted : Started clients init) (fuel : Nat) :
    SafeOk ((readerMachine ι).answers ()) (Interference.none _) (fun _ _ => True)
      (fun read _ => Scanned table read.items) (readWholePartition fuel table) init := by
  refine readPages_scanned hstarted fuel .refl ⟨?_, List.Pairwise.nil, ?_⟩ ⟨?_, nofun⟩
  · exact fun item hitem => absurd hitem List.not_mem_nil
  · exact fun _ _ _ _ hitem => absurd hitem List.not_mem_nil
  · exact fun item hitem => absurd hitem List.not_mem_nil

end Read

/-! ## Routing -/

section Routing

variable {plan : JournalExportPlan} {bucket : JournalBucket} {buckets buckets' : List JournalBucket}
  {items : List StoredItem} {item : StoredItem}

/-- What the buckets hold after these items, each taken by the first bucket that claims it. -/
def collect : List JournalBucket → List StoredItem → List JournalBucket
  | [], _ => []
  | bucket :: rest, items =>
    { bucket with events :=
        bucket.events ++ (items.filter fun item => bucket.claims item.sk).map recordOfItem } ::
      collect rest (items.filter fun item => !bucket.claims item.sk)

theorem collect_nil (buckets : List JournalBucket) : collect buckets [] = buckets := by
  induction buckets with
  | nil => rfl
  | cons bucket rest ih => simp [collect, ih]

theorem pushRecord_collect (h : pushRecord item (collect buckets items) = some buckets') :
    buckets' = collect buckets (items ++ [item]) ∧
      ∃ bucket ∈ buckets, bucket.claims item.sk = true := by
  induction buckets generalizing items buckets' with
  | nil => cases h
  | cons bucket rest ih =>
    simp only [collect, pushRecord] at h
    by_cases hclaims : bucket.claims item.sk = true
    · have hsame : JournalBucket.claims { bucket with events := bucket.events ++
          (items.filter fun item => bucket.claims item.sk).map recordOfItem } item.sk = true :=
        hclaims
      rw [if_pos hsame] at h
      obtain rfl := Option.some.inj h
      refine ⟨?_, bucket, List.mem_cons_self, hclaims⟩
      simp [collect, List.filter_append, hclaims]
    · have hsame : ¬ JournalBucket.claims { bucket with events := bucket.events ++
          (items.filter fun item => bucket.claims item.sk).map recordOfItem } item.sk = true :=
        hclaims
      rw [if_neg hsame] at h
      obtain ⟨pushed, hpushed, rfl⟩ := Option.map_eq_some_iff.mp h
      obtain ⟨rfl, other, hother, htakes⟩ := ih hpushed
      refine ⟨?_, other, List.mem_cons_of_mem _ hother, htakes⟩
      simp [collect, List.filter_append, hclaims]

def emptyBuckets (plan : JournalExportPlan) : List JournalBucket :=
  plan.routes.map fun route => ⟨route.file, route.sources, []⟩

theorem routeJournalItems_eq (h : routeJournalItems items plan = .ok buckets) :
    buckets = collect (emptyBuckets plan) (items.filter fun item => !isCallerState plan item) ∧
      ∀ item ∈ items, isCallerState plan item = true ∨
        ∃ bucket ∈ emptyBuckets plan, bucket.claims item.sk = true := by
  have hfold : ∀ (rest done : List StoredItem),
      rest.foldlM (routeItem plan) (collect (emptyBuckets plan) done) = .ok buckets →
      buckets = collect (emptyBuckets plan)
        (done ++ rest.filter fun item => !isCallerState plan item) ∧
      ∀ item ∈ rest, isCallerState plan item = true ∨
        ∃ bucket ∈ emptyBuckets plan, bucket.claims item.sk = true := by
    intro rest
    induction rest with
    | nil =>
      intro done hdone
      obtain rfl := Except.ok.inj hdone
      simp
    | cons item rest ih =>
      intro done hfolded
      rw [List.foldlM_cons] at hfolded
      obtain ⟨next, hnext, hrest⟩ := exists_of_bind_eq_ok hfolded
      unfold routeItem at hnext
      split at hnext
      · rename_i hstate
        obtain rfl := Except.ok.inj hnext
        obtain ⟨hbuckets, hclaimed⟩ := ih done hrest
        refine ⟨by simpa [hstate] using hbuckets, fun other hother => ?_⟩
        rcases List.mem_cons.mp hother with rfl | htail
        · exact .inl hstate
        · exact hclaimed other htail
      · rename_i hstate
        split at hnext
        · cases hnext
        · rename_i pushed hpushed
          obtain rfl := Except.ok.inj hnext
          obtain ⟨rfl, hfound⟩ := pushRecord_collect hpushed
          obtain ⟨hbuckets, hclaimed⟩ := ih _ hrest
          refine ⟨by simpa [hstate] using hbuckets, fun other hother => ?_⟩
          rcases List.mem_cons.mp hother with rfl | htail
          · exact .inr hfound
          · exact hclaimed other htail
  rw [← List.nil_append (List.filter _ items)]
  apply hfold items []
  rw [collect_nil]
  exact h

theorem collect_perm (hclaimed : ∀ item ∈ items, ∃ bucket ∈ buckets, bucket.claims item.sk = true)
    (hempty : ∀ bucket ∈ buckets, bucket.events = []) :
    ((collect buckets items).flatMap fun bucket => bucket.events).Perm
      (items.map recordOfItem) := by
  induction buckets generalizing items with
  | nil =>
    cases items with
    | nil => exact .refl _
    | cons item rest =>
      obtain ⟨bucket, hbucket, -⟩ := hclaimed item List.mem_cons_self
      cases hbucket
  | cons bucket rest ih =>
    simp only [collect, List.flatMap_cons, hempty bucket List.mem_cons_self, List.nil_append]
    have hrest := @ih (items.filter fun item => !bucket.claims item.sk) (fun item hitem => ?_)
      (fun other hother => hempty other (List.mem_cons_of_mem _ hother))
    · calc (items.filter fun item => bucket.claims item.sk).map recordOfItem ++
            (collect rest (items.filter fun item => !bucket.claims item.sk)).flatMap
              (fun bucket => bucket.events)
          |>.Perm ((items.filter fun item => bucket.claims item.sk).map recordOfItem ++
            (items.filter fun item => !bucket.claims item.sk).map recordOfItem) :=
          hrest.append_left _
        _ |>.Perm (items.map recordOfItem) := by
          rw [← List.map_append]
          exact (List.filter_append_perm _ items).map _
    · obtain ⟨hitem, hother⟩ := List.mem_filter.mp hitem
      obtain ⟨found, hfound, htakes⟩ := hclaimed item hitem
      rcases List.mem_cons.mp hfound with rfl | htail
      · simp [htakes] at hother
      · exact ⟨found, htail, htakes⟩

end Routing

end RefundStudy.Collection
