/-
  An export that races with the writers is dense.
-/
import RefundStudy.Collection.JournalExport
import RefundStudy.Ingestion.SequenceDensity

set_option autoImplicit false

namespace RefundStudy.Collection

open Foundation Record RefundStudy.Runtime Journal
open Package Ingestion

variable {items : List StoredItem} {record : StoredRecord} {event : JournalEvent}
  {item : StoredItem}

/-! ## Dense lists of sequences -/

theorem exists_range'_of_ascending {sequences : List Nat} (hascending : sequences.Pairwise (· < ·))
    (hbefore : ∀ n ∈ sequences, n = 1 ∨ ∃ m ∈ sequences, n = m + 1)
    (hpositive : ∀ n ∈ sequences, 1 ≤ n) : ∃ count, sequences = List.range' 1 count := by
  -- the induction takes the last, largest sequence away: nothing that stays has it before it
  induction hlength : sequences.length generalizing sequences with
  | zero => exact ⟨0, List.length_eq_zero_iff.mp hlength⟩
  | succ length ih =>
    rcases List.eq_nil_or_concat sequences with rfl | ⟨front, last, hconcat⟩
    · cases hlength
    · rw [List.concat_eq_append] at hconcat
      subst hconcat
      rw [List.pairwise_append] at hascending
      have hbelow : ∀ n ∈ front, n < last :=
        fun n hn => hascending.2.2 n hn last List.mem_cons_self
      have hfront : ∀ n ∈ front, n = 1 ∨ ∃ m ∈ front, n = m + 1 := by
        intro n hn
        rcases hbefore n (List.mem_append_left _ hn) with hfirst | ⟨m, hm, hnm⟩
        · exact .inl hfirst
        · rcases List.mem_append.mp hm with hmem | hself
          · exact .inr ⟨m, hmem, hnm⟩
          · have hsame := List.mem_singleton.mp hself
            have hlt := hbelow n hn
            omega
      obtain ⟨count, rfl⟩ := ih hascending.1 hfront
        (fun n hn => hpositive n (List.mem_append_left _ hn)) (by simpa using hlength)
      refine ⟨count + 1, ?_⟩
      have hlast : last = 1 + count := by
        rcases hbefore last (List.mem_append_right _ List.mem_cons_self) with rfl | ⟨m, hm, rfl⟩
        · cases count with
          | zero => rfl
          | succ count =>
            have hone := hbelow 1 (List.mem_range'.mpr ⟨0, by omega, by omega⟩)
            omega
        · rcases List.mem_append.mp hm with hmem | hself
          · obtain ⟨index, hindex, rfl⟩ := List.mem_range'.mp hmem
            have hlargest := hbelow count (List.mem_range'.mpr ⟨count - 1, by omega, by omega⟩)
            omega
          · have hsame := List.mem_singleton.mp hself
            omega
      rw [hlast, List.range'_concat, Nat.one_mul]

/-! ## The events of one instance -/

def asEvent : StoredRecord → Option JournalEvent
  | .event event => some event
  | _ => none

theorem asEvent_eq_some {record : StoredRecord} (h : asEvent record = some event) :
    record = .event event := by
  cases record <;> cases h
  rfl

def ofInstance (source : EventSource) (instanceId : Uuid4) (event : JournalEvent) : Bool :=
  decide (event.source = source ∧ event.sourceInstanceId = instanceId)

def instanceEvents (source : EventSource) (instanceId : Uuid4) (records : List StoredRecord) :
    List JournalEvent :=
  (records.filterMap asEvent).filter (ofInstance source instanceId)

section Instances

variable {table : JournalTable} {items : List StoredItem} {source : EventSource}
  {instanceId : Uuid4}

theorem mem_instanceEvents {records : List StoredRecord} :
    event ∈ instanceEvents source instanceId records ↔
      .event event ∈ records ∧ event.source = source ∧ event.sourceInstanceId = instanceId := by
  simp only [instanceEvents, List.mem_filter, List.mem_filterMap, ofInstance, decide_eq_true_eq]
  constructor
  · rintro ⟨⟨record, hrecord, hevent⟩, hinstance⟩
    rw [asEvent_eq_some hevent] at hrecord
    exact ⟨hrecord, hinstance⟩
  · rintro ⟨hrecord, hinstance⟩
    exact ⟨⟨_, hrecord, rfl⟩, hinstance⟩

theorem Scanned.key (h : Scanned table items)
    (hitem : item ∈ items) (hevent : item.record = .event event) :
    ∃ key, item = eventItem key event ∧ key.table = table ∧ WellKeyed key event := by
  cases h.genuine item hitem with
  | event key found htable hkeyed =>
    obtain rfl : found = event := StoredRecord.event.inj hevent
    exact ⟨key, rfl, htable, hkeyed⟩
  | state key found hsortKey hstate hrecord => exact absurd hevent (hrecord event)

theorem Scanned.instance_dense (h : Scanned table items) (source : EventSource)
    (instanceId : Uuid4) : ∃ count,
    (instanceEvents source instanceId (items.map recordOfItem)).map JournalEvent.sourceSequence =
      List.range' 1 count := by
  have hordered : (instanceEvents source instanceId (items.map recordOfItem)).Pairwise
      fun left right => left.sourceSequence < right.sourceSequence := by
    have hitems : items.Pairwise fun left right => left ∈ items ∧ right ∈ items ∧
        ∀ event event', left.record = .event event → right.record = .event event' →
          left.sk < right.sk := by
      refine h.ordered.imp_of_mem ?_
      intro left right hleft hright hlt
      exact ⟨hleft, hright, hlt⟩
    have hevents : ((items.map recordOfItem).filterMap asEvent).Pairwise fun left right =>
        left.source = right.source → left.sourceInstanceId = right.sourceInstanceId →
          left.sourceSequence < right.sourceSequence := by
      rw [List.filterMap_map]
      refine hitems.filterMap _ ?_
      rintro left right ⟨hleft, hright, hlt⟩ event hevent event' hevent' hsource hinstance
      have hrecord : left.record = .event event := asEvent_eq_some hevent
      have hrecord' : right.record = .event event' := asEvent_eq_some hevent'
      obtain ⟨key, rfl, htable, hkeyed⟩ := h.key hleft hrecord
      obtain ⟨key', rfl, htable', hkeyed'⟩ := h.key hright hrecord'
      have hsame : SameSource key key' :=
        ⟨htable.trans htable'.symm, hkeyed.source.symm.trans (hsource.trans hkeyed'.source),
          hkeyed.instanceId.symm.trans (hinstance.trans hkeyed'.instanceId)⟩
      rw [hkeyed.sequence, hkeyed'.sequence]
      exact sequence_lt_of_sortKey_lt hsame hkeyed.representable.sequence
        (hlt event event' hrecord hrecord')
    refine (hevents.filter _).imp_of_mem ?_
    intro left right hleft hright hlt
    obtain ⟨-, hsource, hinstance⟩ := mem_instanceEvents.mp hleft
    obtain ⟨-, hsource', hinstance'⟩ := mem_instanceEvents.mp hright
    exact hlt (hsource.trans hsource'.symm) (hinstance.trans hinstance'.symm)
  have hkeyOf : ∀ event ∈ instanceEvents source instanceId (items.map recordOfItem),
      ∃ key, eventItem key event ∈ items ∧ key.table = table ∧ WellKeyed key event := by
    intro event hevent
    obtain ⟨item, hitem, hrecord⟩ := List.mem_map.mp (mem_instanceEvents.mp hevent).1
    obtain ⟨key, rfl, htable, hkeyed⟩ := h.key hitem hrecord
    exact ⟨key, hitem, htable, hkeyed⟩
  apply exists_range'_of_ascending
  · rw [List.pairwise_map]
    exact hordered
  · intro n hn
    obtain ⟨event, hevent, rfl⟩ := List.mem_map.mp hn
    obtain ⟨key, hitem, htable, hkeyed⟩ := hkeyOf event hevent
    obtain ⟨-, hsource, hinstance⟩ := mem_instanceEvents.mp hevent
    rcases h.preceded key event htable hkeyed hitem with hfirst | ⟨before, event', rfl, hkeyed', hread⟩
    · exact .inl (hkeyed.sequence.trans hfirst)
    · right
      refine ⟨event'.sourceSequence, List.mem_map.mpr ⟨event', mem_instanceEvents.mpr ?_, rfl⟩, ?_⟩
      · refine ⟨List.mem_map.mpr ⟨_, hread, rfl⟩, ?_, ?_⟩
        · exact hkeyed'.source.trans (hkeyed.source.symm.trans hsource)
        · exact hkeyed'.instanceId.trans (hkeyed.instanceId.symm.trans hinstance)
      · rw [hkeyed.sequence, hkeyed'.sequence]
        rfl
  · intro n hn
    obtain ⟨event, hevent, rfl⟩ := List.mem_map.mp hn
    obtain ⟨key, hitem, htable, hkeyed⟩ := hkeyOf event hevent
    rw [hkeyed.sequence]
    exact hkeyed.positive

end Instances

/-! ## Routing by source -/

theorem takeWhile_separator {front rest : List Char} (h : '#' ∉ front) :
    (front ++ '#' :: rest).takeWhile (fun c => decide (c ≠ '#')) = front := by
  induction front with
  | nil => simp
  | cons c front ih =>
    rw [List.mem_cons, not_or] at h
    rw [List.cons_append, List.takeWhile_cons_of_pos (by simpa using Ne.symm h.1), ih h.2]

theorem claims_journalSortKey (bucket : JournalBucket) (key : JournalKey) :
    bucket.claims (journalSortKey key) = true ↔ key.source ∈ bucket.sources := by
  have hnamed : (journalSortKey key).takeWhile (fun c => decide (c ≠ '#')) =
      (sourceText key.source).toList := by
    rw [journalSortKey, instancePrefix, List.append_assoc, List.cons_append]
    exact takeWhile_separator (separator_not_mem_sourceText key.source)
  simp only [JournalBucket.claims, hnamed, List.any_eq_true, decide_eq_true_eq]
  constructor
  · rintro ⟨source, hmem, htext⟩
    rwa [← sourceText_injective (String.toList_inj.mp htext)]
  · exact fun hmem => ⟨key.source, hmem, rfl⟩

def ofSource (source : EventSource) : StoredRecord → Bool
  | .event event => decide (event.source = source)
  | _ => false

abbrev Contents : Type := List (CollectedJournalFile × List StoredRecord)

/-- All records of the source stand in one of the files, in their order. -/
def Held (source : EventSource) (records : List StoredRecord) (contents : Contents) : Prop :=
  (records.filter (ofSource source) = [] ∧
    ∀ file ∈ contents, ∀ record ∈ file.2, ofSource source record = false) ∨
  ∃ before holder after, contents = before ++ holder :: after ∧
    holder.2.filter (ofSource source) = records.filter (ofSource source) ∧
    ∀ file ∈ before ++ after, ∀ record ∈ file.2, ofSource source record = false

section Held

variable {source : EventSource} {records : List StoredRecord} {contents : Contents}
  {buckets : List JournalBucket} {items : List StoredItem}

def bucketContents (buckets : List JournalBucket) : Contents :=
  buckets.map fun bucket => (bucket.file, bucket.events)

theorem mem_of_mem_collect (hempty : ∀ bucket ∈ buckets, bucket.events = [])
    {file : CollectedJournalFile × List StoredRecord}
    (hfile : file ∈ bucketContents (collect buckets items)) (hrecord : record ∈ file.2) :
    ∃ item ∈ items, recordOfItem item = record := by
  induction buckets generalizing items with
  | nil => exact absurd hfile List.not_mem_nil
  | cons bucket rest ih =>
    simp only [collect, bucketContents, List.map_cons, List.mem_cons] at hfile
    rcases hfile with rfl | hfile
    · rw [hempty bucket List.mem_cons_self, List.nil_append] at hrecord
      obtain ⟨item, hitem, rfl⟩ := List.mem_map.mp hrecord
      exact ⟨item, List.mem_of_mem_filter hitem, rfl⟩
    · obtain ⟨item, hitem, heq⟩ :=
        ih (fun other hother => hempty other (List.mem_cons_of_mem _ hother)) hfile
      exact ⟨item, List.mem_of_mem_filter hitem, heq⟩

def Events (items : List StoredItem) : Prop :=
  ∀ item ∈ items, ∃ key event, item = eventItem key event ∧ WellKeyed key event

theorem Events.filter (h : Events items) (p : StoredItem → Bool) : Events (items.filter p) :=
  fun item hitem => h item (List.mem_of_mem_filter hitem)

theorem claims_iff_of_source (h : Events items) (hitem : item ∈ items)
    (hsource : ofSource source (recordOfItem item) = true) (bucket : JournalBucket) :
    bucket.claims item.sk = true ↔ source ∈ bucket.sources := by
  obtain ⟨key, event, rfl, hkeyed⟩ := h item hitem
  have hkey : key.source = source := by
    rw [← hkeyed.source]
    simpa [ofSource, recordOfItem, eventItem] using hsource
  have hclaims := claims_journalSortKey bucket key
  rw [hkey] at hclaims
  exact hclaims

theorem collect_held (hevents : Events items)
    (hclaimed : ∀ item ∈ items, ∃ bucket ∈ buckets, bucket.claims item.sk = true)
    (hempty : ∀ bucket ∈ buckets, bucket.events = []) :
    Held source (items.map recordOfItem) (bucketContents (collect buckets items)) := by
  induction buckets generalizing items with
  | nil =>
    cases items with
    | nil => exact .inl ⟨rfl, fun file hfile => absurd hfile List.not_mem_nil⟩
    | cons item rest =>
      obtain ⟨bucket, hbucket, -⟩ := hclaimed item List.mem_cons_self
      cases hbucket
  | cons bucket rest ih =>
    have hrestEmpty : ∀ other ∈ rest, other.events = [] :=
      fun other hother => hempty other (List.mem_cons_of_mem _ hother)
    have hhead : bucketContents (collect (bucket :: rest) items) =
        (bucket.file, (items.filter fun item => bucket.claims item.sk).map recordOfItem) ::
          bucketContents (collect rest (items.filter fun item => !bucket.claims item.sk)) := by
      simp [collect, bucketContents, hempty bucket List.mem_cons_self]
    by_cases hsource : source ∈ bucket.sources
    · -- this bucket takes them all, so nothing of the source is left for the rest
      refine .inr ⟨[], _, _, hhead, ?_, fun file hfile record hrecord => ?_⟩
      · rw [List.filter_map, List.filter_map, List.filter_filter]
        refine congrArg _ (List.filter_congr fun item hitem => ?_)
        by_cases hof : ofSource source (recordOfItem item) = true
        · simp [hof, (claims_iff_of_source hevents hitem hof bucket).mpr hsource]
        · simp [hof]
      · obtain ⟨item, hitem, rfl⟩ := mem_of_mem_collect hrestEmpty hfile hrecord
        obtain ⟨hitem, hother⟩ := List.mem_filter.mp hitem
        by_contra hof
        rw [Bool.not_eq_false] at hof
        have hclaims := (claims_iff_of_source hevents hitem hof bucket).mpr hsource
        simp [hclaims] at hother
    · -- this bucket takes none of them
      have hnone : ∀ item ∈ items, ofSource source (recordOfItem item) = true →
          bucket.claims item.sk = false := by
        intro item hitem hof
        have hiff := claims_iff_of_source hevents hitem hof bucket
        exact Bool.eq_false_iff.mpr fun hclaims => hsource (hiff.mp hclaims)
      have hfirst : ∀ record ∈ (items.filter fun item => bucket.claims item.sk).map recordOfItem,
          ofSource source record = false := by
        intro record hrecord
        obtain ⟨item, hitem, rfl⟩ := List.mem_map.mp hrecord
        obtain ⟨hitem, hclaims⟩ := List.mem_filter.mp hitem
        by_contra hof
        rw [Bool.not_eq_false] at hof
        rw [hnone item hitem hof] at hclaims
        cases hclaims
      have hrecords : ((items.filter fun item => !bucket.claims item.sk).map recordOfItem).filter
          (ofSource source) = (items.map recordOfItem).filter (ofSource source) := by
        rw [List.filter_map, List.filter_map, List.filter_filter]
        refine congrArg _ (List.filter_congr fun item hitem => ?_)
        by_cases hof : ofSource source (recordOfItem item) = true
        · simp [hof, hnone item hitem hof]
        · simp [hof]
      have hrest : Held source ((items.filter fun item => !bucket.claims item.sk).map recordOfItem)
          (bucketContents (collect rest (items.filter fun item => !bucket.claims item.sk))) := by
        refine ih (hevents.filter _) (fun item hitem => ?_) hrestEmpty
        obtain ⟨hitem, hother⟩ := List.mem_filter.mp hitem
        obtain ⟨found, hfound, htakes⟩ := hclaimed item hitem
        rcases List.mem_cons.mp hfound with rfl | htail
        · simp [htakes] at hother
        · exact ⟨found, htail, htakes⟩
      rw [hhead]
      rcases hrest with ⟨hnil, hall⟩ | ⟨before, holder, after, hsplit, hheld, hall⟩
      · refine .inl ⟨hrecords ▸ hnil, fun file hfile record hrecord => ?_⟩
        rcases List.mem_cons.mp hfile with rfl | htail
        · exact hfirst record hrecord
        · exact hall file htail record hrecord
      · refine .inr ⟨_ :: before, holder, after, by rw [hsplit]; rfl, hheld.trans hrecords, ?_⟩
        intro file hfile record hrecord
        rcases List.mem_cons.mp hfile with rfl | htail
        · exact hfirst record hrecord
        · exact hall file htail record hrecord

theorem Held.countP (h : Held source records contents)
    (hrecord : record ∈ records) (hsource : ofSource source record = true) :
    contents.countP (fun file => decide (record ∈ file.2)) = 1 := by
  have hmem : record ∈ records.filter (ofSource source) := List.mem_filter.mpr ⟨hrecord, hsource⟩
  rcases h with ⟨hnil, -⟩ | ⟨before, holder, after, rfl, hheld, hall⟩
  · rw [hnil] at hmem
    cases hmem
  · have hholder : record ∈ holder.2 := by
      rw [← hheld] at hmem
      exact List.mem_of_mem_filter hmem
    have hzero : ∀ part : Contents, (∀ file ∈ part, file ∈ before ++ after) →
        part.countP (fun file => decide (record ∈ file.2)) = 0 := by
      intro part hpart
      rw [List.countP_eq_zero]
      intro file hfile hin
      have hfalse := hall file (hpart file hfile) record (by simpa using hin)
      rw [hsource] at hfalse
      cases hfalse
    have hbefore := hzero before fun file hfile => List.mem_append_left _ hfile
    have hafter := hzero after fun file hfile => List.mem_append_right _ hfile
    rw [List.countP_append, List.countP_cons, hbefore, hafter]
    simp [hholder]

theorem instanceEvents_of_filter (instanceId : Uuid4) (records : List StoredRecord) :
    instanceEvents source instanceId (records.filter (ofSource source)) =
      instanceEvents source instanceId records := by
  induction records with
  | nil => rfl
  | cons record rest ih =>
    unfold instanceEvents at ih ⊢
    cases record with
    | event event =>
      by_cases hsource : event.source = source
      · simp [ofSource, asEvent, hsource, List.filter_cons, ih]
      · simp [ofSource, asEvent, ofInstance, hsource, ih]
    | _ => exact ih

theorem instanceEvents_eq_nil (instanceId : Uuid4)
    (h : ∀ record ∈ records, ofSource source record = false) :
    instanceEvents source instanceId records = [] := by
  rw [← instanceEvents_of_filter, List.filter_eq_nil_iff.mpr fun record hrecord => by
    simp [h record hrecord]]
  rfl

/-- An instance's events, read over the files of any selection, are all there or all absent. -/
theorem Held.selected (h : Held source records contents) (instanceId : Uuid4)
    (keep : CollectedJournalFile → Bool) :
    (contents.filter fun file => keep file.1).flatMap
        (fun file => instanceEvents source instanceId file.2) =
      instanceEvents source instanceId records ∨
    (contents.filter fun file => keep file.1).flatMap
        (fun file => instanceEvents source instanceId file.2) = [] := by
  have hnone : ∀ part : Contents,
      (∀ file ∈ part, ∀ record ∈ file.2, ofSource source record = false) →
      (part.filter fun file => keep file.1).flatMap
        (fun file => instanceEvents source instanceId file.2) = [] := by
    intro part hpart
    rw [List.flatMap_eq_nil_iff]
    intro file hfile
    exact instanceEvents_eq_nil instanceId (hpart file (List.mem_of_mem_filter hfile))
  rcases h with ⟨-, hall⟩ | ⟨before, holder, after, rfl, hheld, hall⟩
  · exact .inr (hnone contents hall)
  · have hbefore := hnone before fun file hfile => hall file (List.mem_append_left _ hfile)
    have hafter := hnone after fun file hfile => hall file (List.mem_append_right _ hfile)
    have hholder : instanceEvents source instanceId holder.2 =
        instanceEvents source instanceId records := by
      rw [← instanceEvents_of_filter, hheld, instanceEvents_of_filter]
    by_cases hkeep : keep holder.1 = true
    · left
      rw [List.filter_append, List.filter_cons_of_pos (by simpa using hkeep), List.flatMap_append,
        List.flatMap_cons, hbefore, hafter, hholder, List.nil_append, List.append_nil]
    · right
      rw [List.filter_append, List.filter_cons_of_neg (by simpa using hkeep), List.flatMap_append,
        hbefore, hafter, List.nil_append]

/-- Read over all files, an instance's events are the ones routed. -/
theorem Held.all (h : Held source records contents) (instanceId : Uuid4) :
    contents.flatMap (fun file => instanceEvents source instanceId file.2) =
      instanceEvents source instanceId records := by
  have hselected := h.selected instanceId fun _ => true
  simp only [List.filter_true] at hselected
  rcases hselected with hall | hnil
  · exact hall
  · rcases h with ⟨hempty, -⟩ | ⟨before, holder, after, rfl, hheld, -⟩
    · rw [hnil, ← instanceEvents_of_filter, hempty]
      rfl
    · have hholder := List.flatMap_eq_nil_iff.mp hnil holder (by simp)
      rw [hnil, ← instanceEvents_of_filter, ← hheld, instanceEvents_of_filter, hholder]

end Held

/-! ## The exported files -/

section Files

variable {canonicalJsonIfRepresentable : StoredRecord → Option String} {plan : JournalExportPlan}
  {buckets : List JournalBucket} {files : List JournalFileExport} {read : PartitionRead}

def fileContents (files : List JournalFileExport) : Contents :=
  files.map fun file => (file.file, file.events)

theorem fileContents_of_encoded
    (h : buckets.mapM (encodeBucket canonicalJsonIfRepresentable) = .ok files) :
    fileContents files = bucketContents buckets := by
  induction buckets generalizing files with
  | nil =>
    obtain rfl := Except.ok.inj h
    rfl
  | cons bucket rest ih =>
    rw [List.mapM_cons] at h
    obtain ⟨file, hfile, hrest⟩ := exists_of_bind_eq_ok h
    obtain ⟨others, hothers, hfiles⟩ := exists_of_bind_eq_ok hrest
    obtain rfl := Except.ok.inj hfiles
    unfold encodeBucket at hfile
    cases hbytes : encodeRecordLines canonicalJsonIfRepresentable bucket.events bucket.file with
    | error reason =>
      rw [hbytes] at hfile
      cases hfile
    | ok bytes =>
      rw [hbytes] at hfile
      obtain rfl := Except.ok.inj hfile
      have htail := ih hothers
      unfold fileContents bucketContents at htail ⊢
      rw [List.map_cons, List.map_cons, htail]

theorem Scanned.events (h : Scanned plan.table items) :
    Events (items.filter fun item => !isCallerState plan item) := by
  intro item hitem
  obtain ⟨hitem, hstate⟩ := List.mem_filter.mp hitem
  cases h.genuine item hitem with
  | event key event htable hkeyed => exact ⟨key, event, rfl, hkeyed⟩
  | state key found hsortKey hnone hrecord =>
    -- a sort key outside the events is one of the caller state
    have hcaller : isCallerState plan item = true := by
      unfold isCallerState
      cases key with
      | journal journalKey => exact absurd rfl (hnone journalKey)
      | _ =>
        cases htable : plan.table <;> rw [htable] at hsortKey <;>
          simp [sortKeyIn, callerStateSortKey] at hsortKey <;> simp [← hsortKey]
    rw [hcaller] at hstate
    cases hstate

theorem isCallerState_eventItem (key : JournalKey) (event : JournalEvent) :
    isCallerState plan (eventItem key event) = false := by
  rw [Bool.eq_false_iff]
  intro hstate
  simp only [isCallerState, Bool.and_eq_true, List.isPrefixOf_iff_prefix] at hstate
  obtain ⟨more, hmore⟩ := hstate.2
  exact statePrefix_ne_instancePrefix key.source key.instanceId more _ hmore

theorem Scanned.instanceEvents_filter (h : Scanned plan.table items)
    (source : EventSource) (instanceId : Uuid4) :
    instanceEvents source instanceId
        ((items.filter fun item => !isCallerState plan item).map recordOfItem) =
      instanceEvents source instanceId (items.map recordOfItem) := by
  have hall : ∀ item ∈ items, isCallerState plan item = true → asEvent (recordOfItem item) = none := by
    intro item hitem hstate
    cases hrecord : item.record with
    | event event =>
      obtain ⟨key, rfl, -, -⟩ := h.key hitem hrecord
      rw [isCallerState_eventItem] at hstate
      cases hstate
    | _ => simp [recordOfItem, hrecord, asEvent]
  clear h
  induction items with
  | nil => rfl
  | cons item rest ih =>
    have hrest := ih fun other hother => hall other (List.mem_cons_of_mem _ hother)
    unfold instanceEvents at hrest ⊢
    by_cases hstate : isCallerState plan item = true
    · have hnone := hall item List.mem_cons_self hstate
      simpa [List.filter_cons, hstate, hnone] using hrest
    · rw [Bool.not_eq_true] at hstate
      cases hevent : asEvent (recordOfItem item) with
      | none => simpa [List.filter_cons, hstate, hevent] using hrest
      | some event =>
        simp only [List.filter_cons, hstate, Bool.not_false, if_true, List.map_cons,
          List.filterMap_cons, hevent]
        rw [hrest]

/-- The events of exported files as ingestion indexes them: each file has its path and origin. -/
def indexedEvents (path : CollectedJournalFile → String)
    (origin : CollectedJournalFile → ArtifactOrigin) (files : List JournalFileExport) :
    List SequencedEvent :=
  (fileContents files).flatMap fun file => (file.2.filterMap asEvent).map fun event =>
    { eventId := event.eventId
      source := event.source
      sourceInstanceId := event.sourceInstanceId
      sourceSequence := event.sourceSequence
      artifactPath := path file.1
      origin := origin file.1 }

/-- The sequences under one instance key are those of the instance, over the files that count. -/
theorem sequencesOf_indexedEvents (path : CollectedJournalFile → String)
    (origin : CollectedJournalFile → ArtifactOrigin) {key : String}
    (hevent : instanceKey ⟨event.eventId, event.source, event.sourceInstanceId,
      event.sourceSequence, "", .subject⟩ = key)
    (hbound : event.sourceInstanceId < uuidBound)
    (hbounds : ∀ file ∈ files, ∀ other, .event other ∈ file.events →
      other.sourceInstanceId < uuidBound) :
    sequencesOf key ((indexedEvents path origin files).filter fun indexed =>
        decide (indexed.origin ≠ .executionScope)) =
      (((fileContents files).filter fun file => decide (origin file.1 ≠ .executionScope)).flatMap
        fun file => instanceEvents event.source event.sourceInstanceId file.2).map
          JournalEvent.sourceSequence := by
  induction files with
  | nil => rfl
  | cons file rest ih =>
    have hrest := ih fun other hother => hbounds other (List.mem_cons_of_mem _ hother)
    have hfile : sequencesOf key ((file.events.filterMap asEvent).map fun other =>
        ({ eventId := other.eventId
           source := other.source
           sourceInstanceId := other.sourceInstanceId
           sourceSequence := other.sourceSequence
           artifactPath := path file.file
           origin := origin file.file } : SequencedEvent)) =
        (instanceEvents event.source event.sourceInstanceId file.events).map
          JournalEvent.sourceSequence := by
      simp only [sequencesOf, instanceEvents, List.filter_map, List.map_map]
      refine congrArg _ (List.filter_congr fun other hother => ?_)
      obtain ⟨record, hrecord, hsome⟩ := List.mem_filterMap.mp hother
      rw [asEvent_eq_some hsome] at hrecord
      have hotherBound := hbounds file List.mem_cons_self other hrecord
      simp only [Function.comp_apply, ofInstance, decide_eq_decide]
      constructor
      · intro hkey
        rw [← hevent] at hkey
        exact instanceKey_inj hotherBound hbound hkey
      · rintro ⟨hsource, hid⟩
        rw [← hevent]
        simp only [instanceKey, hsource, hid]
    have hsplit : indexedEvents path origin (file :: rest) =
        ((file.events.filterMap asEvent).map fun other =>
          ({ eventId := other.eventId
             source := other.source
             sourceInstanceId := other.sourceInstanceId
             sourceSequence := other.sourceSequence
             artifactPath := path file.file
             origin := origin file.file } : SequencedEvent)) ++
        indexedEvents path origin rest := rfl
    rw [hsplit, List.filter_append]
    have happend : ∀ first second, sequencesOf key (first ++ second) =
        sequencesOf key first ++ sequencesOf key second := by
      intro first second
      simp [sequencesOf, List.filter_append]
    rw [happend, hrest]
    -- a file counts as a whole or not at all
    by_cases hscope : origin file.file = .executionScope
    · rw [List.filter_eq_nil_iff.mpr fun other hother => by
        obtain ⟨found, -, rfl⟩ := List.mem_map.mp hother
        simp [hscope]]
      simp [fileContents, sequencesOf, hscope]
    · rw [List.filter_eq_self.mpr fun other hother => by
        obtain ⟨found, -, rfl⟩ := List.mem_map.mp hother
        simp [hscope], hfile]
      simp [fileContents, hscope]

end Files

/-! ## The export -/

section Export

variable {ι : Type} [DecidableEq ι] {clients : ι → WriterClient} {init cfg : WriterConfig ι}
  {canonicalJsonIfRepresentable : StoredRecord → Option String} {fuel : Nat}
  {plan : JournalExportPlan} {files : List JournalFileExport}

/-- A run of `exportJournals` is a run of the read; the rest makes no call. -/
theorem exportJournals_read
    (hrun : RunsTo ((readerMachine ι).answers ()) (Interference.none _)
      (exportJournals canonicalJsonIfRepresentable fuel plan).run init (.ok files) cfg) :
    ∃ read buckets, RunsTo ((readerMachine ι).answers ()) (Interference.none _)
        (readWholePartition fuel plan.table).run init (.ok read) cfg ∧
      routeJournalItems read.items plan = .ok buckets ∧
      buckets.mapM (encodeBucket canonicalJsonIfRepresentable) = .ok files := by
  obtain ⟨middle, w₁, hfirst, hrest⟩ := RunsTo.split hrun
  cases middle with
  | error reason => cases hrest
  | ok read =>
    cases hrouted : routeJournalItems read.items plan with
    | error reason =>
      change RunsTo _ _ (ExceptT.run (ExceptT.mk (.ret (routeJournalItems read.items plan)) >>=
        _)) w₁ _ cfg at hrest
      rw [hrouted] at hrest
      cases hrest
    | ok buckets =>
      change RunsTo _ _ (ExceptT.run (ExceptT.mk (.ret (routeJournalItems read.items plan)) >>=
        fun buckets => ExceptT.mk (.ret (buckets.mapM
          (encodeBucket canonicalJsonIfRepresentable))))) w₁ _ cfg at hrest
      rw [hrouted] at hrest
      change RunsTo _ _ (.ret (buckets.mapM (encodeBucket canonicalJsonIfRepresentable))) w₁ _
        cfg at hrest
      generalize hencoded : buckets.mapM (encodeBucket canonicalJsonIfRepresentable) = encoded
        at hrest
      cases hrest with
      | ret hsame =>
        obtain rfl : w₁ = cfg := hsame
        exact ⟨read, buckets, hfirst, hrouted, hencoded⟩

/-- What routing and encoding make of a scan: nothing is lost or invented, every record is an
event, a source stands in one file, and an instance's events are dense. -/
structure Routed (plan : JournalExportPlan) (items : List StoredItem)
    (files : List JournalFileExport) : Prop where
  perm : (files.flatMap JournalFileExport.events).Perm
    ((items.filter fun item => !isCallerState plan item).map recordOfItem)
  events : Events (items.filter fun item => !isCallerState plan item)
  held : ∀ source, Held source
    ((items.filter fun item => !isCallerState plan item).map recordOfItem) (fileContents files)
  dense : ∀ source instanceId, ∃ count, (instanceEvents source instanceId
    ((items.filter fun item => !isCallerState plan item).map recordOfItem)).map
      JournalEvent.sourceSequence = List.range' 1 count

theorem Scanned.routed {buckets : List JournalBucket}
    (h : Scanned plan.table items) (hrouted : routeJournalItems items plan = .ok buckets)
    (hencoded : buckets.mapM (encodeBucket canonicalJsonIfRepresentable) = .ok files) :
    Routed plan items files := by
  obtain ⟨rfl, hclaimed⟩ := routeJournalItems_eq hrouted
  have hcontents := fileContents_of_encoded hencoded
  have hempty : ∀ bucket ∈ emptyBuckets plan, bucket.events = [] := by
    intro bucket hbucket
    obtain ⟨route, -, rfl⟩ := List.mem_map.mp hbucket
    rfl
  have htaken : ∀ item ∈ items.filter fun item => !isCallerState plan item,
      ∃ bucket ∈ emptyBuckets plan, bucket.claims item.sk = true := by
    intro item hitem
    obtain ⟨hitem, hstate⟩ := List.mem_filter.mp hitem
    rcases hclaimed item hitem with hcaller | hbucket
    · rw [hcaller] at hstate
      cases hstate
    · exact hbucket
  refine ⟨?_, h.events, fun source => ?_, fun source instanceId => ?_⟩
  · have hsame : files.flatMap JournalFileExport.events =
        (collect (emptyBuckets plan) (items.filter fun item =>
          !isCallerState plan item)).flatMap fun bucket => bucket.events := by
      have hflat := congrArg (fun contents : Contents => contents.flatMap Prod.snd) hcontents
      simpa [fileContents, bucketContents, List.flatMap_map] using hflat
    rw [hsame]
    exact collect_perm htaken hempty
  · rw [hcontents]
    exact collect_held h.events htaken hempty
  · rw [h.instanceEvents_filter]
    exact h.instance_dense source instanceId

section Routed

variable {items : List StoredItem}

theorem Routed.keyed (h : Routed plan items files) {file : JournalFileExport} (hfile : file ∈ files)
    (hrecord : record ∈ file.events) :
    ∃ key event, record = .event event ∧ WellKeyed key event := by
  have hmem := h.perm.mem_iff.mp (List.mem_flatMap.mpr ⟨file, hfile, hrecord⟩)
  obtain ⟨item, hitem, rfl⟩ := List.mem_map.mp hmem
  obtain ⟨key, event, rfl, hkeyed⟩ := h.events item hitem
  exact ⟨key, event, rfl, hkeyed⟩

theorem Routed.countP (h : Routed plan items files) (hitem : item ∈ items) :
    isCallerState plan item = true ∨
      files.countP (fun file => decide (recordOfItem item ∈ file.events)) = 1 := by
  by_cases hstate : isCallerState plan item = true
  · exact .inl hstate
  · right
    have hkept : item ∈ items.filter fun item => !isCallerState plan item :=
      List.mem_filter.mpr ⟨hitem, by simpa using hstate⟩
    obtain ⟨key, event, rfl, -⟩ := h.events item hkept
    have hcount := (h.held event.source).countP (List.mem_map.mpr ⟨_, hkept, rfl⟩)
      (by simp [ofSource, recordOfItem, eventItem])
    rw [fileContents, List.countP_map] at hcount
    exact hcount

theorem Routed.sequences (h : Routed plan items files) (source : EventSource) (instanceId : Uuid4) :
    ∃ count, (files.flatMap fun file => instanceEvents source instanceId file.events).map
      JournalEvent.sourceSequence = List.range' 1 count := by
  obtain ⟨count, hcount⟩ := h.dense source instanceId
  refine ⟨count, ?_⟩
  have hall := (h.held source).all instanceId
  rw [fileContents, List.flatMap_map] at hall
  rw [hall, hcount]

theorem Routed.sequencesOf (h : Routed plan items files) (path : CollectedJournalFile → String)
    (origin : CollectedJournalFile → ArtifactOrigin) (key : String) :
    ∃ count, Ingestion.sequencesOf key ((indexedEvents path origin files).filter fun event =>
      decide (event.origin ≠ .executionScope)) = List.range' 1 count := by
  by_cases hsome : ∃ file ∈ files, ∃ event, .event event ∈ file.events ∧
      instanceKey ⟨event.eventId, event.source, event.sourceInstanceId, event.sourceSequence,
        "", .subject⟩ = key
  · obtain ⟨file, hfile, event, hevent, hkey⟩ := hsome
    have hbounds : ∀ file ∈ files, ∀ other, .event other ∈ file.events →
        other.sourceInstanceId < uuidBound := by
      intro file hfile other hother
      obtain ⟨otherKey, found, hfound, hkeyed⟩ := h.keyed hfile hother
      obtain rfl : other = found := StoredRecord.event.inj hfound
      rw [hkeyed.instanceId]
      exact hkeyed.representable.instanceId
    rw [sequencesOf_indexedEvents path origin hkey (hbounds file hfile event hevent) hbounds]
    obtain ⟨count, hcount⟩ := h.dense event.source event.sourceInstanceId
    rcases (h.held event.source).selected event.sourceInstanceId
      (fun file => decide (origin file ≠ .executionScope)) with hall | hnil
    · exact ⟨count, by rw [hall, hcount]⟩
    · exact ⟨0, by rw [hnil]; rfl⟩
  · refine ⟨0, ?_⟩
    simp only [Ingestion.sequencesOf, List.range'_zero, List.map_eq_nil_iff,
      List.filter_eq_nil_iff, decide_eq_true_eq]
    intro indexed hmem hkey
    obtain ⟨content, hcontent, hevent⟩ := List.mem_flatMap.mp (List.mem_of_mem_filter hmem)
    obtain ⟨file, hfile, rfl⟩ := List.mem_map.mp hcontent
    obtain ⟨event, hfound, rfl⟩ := List.mem_map.mp hevent
    obtain ⟨record, hrecord, hrecordEvent⟩ := List.mem_filterMap.mp hfound
    rw [asEvent_eq_some hrecordEvent] at hrecord
    exact hsome ⟨file, hfile, event, hrecord, hkey⟩

theorem Routed.findings (h : Routed plan items files) (path : CollectedJournalFile → String)
    (origin : CollectedJournalFile → ArtifactOrigin) {events : List SequencedEvent}
    (hindexed : events.Perm (indexedEvents path origin files)) :
    (checkSequenceDensity events).findings = [] := by
  refine checkSequenceDensity_findings fun key => ?_
  obtain ⟨count, hcount⟩ := h.sequencesOf path origin key
  refine ⟨count, ?_⟩
  rw [← hcount]
  exact ((hindexed.filter _).filter _).map _

end Routed

/-- Whatever the writers do while the pages are read, a successful export is dense: every item
read is caller state or stands in exactly one file, an instance's exported events are its
sequences 1..k in order, and the density check of ingestion finds nothing in the files. -/
theorem export_dense_under_writers (hstarted : Started clients init)
    (hrun : RunsTo ((readerMachine ι).answers ()) (Interference.none _)
      (exportJournals canonicalJsonIfRepresentable fuel plan).run init (.ok files) cfg) :
    ∃ read, RunsTo ((readerMachine ι).answers ()) (Interference.none _)
        (readWholePartition fuel plan.table).run init (.ok read) cfg ∧
      (∀ item ∈ read.items, isCallerState plan item = true ∨
        files.countP (fun file => decide (recordOfItem item ∈ file.events)) = 1) ∧
      (files.flatMap JournalFileExport.events).Perm
        ((read.items.filter fun item => !isCallerState plan item).map recordOfItem) ∧
      (∀ file ∈ files, ∀ record ∈ file.events, ∃ event, record = .event event) ∧
      (∀ source instanceId, ∃ count,
        (files.flatMap fun file => instanceEvents source instanceId file.events).map
          JournalEvent.sourceSequence = List.range' 1 count) ∧
      ∀ path origin events, events.Perm (indexedEvents path origin files) →
        (checkSequenceDensity events).findings = [] := by
  obtain ⟨read, buckets, hread, hroutes, hencoded⟩ := exportJournals_read hrun
  have hscanned : Scanned plan.table read.items :=
    hread.result (readWholePartition_scanned hstarted fuel) read rfl
  have hrouted : Routed plan read.items files := hscanned.routed hroutes hencoded
  refine ⟨read, hread, fun item hitem => hrouted.countP hitem, hrouted.perm, ?_,
    hrouted.sequences, fun path origin events => hrouted.findings path origin⟩
  intro file hfile record hrecord
  obtain ⟨key, event, hevent, -⟩ := hrouted.keyed hfile hrecord
  exact ⟨event, hevent⟩

end Export

def appendingClient : WriterClient where
  table := .callerJournal
  source := .conventionalCaller
  instanceId := 0
  maxDefinitiveRetries := 2
  ops := [.append (.innerExecutionExhausted "request" "arn" 1 1 7) [],
    .append (.innerExecutionExhausted "request" "arn" 2 1 7) []]
  uuid := by decide

def appendingStart : WriterConfig Unit :=
  ⟨⟨∅, fun _ => none, []⟩, fun _ => (runOps appendingClient.writer appendingClient.ops).run⟩

theorem appendingStart_started : Started (fun _ => appendingClient) appendingStart where
  programs := fun _ => rfl
  empty := fun key event hstored => by cases hstored

def racingChoices : List (ReaderChoice Unit) :=
  [.page [((), .id 1), ((), .reading 0), ((), .fate .answered)] 0 true,
    .page [((), .id 2), ((), .reading 0), ((), .fate .answered)] 0 false]

def callerPlan : JournalExportPlan := ⟨.callerJournal, [⟨.callerJournal, callerSources⟩]⟩

def exportedCounts : Except ExportReason (List JournalFileExport) × WriterConfig Unit →
    Option (List Nat)
  | (.ok files, _) => some (files.map fun file => file.events.length)
  | (.error _, _) => none

theorem racingExport_plays :
    (Program.play (readerMachine Unit) () racingChoices
      (exportJournals (fun _ => some "") 2 callerPlan).run appendingStart).bind exportedCounts =
    some [2] := by
  decide +kernel

theorem export_dense_under_append : ∃ files cfg,
    RunsTo ((readerMachine Unit).answers ()) (Interference.none _)
      (exportJournals (fun _ => some "") 2 callerPlan).run appendingStart (.ok files) cfg ∧
    files.map (fun file => file.events.length) = [2] ∧
    ∀ path origin, (checkSequenceDensity (indexedEvents path origin files)).findings = [] := by
  obtain ⟨⟨result, cfg⟩, hplay, hcounts⟩ := Option.bind_eq_some_iff.mp racingExport_plays
  cases result with
  | error reason => cases hcounts
  | ok files =>
    have hrun := Program.play_runsTo (R := Interference.none _) hplay
    obtain ⟨-, -, -, -, -, -, hfindings⟩ := export_dense_under_writers appendingStart_started hrun
    exact ⟨files, cfg, hrun, Option.some.inj hcounts,
      fun path origin => hfindings path origin _ (.refl _)⟩

end RefundStudy.Collection
