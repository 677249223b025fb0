/-
  What further artifacts do to an input (`evidence-ingestion/ingest-evidence.ts`,
  `event-indexing.ts`, `identity-registry.ts`, `identity-integrity-gate.ts`; design 8.2 steps I4 and
  I8, 8.3 gate G3).

  Of the copies of an event the first one read is indexed, so an added artifact may take the place
  of a copy that the index held before.
-/
import RefundStudy.Foundation.Sorting
import RefundStudy.Ingestion.IdentityCollisions
import RefundStudy.Ingestion.ValidityGates
import Mathlib.Data.List.Find

set_option autoImplicit false

namespace RefundStudy.Ingestion

open Foundation Record Package

variable {occurrence : IdentityOccurrence} {artifact : IngestedArtifact} {event : IndexedEvent}

/-! ## The events indexed -/

theorem mem_indexedOccurrences {artifacts : List IngestedArtifact}
    :
    occurrence ∈ (indexEvents artifacts).byId.values.flatMap eventOccurrences ↔
      ∃ kept, (eventsRead artifacts).find?
          (fun event => decide (event.record.eventId = kept.record.eventId)) = some kept ∧
        occurrence ∈ eventOccurrences kept := by
  have hentries : (indexEvents artifacts).byId.values =
      (eventGroups (eventsRead artifacts)).map fun entry =>
        { entry.2.kept with copies := entry.2.copies.length } := by
    unfold indexEvents InsertionMap.values
    rw [List.map_map]
    rfl
  have hkept := eventGroups_kept (eventsRead artifacts)
  rw [hentries, List.mem_flatMap]
  constructor
  · intro h
    obtain ⟨event, hevent, hmem⟩ := h
    obtain ⟨⟨id, group⟩, hgroup, rfl⟩ := List.mem_map.mp hevent
    have hget := hkept id
    rw [InsertionMap.get?_of_mem (eventGroups_nodup _) hgroup, Option.map_some] at hget
    have hid : group.kept.record.eventId = id := by
      have hfound := List.find?_some hget.symm
      exact of_decide_eq_true hfound
    refine ⟨group.kept, ?_, hmem⟩
    rw [hid]
    exact hget.symm
  · intro h
    obtain ⟨kept, hfound, hmem⟩ := h
    have hget := hkept kept.record.eventId
    rw [hfound] at hget
    obtain ⟨group, hgroup, hsame⟩ := Option.map_eq_some_iff.mp hget
    refine ⟨_, List.mem_map.mpr ⟨_, InsertionMap.mem_of_get? hgroup, rfl⟩, ?_⟩
    rw [← hsame] at hmem
    exact hmem

theorem indexedEvent_value
    (hmem : event ∈ artifactEvents artifact) :
    event.artifactPath = artifact.path ∧ event.origin = artifact.origin ∧
      event.value.asEvent = some event.record ∧
      event.partition = partitionOf event.value.correlation := by
  obtain ⟨record, -, hevent⟩ := List.mem_filterMap.mp hmem
  unfold indexedEvent at hevent
  split at hevent
  · obtain ⟨typed, htyped, rfl⟩ := Option.map_eq_some_iff.mp hevent
    exact ⟨rfl, rfl, htyped, rfl⟩
  · cases hevent

theorem mem_eventsRead {artifacts : List IngestedArtifact} :
    event ∈ eventsRead artifacts ↔ ∃ artifact ∈ artifacts, event ∈ artifactEvents artifact := by
  unfold eventsRead inReadingOrder
  rw [List.mem_flatMap]
  simp only [List.mem_insertionSort]

instance originRank_total : Std.Total fun first second : IngestedArtifact =>
    originRank first.origin ≤ originRank second.origin := ⟨fun _ _ => Nat.le_total _ _⟩

instance originRank_trans : IsTrans IngestedArtifact fun first second =>
    originRank first.origin ≤ originRank second.origin := ⟨fun _ _ _ => Nat.le_trans⟩

theorem inReadingOrder_pairwise (artifacts : List IngestedArtifact) :
    (inReadingOrder artifacts).Pairwise fun first second =>
      originRank first.origin ≤ originRank second.origin :=
  List.pairwise_insertionSort _ _

theorem eventsRead_pairwise (artifacts : List IngestedArtifact) :
    (eventsRead artifacts).Pairwise fun first second =>
      originRank first.origin ≤ originRank second.origin := by
  unfold eventsRead
  refine List.pairwise_flatMap.mpr ⟨fun artifact _ => ?_, ?_⟩
  · refine List.Pairwise.imp_of_mem ?_ (List.pairwise_of_forall fun _ _ => trivial)
    intro first second hfirst hsecond _
    rw [(indexedEvent_value hfirst).2.1, (indexedEvent_value hsecond).2.1]
  · refine (inReadingOrder_pairwise artifacts).imp ?_
    intro first second hrank event hevent other hother
    rw [(indexedEvent_value hevent).2.1, (indexedEvent_value hother).2.1]
    exact hrank

/-! ## Further artifacts -/

/-- The second input is the first with further artifacts, all of them at new paths: execution-scope
ones, and supplementary ones at paths that the subject does not expect, anywhere in the lists. -/
structure AddsArtifacts (added : String → Bool) (input more : IngestionInput) : Prop where
  expected : more.expected = input.expected
  indexedDigests : more.indexedDigests = input.indexedDigests
  artifacts : more.artifacts.filter (fun raw => !added raw.path) = input.artifacts
  executionScope : more.executionScopeArtifacts.filter (fun raw => !added raw.path) =
    input.executionScopeArtifacts
  unexpected : ∀ raw ∈ more.artifacts, added raw.path = true →
    ∀ entry ∈ input.expected, entry.path ≠ raw.path

theorem find?_filter_of_imp {α : Type} {items : List α} {keep found : α → Bool}
    (h : ∀ item ∈ items, found item = true → keep item = true) :
    (items.filter keep).find? found = items.find? found := by
  rw [List.find?_filter]
  refine List.find?_congr fun item hmem => ?_
  cases hfound : found item with
  | true => simp [h item hmem hfound]
  | false => simp

section Reading

variable {added : String → Bool} {expected : List ExpectedArtifact}

theorem acceptPath_filter {raw : RawArtifact} (hkept : added raw.path = false)
    (seen : List ParsedArtifact) :
    acceptPath raw (seen.filter fun artifact => !added artifact.path) = acceptPath raw seen := by
  have hfind : ((seen.filter fun artifact => !added artifact.path).find? fun artifact =>
      decide (artifact.path = raw.path)) =
        seen.find? fun artifact => decide (artifact.path = raw.path) := by
    refine find?_filter_of_imp fun artifact _ hpath => ?_
    rw [of_decide_eq_true hpath, hkept]
    rfl
  unfold acceptPath
  rw [hfind]

theorem parseArtifact_origin (raw : RawArtifact) (origin : ArtifactOrigin)
    (declared : Option ExpectedArtifact) :
    (parseArtifact raw origin declared).1.path = raw.path ∧
      (parseArtifact raw origin declared).1.origin = origin := by
  unfold parseArtifact
  dsimp only
  split <;> exact ⟨rfl, rfl⟩

theorem readArtifact_filter {reading other : ArtifactReading} (source : RawArtifact × Bool)
    (h : reading.artifacts.filter (fun artifact => !added artifact.path) = other.artifacts) :
    (readArtifact expected reading source).artifacts.filter (fun artifact => !added artifact.path) =
      if added source.1.path then other.artifacts
      else (readArtifact expected other source).artifacts := by
  unfold readArtifact
  by_cases hadded : added source.1.path = true
  · rw [if_pos hadded]
    split
    · exact h
    · have hpath := (parseArtifact_origin source.1 (originOf expected source.1.path source.2)
        (expectedByPath expected source.1.path)).1
      rw [List.filter_append, h]
      simp [hpath, hadded]
  · have hkept : added source.1.path = false := Bool.eq_false_of_not_eq_true hadded
    have haccept := acceptPath_filter hkept reading.artifacts
    rw [if_neg hadded, ← h, haccept]
    split
    · rfl
    · have hpath := (parseArtifact_origin source.1 (originOf expected source.1.path source.2)
        (expectedByPath expected source.1.path)).1
      rw [List.filter_append]
      simp [hpath, hkept]

theorem foldl_readArtifact_filter (sources : List (RawArtifact × Bool)) :
    ∀ {reading other : ArtifactReading},
      reading.artifacts.filter (fun artifact => !added artifact.path) = other.artifacts →
      (sources.foldl (readArtifact expected) reading).artifacts.filter
          (fun artifact => !added artifact.path) =
        ((sources.filter fun source => !added source.1.path).foldl (readArtifact expected)
          other).artifacts := by
  induction sources with
  | nil => exact id
  | cons source rest ih =>
    intro reading other h
    have hstep : (readArtifact expected reading source).artifacts.filter _ = _ :=
      readArtifact_filter source h
    rw [List.foldl_cons, List.filter_cons]
    by_cases hadded : added source.1.path = true
    · rw [if_pos hadded] at hstep
      rw [hadded, Bool.not_true, if_neg Bool.false_ne_true]
      exact ih hstep
    · rw [if_neg hadded] at hstep
      rw [Bool.eq_false_of_not_eq_true hadded, Bool.not_false, if_pos rfl, List.foldl_cons]
      exact ih hstep

/-- What was read comes from one of the sources, with the origin that source gives it. -/
theorem foldl_readArtifact_origin (sources : List (RawArtifact × Bool)) :
    ∀ {reading : ArtifactReading}, ∀ artifact ∈ (sources.foldl (readArtifact expected)
        reading).artifacts, artifact ∈ reading.artifacts ∨
      ∃ source ∈ sources, artifact.path = source.1.path ∧
        artifact.origin = originOf expected source.1.path source.2 := by
  induction sources with
  | nil => exact fun artifact hmem => .inl hmem
  | cons source rest ih =>
    intro reading artifact hmem
    rcases ih artifact hmem with hread | ⟨other, hother, hpath, horigin⟩
    · unfold readArtifact at hread
      split at hread
      · exact .inl hread
      · refine (List.mem_append.mp hread).imp id fun hparsed => ?_
        rw [List.mem_singleton.mp hparsed]
        exact ⟨source, List.mem_cons_self, parseArtifact_origin source.1
          (originOf expected source.1.path source.2) (expectedByPath expected source.1.path)⟩
    · exact .inr ⟨other, List.mem_cons_of_mem _ hother, hpath, horigin⟩

theorem originOf_ne_subject {path : String} (hnone : ∀ entry ∈ expected, entry.path ≠ path) :
    originOf expected path false ≠ .subject := by
  have hfind : expectedByPath expected path = none := by
    unfold expectedByPath
    rw [List.getLast?_eq_none_iff, List.filter_eq_nil_iff]
    intro entry hmem hpath
    exact hnone entry hmem (of_decide_eq_true hpath)
  unfold originOf
  rw [hfind]
  decide

end Reading

section Adding

variable {added : String → Bool} {input more : IngestionInput} (validator : RecordValidator)

theorem AddsArtifacts.readingOrder (h : AddsArtifacts added input more) :
    (Ingestion.readingOrder more).filter (fun source => !added source.1.path) =
      Ingestion.readingOrder input := by
  unfold Ingestion.readingOrder
  rw [List.filter_append, List.filter_map, List.filter_map, ← h.artifacts, ← h.executionScope]
  rfl

theorem AddsArtifacts.readArtifacts (h : AddsArtifacts added input more) :
    (Ingestion.readArtifacts more).artifacts.filter (fun artifact => !added artifact.path) =
      (Ingestion.readArtifacts input).artifacts := by
  unfold Ingestion.readArtifacts
  dsimp only
  rw [h.expected, ← h.readingOrder]
  exact foldl_readArtifact_filter _ rfl

theorem AddsArtifacts.parsed_origin (h : AddsArtifacts added input more) {artifact : ParsedArtifact}
    (hmem : artifact ∈ (Ingestion.readArtifacts more).artifacts)
    (hadded : added artifact.path = true) : artifact.origin ≠ .subject := by
  rcases foldl_readArtifact_origin (Ingestion.readingOrder more) artifact hmem with
    hnone | ⟨source, hsource, hpath, horigin⟩
  · exact absurd hnone List.not_mem_nil
  · rw [horigin]
    rw [hpath] at hadded
    rcases List.mem_append.mp hsource with hplain | hscope
    · obtain ⟨raw, hraw, rfl⟩ := List.mem_map.mp hplain
      apply originOf_ne_subject
      rw [h.expected]
      exact h.unexpected raw hraw hadded
    · obtain ⟨raw, -, rfl⟩ := List.mem_map.mp hscope
      exact ArtifactOrigin.noConfusion

theorem AddsArtifacts.inputScope (h : AddsArtifacts added input more) :
    Ingestion.inputScope validator more = Ingestion.inputScope validator input := by
  have hmanifest : ∀ artifactClass,
      validManifest validator (Ingestion.readArtifacts more).artifacts artifactClass =
        validManifest validator (Ingestion.readArtifacts input).artifacts artifactClass := by
    intro artifactClass
    have hfind : ((Ingestion.readArtifacts more).artifacts.find? fun candidate =>
        decide (candidate.origin = .subject ∧ candidate.artifactClass = some artifactClass)) =
        (Ingestion.readArtifacts input).artifacts.find? fun candidate =>
          decide (candidate.origin = .subject ∧ candidate.artifactClass = some artifactClass) := by
      rw [← h.readArtifacts]
      refine (find?_filter_of_imp fun candidate hmem hsubject => ?_).symm
      rw [Bool.not_eq_true']
      apply Bool.eq_false_of_not_eq_true
      intro hadded
      exact h.parsed_origin hmem hadded (of_decide_eq_true hsubject).1
    unfold validManifest
    rw [hfind]
  unfold Ingestion.inputScope resolveScope
  rw [hmanifest, hmanifest, h.expected, h.indexedDigests]

theorem AddsArtifacts.inputArtifacts (h : AddsArtifacts added input more) :
    (Ingestion.inputArtifacts validator more).filter (fun artifact => !added artifact.path) =
      Ingestion.inputArtifacts validator input := by
  unfold Ingestion.inputArtifacts
  rw [List.filter_map, h.inputScope, ← h.readArtifacts]
  rfl

theorem AddsArtifacts.artifact_origin (h : AddsArtifacts added input more)
    (hmem : artifact ∈ Ingestion.inputArtifacts validator more)
    (hadded : added artifact.path = true) : artifact.origin ≠ .subject := by
  obtain ⟨parsed, hparsed, rfl⟩ := List.mem_map.mp hmem
  exact h.parsed_origin hparsed hadded

theorem filter_flatMap_of {α β : Type} {items : List α} {give : α → List β} {keep : α → Bool}
    {kept : β → Bool} (h : ∀ item ∈ items, ∀ thing ∈ give item, kept thing = keep item) :
    (items.flatMap give).filter kept = (items.filter keep).flatMap give := by
  induction items with
  | nil => rfl
  | cons item rest ih =>
    have hrest := ih fun other hmem => h other (List.mem_cons_of_mem _ hmem)
    rw [List.flatMap_cons, List.filter_append, hrest, List.filter_cons]
    cases hkeep : keep item with
    | true =>
      rw [if_pos rfl, List.flatMap_cons, List.filter_eq_self.mpr]
      intro thing hthing
      rw [h item List.mem_cons_self thing hthing, hkeep]
    | false =>
      rw [if_neg Bool.false_ne_true, List.filter_eq_nil_iff.mpr, List.nil_append]
      intro thing hthing
      rw [h item List.mem_cons_self thing hthing, hkeep]
      exact Bool.false_ne_true

theorem AddsArtifacts.eventsRead (h : AddsArtifacts added input more) :
    (Ingestion.eventsRead (Ingestion.inputArtifacts validator more)).filter
        (fun event => !added event.artifactPath) =
      Ingestion.eventsRead (Ingestion.inputArtifacts validator input) := by
  have hpaths : ∀ artifact ∈ inReadingOrder (Ingestion.inputArtifacts validator more),
      ∀ event ∈ artifactEvents artifact,
        (!added event.artifactPath) = (fun artifact => !added artifact.path) artifact := by
    intro artifact _ event hevent
    rw [(indexedEvent_value hevent).1]
  unfold Ingestion.eventsRead
  rw [filter_flatMap_of hpaths, inReadingOrder, filter_insertionSort, h.inputArtifacts]
  rfl

theorem AddsArtifacts.event_origin (h : AddsArtifacts added input more)
    (hmem : event ∈ Ingestion.eventsRead (Ingestion.inputArtifacts validator more))
    (hadded : added event.artifactPath = true) : event.origin ≠ .subject := by
  obtain ⟨artifact, hartifact, hevent⟩ := mem_eventsRead.mp hmem
  obtain ⟨hpath, horigin, -⟩ := indexedEvent_value hevent
  rw [horigin]
  rw [hpath] at hadded
  exact h.artifact_origin validator hartifact hadded

/-- No added artifact holds a copy, with other content, of an event that is read from an artifact
given before which is not the subject's. -/
def KeepsCopies (added : String → Bool) (input more : IngestionInput) : Prop :=
  ∀ event ∈ Ingestion.eventsRead (Ingestion.inputArtifacts validator more),
    added event.artifactPath = true →
    ∀ other ∈ Ingestion.eventsRead (Ingestion.inputArtifacts validator input),
      other.origin ≠ .subject → other.record.eventId = event.record.eventId →
      other.value = event.value

/-- Two copies of an event that occurrences cannot tell apart, but for the reference. -/
structure Stands (event copy : IndexedEvent) : Prop where
  record : copy.record = event.record
  partition : copy.partition = event.partition
  subject : copy.origin = .subject ↔ event.origin = .subject

theorem AddsArtifacts.stands (h : AddsArtifacts added input more)
    (hcopies : KeepsCopies validator added input more) {kept : IndexedEvent}
    (hkept : (Ingestion.eventsRead (Ingestion.inputArtifacts validator input)).find?
      (fun event => decide (event.record.eventId = kept.record.eventId)) = some kept) :
    ∃ copy, (Ingestion.eventsRead (Ingestion.inputArtifacts validator more)).find?
        (fun event => decide (event.record.eventId = copy.record.eventId)) = some copy ∧
      Stands kept copy := by
  have hevents := h.eventsRead validator
  have hin : kept ∈ Ingestion.eventsRead (Ingestion.inputArtifacts validator input) :=
    List.mem_of_find?_eq_some hkept
  have hsorted := eventsRead_pairwise (Ingestion.inputArtifacts validator more)
  have hmore : kept ∈ Ingestion.eventsRead (Ingestion.inputArtifacts validator more) := by
    rw [← hevents] at hin
    exact (List.mem_filter.mp hin).1
  -- the first copy in reading order
  obtain ⟨copy, hcopy⟩ : ∃ copy,
      (Ingestion.eventsRead (Ingestion.inputArtifacts validator more)).find?
        (fun event => decide (event.record.eventId = kept.record.eventId)) = some copy := by
    refine Option.isSome_iff_exists.mp (List.find?_isSome.mpr ⟨kept, hmore, ?_⟩)
    exact decide_eq_true rfl
  obtain ⟨hmatch, before, after, hsplit, hbefore⟩ := List.find?_eq_some_iff_append.mp hcopy
  have hid : copy.record.eventId = kept.record.eventId := of_decide_eq_true hmatch
  refine ⟨copy, by rw [hid]; exact hcopy, ?_⟩
  have hcopyIn : copy ∈ Ingestion.eventsRead (Ingestion.inputArtifacts validator more) :=
    List.mem_of_find?_eq_some hcopy
  by_cases hadded : added copy.artifactPath = true
  · -- an added copy comes first, so no copy is the subject's
    have hcopyOrigin := h.event_origin validator hcopyIn hadded
    have hrank : originRank copy.origin ≤ originRank kept.origin := by
      rw [hsplit] at hmore hsorted
      rcases List.mem_append.mp hmore with hearly | hlate
      · have hother := hbefore kept hearly
        simp at hother
      · rcases List.mem_cons.mp hlate with rfl | hlate
        · exact Nat.le_refl _
        · exact (List.pairwise_cons.mp (List.pairwise_append.mp hsorted).2.1).1 kept hlate
    have hkeptOrigin : kept.origin ≠ .subject := by
      intro hsubject
      rw [hsubject] at hrank
      cases horigin : copy.origin with
      | subject => exact hcopyOrigin horigin
      | supplementary =>
        rw [horigin] at hrank
        cases hrank
      | executionScope =>
        rw [horigin] at hrank
        cases hrank
    have hvalue := hcopies copy hcopyIn hadded kept hin hkeptOrigin hid.symm
    obtain ⟨artifact, -, hkeptEvent⟩ := mem_eventsRead.mp hin
    obtain ⟨artifact', -, hcopyEvent⟩ := mem_eventsRead.mp hcopyIn
    obtain ⟨-, -, hkeptRecord, hkeptPartition⟩ := indexedEvent_value hkeptEvent
    obtain ⟨-, -, hcopyRecord, hcopyPartition⟩ := indexedEvent_value hcopyEvent
    refine ⟨?_, ?_, ?_⟩
    · rw [← hvalue, hkeptRecord] at hcopyRecord
      exact (Option.some.inj hcopyRecord).symm
    · rw [hcopyPartition, hkeptPartition, hvalue]
    · exact ⟨fun hsubject => absurd hsubject hcopyOrigin, fun hsubject => absurd hsubject hkeptOrigin⟩
  · -- the first copy was there before, and was the first then
    have hfirst : (Ingestion.eventsRead (Ingestion.inputArtifacts validator input)).find?
        (fun event => decide (event.record.eventId = kept.record.eventId)) = some copy := by
      rw [← hevents, hsplit, List.filter_append, List.find?_append]
      have hnone : (before.filter fun event => !added event.artifactPath).find?
          (fun event => decide (event.record.eventId = kept.record.eventId)) = none := by
        refine List.find?_eq_none.mpr fun event hmem => ?_
        have hother := hbefore event (List.mem_filter.mp hmem).1
        simpa using hother
      rw [hnone, List.filter_cons, Bool.eq_false_of_not_eq_true hadded]
      simp [hid]
    rw [hkept] at hfirst
    obtain rfl := Option.some.inj hfirst
    exact ⟨rfl, rfl, Iff.rfl⟩

theorem Stands.occurrences {event copy : IndexedEvent} (h : Stands event copy)
    (hmem : occurrence ∈ eventOccurrences event) :
    { occurrence with ref := eventRef copy } ∈ eventOccurrences copy := by
  have hone : ∀ creates kind, eventOccurrence event creates kind = some occurrence →
      eventOccurrence copy creates kind = some { occurrence with ref := eventRef copy } := by
    intro creates kind hsome
    obtain ⟨id, hid, rfl⟩ := Option.map_eq_some_iff.mp hsome
    unfold eventOccurrence
    rw [h.record, hid, h.partition, decide_eq_decide.mpr h.subject]
    rfl
  have hcreates : createsIdentities copy = createsIdentities event := by
    unfold createsIdentities
    rw [h.record, h.partition]
  unfold eventOccurrences at hmem ⊢
  rw [hcreates, h.record]
  rcases List.mem_append.mp hmem with horigin | happearance
  · obtain ⟨kind, hkind, hsome⟩ := List.mem_filterMap.mp horigin
    exact List.mem_append_left _ (List.mem_filterMap.mpr ⟨kind, hkind, hone true kind hsome⟩)
  · obtain ⟨kind, hkind, hsome⟩ := List.mem_filterMap.mp happearance
    exact List.mem_append_right _ (List.mem_filterMap.mpr ⟨kind, hkind, hone false kind hsome⟩)

theorem AddsArtifacts.occurrences (h : AddsArtifacts added input more)
    (hcopies : KeepsCopies validator added input more)
    (hmem : occurrence ∈ identityOccurrences (inputCollapse validator input).byId.values
      (Ingestion.inputArtifacts validator input)) :
    ∃ ref, { occurrence with ref := ref } ∈ identityOccurrences
      (inputCollapse validator more).byId.values (Ingestion.inputArtifacts validator more) := by
  rcases List.mem_append.mp hmem with hevent | hledger
  · obtain ⟨kept, hkept, hin⟩ := mem_indexedOccurrences.mp hevent
    obtain ⟨copy, hcopy, hstands⟩ := h.stands validator hcopies hkept
    exact ⟨eventRef copy, List.mem_append_left _
      (mem_indexedOccurrences.mpr ⟨copy, hcopy, hstands.occurrences hin⟩)⟩
  · obtain ⟨artifact, hartifact, hin⟩ := List.mem_flatMap.mp hledger
    rw [← h.inputArtifacts validator] at hartifact
    exact ⟨occurrence.ref, List.mem_append_right _
      (List.mem_flatMap.mpr ⟨artifact, (List.mem_filter.mp hartifact).1, hin⟩)⟩

theorem AddsArtifacts.reports (h : AddsArtifacts added input more)
    (hcopies : KeepsCopies validator added input more) {kind : IdentityKind} {id : Uuid4}
    (hreports : (ingestEvidence validator input).identities.Reports kind id) :
    (ingestEvidence validator more).identities.Reports kind id := by
  refine reports_iff_collides.mpr ?_
  exact (reports_iff_collides.mp hreports).transfer fun _ => h.occurrences validator hcopies

theorem causesValue_invalid {causes : List GateCause} :
    causesValue causes = .invalid ↔ ∃ cause ∈ causes, cause.value = .invalid := by
  unfold causesValue
  constructor
  · intro h
    split at h
    · rename_i hany
      obtain ⟨cause, hmem, hvalue⟩ := List.any_eq_true.mp hany
      exact ⟨cause, hmem, of_decide_eq_true hvalue⟩
    · split at h <;> cases h
  · intro h
    obtain ⟨cause, hmem, hvalue⟩ := h
    rw [if_pos (List.any_eq_true.mpr ⟨cause, hmem, decide_eq_true hvalue⟩)]

theorem callerJournalCauses_unverified {evidence : IngestedEvidence} {cause : GateCause}
    (hmem : cause ∈ callerJournalCauses evidence) : cause.value = .unverified := by
  unfold callerJournalCauses at hmem
  split at hmem
  · cases hmem
  · split at hmem
    · rw [List.mem_singleton.mp hmem]
    · obtain ⟨finding, -, rfl⟩ := List.mem_map.mp hmem
      rfl

theorem scopeCause_unverified {cause : GateCause}
    (h : scopeCause artifact = some cause) : cause.value = .unverified := by
  unfold scopeCause at h
  split at h
  · cases h
  · rw [← Option.some.inj h]

theorem identityIntegrity_invalid (evidence : IngestedEvidence) :
    (assessIdentityIntegrity evidence).value = .invalid ↔
      ∃ collision, collision ∈ evidence.identities.callerCollisions := by
  unfold assessIdentityIntegrity
  rw [assembleGate_value, causesValue_invalid]
  constructor
  · intro h
    obtain ⟨cause, hmem, hvalue⟩ := h
    rw [List.mem_append, List.mem_append, List.mem_append] at hmem
    rcases hmem with ((hreuse | hunregistered) | hjournal) | hscope
    · obtain ⟨collision, hcollision, -⟩ := List.mem_map.mp hreuse
      exact ⟨collision, hcollision⟩
    · obtain ⟨attempt, -, rfl⟩ := List.mem_map.mp hunregistered
      cases hvalue
    · rw [callerJournalCauses_unverified hjournal] at hvalue
      cases hvalue
    · obtain ⟨artifact, -, hcause⟩ := List.mem_filterMap.mp hscope
      rw [scopeCause_unverified hcause] at hvalue
      cases hvalue
  · intro h
    obtain ⟨collision, hcollision⟩ := h
    have hreuse : _ ∈ reuseCauses evidence := List.mem_map_of_mem hcollision
    exact ⟨_, List.mem_append_left _ (List.mem_append_left _ (List.mem_append_left _ hreuse)), rfl⟩

theorem AddsArtifacts.gate (h : AddsArtifacts added input more)
    (hcopies : KeepsCopies validator added input more)
    (hinvalid : (assessIdentityIntegrity (ingestEvidence validator input)).value = .invalid) :
    (assessIdentityIntegrity (ingestEvidence validator more)).value = .invalid := by
  obtain ⟨collision, hmem⟩ := (identityIntegrity_invalid _).mp hinvalid
  have hkind := (mem_callerCollisions.mp hmem).2
  obtain ⟨other, hother, hsameKind, -⟩ :=
    h.reports validator hcopies ⟨collision, List.mem_append_left _ hmem, rfl, rfl⟩
  refine (identityIntegrity_invalid _).mpr ⟨other, ?_⟩
  rcases List.mem_append.mp hother with hcaller | hprovider
  · exact hcaller
  · have hnot := (mem_providerCollisions.mp hprovider).2
    rw [hsameKind] at hnot
    exact absurd hkind hnot

end Adding

/-- Further artifacts at new paths leave the scope, the subject's artifacts, the ledger view and the
observations what they were. -/
theorem further_artifacts_keep_subject {added : String → Bool} {input more : IngestionInput}
    (validator : RecordValidator) (h : AddsArtifacts added input more) :
    (ingestEvidence validator more).scope = (ingestEvidence validator input).scope ∧
    (∀ artifactClass, subjectArtifact (ingestEvidence validator more).artifacts artifactClass =
      subjectArtifact (ingestEvidence validator input).artifacts artifactClass) ∧
    (ingestEvidence validator more).ledger = (ingestEvidence validator input).ledger ∧
    (ingestEvidence validator more).observations =
      (ingestEvidence validator input).observations := by
  have hsubject : ∀ artifactClass, subjectArtifact (inputArtifacts validator more) artifactClass =
      subjectArtifact (inputArtifacts validator input) artifactClass := by
    intro artifactClass
    rw [← h.inputArtifacts validator]
    refine (find?_filter_of_imp fun artifact hmem hfound => ?_).symm
    rw [Bool.not_eq_true']
    apply Bool.eq_false_of_not_eq_true
    intro hadded
    exact h.artifact_origin validator hmem hadded (of_decide_eq_true hfound).1
  refine ⟨h.inputScope validator, hsubject, ?_, ?_⟩
  · simp only [ingestEvidence, ledgerView, soleRecord, hsubject]
  · simp only [ingestEvidence, observationView, soleRecord, streamRecords, hsubject]

/-- The registry reports a collision of an identity exactly when one of its occurrences is in a
record of the subject and two of its occurrences disagree, among the caller's collisions exactly
when the identity is the caller's.  The order of the events and the artifacts orders the report and
nothing else.  And further execution-scope or supplementary artifacts at new paths neither remove a
collision nor make an invalid identity gate anything else, where no added artifact holds a copy
with other content of an event that another artifact than the subject's gave before. -/
theorem identity_registry_exact (events : List IndexedEvent) (artifacts : List IngestedArtifact)
    (validator : RecordValidator) (input : IngestionInput) :
    (∀ kind id,
      ((buildIdentityRegistry events artifacts).Reports kind id ↔
        Collides (identityOccurrences events artifacts) kind id) ∧
      ((∃ collision ∈ (buildIdentityRegistry events artifacts).callerCollisions,
          collision.kind = kind ∧ collision.id = id) ↔
        Collides (identityOccurrences events artifacts) kind id ∧ kind ∈ callerKinds)) ∧
    (∀ events' artifacts', events.Perm events' → artifacts.Perm artifacts' →
      SameRegistry (buildIdentityRegistry events artifacts)
        (buildIdentityRegistry events' artifacts')) ∧
    ∀ added more, AddsArtifacts added input more → KeepsCopies validator added input more →
      (∀ kind id, (ingestEvidence validator input).identities.Reports kind id →
        (ingestEvidence validator more).identities.Reports kind id) ∧
      ((assessIdentityIntegrity (ingestEvidence validator input)).value = .invalid →
        (assessIdentityIntegrity (ingestEvidence validator more)).value = .invalid) := by
  refine ⟨fun kind id => ⟨reports_iff_collides, ?_⟩, ?_, ?_⟩
  · constructor
    · intro h
      obtain ⟨collision, hmem, rfl, rfl⟩ := h
      obtain ⟨hin, hkind⟩ := mem_callerCollisions.mp hmem
      exact ⟨(mem_registryCollisions.mp hin).1, hkind⟩
    · intro h
      refine ⟨collisionOf events artifacts (kind, id), mem_callerCollisions.mpr ⟨?_, h.2⟩, rfl, rfl⟩
      exact mem_registryCollisions.mpr ⟨h.1, rfl⟩
  · intro events' artifacts' hevents hartifacts
    exact buildIdentityRegistry_perm hevents hartifacts
  · intro added more hadds hcopies
    exact ⟨fun kind id => hadds.reports validator hcopies, hadds.gate validator hcopies⟩

/-! ## A copy that hides a reused attempt -/

def registeredAttempt (eventId attemptId : Uuid4) (trial : String) : RecordValue where
  correlation :=
    { runId := .text "run"
      executionManifestSha256 := .text "execution-manifest"
      trialId := .text trial
      trialManifestSha256 := .text "trial-manifest" }
  body := .event
    { eventId := eventId
      occurredAt := 0
      source := .conventionalCaller
      sourceInstanceId := eventId
      sourceSequence := 1
      causationEventIds := []
      body := .attemptRegistered ⟨attemptId, attemptId, "refund"⟩ }

def oneLine (path : String) (value : RecordValue) : RawArtifact :=
  ⟨path, ⟨path, .error "not one document", [(1, .ok value)]⟩⟩

def lenientValidator : RecordValidator := ⟨fun _ => []⟩

def ownJournal : RawArtifact := oneLine "trials/2/caller-journal.jsonl" (registeredAttempt 1 7 "second")

def reusedAttempt (supplementary : List RawArtifact) : IngestionInput where
  artifacts := supplementary ++ [ownJournal]
  expected := [⟨"trials/2/caller-journal.jsonl", .callerJournal, .required⟩]
  executionScopeArtifacts := [oneLine "trials/1/caller-journal.jsonl" (registeredAttempt 2 7 "first")]

def strayCopy : RawArtifact := oneLine "stray.jsonl" (registeredAttempt 2 8 "first")

def otherFile : RawArtifact := oneLine "trials/1/caller-journal.jsonl" (registeredAttempt 3 9 "first")

structure GivesFurther (input more : IngestionInput) : Prop where
  expected : more.expected = input.expected
  indexedDigests : more.indexedDigests = input.indexedDigests
  artifacts : input.artifacts.Sublist more.artifacts
  executionScope : input.executionScopeArtifacts.Sublist more.executionScopeArtifacts
  unexpected : ∀ raw ∈ more.artifacts, raw ∈ input.artifacts ∨
    ∀ entry ∈ input.expected, entry.path ≠ raw.path

theorem reusedAttempt_further {raw : RawArtifact} (hpath : "trials/2/caller-journal.jsonl" ≠ raw.path) :
    GivesFurther (reusedAttempt []) (reusedAttempt [raw]) where
  expected := rfl
  indexedDigests := rfl
  artifacts := List.sublist_cons_self _ _
  executionScope := List.Sublist.refl _
  unexpected := by
    intro other hmem
    rcases List.mem_cons.mp hmem with rfl | hmem
    · right
      intro entry hentry
      rw [List.mem_singleton.mp hentry]
      exact hpath
    · exact .inl hmem

def reportedKeys (supplementary : List RawArtifact) : List (IdentityKind × Uuid4) :=
  let registry :=
    (ingestEvidence lenientValidator (reusedAttempt supplementary)).identities
  (registry.callerCollisions ++ registry.providerCollisions).map IdentityCollision.key

def reusedEvents : List IndexedEvent :=
  eventsRead (inputArtifacts lenientValidator (reusedAttempt []))

def reuseGate (supplementary : List RawArtifact) : GateValue :=
  (assessIdentityIntegrity (ingestEvidence lenientValidator (reusedAttempt supplementary))).value

theorem reports_iff_key {supplementary : List RawArtifact} {kind : IdentityKind} {id : Uuid4} :
    (ingestEvidence lenientValidator (reusedAttempt supplementary)).identities.Reports kind id ↔
      (kind, id) ∈ reportedKeys supplementary := by
  unfold IdentityRegistry.Reports reportedKeys IdentityCollision.key
  rw [List.mem_map]
  simp only [Prod.mk.injEq]

theorem further_artifact_hides_reuse :
    ((ingestEvidence lenientValidator (reusedAttempt [])).identities.Reports .attemptId 7 ∧
      reuseGate [] = .invalid) ∧
    ∀ raw ∈ [strayCopy, otherFile], GivesFurther (reusedAttempt []) (reusedAttempt [raw]) ∧
      ¬ (ingestEvidence lenientValidator (reusedAttempt [raw])).identities.Reports .attemptId 7 ∧
      reuseGate [raw] = .verified := by
  refine ⟨⟨reports_iff_key.mpr (by decide +kernel), by decide +kernel⟩, fun raw hmem => ?_⟩
  rw [reports_iff_key]
  rcases List.mem_cons.mp hmem with rfl | hmem
  · exact ⟨reusedAttempt_further (by decide), by decide +kernel, by decide +kernel⟩
  · rw [List.mem_singleton.mp hmem]
    exact ⟨reusedAttempt_further (by decide), by decide +kernel, by decide +kernel⟩

theorem later_journal_keeps_reuse :
    ∃ later, AddsArtifacts (· == "trials/3/caller-journal.jsonl") (reusedAttempt [])
        (reusedAttempt [later]) ∧
      KeepsCopies lenientValidator (· == "trials/3/caller-journal.jsonl") (reusedAttempt [])
        (reusedAttempt [later]) ∧
      (ingestEvidence lenientValidator (reusedAttempt [later])).identities.Reports .attemptId 7 ∧
      reuseGate [later] = .invalid ∧
      SameRegistry (buildIdentityRegistry reusedEvents []) (buildIdentityRegistry
        reusedEvents.reverse []) := by
  have hadds : AddsArtifacts (· == "trials/3/caller-journal.jsonl") (reusedAttempt [])
      (reusedAttempt [oneLine "trials/3/caller-journal.jsonl" (registeredAttempt 4 10 "third")]) :=
    ⟨rfl, rfl, by simp [reusedAttempt, ownJournal, oneLine], by simp [reusedAttempt, oneLine],
      by decide +kernel⟩
  have hcopies : KeepsCopies lenientValidator (· == "trials/3/caller-journal.jsonl")
      (reusedAttempt [])
      (reusedAttempt [oneLine "trials/3/caller-journal.jsonl" (registeredAttempt 4 10 "third")]) := by
    unfold KeepsCopies
    decide +kernel
  obtain ⟨-, horder, hmore⟩ :=
    identity_registry_exact reusedEvents [] lenientValidator (reusedAttempt [])
  obtain ⟨hreports, hgate⟩ := hmore _ _ hadds hcopies
  refine ⟨_, hadds, hcopies, hreports _ _ (reports_iff_key.mpr (by decide +kernel)),
    hgate (by decide +kernel), horder _ [] (List.reverse_perm _).symm .nil⟩

theorem stray_copy_keeps_subject :
    (ingestEvidence lenientValidator (reusedAttempt [strayCopy])).observations =
      (ingestEvidence lenientValidator (reusedAttempt [])).observations := by
  have hadds : AddsArtifacts (· == "stray.jsonl") (reusedAttempt []) (reusedAttempt [strayCopy]) :=
    ⟨rfl, rfl, rfl, rfl, by decide +kernel⟩
  exact (further_artifacts_keep_subject lenientValidator hadds).2.2.2

end RefundStudy.Ingestion
