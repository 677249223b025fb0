/-
  The density check is exact (`evidence-ingestion/sequence-density.ts`).
-/
import RefundStudy.Foundation.Grouping
import RefundStudy.Ingestion.SequenceDensity
import Mathlib.Data.Finset.Lattice.Fold
import Mathlib.Order.Interval.Finset.Nat
import Mathlib.Order.Lattice.Nat

set_option autoImplicit false

namespace RefundStudy.Ingestion

open Foundation Record Package Journal
open InsertionMap (grouped valuesAt get?_grouped mem_grouped nodup_keys_grouped mem_keys_grouped
  valuesAt_perm)

/-! ## The sets a report is about -/

/-- The events the check judges: earlier trials are context. -/
def judgedEvents (events : List SequencedEvent) : List SequencedEvent :=
  events.filter fun event => decide (event.origin ≠ .executionScope)

section Sets

variable (key : String) (events : List SequencedEvent)

def instanceEvents : List SequencedEvent :=
  (judgedEvents events).filter fun event => decide (instanceKey event = key)

def seenSequences : Finset Nat :=
  ((instanceEvents key events).map SequencedEvent.sourceSequence).toFinset

/-- The highest of them; zero for an instance without events. -/
def highestSequence : Nat := (seenSequences key events).sup id

/-- The sequences up to the highest that no event carries. -/
def missingSequences : Finset Nat :=
  Finset.Icc 1 (highestSequence key events) \ seenSequences key events

def eventIdsAt (sequence : Nat) : List Uuid4 :=
  valuesAt SequencedEvent.sourceSequence SequencedEvent.eventId (instanceEvents key events)
    sequence

/-- The sequences of two or more entries; an event that is listed twice counts twice. -/
def repeatedSequences : Finset Nat :=
  (seenSequences key events).filter fun sequence =>
    1 < (eventIdsAt key events sequence).length

/-- The sequences that two or more different events carry. -/
def conflictingSequences : Finset Nat :=
  (seenSequences key events).filter fun sequence =>
    1 < (eventIdsAt key events sequence).toFinset.card

end Sets

/-! ## The groups of the loop -/

theorem groupedInstances_get? (events : List SequencedEvent) (key : String) :
    (groupedInstances events).get? key =
      (instanceEvents key events).head?.map fun first =>
        ⟨first, grouped SequencedEvent.sourceSequence SequencedEvent.eventId
          (instanceEvents key events)⟩ := by
  unfold groupedInstances instanceEvents judgedEvents
  induction events.filter (fun event => decide (event.origin ≠ .executionScope))
    using List.reverseRecOn with
  | nil => rfl
  | append_singleton before event ih =>
    rw [List.foldl_append, List.foldl_cons, List.foldl_nil, List.filter_append]
    by_cases hkey : instanceKey event = key
    · subst hkey
      rw [addEvent, InsertionMap.get?_set_self, ih]
      simp only [List.filter_cons_of_pos, decide_true, List.filter_nil]
      rw [InsertionMap.grouped_concat]
      cases before.filter (fun other => decide (instanceKey other = instanceKey event)) with
      | nil => rfl
      | cons first rest => rfl
    · rw [addEvent, InsertionMap.get?_set_of_ne _ (Ne.symm hkey), ih,
        List.filter_cons_of_neg (by simpa using hkey), List.filter_nil, List.append_nil]

theorem groupedInstances_nodup (events : List SequencedEvent) :
    ((groupedInstances events).map Prod.fst).Nodup := by
  unfold groupedInstances
  induction events.filter (fun event => decide (event.origin ≠ .executionScope))
    using List.reverseRecOn with
  | nil => exact List.nodup_nil
  | append_singleton before event ih =>
    rw [List.foldl_append, List.foldl_cons, List.foldl_nil]
    exact InsertionMap.nodup_set ih _ _

/-! ## Sorted sequences -/

theorem foldl_max_eq_sup (sequences : List Nat) :
    sequences.foldl max 0 = sequences.toFinset.sup id := by
  have hfold : ∀ start, sequences.foldl max start = max start (sequences.toFinset.sup id) := by
    induction sequences with
    | nil =>
      intro start
      simp
    | cons first rest ih =>
      intro start
      rw [List.foldl_cons, ih, List.toFinset_cons, Finset.sup_insert, id]
      change max (max start first) _ = max start (max first _)
      omega
  rw [hfold]
  omega

theorem place_lt_of_increasing {sequences : List Nat} (hincreasing : sequences.Pairwise (· < ·))
    (hpositive : ∀ sequence ∈ sequences, 1 ≤ sequence) (place : Nat)
    (hplace : place < sequences.length) : place < sequences[place] := by
  induction place with
  | zero => exact hpositive _ (List.getElem_mem hplace)
  | succ place ih =>
    have hbefore := ih (by omega)
    have hless := List.pairwise_iff_getElem.mp hincreasing place (place + 1) (by omega) hplace
      (by omega)
    omega

theorem le_foldl_max {sequences : List Nat} {sequence : Nat} (hmem : sequence ∈ sequences) :
    sequence ≤ sequences.foldl max 0 := by
  rw [foldl_max_eq_sup]
  exact Finset.le_sup (f := id) (List.mem_toFinset.mpr hmem)

theorem place_of_lt_firstMissing {sequences : List Nat} {place : Nat}
    (hplace : place + 1 < firstMissing sequences) (hlength : place < sequences.length) :
    sequences[place] = place + 1 := by
  have hfound := List.not_of_lt_findIdx (Nat.lt_of_succ_lt_succ hplace)
  rw [List.getElem_zipIdx] at hfound
  simpa using hfound

theorem firstMissing_isLeast {sequences : List Nat} (hincreasing : sequences.Pairwise (· < ·))
    (hpositive : ∀ sequence ∈ sequences, 1 ≤ sequence)
    (hmissing : sequences.length < sequences.foldl max 0) :
    IsLeast (↑(Finset.Icc 1 (sequences.foldl max 0) \ sequences.toFinset) : Set Nat)
      (firstMissing sequences) := by
  have hwithin : firstMissing sequences - 1 < sequences.length := by
    by_contra hbeyond
    have hmax : sequences.foldl max 0 ≤ sequences.length := by
      rw [foldl_max_eq_sup]
      apply Finset.sup_le
      intro sequence hmem
      obtain ⟨place, hplace, rfl⟩ := List.getElem_of_mem (List.mem_toFinset.mp hmem)
      have hown := place_of_lt_firstMissing (by omega) hplace
      change sequences[place] ≤ sequences.length
      omega
    omega
  obtain ⟨place, hfirst⟩ : ∃ place, firstMissing sequences = place + 1 := ⟨_, rfl⟩
  rw [hfirst] at hwithin ⊢
  have hplace : place < sequences.length := by omega
  have hother : sequences[place] ≠ place + 1 := by
    have hindex : (sequences.zipIdx.findIdx fun entry => decide (entry.1 ≠ entry.2 + 1)) = place :=
      Nat.succ.inj hfirst
    have hlength : (sequences.zipIdx.findIdx fun entry => decide (entry.1 ≠ entry.2 + 1)) <
        sequences.zipIdx.length := by
      rw [hindex, List.length_zipIdx]
      exact hplace
    have hfound := @List.findIdx_getElem _ _ _ hlength
    simp only [hindex, List.getElem_zipIdx, Nat.zero_add, decide_eq_true_eq] at hfound
    exact hfound
  have habove := place_lt_of_increasing hincreasing hpositive place hplace
  constructor
  · rw [Finset.mem_coe, Finset.mem_sdiff, Finset.mem_Icc, List.mem_toFinset]
    have hle := le_foldl_max (List.getElem_mem hplace)
    refine ⟨⟨by omega, by omega⟩, ?_⟩
    intro hmem
    obtain ⟨index, hindex, hvalue⟩ := List.getElem_of_mem hmem
    rcases Nat.lt_trichotomy index place with hless | rfl | hless
    · have hown := place_of_lt_firstMissing (by omega) hindex
      omega
    · exact hother hvalue
    · have hgreater := List.pairwise_iff_getElem.mp hincreasing place index hplace hindex hless
      omega
  · intro sequence hsequence
    rw [Finset.mem_coe, Finset.mem_sdiff, Finset.mem_Icc, List.mem_toFinset] at hsequence
    obtain ⟨⟨hpos, -⟩, habsent⟩ := hsequence
    by_contra hless
    have hindex : sequence - 1 < sequences.length := by omega
    have hown : sequences[sequence - 1] = sequence - 1 + 1 :=
      place_of_lt_firstMissing (by omega) hindex
    apply habsent
    rw [show sequence = sequences[sequence - 1] by omega]
    exact List.getElem_mem hindex

/-! ## One instance -/

def gapFinding (key path : String) (highest missing first : Nat) : IngestionFinding :=
  ingestionFinding .sourceSequenceGap
    ("expected dense sequences 1.." ++ toString highest ++ "; " ++ key ++ " lacks " ++
      toString missing ++ ", first " ++ toString first)
    { artifactPath := some path, sourceInstanceKey := some key, occurrences := missing }

def sequenceConflictFinding (key path : String) (count sequence : Nat) (ids : List Uuid4) :
    IngestionFinding :=
  ingestionFinding .conflictingSourceSequence
    ("expected one event_id per sequence; " ++ key ++ " sequence " ++ toString sequence ++
      " has " ++ String.intercalate ", " (ids.map fun id => String.ofList (uuidText id)))
    { artifactPath := some path, sourceInstanceKey := some key, occurrences := count }

section Instance

variable {key : String} {events : List SequencedEvent} {first : SequencedEvent}

def sortedSequences (key : String) (events : List SequencedEvent) : List Nat :=
  ((grouped SequencedEvent.sourceSequence SequencedEvent.eventId
    (instanceEvents key events)).map Prod.fst).insertionSort (· ≤ ·)

theorem mem_sortedSequences {sequence : Nat} :
    sequence ∈ sortedSequences key events ↔ sequence ∈ seenSequences key events := by
  rw [sortedSequences, List.mem_insertionSort, mem_keys_grouped, seenSequences, List.mem_toFinset]

theorem toFinset_sortedSequences :
    (sortedSequences key events).toFinset = seenSequences key events := by
  ext sequence
  rw [List.mem_toFinset, mem_sortedSequences]

theorem nodup_sortedSequences : (sortedSequences key events).Nodup :=
  (List.perm_insertionSort _ _).nodup_iff.mpr (nodup_keys_grouped _ _ _)

theorem sortedSequences_increasing : (sortedSequences key events).Pairwise (· < ·) := by
  have hsorted : (sortedSequences key events).Pairwise (· ≤ ·) := List.pairwise_insertionSort _ _
  have hdistinct : (sortedSequences key events).Pairwise (· ≠ ·) := nodup_sortedSequences
  apply (hsorted.and hdistinct).imp
  intro sequence later hboth
  exact Nat.lt_of_le_of_ne hboth.1 hboth.2

theorem foldl_max_sortedSequences :
    (sortedSequences key events).foldl max 0 = highestSequence key events := by
  rw [foldl_max_eq_sup, toFinset_sortedSequences]
  rfl

theorem length_sortedSequences :
    (sortedSequences key events).length = (seenSequences key events).card := by
  rw [← toFinset_sortedSequences, List.toFinset_card_of_nodup nodup_sortedSequences]

theorem seenSequences_subset (hpositive : ∀ event ∈ events, 1 ≤ event.sourceSequence) :
    seenSequences key events ⊆ Finset.Icc 1 (highestSequence key events) := by
  intro sequence hseen
  rw [Finset.mem_Icc]
  constructor
  · obtain ⟨event, hevent, rfl⟩ := List.mem_map.mp (List.mem_toFinset.mp hseen)
    exact hpositive event (List.mem_of_mem_filter (List.mem_of_mem_filter hevent))
  · exact Finset.le_sup (f := id) hseen

theorem missing_card (hpositive : ∀ event ∈ events, 1 ≤ event.sourceSequence) :
    (highestSequence key events : Int) - (seenSequences key events).card =
      (missingSequences key events).card := by
  have hsubset : seenSequences key events ⊆ _ := seenSequences_subset hpositive
  have hcard := Finset.card_sdiff_add_card_eq_card hsubset
  rw [Nat.card_Icc] at hcard
  unfold missingSequences
  omega

theorem missing_pos (hpositive : ∀ event ∈ events, 1 ≤ event.sourceSequence) :
    0 < (missingSequences key events).card ↔
      seenSequences key events ≠ Finset.Icc 1 (highestSequence key events) := by
  have hsubset : seenSequences key events ⊆ _ := seenSequences_subset hpositive
  rw [Finset.card_pos, missingSequences, Finset.sdiff_nonempty]
  constructor
  · intro hnot hsame
    exact hnot hsame.ge
  · intro hne hsubset'
    exact hne (hsubset.antisymm hsubset')

/-- Where no event is listed twice, the repeated sequences are those in conflict. -/
theorem repeatedSequences_of_nodup (hids : (events.map SequencedEvent.eventId).Nodup) :
    repeatedSequences key events = conflictingSequences key events := by
  unfold repeatedSequences conflictingSequences
  apply Finset.filter_congr
  intro sequence _
  have hnodup : (eventIdsAt key events sequence).Nodup := by
    refine List.Nodup.sublist ?_ hids
    exact ((List.filter_sublist.trans List.filter_sublist).trans List.filter_sublist).map _
  rw [List.toFinset_card_of_nodup hnodup]

/-- The entries of the map that hold two ids or more. -/
def conflictEntries (key : String) (events : List SequencedEvent) : List (Nat × List Uuid4) :=
  (grouped SequencedEvent.sourceSequence SequencedEvent.eventId
    (instanceEvents key events)).filter fun entry => decide (1 < entry.2.length)

theorem mem_conflictEntries {entry : Nat × List Uuid4} :
    entry ∈ conflictEntries key events ↔
      entry.1 ∈ repeatedSequences key events ∧ entry.2 = eventIdsAt key events entry.1 := by
  rw [conflictEntries, List.mem_filter, mem_grouped, repeatedSequences, Finset.mem_filter,
    seenSequences, List.mem_toFinset, decide_eq_true_eq]
  constructor
  · intro hentry
    obtain ⟨⟨hseen, hvalues⟩, htwo⟩ := hentry
    rw [hvalues] at htwo
    exact ⟨⟨hseen, htwo⟩, hvalues⟩
  · intro hentry
    obtain ⟨⟨hseen, htwo⟩, hvalues⟩ := hentry
    rw [← hvalues] at htwo
    exact ⟨⟨hseen, hvalues⟩, htwo⟩

theorem length_conflictEntries :
    (conflictEntries key events).length = (repeatedSequences key events).card := by
  have hnodup : ((conflictEntries key events).map Prod.fst).Nodup :=
    List.Nodup.sublist (List.filter_sublist.map Prod.fst) (nodup_keys_grouped _ _ _)
  have hsame : ((conflictEntries key events).map Prod.fst).toFinset =
      repeatedSequences key events := by
    ext sequence
    rw [List.mem_toFinset, List.mem_map]
    constructor
    · intro hmem
      obtain ⟨entry, hentry, rfl⟩ := hmem
      exact (mem_conflictEntries.mp hentry).1
    · intro hmem
      exact ⟨(sequence, eventIdsAt key events sequence),
        mem_conflictEntries.mpr ⟨hmem, rfl⟩, rfl⟩
  rw [← hsame, List.toFinset_card_of_nodup hnodup, List.length_map]

def exactView (key : String) (events : List SequencedEvent) (first : SequencedEvent) :
    SourceInstanceView where
  key := key
  source := first.source
  sourceInstanceId := first.sourceInstanceId
  maxSequence := highestSequence key events
  missingSequences := (missingSequences key events).card
  conflictingSequences := (repeatedSequences key events).card
  gapped := decide (seenSequences key events ≠ Finset.Icc 1 (highestSequence key events))

/-- The findings of an instance, from the sets it is about and the examples they quote. -/
def exactFindings (key : String) (events : List SequencedEvent) (path : String)
    (sequence firstMissing : Nat) : List IngestionFinding :=
  (if repeatedSequences key events = ∅ then []
    else [sequenceConflictFinding key path (repeatedSequences key events).card sequence
      (eventIdsAt key events sequence)]) ++
  (if seenSequences key events = Finset.Icc 1 (highestSequence key events) then []
    else [gapFinding key path (highestSequence key events) (missingSequences key events).card
      firstMissing])

/-- Whatever examples the findings of an instance quote, they are true of it. -/
structure Quotes (key : String) (events : List SequencedEvent) (path : String)
    (sequence firstMissing : Nat) : Prop where
  path : instanceEvents key events ≠ [] →
    path ∈ (instanceEvents key events).map SequencedEvent.artifactPath
  conflict : repeatedSequences key events ≠ ∅ →
    sequence ∈ repeatedSequences key events
  missing : seenSequences key events ≠ Finset.Icc 1 (highestSequence key events) →
    IsLeast (↑(missingSequences key events) : Set Nat) firstMissing

/-- `judgeInstance` in terms of the sets. -/
theorem judgeInstance_exact (hpositive : ∀ event ∈ events, 1 ≤ event.sourceSequence)
    (hfirst : (instanceEvents key events).head? = some first) :
    (judgeInstance key ⟨first, grouped SequencedEvent.sourceSequence SequencedEvent.eventId
      (instanceEvents key events)⟩).1 = exactView key events first ∧
    ∃ sequence firstMissing, Quotes key events first.artifactPath sequence firstMissing ∧
      (judgeInstance key ⟨first, grouped SequencedEvent.sourceSequence SequencedEvent.eventId
        (instanceEvents key events)⟩).2 =
        exactFindings key events first.artifactPath sequence firstMissing := by
  have hmax : (sortedSequences key events).foldl max 0 = highestSequence key events :=
    foldl_max_sortedSequences
  have hlength : (sortedSequences key events).length = (seenSequences key events).card :=
    length_sortedSequences
  have hmissing : (highestSequence key events : Int) - (seenSequences key events).card =
      (missingSequences key events).card := missing_card hpositive
  have hgap : 0 < (missingSequences key events).card ↔ _ := missing_pos hpositive
  have hgapped : (0 : Int) < (missingSequences key events).card ↔
      seenSequences key events ≠ Finset.Icc 1 (highestSequence key events) := by
    rw [← hgap]
    exact Int.natCast_pos
  have hconflicts : (conflictEntries key events).length = (repeatedSequences key events).card :=
    length_conflictEntries
  have hleast := @firstMissing_isLeast (sortedSequences key events) sortedSequences_increasing
  rw [toFinset_sortedSequences, hmax, hlength] at hleast
  unfold sortedSequences at hmax hlength hleast
  constructor
  · unfold conflictEntries at hconflicts
    simp only [judgeInstance, hmax, hlength, hmissing, hconflicts, exactView]
    congr 1
    exact decide_eq_decide.mpr hgapped
  · have hpath : first.artifactPath ∈
        (instanceEvents key events).map SequencedEvent.artifactPath :=
      List.mem_map_of_mem (List.mem_of_mem_head? hfirst)
    have hquoted := @mem_conflictEntries key events
    unfold conflictEntries at hconflicts hquoted
    simp only [judgeInstance, hmax, hlength, hmissing, hgapped]
    generalize (grouped SequencedEvent.sourceSequence SequencedEvent.eventId
      (instanceEvents key events)).filter (fun entry => decide (1 < entry.2.length)) = entries
      at hconflicts hquoted
    have hfirstMissing : seenSequences key events ≠
        Finset.Icc 1 (highestSequence key events) →
        IsLeast (↑(missingSequences key events) : Set Nat) (firstMissing
          (((grouped SequencedEvent.sourceSequence SequencedEvent.eventId
            (instanceEvents key events)).map Prod.fst).insertionSort (· ≤ ·))) := by
      intro hne
      refine hleast ?_ ?_
      · intro sequence hmem
        have hseen := seenSequences_subset hpositive (mem_sortedSequences.mp hmem)
        exact (Finset.mem_Icc.mp hseen).1
      · have hpos := hgapped.mpr hne
        omega
    cases entries with
    | nil =>
      have hnone : repeatedSequences key events = ∅ := Finset.card_eq_zero.mp hconflicts.symm
      refine ⟨0, _, ⟨fun _ => hpath, fun hsome => absurd hnone hsome, hfirstMissing⟩, ?_⟩
      unfold exactFindings
      rw [if_pos hnone, ite_not]
      rfl
    | cons entry rest =>
      obtain ⟨sequence, ids⟩ := entry
      obtain ⟨hmem, hidsAt⟩ := hquoted.mp List.mem_cons_self
      have hsome : repeatedSequences key events ≠ ∅ := Finset.ne_empty_of_mem hmem
      refine ⟨sequence, _, ⟨fun _ => hpath, fun _ => hmem, hfirstMissing⟩, ?_⟩
      unfold exactFindings
      rw [if_neg hsome, ite_not, ← hconflicts, ← hidsAt]
      rfl

end Instance

/-! ## The whole report -/

def findingsAbout (key : String) (events : List SequencedEvent) : List IngestionFinding :=
  (checkSequenceDensity events).findings.filter fun finding =>
    decide (finding.sourceInstanceKey = some key)

section Report

variable {key : String} {events other : List SequencedEvent}

theorem judgeInstance_names (entry : String × InstanceEvents) :
    ∀ finding ∈ (judgeInstance entry.1 entry.2).2, finding.sourceInstanceKey = some entry.1 := by
  intro finding hfinding
  simp only [judgeInstance, List.mem_append] at hfinding
  rcases hfinding with hconflict | hgap
  · split at hconflict
    · cases hconflict
    · rw [List.mem_singleton.mp hconflict]
      rfl
  · split at hgap
    · rw [List.mem_singleton.mp hgap]
      rfl
    · cases hgap

theorem checkSequenceDensity_findings_eq (events : List SequencedEvent) :
    (checkSequenceDensity events).findings =
      (groupedInstances events).flatMap fun entry => (judgeInstance entry.1 entry.2).2 := by
  simp only [checkSequenceDensity, List.flatMap_map]

theorem checkSequenceDensity_instances_eq (events : List SequencedEvent) :
    (checkSequenceDensity events).instances =
      (groupedInstances events).map fun entry => (entry.1, (judgeInstance entry.1 entry.2).1) := by
  have hkeys : ((groupedInstances events).map fun entry =>
      (judgeInstance entry.1 entry.2).1.key) = (groupedInstances events).map Prod.fst := rfl
  simp only [checkSequenceDensity, List.foldl_map]
  rw [InsertionMap.foldl_set_eq_append (fun entry : String × InstanceEvents =>
    (judgeInstance entry.1 entry.2).1.key)]
  · rfl
  · intro entry _ hmem
    cases hmem
  · rw [hkeys]
    exact groupedInstances_nodup events

theorem instances_get? (hpositive : ∀ event ∈ events, 1 ≤ event.sourceSequence) (key : String) :
    (checkSequenceDensity events).instances.get? key =
      (instanceEvents key events).head?.map (exactView key events) := by
  rw [checkSequenceDensity_instances_eq]
  have hget := groupedInstances_get? events key
  have hkeys : ((groupedInstances events).map fun entry =>
      (entry.1, (judgeInstance entry.1 entry.2).1)).map Prod.fst =
      (groupedInstances events).map Prod.fst := by
    rw [List.map_map]
    rfl
  cases hfirst : (instanceEvents key events).head? with
  | none =>
    rw [hfirst] at hget
    apply InsertionMap.get?_of_not_mem
    rw [hkeys]
    intro hmem
    obtain ⟨entry, hentry, rfl⟩ := List.mem_map.mp hmem
    rw [InsertionMap.get?_of_mem (groupedInstances_nodup events) hentry] at hget
    cases hget
  | some first =>
    rw [hfirst] at hget
    apply InsertionMap.get?_of_mem
    · rw [hkeys]
      exact groupedInstances_nodup events
    · rw [← (judgeInstance_exact hpositive hfirst).1]
      exact List.mem_map.mpr ⟨_, InsertionMap.mem_of_get? hget, rfl⟩

theorem findingsAbout_exact (hpositive : ∀ event ∈ events, 1 ≤ event.sourceSequence) (key : String) :
    ∃ path sequence firstMissing, Quotes key events path sequence firstMissing ∧
      findingsAbout key events = exactFindings key events path sequence firstMissing := by
  unfold findingsAbout
  rw [checkSequenceDensity_findings_eq, InsertionMap.filter_flatMap_key
    (groupedInstances_nodup events) _ IngestionFinding.sourceInstanceKey judgeInstance_names,
    groupedInstances_get?]
  cases hfirst : (instanceEvents key events).head? with
  | none =>
    have hnone : instanceEvents key events = [] := List.head?_eq_none_iff.mp hfirst
    have hseen : seenSequences key events = ∅ := by
      simp [seenSequences, hnone]
    have hhighest : highestSequence key events = 0 := by
      simp [highestSequence, hseen]
    have hdense : seenSequences key events = Finset.Icc 1 (highestSequence key events) := by
      rw [hseen, hhighest]
      rfl
    have hconflicts : repeatedSequences key events = ∅ := by
      simp [repeatedSequences, hseen]
    refine ⟨"", 0, 0, ⟨?_, ?_, ?_⟩, ?_⟩
    · intro hsome
      exact absurd hnone hsome
    · intro hsome
      exact absurd hconflicts hsome
    · intro hgap
      exact absurd hdense hgap
    · unfold exactFindings
      rw [if_pos hconflicts, if_pos hdense]
      rfl
  | some first =>
    obtain ⟨-, sequence, firstMissing, hquotes, hfindings⟩ :=
      judgeInstance_exact hpositive hfirst
    exact ⟨first.artifactPath, sequence, firstMissing, hquotes, hfindings⟩

/-! ## The order of the events -/

theorem instanceEvents_perm (h : events.Perm other) (key : String) :
    (instanceEvents key events).Perm (instanceEvents key other) :=
  (h.filter _).filter _

theorem seenSequences_perm (h : events.Perm other) (key : String) :
    seenSequences key events = seenSequences key other :=
  List.toFinset_eq_of_perm _ _ ((instanceEvents_perm h key).map _)

theorem repeatedSequences_perm (h : events.Perm other) (key : String) :
    repeatedSequences key events = repeatedSequences key other := by
  unfold repeatedSequences
  rw [seenSequences_perm h key]
  apply Finset.filter_congr
  intro sequence _
  have hids : (eventIdsAt key events sequence).Perm (eventIdsAt key other sequence) :=
    valuesAt_perm (instanceEvents_perm h key) sequence
  rw [hids.length_eq]

theorem highestSequence_perm (h : events.Perm other) (key : String) :
    highestSequence key events = highestSequence key other := by
  unfold highestSequence
  rw [seenSequences_perm h key]

theorem missingSequences_perm (h : events.Perm other) (key : String) :
    missingSequences key events = missingSequences key other := by
  unfold missingSequences
  rw [seenSequences_perm h key, highestSequence_perm h key]

theorem exactView_perm (h : events.Perm other)
    (hbound : ∀ event ∈ events, event.sourceInstanceId < uuidBound) (key : String) :
    (instanceEvents key other).head?.map (exactView key other) =
      (instanceEvents key events).head?.map (exactView key events) := by
  have hperm := instanceEvents_perm h key
  cases hfirst : (instanceEvents key events).head? with
  | none =>
    have hnone : instanceEvents key events = [] := List.head?_eq_none_iff.mp hfirst
    rw [hnone, List.nil_perm] at hperm
    rw [hperm]
    rfl
  | some first =>
    cases hother : (instanceEvents key other).head? with
    | none =>
      have hnone : instanceEvents key other = [] := List.head?_eq_none_iff.mp hother
      rw [hnone, List.perm_nil] at hperm
      rw [hperm] at hfirst
      cases hfirst
    | some found =>
      have hmem := List.mem_of_mem_head? hfirst
      have hfound := hperm.mem_iff.mpr (List.mem_of_mem_head? hother)
      have hinstance : first.source = found.source ∧
          first.sourceInstanceId = found.sourceInstanceId := by
        apply instanceKey_inj
        · exact hbound first (List.mem_of_mem_filter (List.mem_of_mem_filter hmem))
        · exact hbound found (List.mem_of_mem_filter (List.mem_of_mem_filter hfound))
        · exact (of_decide_eq_true (List.mem_filter.mp hmem).2).trans
            (of_decide_eq_true (List.mem_filter.mp hfound).2).symm
      simp only [Option.map_some, exactView, hinstance, seenSequences_perm h key,
        highestSequence_perm h key, missingSequences_perm h key,
        repeatedSequences_perm h key]

/-- What of a finding does not depend on the order of the events: everything but the artifact it
names and, for a conflict, the example in its detail. -/
def orderFree (finding : IngestionFinding) :
    IngestionFindingCode × Option String × Nat × Option String :=
  (finding.code, finding.sourceInstanceKey, finding.occurrences,
    if finding.code = .sourceSequenceGap then some finding.detail else none)

theorem orderFree_conflict (key path : String) (count sequence : Nat) (ids : List Uuid4) :
    orderFree (sequenceConflictFinding key path count sequence ids) =
      (.conflictingSourceSequence, some key, count, none) := rfl

theorem orderFree_gap (key path : String) (highest missing first : Nat) :
    orderFree (gapFinding key path highest missing first) =
      (.sourceSequenceGap, some key, missing, some (gapFinding key "" highest missing first).detail) :=
  rfl

theorem exactFindings_orderFree (h : events.Perm other) {path path' : String}
    {sequence sequence' firstMissing firstMissing' : Nat}
    (hquotes : Quotes key events path sequence firstMissing)
    (hquotes' : Quotes key other path' sequence' firstMissing') :
    (exactFindings key other path' sequence' firstMissing').map orderFree =
      (exactFindings key events path sequence firstMissing).map orderFree := by
  have hmissing := hquotes.missing
  have hmissing' := hquotes'.missing
  unfold exactFindings
  rw [← repeatedSequences_perm h key, ← seenSequences_perm h key,
    ← highestSequence_perm h key, ← missingSequences_perm h key, List.map_append, List.map_append]
  rw [← seenSequences_perm h key, ← highestSequence_perm h key,
    ← missingSequences_perm h key] at hmissing'
  refine congrArg₂ (· ++ ·) ?_ ?_
  · split
    · rfl
    · rw [List.map_singleton, List.map_singleton, orderFree_conflict, orderFree_conflict]
  · split
    · rfl
    · rename_i hgap
      rw [(hmissing' hgap).unique (hmissing hgap), List.map_singleton, List.map_singleton,
        orderFree_gap, orderFree_gap]

end Report

/-- The check is exact for every list of events, where a conflict is a sequence of two entries: for
the collapsed events, one that different events carry.  Its report depends on the order of the
events only in what it quotes. -/
theorem sequence_density_exact (events : List SequencedEvent)
    (hpositive : ∀ event ∈ events, 1 ≤ event.sourceSequence)
    (hbound : ∀ event ∈ events, event.sourceInstanceId < uuidBound) :
    (∀ key, (checkSequenceDensity events).instances.get? key =
      (instanceEvents key events).head?.map (exactView key events)) ∧
    (∀ finding ∈ (checkSequenceDensity events).findings, finding.sourceInstanceKey ≠ none) ∧
    (∀ key, ∃ path sequence firstMissing, Quotes key events path sequence firstMissing ∧
      findingsAbout key events = exactFindings key events path sequence firstMissing) ∧
    ((events.map SequencedEvent.eventId).Nodup → ∀ key,
      repeatedSequences key events = conflictingSequences key events) ∧
    ∀ other : List SequencedEvent, events.Perm other → ∀ key,
      (checkSequenceDensity other).instances.get? key =
        (checkSequenceDensity events).instances.get? key ∧
      (findingsAbout key other).map orderFree = (findingsAbout key events).map orderFree := by
  refine ⟨instances_get? hpositive, ?_, findingsAbout_exact hpositive,
    fun hids key => repeatedSequences_of_nodup hids, ?_⟩
  · intro finding hfinding hnone
    rw [checkSequenceDensity_findings_eq] at hfinding
    obtain ⟨entry, -, hgiven⟩ := List.mem_flatMap.mp hfinding
    rw [judgeInstance_names entry finding hgiven] at hnone
    cases hnone
  · intro other hperm key
    have hpositive' : ∀ event ∈ other, 1 ≤ event.sourceSequence := by
      intro event hevent
      exact hpositive event (hperm.mem_iff.mpr hevent)
    constructor
    · rw [instances_get? hpositive', instances_get? hpositive]
      exact exactView_perm hperm hbound key
    · obtain ⟨path, sequence, firstMissing, hquotes, hfindings⟩ :=
        findingsAbout_exact hpositive key
      obtain ⟨path', sequence', firstMissing', hquotes', hfindings'⟩ :=
        findingsAbout_exact hpositive' key
      rw [hfindings, hfindings']
      exact exactFindings_orderFree hperm hquotes hquotes'

def callerEvent (eventId : Uuid4) (sequence : Nat) (path : String) (origin : ArtifactOrigin) :
    SequencedEvent where
  eventId := eventId
  source := .conventionalCaller
  sourceInstanceId := 1
  sourceSequence := sequence
  artifactPath := path
  origin := origin

def gappedEvents : List SequencedEvent :=
  [callerEvent 10 4 "first.jsonl" .subject, callerEvent 11 2 "second.jsonl" .supplementary]

theorem sequence_density_exact_gapped :
    ((checkSequenceDensity gappedEvents).instances.get?
        (instanceKey (callerEvent 10 4 "first.jsonl" .subject))).map
      (fun view => (view.maxSequence, view.missingSequences, view.gapped)) =
      some (4, 2, true) := by
  have hview := (sequence_density_exact gappedEvents (by decide) (by decide)).1
    (instanceKey (callerEvent 10 4 "first.jsonl" .subject))
  rw [hview]
  decide +kernel

theorem density_of_uncollapsed_events :
    (conflictingSequences (instanceKey (callerEvent 10 1 "first.jsonl" .subject))
        [callerEvent 10 1 "first.jsonl" .subject, callerEvent 10 1 "first.jsonl" .subject] = ∅ ∧
      (checkSequenceDensity [callerEvent 10 1 "first.jsonl" .subject,
        callerEvent 10 1 "first.jsonl" .subject]).findings.map IngestionFinding.code =
        [.conflictingSourceSequence]) ∧
    (checkSequenceDensity gappedEvents).findings ≠
      (checkSequenceDensity gappedEvents.reverse).findings ∧
    (checkSequenceDensity [callerEvent 10 2 "first.jsonl" .executionScope]).findings = [] := by
  refine ⟨⟨?_, ?_⟩, ?_, ?_⟩
  · decide +kernel
  · decide +kernel
  · decide +kernel
  · rfl

end RefundStudy.Ingestion
