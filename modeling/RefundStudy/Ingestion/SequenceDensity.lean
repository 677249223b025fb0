/-
  The density check of ingestion (`evidence-ingestion/sequence-density.ts`, design 8.2 step I5).
-/
import RefundStudy.Ingestion.Findings
import RefundStudy.Journal.SortKey

set_option autoImplicit false

namespace RefundStudy.Ingestion

open Foundation Record Package Journal

inductive ArtifactOrigin where
  | subject
  | supplementary
  | executionScope
  deriving DecidableEq

/-- An `IndexedEvent`, as far as the density check reads it. -/
structure SequencedEvent where
  eventId : Uuid4
  source : EventSource
  sourceInstanceId : Uuid4
  sourceSequence : Nat
  artifactPath : String
  origin : ArtifactOrigin

structure InstanceEvents where
  first : SequencedEvent
  bySequence : InsertionMap Nat (List Uuid4)

structure SourceInstanceView where
  key : String
  source : EventSource
  sourceInstanceId : Uuid4
  maxSequence : Nat
  missingSequences : Int
  conflictingSequences : Nat
  gapped : Bool

structure SequenceDensity where
  instances : InsertionMap String SourceInstanceView
  findings : List IngestionFinding

def instanceKey (event : SequencedEvent) : String :=
  sourceText event.source ++ "#" ++ String.ofList (uuidText event.sourceInstanceId)

def InstanceEvents.add (events : InstanceEvents) (event : SequencedEvent) : InstanceEvents :=
  { events with
    bySequence := events.bySequence.set event.sourceSequence
      ((events.bySequence.get? event.sourceSequence).getD [] ++ [event.eventId]) }

/-- One turn of the loop of `checkSequenceDensity`. -/
def addEvent (grouped : InsertionMap String InstanceEvents) (event : SequencedEvent) :
    InsertionMap String InstanceEvents :=
  grouped.set (instanceKey event)
    (((grouped.get? (instanceKey event)).getD ⟨event, []⟩).add event)

def firstMissing (sequences : List Nat) : Nat :=
  (sequences.zipIdx.findIdx fun entry => decide (entry.1 ≠ entry.2 + 1)) + 1

def judgeInstance (key : String) (events : InstanceEvents) :
    SourceInstanceView × List IngestionFinding :=
  let sequences := (events.bySequence.map Prod.fst).insertionSort (· ≤ ·)
  let maxSequence := sequences.foldl max 0
  let missing : Int := maxSequence - sequences.length
  let conflicts := events.bySequence.filter fun entry => decide (1 < entry.2.length)
  let view : SourceInstanceView :=
    { key := key
      source := events.first.source
      sourceInstanceId := events.first.sourceInstanceId
      maxSequence := maxSequence
      missingSequences := missing
      conflictingSequences := conflicts.length
      gapped := decide (0 < missing) }
  let conflictFindings :=
    match conflicts with
    | [] => []
    | (sequence, ids) :: _ =>
      [ingestionFinding .conflictingSourceSequence
        ("expected one event_id per sequence; " ++ key ++ " sequence " ++ toString sequence ++
          " has " ++ String.intercalate ", " (ids.map fun id => String.ofList (uuidText id)))
        { artifactPath := some events.first.artifactPath
          sourceInstanceKey := some key
          occurrences := conflicts.length }]
  let gapFindings :=
    if 0 < missing then
      [ingestionFinding .sourceSequenceGap
        ("expected dense sequences 1.." ++ toString maxSequence ++ "; " ++ key ++ " lacks " ++
          toString missing ++ ", first " ++ toString (firstMissing sequences))
        { artifactPath := some events.first.artifactPath
          sourceInstanceKey := some key
          occurrences := missing.toNat }]
    else []
  (view, conflictFindings ++ gapFindings)

/-- The instances the check judges: earlier trials are context. -/
def groupedInstances (events : List SequencedEvent) : InsertionMap String InstanceEvents :=
  (events.filter fun event => decide (event.origin ≠ .executionScope)).foldl addEvent []

def checkSequenceDensity (events : List SequencedEvent) : SequenceDensity :=
  let judged := (groupedInstances events).map fun entry => judgeInstance entry.1 entry.2
  { instances := judged.foldl (fun views entry => views.set entry.1.key entry.1) []
    findings := judged.flatMap Prod.snd }

/-! ## What the groups hold -/

theorem instanceKey_inj {first second : SequencedEvent}
    (hfirst : first.sourceInstanceId < uuidBound) (hsecond : second.sourceInstanceId < uuidBound)
    (h : instanceKey first = instanceKey second) :
    first.source = second.source ∧ first.sourceInstanceId = second.sourceInstanceId := by
  have hchars := congrArg String.toList h
  simp only [instanceKey, String.toList_append, String.toList_ofList] at hchars
  have hseparator : "#".toList = ['#'] := by decide +kernel
  rw [hseparator, List.append_assoc, List.append_assoc] at hchars
  obtain ⟨hsource, hid⟩ := separator_inj (separator_not_mem_sourceText first.source)
    (separator_not_mem_sourceText second.source) hchars
  exact ⟨sourceText_injective (String.toList_inj.mp hsource), uuidText_injective hfirst hsecond hid⟩

def sequencesOf (key : String) (events : List SequencedEvent) : List Nat :=
  (events.filter fun event => decide (instanceKey event = key)).map SequencedEvent.sourceSequence

/-- The map of one instance counts its events at each sequence. -/
structure Counts (sequences : List Nat) (bySequence : InsertionMap Nat (List Uuid4)) : Prop where
  nodup : (bySequence.map Prod.fst).Nodup
  mem : ∀ sequence, sequence ∈ bySequence.map Prod.fst ↔ sequence ∈ sequences
  length : ∀ entry ∈ bySequence, entry.2.length = sequences.count entry.1

section Groups

variable {sequences : List Nat} {bySequence : InsertionMap Nat (List Uuid4)} {key : String}
  {events : List SequencedEvent} {grouped : InsertionMap String InstanceEvents}

theorem Counts.nil : Counts [] [] :=
  ⟨List.nodup_nil, fun _ => Iff.rfl, fun _ hentry => absurd hentry List.not_mem_nil⟩

theorem Counts.get? (h : Counts sequences bySequence) (sequence : Nat) :
    ((bySequence.get? sequence).getD []).length = sequences.count sequence := by
  cases hget : bySequence.get? sequence with
  | some ids => exact h.length (sequence, ids) (InsertionMap.mem_of_get? hget)
  | none =>
    have habsent : sequence ∉ bySequence.map Prod.fst := by
      intro hmem
      obtain ⟨⟨found, ids⟩, hentry, rfl⟩ := List.mem_map.mp hmem
      have hsome := InsertionMap.get?_of_mem h.nodup hentry
      rw [hget] at hsome
      cases hsome
    rw [h.mem] at habsent
    simp [List.count_eq_zero.mpr habsent]

theorem Counts.add (h : Counts sequences bySequence) (sequence : Nat) (eventId : Uuid4) :
    Counts (sequences ++ [sequence]) (bySequence.set sequence
      ((bySequence.get? sequence).getD [] ++ [eventId])) := by
  have hnodup := InsertionMap.nodup_set h.nodup sequence
    ((bySequence.get? sequence).getD [] ++ [eventId])
  refine ⟨hnodup, fun other => ?_, ?_⟩
  · rw [InsertionMap.keys_set, List.mem_append, List.mem_singleton, ← h.mem]
    split
    · rename_i hmem
      constructor
      · exact .inl
      · rintro (hother | rfl)
        · exact hother
        · exact hmem
    · rw [List.mem_append, List.mem_singleton]
  · rintro ⟨other, ids⟩ hentry
    have hget := InsertionMap.get?_of_mem hnodup hentry
    simp only [List.count_append]
    by_cases hsame : other = sequence
    · subst hsame
      rw [InsertionMap.get?_set_self] at hget
      rw [← Option.some.inj hget, List.length_append, h.get?]
      simp
    · rw [InsertionMap.get?_set_of_ne _ hsame] at hget
      rw [h.length (other, ids) (InsertionMap.mem_of_get? hget)]
      simp [Ne.symm hsame]

structure Groups (events : List SequencedEvent) (grouped : InsertionMap String InstanceEvents) :
    Prop where
  nodup : (grouped.map Prod.fst).Nodup
  counts : ∀ key, Counts (sequencesOf key events)
    (((grouped.get? key).map InstanceEvents.bySequence).getD [])

theorem Groups.add (h : Groups events grouped) (event : SequencedEvent) :
    Groups (events ++ [event]) (addEvent grouped event) := by
  refine ⟨InsertionMap.nodup_set h.nodup _ _, fun key => ?_⟩
  by_cases hkey : key = instanceKey event
  · subst hkey
    have hsequences : sequencesOf (instanceKey event) (events ++ [event]) =
        sequencesOf (instanceKey event) events ++ [event.sourceSequence] := by
      simp [sequencesOf, List.filter_append]
    rw [hsequences, addEvent, InsertionMap.get?_set_self]
    have hcounts := h.counts (instanceKey event)
    cases hget : grouped.get? (instanceKey event) with
    | none =>
      rw [hget] at hcounts
      exact hcounts.add event.sourceSequence event.eventId
    | some found =>
      rw [hget] at hcounts
      exact hcounts.add event.sourceSequence event.eventId
  · have hsequences : sequencesOf key (events ++ [event]) = sequencesOf key events := by
      simp [sequencesOf, List.filter_append, Ne.symm hkey]
    rw [hsequences, addEvent, InsertionMap.get?_set_of_ne _ hkey]
    exact h.counts key

theorem groups_foldl (rest : List SequencedEvent) (h : Groups events grouped) :
    Groups (events ++ rest) (rest.foldl addEvent grouped) := by
  induction rest generalizing events grouped with
  | nil => simpa using h
  | cons event rest ih =>
    have hnext := ih (h.add event)
    rwa [List.append_assoc] at hnext

/-! ## Dense instances -/

theorem foldl_max_range' (count : Nat) : (List.range' 1 count).foldl max 0 = count := by
  induction count with
  | zero => rfl
  | succ count ih =>
    rw [List.range'_concat, List.foldl_append, ih]
    simp only [List.foldl_cons, List.foldl_nil]
    omega

theorem judgeInstance_findings {count : Nat} {events : InstanceEvents}
    (hcounts : Counts sequences events.bySequence)
    (hdense : sequences.Perm (List.range' 1 count)) : (judgeInstance key events).2 = [] := by
  have hnodup : sequences.Nodup := hdense.nodup_iff.mpr List.nodup_range'
  have hkeys : (events.bySequence.map Prod.fst).Perm (List.range' 1 count) := by
    refine (List.perm_ext_iff_of_nodup hcounts.nodup List.nodup_range').mpr fun sequence => ?_
    rw [hcounts.mem, hdense.mem_iff]
  have hsorted : (events.bySequence.map Prod.fst).insertionSort (· ≤ ·) = List.range' 1 count := by
    have hrange : (List.range' 1 count).Pairwise (· ≤ ·) :=
      (List.pairwise_lt_range').imp Nat.le_of_lt
    exact List.Perm.eq_of_pairwise (fun _ _ _ _ h₁ h₂ => Nat.le_antisymm h₁ h₂)
      (List.pairwise_insertionSort _ _) hrange ((List.perm_insertionSort _ _).trans hkeys)
  have hconflicts : events.bySequence.filter (fun entry => decide (1 < entry.2.length)) = [] := by
    rw [List.filter_eq_nil_iff]
    intro entry hentry
    have hone := List.nodup_iff_count_le_one.mp hnodup entry.1
    rw [← hcounts.length entry hentry] at hone
    simpa using hone
  simp only [judgeInstance, hsorted, hconflicts, foldl_max_range', List.length_range',
    Int.sub_self, Int.lt_irrefl, if_false, List.append_nil]

/-- Instances whose sequences are 1..k, in whatever order the events come, give no finding. -/
theorem checkSequenceDensity_findings
    (h : ∀ key, ∃ count, (sequencesOf key (events.filter fun event =>
      decide (event.origin ≠ .executionScope))).Perm (List.range' 1 count)) :
    (checkSequenceDensity events).findings = [] := by
  have hempty : Groups [] [] := ⟨List.nodup_nil, fun _ => Counts.nil⟩
  have hgroups := groups_foldl (events.filter fun event =>
    decide (event.origin ≠ .executionScope)) hempty
  rw [List.nil_append] at hgroups
  simp only [checkSequenceDensity, List.flatMap_map, List.flatMap_eq_nil_iff]
  rintro ⟨key, found⟩ hentry
  obtain ⟨count, hdense⟩ := h key
  have hget := InsertionMap.get?_of_mem hgroups.nodup hentry
  have hcounts := hgroups.counts key
  rw [hget] at hcounts
  exact judgeInstance_findings hcounts hdense

end Groups

end RefundStudy.Ingestion
