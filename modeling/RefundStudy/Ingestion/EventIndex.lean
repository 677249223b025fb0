/-
  The index of the events read (`evidence-ingestion/event-indexing.ts`, `causation-resolution.ts`;
  design 8.2 steps I4 and I6).
-/
import RefundStudy.Ingestion.Reading
import Mathlib.Data.List.Induction

set_option autoImplicit false

namespace RefundStudy.Ingestion

open Foundation Record Package

def uuidString (id : Uuid4) : String := String.ofList (uuidText id)

/-! ## Events of the artifacts -/

structure IndexedEvent extends LocatedRecord EventRecord where
  value : RecordValue
  partition : String
  copies : Nat

def indexedEvent (artifact : IngestedArtifact) (record : IngestedRecord) : Option IndexedEvent :=
  if record.usable then
    record.value.asEvent.map fun event =>
      { toLocatedRecord := locateRecord artifact record event
        value := record.value
        partition := partitionOf record.value.correlation
        copies := 1 }
  else none

def artifactEvents (artifact : IngestedArtifact) : List IndexedEvent :=
  artifact.records.filterMap (indexedEvent artifact)

def originRank : ArtifactOrigin → Nat
  | .subject => 0
  | .supplementary => 1
  | .executionScope => 2

/-- The artifacts in reading order: the subject's first, otherwise as they are given. -/
def inReadingOrder (artifacts : List IngestedArtifact) : List IngestedArtifact :=
  artifacts.insertionSort fun first second => originRank first.origin ≤ originRank second.origin

def eventsRead (artifacts : List IngestedArtifact) : List IndexedEvent :=
  (inReadingOrder artifacts).flatMap artifactEvents

/-! ## Groups -/

structure EventGroup where
  kept : IndexedEvent
  copies : List IndexedEvent
  equivalent : Nat
  conflicting : Nat

def addToGroup (groups : InsertionMap Uuid4 EventGroup) (event : IndexedEvent) :
    InsertionMap Uuid4 EventGroup :=
  match groups.get? event.record.eventId with
  | none => groups.set event.record.eventId ⟨event, [event], 0, 0⟩
  | some group =>
    let copies := group.copies ++ [event]
    if group.kept.value = event.value then
      groups.set event.record.eventId
        { group with copies := copies, equivalent := group.equivalent + 1 }
    else
      groups.set event.record.eventId
        { group with copies := copies, conflicting := group.conflicting + 1 }

variable (events : List IndexedEvent)

def eventGroups : InsertionMap Uuid4 EventGroup :=
  events.foldl addToGroup []

theorem eventGroups_concat (event : IndexedEvent) :
    eventGroups (events ++ [event]) = addToGroup (eventGroups events) event := by
  unfold eventGroups
  rw [List.foldl_append]
  rfl

theorem addToGroup_nodup {groups : InsertionMap Uuid4 EventGroup}
    (h : (groups.map Prod.fst).Nodup) (event : IndexedEvent) :
    ((addToGroup groups event).map Prod.fst).Nodup := by
  unfold addToGroup
  split
  · exact InsertionMap.nodup_set h _ _
  · dsimp only
    split <;> exact InsertionMap.nodup_set h _ _

theorem eventGroups_nodup : ((eventGroups events).map Prod.fst).Nodup := by
  induction events using List.reverseRecOn with
  | nil => exact List.nodup_nil
  | append_singleton events event ih =>
    rw [eventGroups_concat]
    exact addToGroup_nodup ih event

theorem addToGroup_kept (groups : InsertionMap Uuid4 EventGroup) (event : IndexedEvent)
    (id : Uuid4) : ((addToGroup groups event).get? id).map EventGroup.kept =
      if event.record.eventId = id then some (((groups.get? id).map EventGroup.kept).getD event)
      else (groups.get? id).map EventGroup.kept := by
  unfold addToGroup
  by_cases hid : event.record.eventId = id
  · subst hid
    rw [if_pos rfl]
    cases hget : groups.get? event.record.eventId with
    | none =>
      dsimp only
      rw [InsertionMap.get?_set_self]
      rfl
    | some group =>
      dsimp only
      split <;> rw [InsertionMap.get?_set_self] <;> rfl
  · rw [if_neg hid]
    split
    · rw [InsertionMap.get?_set_of_ne _ (Ne.symm hid)]
    · dsimp only
      split <;> rw [InsertionMap.get?_set_of_ne _ (Ne.symm hid)]

theorem eventGroups_kept (id : Uuid4) : ((eventGroups events).get? id).map EventGroup.kept =
      events.find? fun event => decide (event.record.eventId = id) := by
  induction events using List.reverseRecOn with
  | nil => rfl
  | append_singleton events event ih =>
    rw [eventGroups_concat, addToGroup_kept, ih, List.find?_append]
    by_cases hid : event.record.eventId = id
    · rw [if_pos hid]
      cases events.find? fun event => decide (event.record.eventId = id) with
      | none => simp [hid]
      | some kept => rfl
    · rw [if_neg hid]
      simp [hid]

/-- A group some finding may be about: earlier trials are read for resolution only. -/
def EventGroup.examined (group : EventGroup) : Bool :=
  group.copies.any fun copy => decide (copy.origin ≠ .executionScope)

def locationOf (event : IndexedEvent) : String :=
  match event.lineNumber with
  | none => event.artifactPath
  | some line => event.artifactPath ++ ":" ++ toString line

def conflictFinding (group : EventGroup) : IngestionFinding :=
  ingestionFinding .conflictingEventContent
    ("expected one content per event_id; " ++ uuidString group.kept.record.eventId ++ " has " ++
      toString group.copies.length ++ " copies that differ: " ++
      String.intercalate ", " (group.copies.map locationOf))
    { artifactPath := some group.kept.artifactPath
      eventId := some group.kept.record.eventId
      occurrences := group.conflicting }

def duplicateFinding (group : EventGroup) : IngestionFinding :=
  ingestionFinding .equivalentDuplicateCollapsed
    (uuidString group.kept.record.eventId ++ " read " ++ toString (group.equivalent + 1) ++
      " times with structurally equivalent content, collapsed to one: " ++
      String.intercalate ", " (group.copies.map locationOf))
    { artifactPath := some group.kept.artifactPath
      eventId := some group.kept.record.eventId
      occurrences := group.equivalent }

def groupFindings (group : EventGroup) : List IngestionFinding :=
  (if 0 < group.conflicting then [conflictFinding group] else []) ++
    (if 0 < group.equivalent then [duplicateFinding group] else [])

structure EventCollapse where
  byId : InsertionMap Uuid4 IndexedEvent
  conflictingEventIds : List Uuid4
  collapsedDuplicateCount : Nat
  findings : List IngestionFinding

def indexEvents (artifacts : List IngestedArtifact) : EventCollapse :=
  let groups := eventGroups (eventsRead artifacts)
  let examined := groups.values.filter EventGroup.examined
  { byId := groups.map fun entry =>
      (entry.1, { entry.2.kept with copies := entry.2.copies.length })
    conflictingEventIds :=
      (examined.filter fun group => decide (0 < group.conflicting)).map
        fun group => group.kept.record.eventId
    collapsedDuplicateCount := (examined.map EventGroup.equivalent).sum
    findings := examined.flatMap groupFindings }

/-! ## Causation -/

structure CausationResolution where
  unresolved : InsertionMap Uuid4 (List Uuid4)
  findings : List IngestionFinding

/-- The causal predecessors of an event that the index lacks. -/
def missingPredecessors (byId : InsertionMap Uuid4 IndexedEvent) (event : IndexedEvent) :
    List Uuid4 :=
  event.record.causationEventIds.filter fun id => (byId.get? id).isNone

def predecessorFinding (event : IndexedEvent) (missing : List Uuid4) : IngestionFinding :=
  ingestionFinding .causalPredecessorMissing
    ("expected every causal predecessor in the execution scope; " ++
      event.record.body.recordType ++ " " ++ uuidString event.record.eventId ++ " names absent " ++
      String.intercalate ", " (missing.map uuidString))
    { artifactPath := some event.artifactPath
      eventId := some event.record.eventId
      occurrences := missing.length }

/-- The subject and supplementary events with missing predecessors, and these. -/
def dependents (byId : InsertionMap Uuid4 IndexedEvent) : List (IndexedEvent × List Uuid4) :=
  ((byId.values.filter fun event => decide (event.origin ≠ .executionScope)).map fun event =>
    (event, missingPredecessors byId event)).filter fun entry => !entry.2.isEmpty

def resolveCausation (byId : InsertionMap Uuid4 IndexedEvent) : CausationResolution where
  unresolved := (dependents byId).foldl
    (fun unresolved entry => unresolved.set entry.1.record.eventId entry.2) []
  findings := (dependents byId).map fun entry => predecessorFinding entry.1 entry.2

end RefundStudy.Ingestion
