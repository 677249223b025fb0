/-
  Which identities collide (`evidence-ingestion/identity-registry.ts`; design 8.2 step I8,
  INV-RUA-001).
-/
import RefundStudy.Foundation.Grouping
import RefundStudy.Ingestion.Evidence

set_option autoImplicit false

namespace RefundStudy.Ingestion

open Foundation Record Package

variable {occurrences : List IdentityOccurrence}

/-! ## Occurrences -/

def identityOccurrences (events : List IndexedEvent) (artifacts : List IngestedArtifact) :
    List IdentityOccurrence :=
  events.flatMap eventOccurrences ++ artifacts.flatMap ledgerOccurrences

def IdentityOccurrence.Of (occurrence : IdentityOccurrence) (kind : IdentityKind) (id : Uuid4) :
    Prop :=
  occurrence.kind = kind ∧ occurrence.id = id

/-- Two occurrences of an identity that rule each other out. -/
inductive Disagree (kind : IdentityKind) (first second : IdentityOccurrence) : Prop where
  /-- Two events created it. -/
  | origins {event other : Uuid4} (hfirst : first.originEventId = some event)
      (hsecond : second.originEventId = some other) (hne : event ≠ other)
  /-- It is in two partitions. -/
  | partitions (hne : first.partition ≠ second.partition)
  /-- A provider request is paired with two attempts. -/
  | attempts {attempt other : Uuid4} (hkind : kind = .providerRequestId)
      (hfirst : first.pairedAttempt = some attempt) (hsecond : second.pairedAttempt = some other)
      (hne : attempt ≠ other)
  /-- An id the provider commits under is on two ledger items. -/
  | items {item other : String × Nat} (hkind : kind ∈ commitKinds)
      (hfirst : first.ledgerItem = some item) (hsecond : second.ledgerItem = some other)
      (hne : item ≠ other)

/-- The identity collides among these occurrences. -/
structure Collides (occurrences : List IdentityOccurrence) (kind : IdentityKind) (id : Uuid4) :
    Prop where
  examined : ∃ occurrence ∈ occurrences, occurrence.Of kind id ∧ occurrence.examined = true
  disagreement : ∃ first ∈ occurrences, ∃ second ∈ occurrences, first.Of kind id ∧
    second.Of kind id ∧ Disagree kind first second

def IdentityRegistry.Reports (registry : IdentityRegistry) (kind : IdentityKind) (id : Uuid4) :
    Prop :=
  ∃ collision ∈ registry.callerCollisions ++ registry.providerCollisions,
    collision.kind = kind ∧ collision.id = id

/-- More than one value is left once repeats are dropped, of values that not every item has. -/
theorem one_lt_length_dedup_filterMap {α β : Type} [DecidableEq β] {items : List α}
    {value : α → Option β} : 1 < (items.filterMap value).dedup.length ↔
      ∃ first ∈ items, ∃ second ∈ items, ∃ a b, value first = some a ∧ value second = some b ∧
        a ≠ b := by
  rw [one_lt_length_dedup]
  constructor
  · intro h
    obtain ⟨a, ha, b, hb, hne⟩ := h
    obtain ⟨first, hfirst, hvalue⟩ := List.mem_filterMap.mp ha
    obtain ⟨second, hsecond, hother⟩ := List.mem_filterMap.mp hb
    exact ⟨first, hfirst, second, hsecond, a, b, hvalue, hother, hne⟩
  · intro h
    obtain ⟨first, hfirst, second, hsecond, a, b, hvalue, hother, hne⟩ := h
    exact ⟨a, List.mem_filterMap.mpr ⟨first, hfirst, hvalue⟩, b,
      List.mem_filterMap.mpr ⟨second, hsecond, hother⟩, hne⟩

def PairsRequests (occurrence : IdentityOccurrence) : Prop :=
  occurrence.pairedAttempt.isSome = true → occurrence.kind = .providerRequestId

variable {occurrence : IdentityOccurrence}

theorem eventOccurrences_pairs {event : IndexedEvent} (hmem : occurrence ∈ eventOccurrences event) :
    PairsRequests occurrence := by
  have hone : ∀ creates kind, eventOccurrence event creates kind = some occurrence →
      PairsRequests occurrence := by
    intro creates kind hsome hpaired
    obtain ⟨id, -, rfl⟩ := Option.map_eq_some_iff.mp hsome
    by_contra hkind
    simp [hkind] at hpaired
  unfold eventOccurrences at hmem
  rcases List.mem_append.mp hmem with horigin | happearance
  · obtain ⟨kind, -, hsome⟩ := List.mem_filterMap.mp horigin
    exact hone true kind hsome
  · obtain ⟨kind, -, hsome⟩ := List.mem_filterMap.mp happearance
    exact hone false kind hsome

theorem ledgerOccurrences_pairs {artifact : IngestedArtifact}
    (hmem : occurrence ∈ ledgerOccurrences artifact) : PairsRequests occurrence := by
  unfold ledgerOccurrences at hmem
  obtain ⟨record, -, hrecord⟩ := List.mem_flatMap.mp hmem
  split at hrecord
  · obtain ⟨transaction, -, htransaction⟩ := List.mem_flatMap.mp hrecord
    obtain ⟨kind, -, rfl⟩ := List.mem_map.mp htransaction
    intro hpaired
    by_contra hkind
    simp [hkind] at hpaired
  · cases hrecord

theorem identityOccurrences_pairs {events : List IndexedEvent} {artifacts : List IngestedArtifact}
    (hmem : occurrence ∈ identityOccurrences events artifacts) : PairsRequests occurrence := by
  rcases List.mem_append.mp hmem with hevent | hledger
  · obtain ⟨event, -, hin⟩ := List.mem_flatMap.mp hevent
    exact eventOccurrences_pairs hin
  · obtain ⟨artifact, -, hin⟩ := List.mem_flatMap.mp hledger
    exact ledgerOccurrences_pairs hin

/-! ## What is reported -/

def occurrencesOf (occurrences : List IdentityOccurrence) (key : IdentityKind × Uuid4) :
    List IdentityOccurrence :=
  InsertionMap.valuesAt (fun occurrence => (occurrence.kind, occurrence.id)) id occurrences key

theorem byIdentity_eq (occurrences : List IdentityOccurrence) :
    byIdentity occurrences =
      InsertionMap.grouped (fun occurrence => (occurrence.kind, occurrence.id)) id occurrences :=
  rfl

theorem mem_occurrencesOf {kind : IdentityKind} {id : Uuid4} :
    occurrence ∈ occurrencesOf occurrences (kind, id) ↔
      occurrence ∈ occurrences ∧ occurrence.Of kind id := by
  unfold occurrencesOf InsertionMap.valuesAt IdentityOccurrence.Of
  rw [List.map_id, List.mem_filter, decide_eq_true_eq, Prod.mk.injEq]

theorem committedItem_eq_some {item : String × Nat} :
    (if commitKinds.contains occurrence.kind then occurrence.ledgerItem else none) = some item ↔
      occurrence.kind ∈ commitKinds ∧ occurrence.ledgerItem = some item := by
  by_cases hkind : occurrence.kind ∈ commitKinds
  · simp [hkind]
  · simp [hkind]

theorem disagreement_iff {group : List IdentityOccurrence} {kind : IdentityKind}
    (hkind : ∀ occurrence ∈ group, occurrence.kind = kind)
    (hpairs : ∀ occurrence ∈ group, PairsRequests occurrence) :
    (1 < (group.filterMap IdentityOccurrence.originEventId).dedup.length ∨
      1 < (group.map IdentityOccurrence.partition).dedup.length ∨
      1 < (group.filterMap IdentityOccurrence.pairedAttempt).dedup.length ∨
      1 < (group.filterMap fun entry =>
        if commitKinds.contains entry.kind then entry.ledgerItem else none).dedup.length) ↔
    ∃ first ∈ group, ∃ second ∈ group, Disagree kind first second := by
  constructor
  · intro h
    rcases h with horigins | hpartitions | hattempts | hitems
    · obtain ⟨first, hfirst, second, hsecond, event, other, hevent, hother, hne⟩ :=
        one_lt_length_dedup_filterMap.mp horigins
      exact ⟨first, hfirst, second, hsecond, .origins hevent hother hne⟩
    · obtain ⟨a, ha, b, hb, hne⟩ := one_lt_length_dedup.mp hpartitions
      obtain ⟨first, hfirst, rfl⟩ := List.mem_map.mp ha
      obtain ⟨second, hsecond, rfl⟩ := List.mem_map.mp hb
      exact ⟨first, hfirst, second, hsecond, .partitions hne⟩
    · obtain ⟨first, hfirst, second, hsecond, attempt, other, hattempt, hother, hne⟩ :=
        one_lt_length_dedup_filterMap.mp hattempts
      have hrequest : kind = .providerRequestId := by
        rw [← hkind first hfirst]
        apply hpairs first hfirst
        rw [hattempt]
        rfl
      exact ⟨first, hfirst, second, hsecond, .attempts hrequest hattempt hother hne⟩
    · obtain ⟨first, hfirst, second, hsecond, item, other, hitem, hother, hne⟩ :=
        one_lt_length_dedup_filterMap.mp hitems
      obtain ⟨hcommitted, hitem⟩ := committedItem_eq_some.mp hitem
      obtain ⟨-, hother⟩ := committedItem_eq_some.mp hother
      rw [hkind first hfirst] at hcommitted
      exact ⟨first, hfirst, second, hsecond, .items hcommitted hitem hother hne⟩
  · intro h
    obtain ⟨first, hfirst, second, hsecond, hdisagree⟩ := h
    cases hdisagree with
    | origins hevent hother hne =>
      exact .inl (one_lt_length_dedup_filterMap.mpr
        ⟨first, hfirst, second, hsecond, _, _, hevent, hother, hne⟩)
    | partitions hne =>
      exact .inr (.inl (one_lt_length_dedup.mpr ⟨_, List.mem_map_of_mem hfirst, _,
        List.mem_map_of_mem hsecond, hne⟩))
    | attempts hrequest hattempt hother hne =>
      exact .inr (.inr (.inl (one_lt_length_dedup_filterMap.mpr
        ⟨first, hfirst, second, hsecond, _, _, hattempt, hother, hne⟩)))
    | items hcommitted hitem hother hne =>
      refine .inr (.inr (.inr (one_lt_length_dedup_filterMap.mpr
        ⟨first, hfirst, second, hsecond, _, _, committedItem_eq_some.mpr ⟨?_, hitem⟩,
          committedItem_eq_some.mpr ⟨?_, hother⟩, hne⟩)))
      · rw [hkind first hfirst]
        exact hcommitted
      · rw [hkind second hsecond]
        exact hcommitted

theorem isJudgedCollision_iff {kind : IdentityKind}
    {id : Uuid4} (hpairs : ∀ occurrence ∈ occurrences, PairsRequests occurrence) :
    isJudgedCollision (occurrencesOf occurrences (kind, id)) = true ↔
      Collides occurrences kind id := by
  have hdisagree : _ ↔ ∃ first ∈ occurrencesOf occurrences (kind, id),
      ∃ second ∈ occurrencesOf occurrences (kind, id), Disagree kind first second :=
    disagreement_iff (fun occurrence hmem => (mem_occurrencesOf.mp hmem).2.1)
      fun occurrence hmem => hpairs occurrence (mem_occurrencesOf.mp hmem).1
  simp only [isJudgedCollision, Bool.and_eq_true, List.any_eq_true, Bool.or_eq_true,
    decide_eq_true_eq, or_assoc, hdisagree]
  constructor
  · intro h
    obtain ⟨⟨occurrence, hmem, hexamined⟩, first, hfirst, second, hsecond, hne⟩ := h
    obtain ⟨hin, hof⟩ := mem_occurrencesOf.mp hmem
    obtain ⟨hfirst, hfirstOf⟩ := mem_occurrencesOf.mp hfirst
    obtain ⟨hsecond, hsecondOf⟩ := mem_occurrencesOf.mp hsecond
    exact ⟨⟨occurrence, hin, hof, hexamined⟩, first, hfirst, second, hsecond, hfirstOf, hsecondOf,
      hne⟩
  · intro h
    obtain ⟨occurrence, hin, hof, hexamined⟩ := h.examined
    obtain ⟨first, hfirst, second, hsecond, hfirstOf, hsecondOf, hne⟩ := h.disagreement
    exact ⟨⟨occurrence, mem_occurrencesOf.mpr ⟨hin, hof⟩, hexamined⟩, first,
      mem_occurrencesOf.mpr ⟨hfirst, hfirstOf⟩, second, mem_occurrencesOf.mpr ⟨hsecond, hsecondOf⟩,
      hne⟩

section Registry

variable (events : List IndexedEvent) (artifacts : List IngestedArtifact)

/-- The identities of the registry, in order of first appearance. -/
def registryKeys : List (IdentityKind × Uuid4) :=
  (byIdentity (identityOccurrences events artifacts)).map Prod.fst

def collisionOf (key : IdentityKind × Uuid4) : IdentityCollision :=
  toCollision key (occurrencesOf (identityOccurrences events artifacts) key)

def registryCollisions : List IdentityCollision :=
  ((registryKeys events artifacts).filter fun key =>
    isJudgedCollision (occurrencesOf (identityOccurrences events artifacts) key)).map
      (collisionOf events artifacts)

theorem buildIdentityRegistry_eq : buildIdentityRegistry events artifacts =
    { callerCollisions := (registryCollisions events artifacts).filter fun collision =>
        callerKinds.contains collision.kind
      providerCollisions := (registryCollisions events artifacts).filter fun collision =>
        !callerKinds.contains collision.kind
      unregisteredAttempts := unregisteredAttempts events
        (byIdentity (identityOccurrences events artifacts)) } := by
  have hcollisions : ((byIdentity (identityOccurrences events artifacts)).filter
      fun entry => isJudgedCollision entry.2).map (fun entry => toCollision entry.1 entry.2) =
        registryCollisions events artifacts := by
    have hgroups : byIdentity (identityOccurrences events artifacts) =
        (registryKeys events artifacts).map fun key =>
          (key, occurrencesOf (identityOccurrences events artifacts) key) :=
      InsertionMap.grouped_eq_map _ _ _
    unfold registryCollisions
    rw [hgroups, List.filter_map, List.map_map]
    rfl
  rw [← hcollisions]
  rfl

variable {events artifacts} {kind : IdentityKind} {id : Uuid4}

theorem mem_registryKeys : (kind, id) ∈ registryKeys events artifacts ↔
    ∃ occurrence ∈ identityOccurrences events artifacts, occurrence.Of kind id := by
  unfold registryKeys IdentityOccurrence.Of
  rw [byIdentity_eq, InsertionMap.mem_keys_grouped, List.mem_map]
  simp only [Prod.mk.injEq]

theorem registryKeys_nodup : (registryKeys events artifacts).Nodup :=
  InsertionMap.nodup_keys_grouped _ _ _

variable {collision : IdentityCollision}

theorem mem_registryCollisions :
    collision ∈ registryCollisions events artifacts ↔
      Collides (identityOccurrences events artifacts) collision.kind collision.id ∧
        collision = collisionOf events artifacts (collision.kind, collision.id) := by
  unfold registryCollisions
  rw [List.mem_map]
  constructor
  · intro h
    obtain ⟨⟨kind, id⟩, hkey, rfl⟩ := h
    refine ⟨?_, rfl⟩
    exact (isJudgedCollision_iff fun _ => identityOccurrences_pairs).mp (List.mem_filter.mp hkey).2
  · intro h
    obtain ⟨hcollides, heq⟩ := h
    refine ⟨(collision.kind, collision.id), List.mem_filter.mpr ⟨?_, ?_⟩, heq.symm⟩
    · obtain ⟨occurrence, hmem, hof, -⟩ := hcollides.examined
      exact mem_registryKeys.mpr ⟨occurrence, hmem, hof⟩
    · exact (isJudgedCollision_iff fun _ => identityOccurrences_pairs).mpr hcollides

theorem mem_callerCollisions :
    collision ∈ (buildIdentityRegistry events artifacts).callerCollisions ↔
      collision ∈ registryCollisions events artifacts ∧ collision.kind ∈ callerKinds := by
  rw [buildIdentityRegistry_eq, List.mem_filter, List.contains_iff_mem]

theorem mem_providerCollisions :
    collision ∈ (buildIdentityRegistry events artifacts).providerCollisions ↔
      collision ∈ registryCollisions events artifacts ∧ collision.kind ∉ callerKinds := by
  rw [buildIdentityRegistry_eq, List.mem_filter, Bool.not_eq_true', ← Bool.not_eq_true,
    List.contains_iff_mem]

theorem reports_iff_collides : (buildIdentityRegistry events artifacts).Reports kind id ↔
    Collides (identityOccurrences events artifacts) kind id := by
  constructor
  · intro h
    obtain ⟨collision, hmem, rfl, rfl⟩ := h
    rcases List.mem_append.mp hmem with hcaller | hprovider
    · exact (mem_registryCollisions.mp (mem_callerCollisions.mp hcaller).1).1
    · exact (mem_registryCollisions.mp (mem_providerCollisions.mp hprovider).1).1
  · intro h
    have hin : collisionOf events artifacts (kind, id) ∈ registryCollisions events artifacts :=
      mem_registryCollisions.mpr ⟨h, rfl⟩
    refine ⟨collisionOf events artifacts (kind, id), List.mem_append.mpr ?_, rfl, rfl⟩
    by_cases hkind : kind ∈ callerKinds
    · exact .inl (mem_callerCollisions.mpr ⟨hin, hkind⟩)
    · exact .inr (mem_providerCollisions.mpr ⟨hin, hkind⟩)

end Registry

/-! ## The order of events and artifacts -/

/-- Two reports of one collision that differ in their listing order at most. -/
structure SameCollision (first second : IdentityCollision) : Prop where
  kind : first.kind = second.kind
  id : first.id = second.id
  originEventIds : first.originEventIds.Perm second.originEventIds
  partitions : first.partitions.Perm second.partitions
  refs : first.refs.Perm second.refs

def IdentityCollision.key (collision : IdentityCollision) : IdentityKind × Uuid4 :=
  (collision.kind, collision.id)

/-- Two registries that differ in their listing order at most. -/
structure SameRegistry (first second : IdentityRegistry) : Prop where
  callerKeys : (first.callerCollisions.map IdentityCollision.key).Perm
    (second.callerCollisions.map IdentityCollision.key)
  providerKeys : (first.providerCollisions.map IdentityCollision.key).Perm
    (second.providerCollisions.map IdentityCollision.key)
  callers : ∀ collision ∈ first.callerCollisions, ∃ other ∈ second.callerCollisions,
    SameCollision collision other
  providers : ∀ collision ∈ first.providerCollisions, ∃ other ∈ second.providerCollisions,
    SameCollision collision other
  unregistered : first.unregisteredAttempts.Perm second.unregisteredAttempts

theorem toCollision_perm {key : IdentityKind × Uuid4} {group other : List IdentityOccurrence}
    (h : group.Perm other) : SameCollision (toCollision key group) (toCollision key other) where
  kind := rfl
  id := rfl
  originEventIds := by
    refine (List.perm_insertionSort _ _).trans (List.Perm.trans ?_ (List.perm_insertionSort _ _).symm)
    exact (h.filterMap _).dedup
  partitions := by
    refine (List.perm_insertionSort _ _).trans (List.Perm.trans ?_ (List.perm_insertionSort _ _).symm)
    exact (h.map _).dedup
  refs := by
    refine (List.perm_insertionSort _ _).trans (List.Perm.trans ?_ (List.perm_insertionSort _ _).symm)
    exact h.map _

section Order

variable {events events' : List IndexedEvent} {artifacts artifacts' : List IngestedArtifact}

theorem identityOccurrences_perm (hevents : events.Perm events')
    (hartifacts : artifacts.Perm artifacts') :
    (identityOccurrences events artifacts).Perm (identityOccurrences events' artifacts') :=
  (hevents.flatMap_right _).append (hartifacts.flatMap_right _)

/-- Where every occurrence is found again, whatever its reference, nothing stops colliding. -/
theorem Collides.transfer {occurrences others : List IdentityOccurrence} {kind : IdentityKind}
    {id : Uuid4} (h : Collides occurrences kind id)
    (hagain : ∀ occurrence ∈ occurrences, ∃ ref, { occurrence with ref := ref } ∈ others) :
    Collides others kind id := by
  obtain ⟨occurrence, hmem, hof, hexamined⟩ := h.examined
  obtain ⟨first, hfirst, second, hsecond, hfirstOf, hsecondOf, hdisagree⟩ := h.disagreement
  obtain ⟨_, hagainExamined⟩ := hagain occurrence hmem
  obtain ⟨_, hagainFirst⟩ := hagain first hfirst
  obtain ⟨_, hagainSecond⟩ := hagain second hsecond
  refine ⟨⟨_, hagainExamined, hof, hexamined⟩, _, hagainFirst, _, hagainSecond, hfirstOf, hsecondOf, ?_⟩
  cases hdisagree with
  | origins hevent hother hne => exact .origins hevent hother hne
  | partitions hne => exact .partitions hne
  | attempts hrequest hattempt hother hne => exact .attempts hrequest hattempt hother hne
  | items hcommitted hitem hother hne => exact .items hcommitted hitem hother hne

theorem Collides.mono {occurrences others : List IdentityOccurrence} {kind : IdentityKind}
    {id : Uuid4} (h : Collides occurrences kind id) (hsub : occurrences ⊆ others) :
    Collides others kind id :=
  h.transfer fun occurrence hmem => ⟨occurrence.ref, hsub hmem⟩

theorem collisionOf_perm (h : (identityOccurrences events artifacts).Perm
    (identityOccurrences events' artifacts')) (key : IdentityKind × Uuid4) :
    SameCollision (collisionOf events artifacts key) (collisionOf events' artifacts' key) :=
  toCollision_perm (InsertionMap.valuesAt_perm h key)

theorem registryCollisions_perm (h : (identityOccurrences events artifacts).Perm
    (identityOccurrences events' artifacts')) {collision : IdentityCollision}
    (hmem : collision ∈ registryCollisions events artifacts) :
    ∃ other ∈ registryCollisions events' artifacts', SameCollision collision other := by
  obtain ⟨hcollides, heq⟩ := mem_registryCollisions.mp hmem
  refine ⟨collisionOf events' artifacts' (collision.kind, collision.id),
    mem_registryCollisions.mpr ⟨hcollides.mono h.subset, rfl⟩, ?_⟩
  rw [heq]
  exact collisionOf_perm h _

theorem registryCollisions_keys : (registryCollisions events artifacts).map IdentityCollision.key =
    (registryKeys events artifacts).filter fun key =>
      isJudgedCollision (occurrencesOf (identityOccurrences events artifacts) key) := by
  unfold registryCollisions
  rw [List.map_map]
  exact List.map_id _

theorem mem_collisionKeys {kind : IdentityKind} {id : Uuid4} :
    (kind, id) ∈ (registryCollisions events artifacts).map IdentityCollision.key ↔
      Collides (identityOccurrences events artifacts) kind id := by
  rw [List.mem_map]
  constructor
  · intro h
    obtain ⟨collision, hmem, hkey⟩ := h
    obtain ⟨rfl, rfl⟩ := Prod.mk.inj hkey
    exact (mem_registryCollisions.mp hmem).1
  · intro h
    exact ⟨collisionOf events artifacts (kind, id), mem_registryCollisions.mpr ⟨h, rfl⟩, rfl⟩

theorem collisionKeys_perm (h : (identityOccurrences events artifacts).Perm
    (identityOccurrences events' artifacts')) :
    ((registryCollisions events artifacts).map IdentityCollision.key).Perm
      ((registryCollisions events' artifacts').map IdentityCollision.key) := by
  refine (List.perm_ext_iff_of_nodup ?_ ?_).mpr fun key => ?_
  · rw [registryCollisions_keys]
    exact registryKeys_nodup.filter _
  · rw [registryCollisions_keys]
    exact registryKeys_nodup.filter _
  · obtain ⟨kind, id⟩ := key
    rw [mem_collisionKeys, mem_collisionKeys]
    exact ⟨fun hcollides => hcollides.mono h.subset, fun hcollides => hcollides.mono h.symm.subset⟩

theorem filter_collisionKeys (keep : IdentityKind → Bool) (collisions : List IdentityCollision) :
    (collisions.filter fun collision => keep collision.kind).map IdentityCollision.key =
      (collisions.map IdentityCollision.key).filter fun key => keep key.1 := by
  rw [List.filter_map]
  rfl

theorem isRegistered_iff {attemptId : Uuid4} :
    isRegistered (byIdentity occurrences) attemptId = true ↔
      ∃ occurrence ∈ occurrences, occurrence.Of .attemptId attemptId ∧
        occurrence.originEventId.isSome = true := by
  have hgroup : ((byIdentity occurrences).get? (.attemptId, attemptId)).getD [] =
      occurrencesOf occurrences (.attemptId, attemptId) := by
    rw [byIdentity_eq, InsertionMap.get?_grouped]
    split
    · rfl
    · rename_i habsent
      exact (InsertionMap.valuesAt_eq_nil habsent).symm
  unfold isRegistered
  rw [hgroup, List.any_eq_true]
  simp only [mem_occurrencesOf, and_assoc]

theorem unregisteredAttempts_perm (hevents : events.Perm events')
    (h : (identityOccurrences events artifacts).Perm (identityOccurrences events' artifacts')) :
    (unregisteredAttempts events (byIdentity (identityOccurrences events artifacts))).Perm
      (unregisteredAttempts events' (byIdentity (identityOccurrences events' artifacts'))) := by
  have hsame : isRegistered (byIdentity (identityOccurrences events artifacts)) =
      isRegistered (byIdentity (identityOccurrences events' artifacts')) := by
    funext attemptId
    rw [Bool.eq_iff_iff, isRegistered_iff, isRegistered_iff]
    simp only [h.mem_iff]
  unfold unregisteredAttempts
  rw [hsame]
  exact hevents.filterMap _

theorem buildIdentityRegistry_perm (hevents : events.Perm events')
    (hartifacts : artifacts.Perm artifacts') :
    SameRegistry (buildIdentityRegistry events artifacts)
      (buildIdentityRegistry events' artifacts') := by
  have h := identityOccurrences_perm hevents hartifacts
  refine ⟨?_, ?_, ?_, ?_, ?_⟩
  · rw [buildIdentityRegistry_eq, buildIdentityRegistry_eq, filter_collisionKeys callerKinds.contains,
      filter_collisionKeys callerKinds.contains]
    exact (collisionKeys_perm h).filter _
  · rw [buildIdentityRegistry_eq, buildIdentityRegistry_eq,
      filter_collisionKeys fun kind => !callerKinds.contains kind,
      filter_collisionKeys fun kind => !callerKinds.contains kind]
    exact (collisionKeys_perm h).filter _
  · intro collision hmem
    obtain ⟨hin, hkind⟩ := mem_callerCollisions.mp hmem
    obtain ⟨other, hother, hsame⟩ := registryCollisions_perm h hin
    rw [hsame.kind] at hkind
    exact ⟨other, mem_callerCollisions.mpr ⟨hother, hkind⟩, hsame⟩
  · intro collision hmem
    obtain ⟨hin, hkind⟩ := mem_providerCollisions.mp hmem
    obtain ⟨other, hother, hsame⟩ := registryCollisions_perm h hin
    rw [hsame.kind] at hkind
    exact ⟨other, mem_providerCollisions.mpr ⟨hother, hkind⟩, hsame⟩
  · rw [buildIdentityRegistry_eq, buildIdentityRegistry_eq]
    exact unregisteredAttempts_perm hevents h

end Order

end RefundStudy.Ingestion
