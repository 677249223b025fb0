/-
  The leak audit of cleanup steps 10 and 11 (`cleanup/leak-auditor.ts`,
  `operational-statuses.ts`, `leak-capability.ts`; BR-RUA-051, BR-RUA-052).
-/
import RefundStudy.Cleanup.Deletion
import RefundStudy.Foundation.Environment
import Mathlib.Order.Monotone.Basic
import Mathlib.Data.Nat.Basic
import Mathlib.Data.Int.ConditionallyCompleteOrder
import Mathlib.Order.ConditionallyCompleteLattice.Basic

set_option autoImplicit false

namespace RefundStudy.Cleanup

open Foundation Record

/-! ## What an audit reports -/

inductive LeakCapabilityClass where
  | processingCapable
  | storageOnly
  | identity
  | unknown

def capabilityByType : InsertionMap String LeakCapabilityClass :=
  [(stackResourceType, .processingCapable), (functionResourceType, .processingCapable),
    ("AWS::Lambda::Version", .processingCapable), ("AWS::Lambda::Alias", .processingCapable),
    (eventSourceMappingResourceType, .processingCapable),
    (durableExecutionResourceType, .processingCapable), (queueResourceType, .storageOnly),
    (tableResourceType, .storageOnly), (logGroupResourceType, .storageOnly),
    ("AWS::IAM::Role", .identity), ("AWS::IAM::Policy", .identity),
    ("AWS::IAM::ManagedPolicy", .identity), ("AWS::Lambda::Permission", .identity),
    ("AWS::SQS::QueuePolicy", .identity)]

def classifyLeakCapability (resourceType : String) : LeakCapabilityClass :=
  (capabilityByType.get? resourceType).getD .unknown

structure LeakedResource where
  resourceType : String
  identifier : String
  surface : LeakAuditSurface
  capabilityClass : LeakCapabilityClass
  ownershipBasis : OwnedBasis

structure AmbiguousResource where
  resourceType : String
  identifier : String
  surface : LeakAuditSurface
  reasons : List StructuredReason

/-- One surface of an `AuditPass`, with the owned identifiers it still observes. -/
structure PassSurface where
  surface : LeakAuditSurface
  queryOk : Bool
  observed : List String

structure AuditPass where
  startedAt : UtcMillis
  completedAt : UtcMillis
  surfaces : List PassSurface

structure PassFindings where
  pass : AuditPass
  leaks : List LeakedResource
  ambiguous : List AmbiguousResource

/-- The `leak_audit_result` record of an audit, without its identity fields. -/
structure LeakAuditRecord where
  leakAuditStatus : LeakAuditStatus
  passes : List AuditPass
  leaks : List LeakedResource
  ambiguous : List AmbiguousResource
  stableAbsenceIntervalMs : Int
  auditedAt : UtcMillis

/-- `STABLE_ABSENCE_MS`. -/
def stableAbsenceMs : Int := 120000

def requiredAuditPasses : Nat := 2

def deriveLeakAuditStatus (passes : List AuditPass) (leakCount ambiguousCount : Nat)
    (intervalMs : Int) : LeakAuditStatus :=
  let queriesFailed := passes.any (·.surfaces.any (!·.queryOk))
  if passes.length < requiredAuditPasses ∨ queriesFailed = true ∨ 0 < ambiguousCount then
    .inconclusive
  else
    let observed := passes.any (·.surfaces.any (!·.observed.isEmpty))
    if observed = true ∨ 0 < leakCount then .leaksDetected
    else if stableAbsenceMs ≤ intervalMs then .clean
    else .inconclusive

def toLeak (entry : JudgedResource) : List LeakedResource :=
  match entry.decision with
  | .owned basis =>
    [⟨entry.resource.resourceType, entry.resource.identifier, entry.resource.surface,
      classifyLeakCapability entry.resource.resourceType, basis⟩]
  | .ambiguous _ _ | .excludedBaseline => []

def toAmbiguous (entry : JudgedResource) : List AmbiguousResource :=
  match entry.decision with
  | .ambiguous first others =>
    [⟨entry.resource.resourceType, entry.resource.identifier, entry.resource.surface,
      first :: others⟩]
  | .owned _ | .excludedBaseline => []

/-- Whether the merged decision of a sighting's key is `owned`. -/
def judgedOwned (judged : InsertionMap String JudgedResource) (resource : DiscoveredResource) :
    Bool :=
  match judged.get? resource.key with
  | some ⟨_, .owned _⟩ => true
  | _ => false

def ownedIdentifiers (sighting : SurfaceSighting) (judged : InsertionMap String JudgedResource) :
    List String :=
  sortedSet ((sighting.resources.filter (judgedOwned judged)).map (·.identifier))

/-- The filter of `uniqueByResource` with the keys seen so far. -/
def keepUnseen {α : Type} (key : α → String) : List String → List α → List α
  | _, [] => []
  | seen, entry :: rest =>
    if seen.contains (key entry) then keepUnseen key seen rest
    else entry :: keepUnseen key (key entry :: seen) rest

def uniqueByResource {α : Type} (key : α → String) (entries : List α) : List α :=
  keepUnseen key [] entries

theorem uniqueByResource_nil {α : Type} {key : α → String} {entries : List α}
    (h : uniqueByResource key entries = []) : entries = [] := by
  cases entries with
  | nil => rfl
  | cons entry rest => cases h

/-! ## The auditor -/

/-- The calls of the auditor: those of a sweep, the clocks and the sleeper. -/
inductive AuditCall where
  | surfaces (request : CleanupCall)
  | nowNs
  | sleep (milliseconds : Int)
  | now

def AuditReply : AuditCall → Type
  | .surfaces request => CleanupReply request
  | .nowNs => Int
  | .sleep _ => Unit
  | .now => UtcMillis

abbrev AuditExchange : Type := Exchange AuditCall AuditReply

/-- A program of the auditor, inside the cleanup run that asked for the audit. -/
abbrev AuditM : Type → Type := Stateful Thrown RunState AuditCall AuditReply

/-- `monotonic.nowNs`. -/
def monotonicNs : AuditM Int := Stateful.perform AuditCall.nowNs

def sleepFor (milliseconds : Int) : AuditM Unit := Stateful.perform (AuditCall.sleep milliseconds)

/-- `formatUtcMillis(clock.now())`. -/
def wallNow : AuditM UtcMillis := Stateful.perform AuditCall.now

/-- `sweepSurfaces`, as the auditor calls it. -/
def sweepForAudit : AuditM (List SurfaceSighting) :=
  Stateful.within AuditCall.surfaces sweepSurfaces

def maxStabilitySleeps : Nat := 8

/-- `NS_PER_MS`. -/
def nsPerMs : Int := 1000000

variable (ownership : OwnershipContext)

def runPass : AuditM PassFindings := do
  let startedAt ← wallNow
  let sightings ← sweepForAudit
  let judged := judgeOwnership (sightings.flatMap (·.resources)) ownership
  let completedAt ← wallNow
  return {
    pass := ⟨startedAt, completedAt, sightings.map fun sighting =>
      ⟨sighting.surface, sighting.queryOk, ownedIdentifiers sighting judged⟩⟩
    leaks := judged.values.flatMap toLeak
    ambiguous := judged.values.flatMap toAmbiguous }

/-- `#waitForStableAbsence` with this many sleeps left: the milliseconds elapsed once they are
enough. -/
def waitForStableAbsence (fromNs : Int) : Nat → AuditM (Option Int)
  | 0 => do
    let elapsedMs := ((← monotonicNs) - fromNs).tdiv nsPerMs
    if stableAbsenceMs ≤ elapsedMs then return some elapsedMs else return none
  | sleeps + 1 => do
    let elapsedMs := ((← monotonicNs) - fromNs).tdiv nsPerMs
    if stableAbsenceMs ≤ elapsedMs then return some elapsedMs
    else
      sleepFor (stableAbsenceMs - elapsedMs)
      waitForStableAbsence fromNs sleeps

def secondPass : Option Int → AuditM (List PassFindings)
  | none => pure []
  | some _ => do return [← runPass ownership]

def audit : AuditM LeakAuditRecord := do
  let first ← runPass ownership
  let fromNs ← monotonicNs
  let interval ← waitForStableAbsence fromNs maxStabilitySleeps
  let second ← secondPass ownership interval
  let findings := first :: second
  let leaks := uniqueByResource
    (fun leak => resourceKey leak.resourceType leak.identifier) (findings.flatMap (·.leaks))
  let ambiguous := uniqueByResource
    (fun entry => resourceKey entry.resourceType entry.identifier) (findings.flatMap (·.ambiguous))
  let passes := findings.map (·.pass)
  let auditedAt ← wallNow
  return {
    leakAuditStatus := deriveLeakAuditStatus passes leaks.length ambiguous.length (interval.getD 0)
    passes := passes
    leaks := leaks
    ambiguous := ambiguous
    stableAbsenceIntervalMs := interval.getD 0
    auditedAt := auditedAt }

/-! ## What the exchanges of an audit show -/

def sweptBy : AuditExchange → Option CleanupExchange
  | ⟨.surfaces request, reply⟩ => some ⟨request, reply⟩
  | _ => none

def sweepIn (trace : List AuditExchange) : List CleanupExchange := trace.filterMap sweptBy

def isSleep : AuditExchange → Bool
  | ⟨.sleep _, _⟩ => true
  | _ => false

/-- How often an audit slept. -/
def sleepsIn (trace : List AuditExchange) : Nat := trace.countP isSleep

@[simp] theorem sweepIn_append (front back : List AuditExchange) :
    sweepIn (front ++ back) = sweepIn front ++ sweepIn back := List.filterMap_append

@[simp] theorem sleepsIn_append (front back : List AuditExchange) :
    sleepsIn (front ++ back) = sleepsIn front + sleepsIn back := List.countP_append

def sweepExchange (exchange : CleanupExchange) : AuditExchange :=
  ⟨.surfaces exchange.1, exchange.2⟩

theorem sweepIn_sweep (sweep : List CleanupExchange) :
    sweepIn (sweep.map sweepExchange) = sweep := by
  induction sweep with
  | nil => rfl
  | cons exchange rest ih => exact congrArg (List.cons exchange) ih

theorem sleepsIn_sweep (sweep : List CleanupExchange) :
    sleepsIn (sweep.map sweepExchange) = 0 := by
  unfold sleepsIn
  rw [List.countP_map]
  refine List.countP_eq_zero.mpr fun exchange _ hsleep => ?_
  cases hsleep

def queryFailed : CleanupExchange → Bool
  | ⟨.port (.query _), .error _⟩ | ⟨.port (.query _), .ok (.error _)⟩ => true
  | ⟨.port (.confirmPresence _), .error _⟩ | ⟨.port (.confirmPresence _), .ok (.failed _)⟩ => true
  | _ => false

/-- Every surface was queried, and every query and presence check was answered. -/
structure AllAnswered (sweep : List CleanupExchange) : Prop where
  queried : ∀ surface ∈ leakAuditSurfaces, ∃ reply, ⟨.port (.query surface), reply⟩ ∈ sweep
  answered : ∀ exchange ∈ sweep, queryFailed exchange = false

section Sweep

variable {start : List CleanupActionEntry}

theorem confirmAll_answered (resources : List DiscoveredResource) :
    Logs start (collect confirmResource resources) fun result _ trace =>
      ∃ checks, result = .ok checks ∧ (failuresOf checks = [] →
        ∀ exchange ∈ trace, queryFailed exchange = false) := by
  induction resources generalizing start with
  | nil => exact Emits.pure ⟨[], rfl, fun _ _ hmem => absurd hmem List.not_mem_nil⟩
  | cons resource rest ih =>
    have hhere : ∀ start, Logs start (confirmResource resource)
        fun result _ trace => ∃ checks, result = .ok checks ∧ (failuresOf checks = [] →
          ∀ exchange ∈ trace, queryFailed exchange = false) := by
      intro start
      refine Emits.andThen (askPort_emits _) ?_
      rintro answer emitted trace ⟨_, heq, rfl, rfl⟩
      obtain rfl := Except.ok.inj heq
      match answer with
      | .ok .present | .ok .absent =>
        refine Emits.pure ⟨_, rfl, fun _ exchange hmem => ?_⟩
        rw [List.mem_singleton.mp hmem]
        rfl
      | .ok (.failed reason) | .error thrown =>
        refine Emits.pure ⟨_, rfl, fun hnone => ?_⟩
        cases hnone
    refine Emits.andThen (hhere start) ?_
    rintro checks emitted trace ⟨_, heq, hchecks⟩
    obtain rfl := Except.ok.inj heq
    refine Emits.andThen ih ?_
    rintro more emitted' trace' ⟨_, heq', hmore⟩
    obtain rfl := Except.ok.inj heq'
    refine Emits.pure ⟨_, rfl, fun hnone exchange hmem => ?_⟩
    rw [failuresOf, List.flatMap_append] at hnone
    obtain ⟨hfirst, hrest⟩ := List.append_eq_nil_iff.mp hnone
    rw [List.append_nil, List.mem_append] at hmem
    exact hmem.elim (hchecks hfirst exchange) (hmore hrest exchange)

theorem sightSurface_answered (surface : LeakAuditSurface) :
    Logs start (sightSurface surface) fun result _ trace =>
      ∃ sightings, result = .ok sightings ∧ (∃ reply, ⟨.port (.query surface), reply⟩ ∈ trace) ∧
        ((∀ sighting ∈ sightings, sighting.queryOk = true) →
          ∀ exchange ∈ trace, queryFailed exchange = false) := by
  refine Emits.andThen (askPort_emits _) ?_
  rintro answer emitted trace ⟨_, heq, rfl, rfl⟩
  obtain rfl := Except.ok.inj heq
  match answer with
  | .error thrown | .ok (.error reason) =>
    refine Emits.pure ⟨_, rfl, ⟨_, List.mem_singleton_self _⟩, fun hall => ?_⟩
    cases hall _ (List.mem_singleton_self _)
  | .ok (.ok resources) =>
    have hquery : queryFailed ⟨.port (.query surface), .ok (.ok resources)⟩ = false := rfl
    dsimp only
    split
    · refine Emits.andThen (confirmAll_answered resources) ?_
      rintro checks emitted trace ⟨_, heq, hchecks⟩
      obtain rfl := Except.ok.inj heq
      refine Emits.pure ⟨_, rfl, ⟨_, List.mem_cons_self⟩, fun hall exchange hmem => ?_⟩
      have hnone : failuresOf checks = [] :=
        List.isEmpty_iff.mp (hall _ (List.mem_singleton_self _))
      rw [List.append_nil] at hmem
      rcases List.mem_append.mp hmem with hmem | hmem
      · rw [List.mem_singleton.mp hmem]
        exact hquery
      · exact hchecks hnone exchange hmem
    · refine Emits.pure ⟨_, rfl, ⟨_, List.mem_singleton_self _⟩, fun _ exchange hmem => ?_⟩
      rw [List.mem_singleton.mp hmem]
      exact hquery

theorem sightAll_answered (surfaces : List LeakAuditSurface) :
    Logs start (collect sightSurface surfaces) fun result _ trace =>
      ∃ sightings, result = .ok sightings ∧
        (∀ surface ∈ surfaces, ∃ reply, ⟨.port (.query surface), reply⟩ ∈ trace) ∧
        ((∀ sighting ∈ sightings, sighting.queryOk = true) →
          ∀ exchange ∈ trace, queryFailed exchange = false) := by
  induction surfaces generalizing start with
  | nil =>
    exact Emits.pure ⟨[], rfl, fun _ hmem => absurd hmem List.not_mem_nil,
      fun _ _ hmem => absurd hmem List.not_mem_nil⟩
  | cons surface rest ih =>
    refine Emits.andThen (sightSurface_answered surface) ?_
    rintro here emitted trace ⟨_, heq, ⟨reply, hreply⟩, hanswered⟩
    obtain rfl := Except.ok.inj heq
    refine Emits.andThen ih ?_
    rintro more emitted' trace' ⟨_, heq', hqueried, hanswered'⟩
    obtain rfl := Except.ok.inj heq'
    refine Emits.pure ⟨_, rfl, fun other hmem => ?_, fun hall exchange hmem => ?_⟩
    · rw [List.append_nil]
      rcases List.mem_cons.mp hmem with rfl | hmem
      · exact ⟨reply, List.mem_append_left _ hreply⟩
      · obtain ⟨reply', hreply'⟩ := hqueried other hmem
        exact ⟨reply', List.mem_append_right _ hreply'⟩
    · rw [List.append_nil, List.mem_append] at hmem
      rcases hmem with hmem | hmem
      · exact hanswered (fun sighting h => hall sighting (List.mem_append_left _ h)) _ hmem
      · exact hanswered' (fun sighting h => hall sighting (List.mem_append_right _ h)) _ hmem

theorem sweepForAudit_emits : Logs start sweepForAudit fun result _ trace =>
    ∃ sightings sweep, result = .ok sightings ∧ trace = sweep.map sweepExchange ∧
      sightings.flatMap (·.resources) = sightedIn sweep ∧
      ((∀ sighting ∈ sightings, sighting.queryOk = true) → AllAnswered sweep) := by
  have hsweep : Logs start sweepSurfaces fun result _ trace =>
      ∃ sightings, result = .ok sightings ∧ sightings.flatMap (·.resources) = sightedIn trace ∧
        ((∀ sighting ∈ sightings, sighting.queryOk = true) → AllAnswered trace) := by
    refine (sweepSurfaces_reads.both (sightAll_answered leakAuditSurfaces)).weaken ?_
    rintro result emitted trace ⟨⟨-, sightings, rfl, hread⟩, _, heq, hqueried, hanswered⟩
    obtain rfl := Except.ok.inj heq
    exact ⟨sightings, rfl, hread, fun hall => ⟨hqueried, hanswered hall⟩⟩
  refine (hsweep.within AuditCall.surfaces).weaken ?_
  rintro result emitted trace ⟨sweep, rfl, sightings, hok, hread, hanswered⟩
  exact ⟨sightings, sweep, hok, rfl, hread, hanswered⟩

theorem wallNow_emits : Logs start wallNow fun result _ trace =>
    ∃ reading : UtcMillis, result = .ok reading ∧ trace = [⟨.now, reading⟩] :=
  Emits.perform fun reading => ⟨reading, rfl, rfl⟩

theorem monotonicNs_emits : Logs start monotonicNs fun result _ trace =>
    ∃ reading : Int, result = .ok reading ∧ trace = [⟨.nowNs, reading⟩] :=
  Emits.perform fun reading => ⟨reading, rfl, rfl⟩

/-- What a pass found against what its sweep exchanged. -/
structure PassOf (ownership : OwnershipContext) (findings : PassFindings)
    (sweep : List CleanupExchange) : Prop where
  leaks : findings.leaks =
    (judgeOwnership (sightedIn sweep) ownership).values.flatMap toLeak
  ambiguous : findings.ambiguous =
    (judgeOwnership (sightedIn sweep) ownership).values.flatMap toAmbiguous
  answered : (∀ surface ∈ findings.pass.surfaces, surface.queryOk = true) → AllAnswered sweep

theorem runPass_emits (ownership : OwnershipContext) :
    Logs start (runPass ownership) fun result _ trace =>
      ∃ findings, result = .ok findings ∧ sleepsIn trace = 0 ∧
        PassOf ownership findings (sweepIn trace) := by
  refine Emits.andThen wallNow_emits ?_
  rintro startedAt emitted₁ trace₁ ⟨_, heq, rfl⟩
  obtain rfl := Except.ok.inj heq
  refine Emits.andThen sweepForAudit_emits ?_
  rintro sightings emitted₂ trace₂ ⟨_, sweep, heq₂, rfl, hread, hanswered⟩
  obtain rfl := Except.ok.inj heq₂
  refine Emits.andThen wallNow_emits ?_
  rintro completedAt emitted₃ trace₃ ⟨_, heq₃, rfl⟩
  obtain rfl := Except.ok.inj heq₃
  have hsweep : sweepIn ([⟨.now, startedAt⟩] ++ (sweep.map sweepExchange ++
      ([⟨.now, completedAt⟩] ++ []))) = sweep := by
    rw [sweepIn_append, sweepIn_append, sweepIn_sweep]
    exact List.append_nil sweep
  have hsleeps : sleepsIn ([⟨.now, startedAt⟩] ++ (sweep.map sweepExchange ++
      ([⟨.now, completedAt⟩] ++ []))) = 0 := by
    rw [sleepsIn_append, sleepsIn_append, sleepsIn_sweep]
    rfl
  refine Emits.pure ⟨_, rfl, hsleeps, ?_⟩
  rw [hsweep]
  refine ⟨by rw [hread], by rw [hread], fun hall => hanswered fun sighting hmem => ?_⟩
  exact hall _ (List.mem_map_of_mem hmem)

/-- The wait ends with a reading: it sleeps at most as often as it may, and returns an interval
only when its last reading is that much later than the first. -/
theorem waitForStableAbsence_emits (fromNs : Int) (sleeps : Nat) :
    Logs start (waitForStableAbsence fromNs sleeps) fun result _ trace =>
      ∃ interval, result = .ok interval ∧ sleepsIn trace ≤ sleeps ∧
        ∃ front, ∃ reading : Int, trace = front ++ [⟨.nowNs, reading⟩] ∧
          ∀ elapsedMs, interval = some elapsedMs →
            elapsedMs = (reading - fromNs).tdiv nsPerMs ∧ stableAbsenceMs ≤ elapsedMs := by
  induction sleeps generalizing start with
  | zero =>
    refine Emits.andThen monotonicNs_emits ?_
    rintro reading emitted trace ⟨_, heq, rfl⟩
    obtain rfl := Except.ok.inj heq
    dsimp only
    split
    · rename_i henough
      refine Emits.pure ⟨_, rfl, Nat.le_refl 0, [], reading, rfl, fun elapsedMs hsome => ?_⟩
      obtain rfl := Option.some.inj hsome
      exact ⟨rfl, henough⟩
    · refine Emits.pure ⟨_, rfl, Nat.le_refl 0, [], reading, rfl, fun elapsedMs hsome => ?_⟩
      cases hsome
  | succ sleeps ih =>
    refine Emits.andThen monotonicNs_emits ?_
    rintro reading emitted trace ⟨_, heq, rfl⟩
    obtain rfl := Except.ok.inj heq
    dsimp only
    split
    · rename_i henough
      refine Emits.pure ⟨_, rfl, Nat.zero_le _, [], reading, rfl, fun elapsedMs hsome => ?_⟩
      obtain rfl := Option.some.inj hsome
      exact ⟨rfl, henough⟩
    · refine Emits.andThen (R := fun result _ trace => ∃ reply : Unit, result = .ok reply ∧
        trace = [⟨.sleep (stableAbsenceMs - (reading - fromNs).tdiv nsPerMs), reply⟩])
        (Emits.perform fun reply => ⟨reply, rfl, rfl⟩) ?_
      rintro reply emitted' trace' ⟨_, heq', rfl⟩
      refine ih.weaken ?_
      rintro result emitted'' trace'' ⟨interval, hok, hsleeps, front, last, rfl, hinterval⟩
      refine ⟨interval, hok, ?_, ⟨.nowNs, reading⟩ :: ⟨.sleep _, _⟩ :: front, last, rfl,
        hinterval⟩
      rw [sleepsIn_append, sleepsIn_append]
      have hread : sleepsIn [⟨.nowNs, reading⟩] = 0 := rfl
      have hslept : ∀ (ms : Int) (reply : Unit), sleepsIn [⟨.sleep ms, reply⟩] = 1 :=
        fun _ _ => rfl
      rw [hread, hslept]
      omega

end Sweep

/-! ## What a clean audit proves -/

theorem deriveLeakAuditStatus_clean {passes : List AuditPass} {leakCount ambiguousCount : Nat}
    {intervalMs : Int}
    (h : deriveLeakAuditStatus passes leakCount ambiguousCount intervalMs = .clean) :
    requiredAuditPasses ≤ passes.length ∧
    (∀ pass ∈ passes, ∀ surface ∈ pass.surfaces, surface.queryOk = true) ∧
    leakCount = 0 ∧ ambiguousCount = 0 ∧ stableAbsenceMs ≤ intervalMs := by
  unfold deriveLeakAuditStatus at h
  dsimp only at h
  split at h
  · cases h
  · rename_i hconclusive
    split at h
    · cases h
    · rename_i hnone
      split at h
      · rename_i hinterval
        obtain ⟨hpasses, hqueries, hambiguous⟩ := not_or.mp hconclusive |>.imp id not_or.mp
        refine ⟨Nat.le_of_not_lt hpasses, fun pass hpass surface hsurface => ?_,
          Nat.eq_zero_of_not_pos fun hleak => hnone (.inr hleak), Nat.eq_zero_of_not_pos hambiguous,
          hinterval⟩
        cases hok : surface.queryOk with
        | true => rfl
        | false =>
          refine absurd ?_ hqueries
          refine List.any_eq_true.mpr ⟨pass, hpass, List.any_eq_true.mpr ⟨surface, hsurface, ?_⟩⟩
          rw [hok]
          rfl
      · cases h

/-- Every resource of a sweep is judged, and as a resource of the baseline. -/
def OnlyBaseline (sweep : List CleanupExchange) : Prop :=
  ∀ resource ∈ sightedIn sweep,
    ((judgeOwnership (sightedIn sweep) ownership).get? resource.key).map (·.decision) =
      some .excludedBaseline

theorem judgeOwnership_isSome {resources : List DiscoveredResource} {ownership : OwnershipContext}
    {resource : DiscoveredResource} (hmem : resource ∈ resources) :
    ∃ kept, (judgeOwnership resources ownership).get? resource.key = some kept := by
  refine Option.isSome_iff_exists.mp ?_
  unfold judgeOwnership
  rw [foldl_judgeSighting_get?, foldl_keepBetter_isSome, Bool.or_eq_true]
  right
  have hin : resource ∈ resources.filter (·.key = resource.key) :=
    List.mem_filter.mpr ⟨hmem, decide_eq_true rfl⟩
  cases hfilter : resources.filter (·.key = resource.key) with
  | nil =>
    rw [hfilter] at hin
    cases hin
  | cons first rest => rfl

theorem PassOf.onlyBaseline {ownership : OwnershipContext} {findings : PassFindings}
    {sweep : List CleanupExchange} (h : PassOf ownership findings sweep)
    (hleaks : findings.leaks = []) (hambiguous : findings.ambiguous = []) :
    OnlyBaseline ownership sweep := by
  intro resource hmem
  have hjudged : ∃ kept,
      (judgeOwnership (sightedIn sweep) ownership).get? resource.key = some kept :=
    judgeOwnership_isSome hmem
  obtain ⟨kept, hget⟩ := hjudged
  have hvalue : kept ∈ (judgeOwnership (sightedIn sweep) ownership).values :=
    List.mem_map.mpr ⟨_, InsertionMap.mem_of_get? hget, rfl⟩
  have hleak : toLeak kept = [] :=
    List.flatMap_eq_nil_iff.mp (h.leaks.symm.trans hleaks) kept hvalue
  have hunsure : toAmbiguous kept = [] :=
    List.flatMap_eq_nil_iff.mp (h.ambiguous.symm.trans hambiguous) kept hvalue
  rw [hget, Option.map_some]
  unfold toLeak at hleak
  unfold toAmbiguous at hunsure
  cases hdecision : kept.decision with
  | excludedBaseline => rfl
  | owned basis =>
    rw [hdecision] at hleak
    cases hleak
  | ambiguous first others =>
    rw [hdecision] at hunsure
    cases hunsure

/-- A clean status rests on passes that found nothing and on a wait that was long enough. -/
theorem clean_findings {findings : List PassFindings} {interval : Option Int}
    {leakKey : LeakedResource → String} {ambiguousKey : AmbiguousResource → String}
    (h : deriveLeakAuditStatus (findings.map (·.pass))
      (uniqueByResource leakKey (findings.flatMap (·.leaks))).length
      (uniqueByResource ambiguousKey (findings.flatMap (·.ambiguous))).length
      (interval.getD 0) = .clean) :
    requiredAuditPasses ≤ findings.length ∧
    (∀ found ∈ findings, found.leaks = [] ∧ found.ambiguous = [] ∧
      ∀ surface ∈ found.pass.surfaces, surface.queryOk = true) ∧
    ∃ elapsedMs, interval = some elapsedMs := by
  obtain ⟨hpasses, hqueries, hleaks, hambiguous, henough⟩ := deriveLeakAuditStatus_clean h
  rw [List.length_map] at hpasses
  refine ⟨hpasses, fun found hmem => ⟨?_, ?_, ?_⟩, ?_⟩
  · have hnone := uniqueByResource_nil (List.eq_nil_of_length_eq_zero hleaks)
    exact List.flatMap_eq_nil_iff.mp hnone found hmem
  · have hnone := uniqueByResource_nil (List.eq_nil_of_length_eq_zero hambiguous)
    exact List.flatMap_eq_nil_iff.mp hnone found hmem
  · exact hqueries found.pass (List.mem_map_of_mem hmem)
  · cases interval with
    | none => exact absurd henough (by decide)
    | some elapsedMs => exact ⟨elapsedMs, rfl⟩

theorem readings_apart {fromNs toNs : Int}
    (h : stableAbsenceMs ≤ (toNs - fromNs).tdiv nsPerMs) :
    stableAbsenceMs * nsPerMs ≤ toNs - fromNs := by
  unfold stableAbsenceMs nsPerMs at *
  rcases Int.le_total 0 (toNs - fromNs) with hforward | hback
  · rw [Int.tdiv_eq_ediv_of_nonneg hforward] at h
    omega
  · have hneg : 0 ≤ (-(toNs - fromNs)).tdiv 1000000 :=
      Int.tdiv_nonneg (by omega) (by decide)
    rw [Int.neg_tdiv] at hneg
    omega

/-- What the exchanges of a clean audit show: two complete passes, everything answered, and
between them two readings of the monotonic clock that are 120 s apart. -/
structure ProvesAbsence (ownership : OwnershipContext) (first wait second : List AuditExchange)
    (fromNs toNs : Int) : Prop where
  shape : ∃ inner, wait = ⟨.nowNs, fromNs⟩ :: inner ++ [⟨.nowNs, toNs⟩]
  apart : stableAbsenceMs * nsPerMs ≤ toNs - fromNs
  answered : AllAnswered (sweepIn first) ∧ AllAnswered (sweepIn second)
  absent : OnlyBaseline ownership (sweepIn first) ∧ OnlyBaseline ownership (sweepIn second)

theorem audit_emits {start : List CleanupActionEntry} :
    Logs start (audit ownership) fun result _ trace =>
      sleepsIn trace ≤ maxStabilitySleeps ∧ ∃ record, result = .ok record ∧
        (record.leakAuditStatus = .clean → record.passes.length = requiredAuditPasses ∧
          ∃ first wait second last fromNs toNs, trace = first ++ wait ++ second ++ [last] ∧
            ProvesAbsence ownership first wait second fromNs toNs) := by
  refine Emits.andThen (runPass_emits ownership) ?_
  rintro first emitted₁ trace₁ ⟨_, heq₁, hsleeps₁, hpass₁⟩
  obtain rfl := Except.ok.inj heq₁
  refine Emits.andThen monotonicNs_emits ?_
  rintro fromNs emitted₂ trace₂ ⟨_, heq₂, rfl⟩
  obtain rfl := Except.ok.inj heq₂
  refine Emits.andThen (waitForStableAbsence_emits fromNs maxStabilitySleeps) ?_
  rintro interval emitted₃ trace₃ ⟨_, heq₃, hsleeps₃, inner, toNs, rfl, hinterval⟩
  obtain rfl := Except.ok.inj heq₃
  have hsecond : ∀ start, Logs start (secondPass ownership interval)
      fun result _ trace => ∃ second, result = .ok second ∧ sleepsIn trace = 0 ∧
        (second = [] ∨ ∃ findings, second = [findings] ∧
          PassOf ownership findings (sweepIn trace)) := by
    intro start
    cases interval with
    | none => exact Emits.pure ⟨[], rfl, rfl, .inl rfl⟩
    | some elapsedMs =>
      refine Emits.andThen (runPass_emits ownership) ?_
      rintro findings emitted trace ⟨_, heq, hsleeps, hpass⟩
      obtain rfl := Except.ok.inj heq
      refine Emits.pure ⟨_, rfl, ?_⟩
      rw [List.append_nil]
      exact ⟨hsleeps, .inr ⟨findings, rfl, hpass⟩⟩
  refine Emits.andThen (hsecond _) ?_
  rintro second emitted₄ trace₄ ⟨_, heq₄, hsleeps₄, hpass₄⟩
  obtain rfl := Except.ok.inj heq₄
  refine Emits.andThen wallNow_emits ?_
  rintro auditedAt emitted₅ trace₅ ⟨_, heq₅, rfl⟩
  obtain rfl := Except.ok.inj heq₅
  refine Emits.pure ⟨?_, _, rfl, fun hclean => ?_⟩
  · have hread : sleepsIn [⟨.nowNs, fromNs⟩] = 0 := rfl
    have hlast : sleepsIn ([⟨.now, auditedAt⟩] ++ []) = 0 := rfl
    have hwait := hsleeps₃
    generalize inner ++ [⟨.nowNs, toNs⟩] = wait at hwait ⊢
    simp only [sleepsIn_append] at hlast ⊢
    omega
  · obtain ⟨hpasses, hfound, elapsedMs, hsome⟩ := clean_findings hclean
    obtain ⟨helapsed, henough⟩ := hinterval elapsedMs hsome
    rcases hpass₄ with rfl | ⟨findings, rfl, hpass₄⟩
    · exact absurd hpasses (Nat.not_succ_le_self 1)
    · obtain ⟨hleaks₁, hambiguous₁, hqueries₁⟩ := hfound first List.mem_cons_self
      obtain ⟨hleaks₄, hambiguous₄, hqueries₄⟩ :=
        hfound findings (List.mem_cons_of_mem _ (List.mem_singleton_self findings))
      refine ⟨rfl, trace₁, ⟨.nowNs, fromNs⟩ :: inner ++ [⟨.nowNs, toNs⟩], trace₄,
        ⟨.now, auditedAt⟩, fromNs, toNs, by simp, ⟨inner, rfl⟩, ?_, ⟨?_, ?_⟩, ⟨?_, ?_⟩⟩
      · rw [helapsed] at henough
        exact readings_apart henough
      · exact hpass₁.answered hqueries₁
      · exact hpass₄.answered hqueries₄
      · exact hpass₁.onlyBaseline hleaks₁ hambiguous₁
      · exact hpass₄.onlyBaseline hleaks₄ hambiguous₄

/-- The monotonic clock of a run: what it shows when the exchange of each number is made. -/
def ReadsClock (clock : Nat → Int) (trace : List AuditExchange) : Prop :=
  ∀ front back reading, trace = front ++ ⟨.nowNs, reading⟩ :: back → reading = clock front.length

/-- Whatever the surfaces answer or throw and however long the sleeper sleeps, an audit returns,
after at most `MAX_STABILITY_SLEEPS` sleeps.  If its status is clean, it made two complete passes;
every surface was queried in both, and every query and presence check was answered; by the
monotonic clock at least 120 s passed between the end of the first pass and the start of the
second; and every resource either pass observed on any surface is judged as baseline, so none is
owned or ambiguous. -/
theorem clean_audit_proves_stable_absence (ownership : OwnershipContext) (state : RunState) :
    (∀ environment, ∃ record,
      (((audit ownership).run.run state).against environment []).2.1 = .ok record) ∧
    ∀ trace result state', Traced ((audit ownership).run.run state) trace (result, state') →
      sleepsIn trace ≤ maxStabilitySleeps ∧ ∃ record, result = .ok record ∧
        (record.leakAuditStatus = .clean → ∀ clock, Monotone clock → ReadsClock clock trace →
          record.passes.length = 2 ∧
          ∃ first wait second last, trace = first ++ wait ++ second ++ [last] ∧
            AllAnswered (sweepIn first) ∧ AllAnswered (sweepIn second) ∧
            120000000000 ≤ clock (first ++ wait).length - clock first.length ∧
            OnlyBaseline ownership (sweepIn first) ∧ OnlyBaseline ownership (sweepIn second)) := by
  have hruns : ∀ trace out, Traced ((audit ownership).run.run state) trace out →
      sleepsIn trace ≤ maxStabilitySleeps ∧ ∃ record, out.1 = .ok record ∧
        (record.leakAuditStatus = .clean → record.passes.length = requiredAuditPasses ∧
          ∃ first wait second last fromNs toNs, trace = first ++ wait ++ second ++ [last] ∧
            ProvesAbsence ownership first wait second fromNs toNs) := by
    intro trace out htraced
    obtain ⟨-, -, hspec⟩ := audit_emits ownership state rfl trace out htraced
    exact hspec
  refine ⟨fun environment => ?_, fun trace result state' htraced => ?_⟩
  · obtain ⟨-, record, hok, -⟩ := hruns _ _ (Program.against_traced environment _ [])
    exact ⟨record, hok⟩
  · obtain ⟨hsleeps, record, hok, hclean⟩ := hruns trace _ htraced
    refine ⟨hsleeps, record, hok, fun hstatus clock hclock hreads => ?_⟩
    obtain ⟨hpasses, first, wait, second, last, fromNs, toNs, rfl, ⟨inner, hwait⟩, hapart,
      ⟨hfirst, hsecond⟩, hbaseline, hbaseline'⟩ := hclean hstatus
    refine ⟨hpasses, first, wait, second, last, rfl, hfirst, hsecond, ?_, hbaseline, hbaseline'⟩
    have hfrom : fromNs = clock first.length := by
      refine hreads first (inner ++ [⟨.nowNs, toNs⟩] ++ second ++ [last]) fromNs ?_
      rw [hwait]
      simp
    have hto : toNs = clock (first.length + inner.length + 1) := by
      have hread := hreads (first ++ ⟨.nowNs, fromNs⟩ :: inner) (second ++ [last]) toNs (by
        rw [hwait]
        simp)
      rwa [List.length_append, List.length_cons] at hread
    have hlater : clock (first.length + inner.length + 1) ≤ clock (first ++ wait).length := by
      refine hclock ?_
      rw [hwait]
      simp only [List.length_append, List.length_cons, List.length_nil]
      omega
    unfold stableAbsenceMs nsPerMs at hapart
    omega

def emptyAccount : Environment AuditCall AuditReply
  | _, .surfaces (.port (.query _)) => .ok (.ok [])
  | _, .surfaces (.port _) => .error ()
  | _, .surfaces (.append _) => .stopped
  | _, .surfaces .now => (0 : UtcMillis)
  | _, .surfaces .totalTargetExceeded => false
  | before, .nowNs => (before.length * 60000000000 : Int)
  | _, .sleep _ => ()
  | _, .now => (0 : UtcMillis)

def emptyAudit : List AuditExchange × Except Thrown LeakAuditRecord × RunState :=
  ((audit failedProvisioning).run.run ⟨[], none, false, [], ⟨.inconclusive, []⟩⟩).against
    emptyAccount []

theorem empty_account_proves_absence :
    emptyAudit.2.1.toOption.map (·.leakAuditStatus) = some .clean ∧ sleepsIn emptyAudit.1 = 1 ∧
    ∃ first wait second last, emptyAudit.1 = first ++ wait ++ second ++ [last] ∧
      AllAnswered (sweepIn first) ∧ AllAnswered (sweepIn second) := by
  have hstatus : emptyAudit.2.1.toOption.map (·.leakAuditStatus) = some .clean := by decide +kernel
  have htraced := Program.against_traced emptyAccount
    ((audit failedProvisioning).run.run ⟨[], none, false, [], ⟨.inconclusive, []⟩⟩) []
  obtain ⟨-, record, hok, hclean⟩ :=
    (clean_audit_proves_stable_absence failedProvisioning _).2 _ emptyAudit.2.1 emptyAudit.2.2
      htraced
  have hrecord : record.leakAuditStatus = .clean := by
    rw [hok] at hstatus
    exact Option.some.inj hstatus
  obtain ⟨-, first, wait, second, last, hshape, hfirst, hsecond, -⟩ := hclean hrecord
    (fun number => number * 60000000000)
    (fun earlier later hle => Int.mul_le_mul_of_nonneg_right (Int.ofNat_le.mpr hle) (by decide))
    (fun front back reading heq => Program.against_answers heq)
  exact ⟨hstatus, by decide +kernel, first, wait, second, last, hshape, hfirst, hsecond⟩

end RefundStudy.Cleanup
