/-
  The references of the derived records (`evidence-package/reference-resolution.ts`; BR-RUA-035,
  BR-RUA-044).

  The details of the reasons are left out.
-/
import Mathlib.Data.List.Perm.Basic
import RefundStudy.Package.Integrity
import RefundStudy.Package.JsonPointer
import RefundStudy.Package.LinePrefixes

set_option autoImplicit false

namespace RefundStudy.Package

open Foundation Record Store

variable {entry : IndexEntry} {path : JsString}

/-! ## The references of a record -/

def referenceLists : List JsString := [jsString "evidence_refs", jsString "oracle_result_refs"]

def refSuffix : JsString := jsString "_ref"

def referencesHeldBy (members : List (JsString × JsonDocument)) : List JsonDocument :=
  (enumerationOrder members).flatMap fun member =>
    if referenceLists.contains member.1 then
      match member.2 with
      | .array items => items
      | other => [other]
    else if refSuffix.isSuffixOf member.1 then [member.2]
    else []

def ownReferences : JsonDocument → List JsonDocument
  | .object members => referencesHeldBy members
  | _ => []

/-- The loop of `collectReferences`; the stack has its top first. -/
def collectFrom : Nat → List JsonDocument → List JsonDocument
  | 0, _ => []
  | _ + 1, [] => []
  | fuel + 1, next :: pending =>
    ownReferences next ++
      collectFrom fuel (((objectEntries next).map Prod.snd).reverse ++ pending)

def collectReferences (record : JsonDocument) : List JsonDocument :=
  collectFrom (valueCount record) [record]

/-- What a member of an object refers to: under the name of a list each of its elements, or the
value itself where it is no list, and under the name of a reference the value. -/
def heldUnder (name : JsString) (value : JsonDocument) : List JsonDocument :=
  if referenceLists.contains name then
    match value with
    | .array items => items
    | other => [other]
  else if refSuffix.isSuffixOf name then [value]
  else []

mutual

def heldReferences : JsonDocument → List JsonDocument
  | .array items => itemsReferences items
  | .object members => membersReferences members
  | _ => []

def itemsReferences : List JsonDocument → List JsonDocument
  | [] => []
  | item :: rest => heldReferences item ++ itemsReferences rest

def membersReferences : List (JsString × JsonDocument) → List JsonDocument
  | [] => []
  | (name, value) :: rest => heldUnder name value ++ heldReferences value ++ membersReferences rest

end

theorem itemsReferences_eq (items : List JsonDocument) :
    itemsReferences items = items.flatMap heldReferences := by
  induction items with
  | nil => rfl
  | cons item rest ih => rw [itemsReferences, ih, List.flatMap_cons]

theorem membersReferences_eq (members : List (JsString × JsonDocument)) :
    membersReferences members =
      members.flatMap fun member => heldUnder member.1 member.2 ++ heldReferences member.2 := by
  induction members with
  | nil => rfl
  | cons member rest ih => rw [membersReferences, ih, List.flatMap_cons]

theorem heldReferences_perm (document : JsonDocument) :
    (heldReferences document).Perm
      (ownReferences document ++ ((objectEntries document).map Prod.snd).flatMap heldReferences) := by
  cases document with
  | array items =>
    have hchildren : (objectEntries (.array items)).map Prod.snd = items := by
      rw [objectEntries, List.map_map]
      exact List.zipIdx_map_fst 0 items
    rw [heldReferences, itemsReferences_eq, hchildren]
    exact .refl _
  | object members =>
    have hheld : referencesHeldBy members =
        (enumerationOrder members).flatMap fun member => heldUnder member.1 member.2 := rfl
    rw [heldReferences, membersReferences_eq, ownReferences, objectEntries, hheld, List.flatMap_map]
    refine ((enumerationOrder_perm members).symm.flatMap_right _).trans ?_
    exact (List.flatMap_append_perm _ _ _).symm
  | _ => exact .refl _

theorem collectFrom_perm {fuel : Nat} {pending : List JsonDocument}
    (hfuel : (pending.map valueCount).sum ≤ fuel) :
    (collectFrom fuel pending).Perm (pending.flatMap heldReferences) := by
  induction fuel generalizing pending with
  | zero =>
    cases pending with
    | nil => exact .refl _
    | cons next pending =>
      rw [List.map_cons, List.sum_cons, valueCount_eq] at hfuel
      omega
  | succ fuel ih =>
    cases pending with
    | nil => exact .refl _
    | cons next pending =>
      have hrest : ((((objectEntries next).map Prod.snd).reverse ++ pending).map
          valueCount).sum ≤ fuel := by
        rw [List.map_cons, List.sum_cons, valueCount_eq] at hfuel
        rw [List.map_append, List.sum_append, List.map_reverse, List.sum_reverse, List.map_map]
        simp only [Function.comp_def] at hfuel ⊢
        omega
      have hchildren := (List.reverse_perm ((objectEntries next).map Prod.snd)).flatMap_right
        heldReferences
      rw [collectFrom, List.flatMap_cons]
      refine ((ih hrest).append_left _).trans ?_
      rw [List.flatMap_append, ← List.append_assoc]
      exact ((hchildren.append_left _).trans (heldReferences_perm next).symm).append_right _

/-- The walk finds every reference of a record once for each place it stands at, at any depth. -/
theorem references_collected_at_every_place (record : JsonDocument) :
    (collectReferences record).Perm (heldReferences record) := by
  have hwalk := @collectFrom_perm (valueCount record) [record] (by simp)
  rwa [List.flatMap_singleton] at hwalk

/-! ## Reading artifacts -/

/-- `ParsedArtifact`. -/
inductive ReferencedArtifact where
  | json (value : JsonDocument)
  | jsonl (lines : List (Option JsonDocument))

def memberOf (value : JsonDocument) (key : String) : Option JsonDocument :=
  match value with
  | .object members => InsertionMap.get? members (jsString key)
  | _ => none

def stringMember (value : JsonDocument) (key : String) : Option JsString :=
  match memberOf value key with
  | some (.string text) => some text
  | _ => none

/-- `===`: containers are equal only as the same object, which two parses never are. -/
def strictlyEqual : JsonDocument → JsonDocument → Bool
  | .null, .null => true
  | .bool first, .bool second => first == second
  | .number (.finite first), .number (.finite second) =>
    decide (first.positiveZero = second.positiveZero)
  | .string first, .string second => decide (first = second)
  | _, _ => false

def wholeDocument : ReferencedArtifact → Option JsonDocument
  | .json value => some value
  | .jsonl lines => if lines.all Option.isSome then some (.array (lines.filterMap id)) else none

def carriesEvent (eventId : JsonDocument) (candidate : Option JsonDocument) : Bool :=
  candidate.any fun value => (memberOf value "event_id").any fun found =>
    strictlyEqual found eventId

def eventIn (artifact : ReferencedArtifact) (eventId : JsonDocument) : Option JsonDocument :=
  ((match artifact with
    | .json value => [some value]
    | .jsonl lines => lines).find? (carriesEvent eventId)).join

section Resolution

variable (text : NumberText)

def parsedJsonl (bytes : Bytes) : ReferencedArtifact :=
  .jsonl ((parseJsonl text bytes).map fun line => line.parsed.toOption)

/-- Why a stored file cannot be read. -/
inductive UnreadableFile where
  | absent
  | notOneDocument

def parseStored (path : String) (file : Option PackageFile) :
    Except UnreadableFile ReferencedArtifact :=
  match file with
  | none => .error .absent
  | some stored =>
    if ".jsonl".toList.isSuffixOf path.toList then .ok (parsedJsonl text stored.bytes)
    else
      match parseJsonDocument text stored.bytes with
      | none => .error .notOneDocument
      | some value => .ok (.json value)

/-! ## The caches -/

/-- With the byte strings that were digested so far. -/
structure ResolutionCache where
  parsed : InsertionMap String (Except UnreadableFile ReferencedArtifact)
  prefixes : InsertionMap String (LinePrefixDigests JsString)
  parsedPrefixes : InsertionMap Nat ReferencedArtifact
  digested : List Bytes

def emptyCache : ResolutionCache := ⟨[], [], [], []⟩

structure ReferenceScope where
  entries : List IndexEntry
  files : List PackageFile
  referencedPackageIndexes : List Sha256Hex

inductive ReferencedBytes where
  | whole
  | linePrefix (bytes : Bytes)

/-- `EXECUTION_PATHS.runnerJournal`. -/
def runnerJournalFile : String := "runner/runner-journal.jsonl"

variable (scope : ReferenceScope)

def parsedArtifact (path : String) (cache : ResolutionCache) :
    Except UnreadableFile ReferencedArtifact × ResolutionCache :=
  match cache.parsed.get? path with
  | some cached => (cached, cache)
  | none =>
    let parsed := parseStored text path (fileAt scope.files path)
    (parsed, { cache with parsed := cache.parsed.set path parsed })

def parsedPrefix (bytes : Bytes) (cache : ResolutionCache) : ReferencedArtifact × ResolutionCache :=
  match cache.parsedPrefixes.get? bytes.length with
  | some cached => (cached, cache)
  | none =>
    let parsed := parsedJsonl text bytes
    (parsed, { cache with parsedPrefixes := cache.parsedPrefixes.set bytes.length parsed })

def referencedArtifact (path : String) (bytes : ReferencedBytes)
    (cache : ResolutionCache) : Except UnreadableFile ReferencedArtifact × ResolutionCache :=
  match bytes with
  | .whole => parsedArtifact text scope path cache
  | .linePrefix taken =>
    let read := parsedPrefix text taken cache
    (.ok read.1, read.2)

def storedBytes (entry : IndexEntry) : Bytes :=
  ((fileAt scope.files entry.artifactPath).map PackageFile.bytes).getD []

variable (digest : ByteDigest)

def indexedPrefixes (scope : ReferenceScope) (entry : IndexEntry)
    (cache : ResolutionCache) : LinePrefixDigests JsString × ResolutionCache :=
  match cache.prefixes.get? entry.artifactPath with
  | some cached => (cached, cache)
  | none =>
    let stored := storedBytes scope entry
    let table := linePrefixDigests (if digest stored = entry.sha256 then stored else [])
    (table,
      { cache with
        prefixes := cache.prefixes.set entry.artifactPath table
        digested := cache.digested ++ [stored] })

/-- The lookup changes the table the cache holds. -/
def referencedBytes (scope : ReferenceScope) (entry : IndexEntry)
    (wanted : JsString) (cache : ResolutionCache) : Option ReferencedBytes × ResolutionCache :=
  if jsString entry.sha256 = wanted then (some .whole, cache)
  else if entry.artifactPath ≠ runnerJournalFile then (none, cache)
  else
    let opened := indexedPrefixes digest scope entry cache
    let found := prefixWithDigest (fun bytes => jsString (digest bytes)) wanted opened.1
    (found.1.map .linePrefix,
      { opened.2 with
        prefixes := opened.2.prefixes.set entry.artifactPath found.2.1
        digested := opened.2.digested ++ found.2.2 })

/-! ## References -/

/-- What `referenceProblem` reports. -/
inductive ReferenceProblem where
  | notAReference
  | unknownPackageIndex
  | unlistedPath
  | otherDigest
  | unreadable (why : UnreadableFile)
  | unparseableLine
  | eventMissing
  | pointerUnresolved

/-- What a reference points at before its pointer: the event it names, or the whole artifact. -/
def targetOf (artifact : ReferencedArtifact) : Option JsonDocument → Option JsonDocument
  | none => wholeDocument artifact
  | some eventId => eventIn artifact eventId

def pointerProblem (value : JsonDocument) : Option JsonDocument → Option ReferenceProblem
  | none => none
  | some (.string pointer) =>
    if (resolveJsonPointer value pointer).isSome then none else some .pointerUnresolved
  | some _ => some .pointerUnresolved

/-- `locationProblem` over what was read. -/
def problemIn (eventId pointer : Option JsonDocument) (artifact : ReferencedArtifact) :
    Option ReferenceProblem :=
  match targetOf artifact eventId with
  | none => some (if eventId.isNone then .unparseableLine else .eventMissing)
  | some value => pointerProblem value pointer

def locationProblem (reference : JsonDocument) (scope : ReferenceScope) (path : String)
    (bytes : ReferencedBytes) (cache : ResolutionCache) :
    Option ReferenceProblem × ResolutionCache :=
  let eventId := memberOf reference "event_id"
  let pointer := memberOf reference "json_pointer"
  if eventId.isNone && pointer.isNone then (none, cache)
  else
    let read := referencedArtifact text scope path bytes cache
    match read.1 with
    | .error why => (some (.unreadable why), read.2)
    | .ok artifact => (problemIn eventId pointer artifact, read.2)

def knownPackageIndex : JsonDocument → Bool
  | .string named => scope.referencedPackageIndexes.any fun known => jsString known == named
  | _ => false

def referenceProblem (scope : ReferenceScope) (reference : JsonDocument)
    (cache : ResolutionCache) : Option ReferenceProblem × ResolutionCache :=
  match stringMember reference "artifact_path", stringMember reference "artifact_sha256" with
  | some path, some wanted =>
    match memberOf reference "package_index_sha256" with
    | some packageIndex =>
      (if knownPackageIndex scope packageIndex then none else some .unknownPackageIndex, cache)
    | none =>
      match scope.entries.find? fun entry => jsString entry.artifactPath == path with
      | none => (some .unlistedPath, cache)
      | some entry =>
        let found := referencedBytes digest scope entry wanted cache
        match found.1 with
        | none => (some .otherDigest, found.2)
        | some bytes => locationProblem text reference scope entry.artifactPath bytes found.2
  | _, _ => (some .notAReference, cache)

def referenceProblems (digest : ByteDigest) (scope : ReferenceScope) :
    List JsonDocument → ResolutionCache → List (Option ReferenceProblem) × ResolutionCache
  | [], cache => ([], cache)
  | reference :: rest, cache =>
    let first := referenceProblem text digest scope reference cache
    let others := referenceProblems digest scope rest first.2
    (first.1 :: others.1, others.2)

def unresolved (path : String) : PackageIneligibilityReason :=
  ineligibility .unresolvedReference "" (some path)

def recordReasons (scope : ReferenceScope) (path : String)
    (cache : ResolutionCache) : List PackageIneligibilityReason × ResolutionCache :=
  match (fileAt scope.files path).bind fun file => parseJsonDocument text file.bytes with
  | none => ([unresolved path], cache)
  | some record =>
    let problems := referenceProblems text digest scope (collectReferences record) cache
    (problems.1.filterMap fun problem => problem.map fun _ => unresolved path, problems.2)

def derivedRecords : List IndexEntry :=
  scope.entries.filter fun entry =>
    decide (entry.derivation = .derived) && ".json".toList.isSuffixOf entry.artifactPath.toList

def reasonsOf (digest : ByteDigest) (scope : ReferenceScope) :
    List IndexEntry → ResolutionCache → List PackageIneligibilityReason × ResolutionCache
  | [], cache => ([], cache)
  | entry :: rest, cache =>
    let first := recordReasons text digest scope entry.artifactPath cache
    let others := reasonsOf digest scope rest first.2
    (first.1 ++ others.1, others.2)

/-- `unresolvedReferenceReasons`, with the caches it ends with. -/
def resolveReferences : List PackageIneligibilityReason × ResolutionCache :=
  reasonsOf text digest scope (derivedRecords scope) emptyCache

def unresolvedReferenceReasons : List PackageIneligibilityReason :=
  (resolveReferences text scope digest).1

end Resolution

/-! ## The caches hold what would be computed anew -/

def runnerEntry (scope : ReferenceScope) : Option IndexEntry :=
  scope.entries.find? fun entry => jsString entry.artifactPath == jsString runnerJournalFile

def indexedBytes (digest : ByteDigest) (scope : ReferenceScope) (entry : IndexEntry) : Bytes :=
  if digest (storedBytes scope entry) = entry.sha256 then storedBytes scope entry else []

/-- The caches are sound: every cached value is the computed one, and of the runner journal the
stored bytes and then some of its prefixes were digested, each once. -/
structure ResolutionCache.Sound (text : NumberText) (digest : ByteDigest) (scope : ReferenceScope)
    (cache : ResolutionCache) : Prop where
  parsed : ∀ path found, cache.parsed.get? path = some found →
    found = parseStored text path (fileAt scope.files path)
  parsedPrefixes : ∀ length found, cache.parsedPrefixes.get? length = some found →
    ∃ entry, runnerEntry scope = some entry ∧
      found = parsedJsonl text ((indexedBytes digest scope entry).take length)
  onlyRunner : ∀ path table, cache.prefixes.get? path = some table → path = runnerJournalFile
  account : (cache.prefixes.get? runnerJournalFile = none ∧ cache.digested = []) ∨
    ∃ entry table taken, runnerEntry scope = some entry ∧
      cache.prefixes.get? runnerJournalFile = some table ∧
      table.bytes = indexedBytes digest scope entry ∧
      cache.digested = storedBytes scope entry :: taken ∧
      Scanned (fun bytes => jsString (digest bytes)) table taken

def Cites (digest : ByteDigest) (scope : ReferenceScope) (entry : IndexEntry) (wanted : JsString)
    (bytes : ReferencedBytes) : Prop :=
  (jsString entry.sha256 = wanted ∧ bytes = .whole) ∨
    (jsString entry.sha256 ≠ wanted ∧ entry.artifactPath = runnerJournalFile ∧
      ∃ taken, bytes = .linePrefix taken ∧ LinePrefix taken (indexedBytes digest scope entry) ∧
        jsString (digest taken) = wanted)

section Caches

variable {text : NumberText} {digest : ByteDigest} {scope : ReferenceScope}

theorem emptyCache_sound : emptyCache.Sound text digest scope where
  parsed _ _ h := by cases h
  parsedPrefixes _ _ h := by cases h
  onlyRunner _ _ h := by cases h
  account := .inl ⟨rfl, rfl⟩

theorem runnerEntry_of_find (hrunner : entry.artifactPath = runnerJournalFile)
    (h : (scope.entries.find? fun entry => jsString entry.artifactPath == path) = some entry) :
    runnerEntry scope = some entry := by
  have hpath : jsString entry.artifactPath = path := by
    simpa using List.find?_some h
  rw [runnerEntry, ← hrunner, hpath]
  exact h

variable {cache : ResolutionCache}

theorem indexedPrefixes_spec (h : cache.Sound text digest scope)
    (hrunner : entry.artifactPath = runnerJournalFile) (hentry : runnerEntry scope = some entry) :
    ∃ taken, (indexedPrefixes digest scope entry cache).1.bytes = indexedBytes digest scope entry ∧
      Scanned (fun bytes => jsString (digest bytes)) (indexedPrefixes digest scope entry cache).1
        taken ∧
      (indexedPrefixes digest scope entry cache).2.digested = storedBytes scope entry :: taken ∧
      (indexedPrefixes digest scope entry cache).2.parsed = cache.parsed ∧
      (indexedPrefixes digest scope entry cache).2.parsedPrefixes = cache.parsedPrefixes ∧
      ∀ path table, (indexedPrefixes digest scope entry cache).2.prefixes.get? path = some table →
        path = runnerJournalFile := by
  unfold indexedPrefixes
  rw [hrunner]
  rcases h.account with ⟨hnone, hdigested⟩ | ⟨found, table, taken, hfound, htable, hbytes, hdigested, hscanned⟩
  · rw [hnone]
    refine ⟨[], rfl, scanned_start _ _, ?_, rfl, rfl, ?_⟩
    · simp only [hdigested, List.nil_append]
    · intro path table hget
      by_cases hpath : path = runnerJournalFile
      · exact hpath
      · exact h.onlyRunner path table ((InsertionMap.get?_set_of_ne _ hpath _).symm.trans hget)
  · obtain rfl := Option.some.inj (hentry.symm.trans hfound)
    rw [htable]
    exact ⟨taken, hbytes, hscanned, hdigested, rfl, rfl, h.onlyRunner⟩

theorem referencedBytes_spec (hinjective : Function.Injective digest)
    (h : cache.Sound text digest scope)
    (hentry : (scope.entries.find? fun entry => jsString entry.artifactPath == path) = some entry)
    (wanted : JsString) :
    (referencedBytes digest scope entry wanted cache).2.Sound text digest scope ∧
      ∀ bytes, (referencedBytes digest scope entry wanted cache).1 = some bytes ↔
        Cites digest scope entry wanted bytes := by
  unfold referencedBytes Cites
  by_cases hwhole : jsString entry.sha256 = wanted
  · rw [if_pos hwhole]
    refine ⟨h, fun bytes => ?_⟩
    simp only [Option.some.injEq, hwhole, true_and, ne_eq, not_true_eq_false, false_and, or_false]
    exact eq_comm
  · rw [if_neg hwhole]
    by_cases hrunner : entry.artifactPath = runnerJournalFile
    · rw [if_neg (not_not.mpr hrunner)]
      have hfound := runnerEntry_of_find hrunner hentry
      obtain ⟨taken, hbytes, hscanned, hdigested, hparsed, hprefixes, honly⟩ :=
        indexedPrefixes_spec h hrunner hfound
      have hinjective' : Function.Injective fun bytes => jsString (digest bytes) :=
        jsString_injective.comp hinjective
      obtain ⟨hkept, hsame, hlookup⟩ := prefixWithDigest_spec hinjective' wanted hscanned
      rw [hbytes] at hsame hlookup
      dsimp only
      refine ⟨⟨?_, ?_, ?_, .inr ⟨entry, _, _, hfound, ?_, hsame, ?_, hkept⟩⟩, fun bytes => ?_⟩
      · exact fun path found hget => h.parsed path found (hparsed ▸ hget)
      · exact fun length found hget => h.parsedPrefixes length found (hprefixes ▸ hget)
      · intro path table hget
        by_cases hpath : path = entry.artifactPath
        · exact hpath.trans hrunner
        · exact honly path table ((InsertionMap.get?_set_of_ne _ hpath _).symm.trans hget)
      · rw [← hrunner, InsertionMap.get?_set_self]
      · rw [hdigested, List.cons_append]
      · rw [Option.map_eq_some_iff]
        constructor
        · intro hbytes
          obtain ⟨found, hfound, rfl⟩ := hbytes
          obtain ⟨hbegins, hdigest⟩ := (hlookup found).mp hfound
          exact .inr ⟨hwhole, hrunner, found, rfl, hbegins, hdigest⟩
        · intro hbytes
          rcases hbytes with hbytes | ⟨-, -, found, rfl, hbegins, hdigest⟩
          · exact absurd hbytes.1 hwhole
          · exact ⟨found, (hlookup found).mpr ⟨hbegins, hdigest⟩, rfl⟩
    · rw [if_pos hrunner]
      refine ⟨h, fun bytes => ?_⟩
      simp [hwhole, hrunner]

/-- What is read at cited bytes, without the caches. -/
def freshArtifact (text : NumberText) (scope : ReferenceScope) (path : String) :
    ReferencedBytes → Except UnreadableFile ReferencedArtifact
  | .whole => parseStored text path (fileAt scope.files path)
  | .linePrefix taken => .ok (parsedJsonl text taken)

theorem referencedArtifact_spec (h : cache.Sound text digest scope)
    (hentry : (scope.entries.find? fun entry => jsString entry.artifactPath == path) = some entry)
    {wanted : JsString} {bytes : ReferencedBytes} (hcites : Cites digest scope entry wanted bytes) :
    (referencedArtifact text scope entry.artifactPath bytes cache).2.Sound text digest scope ∧
      (referencedArtifact text scope entry.artifactPath bytes cache).1 =
        freshArtifact text scope entry.artifactPath bytes := by
  cases bytes with
  | whole =>
    unfold referencedArtifact parsedArtifact freshArtifact
    cases hcached : cache.parsed.get? entry.artifactPath with
    | some cached => exact ⟨h, h.parsed _ _ hcached⟩
    | none =>
      refine ⟨⟨?_, h.parsedPrefixes, h.onlyRunner, h.account⟩, rfl⟩
      intro path found hget
      by_cases hpath : path = entry.artifactPath
      · rw [hpath, InsertionMap.get?_set_self] at hget
        rw [hpath, Option.some.inj hget]
      · exact h.parsed path found ((InsertionMap.get?_set_of_ne _ hpath _).symm.trans hget)
  | linePrefix taken =>
    rcases hcites with ⟨-, hbytes⟩ | ⟨-, hrunner, found, hbytes, ⟨length, hline, htaken⟩, -⟩
    · cases hbytes
    · obtain rfl := ReferencedBytes.linePrefix.inj hbytes
      have hfound := runnerEntry_of_find hrunner hentry
      have hlength : taken.length = length := by
        rw [htaken, List.length_take, Nat.min_eq_left hline.le]
      have hagain : (indexedBytes digest scope entry).take taken.length = taken := by
        rw [hlength, htaken]
      unfold referencedArtifact parsedPrefix freshArtifact
      dsimp only
      cases hcached : cache.parsedPrefixes.get? taken.length with
      | some cached =>
        obtain ⟨other, hother, hparsed⟩ := h.parsedPrefixes _ _ hcached
        obtain rfl := Option.some.inj (hfound.symm.trans hother)
        rw [hagain] at hparsed
        rw [hparsed]
        exact ⟨h, rfl⟩
      | none =>
        refine ⟨⟨h.parsed, ?_, h.onlyRunner, h.account⟩, rfl⟩
        intro length found hget
        by_cases hsame : length = taken.length
        · rw [hsame, InsertionMap.get?_set_self] at hget
          refine ⟨entry, hfound, ?_⟩
          rw [hsame, hagain, ← Option.some.inj hget]
        · exact h.parsedPrefixes length found
            ((InsertionMap.get?_set_of_ne _ hsame _).symm.trans hget)

def freshLocation (text : NumberText) (scope : ReferenceScope) (reference : JsonDocument)
    (path : String) (bytes : ReferencedBytes) : Option ReferenceProblem :=
  let eventId := memberOf reference "event_id"
  let pointer := memberOf reference "json_pointer"
  if eventId.isNone && pointer.isNone then none
  else
    match freshArtifact text scope path bytes with
    | .error why => some (.unreadable why)
    | .ok artifact => problemIn eventId pointer artifact

theorem locationProblem_spec (h : cache.Sound text digest scope)
    (hentry : (scope.entries.find? fun entry => jsString entry.artifactPath == path) = some entry)
    {wanted : JsString} {bytes : ReferencedBytes} (hcites : Cites digest scope entry wanted bytes)
    (reference : JsonDocument) :
    (locationProblem text reference scope entry.artifactPath bytes cache).2.Sound text digest scope ∧
      (locationProblem text reference scope entry.artifactPath bytes cache).1 =
        freshLocation text scope reference entry.artifactPath bytes := by
  obtain ⟨hsound, hread⟩ := referencedArtifact_spec h hentry hcites
  unfold locationProblem freshLocation
  dsimp only
  rw [hread]
  split
  · exact ⟨h, rfl⟩
  · cases freshArtifact text scope entry.artifactPath bytes with
    | error why => exact ⟨hsound, rfl⟩
    | ok artifact => exact ⟨hsound, rfl⟩

theorem referenceProblem_fresh (hinjective : Function.Injective digest)
    (h : cache.Sound text digest scope) (reference : JsonDocument) :
    (referenceProblem text digest scope reference cache).2.Sound text digest scope ∧
      (referenceProblem text digest scope reference cache).1 =
        (referenceProblem text digest scope reference emptyCache).1 := by
  unfold referenceProblem
  split
  · rename_i path wanted _ _
    split
    · exact ⟨h, rfl⟩
    · split
      · exact ⟨h, rfl⟩
      · rename_i entry hentry
        obtain ⟨hsound, hcites⟩ := referencedBytes_spec hinjective h hentry wanted
        obtain ⟨hfresh, hcites'⟩ := referencedBytes_spec hinjective
          (emptyCache_sound : emptyCache.Sound text digest scope) hentry wanted
        have hsame : (referencedBytes digest scope entry wanted cache).1 =
            (referencedBytes digest scope entry wanted emptyCache).1 :=
          Option.ext fun bytes => (hcites bytes).trans (hcites' bytes).symm
        dsimp only
        rw [← hsame]
        cases hbytes : (referencedBytes digest scope entry wanted cache).1 with
        | none => exact ⟨hsound, rfl⟩
        | some bytes =>
          have hcited := (hcites bytes).mp hbytes
          obtain ⟨hkept, hproblem⟩ := locationProblem_spec hsound hentry hcited reference
          obtain ⟨-, hproblem'⟩ := locationProblem_spec hfresh hentry hcited reference
          exact ⟨hkept, hproblem.trans hproblem'.symm⟩
  · exact ⟨h, rfl⟩

theorem referenceProblems_fresh (hinjective : Function.Injective digest)
    (references : List JsonDocument) (h : cache.Sound text digest scope) :
    (referenceProblems text digest scope references cache).2.Sound text digest scope ∧
      (referenceProblems text digest scope references cache).1 =
        references.map fun reference =>
          (referenceProblem text digest scope reference emptyCache).1 := by
  induction references generalizing cache with
  | nil => exact ⟨h, rfl⟩
  | cons reference rest ih =>
    obtain ⟨hsound, hfirst⟩ := referenceProblem_fresh hinjective h reference
    obtain ⟨hkept, hrest⟩ := ih hsound
    refine ⟨hkept, ?_⟩
    rw [referenceProblems, List.map_cons, ← hfirst, ← hrest]

/-- The reasons of a record, each reference answered anew. -/
def freshReasons (text : NumberText) (digest : ByteDigest) (scope : ReferenceScope)
    (path : String) : List PackageIneligibilityReason :=
  match (fileAt scope.files path).bind fun file => parseJsonDocument text file.bytes with
  | none => [unresolved path]
  | some record =>
    ((collectReferences record).filter fun reference =>
      (referenceProblem text digest scope reference emptyCache).1.isSome).map fun _ =>
        unresolved path

theorem recordReasons_fresh (hinjective : Function.Injective digest)
    (h : cache.Sound text digest scope) (path : String) :
    (recordReasons text digest scope path cache).2.Sound text digest scope ∧
      (recordReasons text digest scope path cache).1 = freshReasons text digest scope path := by
  unfold recordReasons freshReasons
  split
  · exact ⟨h, rfl⟩
  · rename_i record _
    obtain ⟨hsound, hproblems⟩ := referenceProblems_fresh hinjective (collectReferences record) h
    refine ⟨hsound, ?_⟩
    dsimp only
    rw [hproblems, List.filterMap_map, ← List.filterMap_eq_map, List.filterMap_filter]
    refine List.filterMap_congr fun reference _ => ?_
    simp only [Function.comp_apply]
    cases (referenceProblem text digest scope reference emptyCache).1 <;> rfl

theorem reasonsOf_fresh (hinjective : Function.Injective digest) (entries : List IndexEntry)
    (h : cache.Sound text digest scope) :
    (reasonsOf text digest scope entries cache).2.Sound text digest scope ∧
      (reasonsOf text digest scope entries cache).1 =
        entries.flatMap fun entry => freshReasons text digest scope entry.artifactPath := by
  induction entries generalizing cache with
  | nil => exact ⟨h, rfl⟩
  | cons entry rest ih =>
    obtain ⟨hsound, hfirst⟩ := recordReasons_fresh hinjective h entry.artifactPath
    obtain ⟨hkept, hrest⟩ := ih hsound
    refine ⟨hkept, ?_⟩
    rw [reasonsOf, List.flatMap_cons, ← hfirst, ← hrest]

end Caches

end RefundStudy.Package
