/-
  The references to the runner journal, over a whole verification.
-/
import RefundStudy.Package.ReferenceResolution
import RefundStudy.Package.Verifier

set_option autoImplicit false

namespace RefundStudy.Package

open Foundation Record Store

/-! ## Locations -/

def PointsInto (pointer value : JsonDocument) : Prop :=
  ∃ found, pointer = .string found ∧ (resolveJsonPointer value found).isSome = true

/-- The event id and the pointer of a reference resolve in these lines: an event id names the first
line that carries it, a pointer leads into that line or, without event id, into the array of all
lines. -/
def ResolvesIn (reference : JsonDocument) (lines : List (Option JsonDocument)) : Prop :=
  (∀ eventId, memberOf reference "event_id" = some eventId →
    ∃ event, lines.find? (carriesEvent eventId) = some (some event) ∧
      ∀ pointer, memberOf reference "json_pointer" = some pointer → PointsInto pointer event) ∧
  (memberOf reference "event_id" = none →
    ∀ pointer, memberOf reference "json_pointer" = some pointer →
      (∀ line ∈ lines, line.isSome = true) ∧ PointsInto pointer (.array (lines.filterMap id)))

def journalLines (text : NumberText) (bytes : Bytes) : List (Option JsonDocument) :=
  (parseJsonl text bytes).map fun line => line.parsed.toOption

theorem pointerProblem_eq_none {value : JsonDocument} {pointer : Option JsonDocument} :
    pointerProblem value pointer = none ↔ ∀ found, pointer = some found → PointsInto found value := by
  cases pointer with
  | none => simp [pointerProblem]
  | some found =>
    simp only [Option.some.injEq, forall_eq']
    unfold PointsInto
    cases found with
    | string text =>
      rw [pointerProblem]
      constructor
      · intro h
        refine ⟨text, rfl, ?_⟩
        by_contra hnone
        rw [if_neg hnone] at h
        cases h
      · intro h
        obtain ⟨other, heq, hsome⟩ := h
        obtain rfl := JsonDocument.string.inj heq
        rw [if_pos hsome]
    | null => simp [pointerProblem]
    | bool _ => simp [pointerProblem]
    | number _ => simp [pointerProblem]
    | array _ => simp [pointerProblem]
    | object _ => simp [pointerProblem]

theorem carriesEvent_isSome {eventId : JsonDocument} {line : Option JsonDocument}
    (h : carriesEvent eventId line = true) : line.isSome = true := by
  cases line with
  | none => cases h
  | some value => rfl

/-- A location in a journal has no problem exactly when it resolves in the journal's lines. -/
theorem problemIn_eq_none {reference : JsonDocument} {lines : List (Option JsonDocument)}
    (hlocated : ((memberOf reference "event_id").isNone &&
      (memberOf reference "json_pointer").isNone) = false) :
    problemIn (memberOf reference "event_id") (memberOf reference "json_pointer") (.jsonl lines) =
      none ↔ ResolvesIn reference lines := by
  unfold problemIn ResolvesIn
  cases hevent : memberOf reference "event_id" with
  | some eventId =>
    simp only [Option.some.injEq, forall_eq', targetOf, eventIn, reduceCtorEq, false_implies,
      and_true]
    cases hfound : lines.find? (carriesEvent eventId) with
    | none => simp
    | some line =>
      obtain ⟨event, rfl⟩ := Option.isSome_iff_exists.mp
        (carriesEvent_isSome (List.find?_some hfound))
      simp only [Option.join_some, Option.some.injEq, exists_eq_left']
      exact pointerProblem_eq_none
  | none =>
    rw [hevent, Option.isNone_none, Bool.true_and] at hlocated
    obtain ⟨pointer, hpointer⟩ := Option.isSome_iff_exists.mp
      (Option.isNone_eq_false_iff.mp hlocated)
    simp only [hpointer, targetOf, wholeDocument, reduceCtorEq, false_implies, implies_true,
      true_and, true_implies, Option.some.injEq, forall_eq']
    by_cases hall : lines.all Option.isSome = true
    · rw [if_pos hall]
      have hlines := List.all_eq_true.mp hall
      simp only [pointerProblem_eq_none, Option.some.injEq, forall_eq']
      exact ⟨fun h => ⟨hlines, h⟩, fun h => h.2⟩
    · rw [if_neg hall]
      constructor
      · intro h
        cases h
      · intro h
        exact absurd (List.all_eq_true.mpr h.1) hall

theorem resolvesIn_unlocated {reference : JsonDocument}
    (h : ((memberOf reference "event_id").isNone &&
      (memberOf reference "json_pointer").isNone) = true) (lines : List (Option JsonDocument)) :
    ResolvesIn reference lines := by
  rw [Bool.and_eq_true_iff, Option.isNone_iff_eq_none, Option.isNone_iff_eq_none] at h
  unfold ResolvesIn
  rw [h.1, h.2]
  refine ⟨?_, ?_⟩
  · intro eventId hsome
    cases hsome
  · intro _ pointer hsome
    cases hsome

/-! ## References to the journal -/

/-- The runner journal of a package: indexed, stored, and with the indexed digest. -/
structure IndexedJournal (digest : ByteDigest) (scope : ReferenceScope) (journal : Bytes) : Prop where
  stored : (fileAt scope.files runnerJournalFile).map PackageFile.bytes = some journal
  indexed : (runnerEntry scope).map IndexEntry.sha256 = some (digest journal)

/-- A reference into this package that cites the runner journal by a digest. -/
structure CitesJournal (reference : JsonDocument) (wanted : JsString) : Prop where
  path : stringMember reference "artifact_path" = some (jsString runnerJournalFile)
  digest : stringMember reference "artifact_sha256" = some wanted
  samePackage : memberOf reference "package_index_sha256" = none

def ReferencedBytes.inJournal (journal : Bytes) : ReferencedBytes → Bytes
  | .whole => journal
  | .linePrefix taken => taken

section Journal

variable {text : NumberText} {digest : ByteDigest} {scope : ReferenceScope} {journal : Bytes}

theorem freshArtifact_journal
    (hstored : (fileAt scope.files runnerJournalFile).map PackageFile.bytes = some journal)
    (bytes : ReferencedBytes) :
    freshArtifact text scope runnerJournalFile bytes =
      .ok (.jsonl (journalLines text (bytes.inJournal journal))) := by
  cases bytes with
  | linePrefix taken => rfl
  | whole =>
    obtain ⟨file, hfile, hbytes⟩ := Option.map_eq_some_iff.mp hstored
    have hsuffix : ".jsonl".toList.isSuffixOf runnerJournalFile.toList = true := by decide
    rw [freshArtifact, hfile, parseStored, if_pos hsuffix, hbytes]
    rfl

theorem freshLocation_eq_none
    (hstored : (fileAt scope.files runnerJournalFile).map PackageFile.bytes = some journal)
    (reference : JsonDocument) (bytes : ReferencedBytes) :
    freshLocation text scope reference runnerJournalFile bytes = none ↔
      ResolvesIn reference (journalLines text (bytes.inJournal journal)) := by
  unfold freshLocation
  rw [freshArtifact_journal hstored]
  dsimp only
  split
  · rename_i hunlocated
    exact ⟨fun _ => resolvesIn_unlocated hunlocated _, fun _ => rfl⟩
  · rename_i hlocated
    exact problemIn_eq_none (Bool.eq_false_of_not_eq_true hlocated)

theorem indexedBytes_journal (hjournal : IndexedJournal digest scope journal) {entry : IndexEntry}
    (hentry : runnerEntry scope = some entry) :
    entry.artifactPath = runnerJournalFile ∧ entry.sha256 = digest journal ∧
      storedBytes scope entry = journal ∧ indexedBytes digest scope entry = journal := by
  have hpath : entry.artifactPath = runnerJournalFile :=
    jsString_injective (by simpa using List.find?_some hentry)
  have hsha : entry.sha256 = digest journal := by
    have hindexed := hjournal.indexed
    rw [hentry] at hindexed
    exact Option.some.inj hindexed
  have hstored : storedBytes scope entry = journal := by
    rw [storedBytes, hpath, hjournal.stored]
    rfl
  refine ⟨hpath, hsha, hstored, ?_⟩
  rw [indexedBytes, hstored, if_pos hsha.symm]

theorem journalReference_accepted (hinjective : Function.Injective digest)
    (hjournal : IndexedJournal digest scope journal) {cache : ResolutionCache}
    (hsound : cache.Sound text digest scope) {reference : JsonDocument} {wanted : JsString}
    (hcites : CitesJournal reference wanted) :
    (referenceProblem text digest scope reference cache).1 = none ↔
      ∃ cited, (cited = journal ∨ LinePrefix cited journal) ∧ jsString (digest cited) = wanted ∧
        ResolvesIn reference (journalLines text cited) := by
  have hsome : (runnerEntry scope).isSome = true := by
    have hindexed := hjournal.indexed
    cases hentry : runnerEntry scope with
    | none =>
      rw [hentry] at hindexed
      cases hindexed
    | some entry => rfl
  obtain ⟨entry, hentry⟩ := Option.isSome_iff_exists.mp hsome
  obtain ⟨hpath, hsha, hstored, hindexed⟩ := indexedBytes_journal hjournal hentry
  have hfind : (scope.entries.find? fun entry => jsString entry.artifactPath ==
      jsString runnerJournalFile) = some entry := hentry
  obtain ⟨hkept, hbytes⟩ := referencedBytes_spec hinjective hsound hfind wanted
  unfold referenceProblem
  rw [hcites.path, hcites.digest]
  dsimp only
  rw [hcites.samePackage]
  dsimp only
  rw [hfind]
  dsimp only
  cases hcited : (referencedBytes digest scope entry wanted cache).1 with
  | none =>
    -- no bytes of the journal have the digest
    simp only [reduceCtorEq, false_iff, not_exists, not_and]
    intro cited hplace hdigest
    exfalso
    have hnone : ∀ bytes, ¬ Cites digest scope entry wanted bytes := by
      intro bytes hbytes'
      have hfound := (hbytes bytes).mpr hbytes'
      rw [hcited] at hfound
      cases hfound
    by_cases hwhole : jsString entry.sha256 = wanted
    · exact hnone .whole (.inl ⟨hwhole, rfl⟩)
    · rcases hplace with rfl | hprefix
      · exact hwhole (by rw [hsha]; exact hdigest)
      · exact hnone (.linePrefix cited) (.inr ⟨hwhole, hpath, cited, rfl,
          by rw [hindexed]; exact hprefix, hdigest⟩)
  | some bytes =>
    have hcitesBytes := (hbytes bytes).mp hcited
    have hproblem := (locationProblem_spec hkept hfind hcitesBytes reference).2
    rw [hpath] at hproblem
    simp only [hpath, hproblem, freshLocation_eq_none hjournal.stored]
    have hplace : (bytes.inJournal journal = journal ∨
        LinePrefix (bytes.inJournal journal) journal) ∧
          jsString (digest (bytes.inJournal journal)) = wanted := by
      rcases hcitesBytes with ⟨hwhole, rfl⟩ | ⟨-, -, taken, rfl, hprefix, hdigest⟩
      · exact ⟨.inl rfl, by rw [← hwhole, hsha]; rfl⟩
      · exact ⟨.inr (by rw [← hindexed]; exact hprefix), hdigest⟩
    constructor
    · intro hresolves
      exact ⟨_, hplace.1, hplace.2, hresolves⟩
    · intro h
      obtain ⟨cited, -, hdigest, hresolves⟩ := h
      have hsame : cited = bytes.inJournal journal :=
        hinjective (jsString_injective (hdigest.trans hplace.2.symm))
      rw [← hsame]
      exact hresolves

/-- Over a whole verification: a reference to the journal is accepted exactly when its digest is
the one of the journal or of a newline-terminated prefix of it and its location resolves in those
bytes, whatever was resolved before; the reasons are those of the references that are not accepted;
and after the stored journal each prefix of it is digested at most once. -/
theorem journal_references_resolve (text : NumberText) (digest : ByteDigest)
    (scope : ReferenceScope) (journal : Bytes) (hinjective : Function.Injective digest)
    (hjournal : IndexedJournal digest scope journal) :
    (∀ before reference wanted, CitesJournal reference wanted →
      ((referenceProblem text digest scope reference
          (referenceProblems text digest scope before emptyCache).2).1 = none ↔
        ∃ cited, (cited = journal ∨ (cited <+: journal ∧ cited.getLast? = some newline)) ∧
          jsString (digest cited) = wanted ∧ ResolvesIn reference (journalLines text cited))) ∧
    (∀ before reference,
      (referenceProblem text digest scope reference
        (referenceProblems text digest scope before emptyCache).2).1 =
          (referenceProblem text digest scope reference emptyCache).1) ∧
    (unresolvedReferenceReasons text scope digest =
      (derivedRecords scope).flatMap fun entry =>
        freshReasons text digest scope entry.artifactPath) ∧
    ((resolveReferences text scope digest).2.digested = [] ∨
      ∃ taken, (resolveReferences text scope digest).2.digested = journal :: taken ∧
        taken.Nodup ∧ ∀ cited ∈ taken, cited <+: journal ∧ cited.getLast? = some newline) := by
  have hsound := fun before => (referenceProblems_fresh hinjective before
    (emptyCache_sound : emptyCache.Sound text digest scope)).1
  obtain ⟨hend, hreasons⟩ := reasonsOf_fresh hinjective (derivedRecords scope)
    (emptyCache_sound : emptyCache.Sound text digest scope)
  refine ⟨?_, ?_, hreasons, ?_⟩
  · intro before reference wanted hcites
    rw [journalReference_accepted hinjective hjournal (hsound before) hcites]
    simp only [linePrefix_iff]
  · intro before reference
    exact (referenceProblem_fresh hinjective (hsound before) reference).2
  · rcases hend.account with ⟨-, hnone⟩ | ⟨entry, table, taken, hentry, -, hbytes, hdigested, hscanned⟩
    · exact .inl hnone
    · obtain ⟨-, -, hstored, hindexed⟩ := indexedBytes_journal hjournal hentry
      refine .inr ⟨taken, ?_, hscanned.once, ?_⟩
      · rw [← hstored]
        exact hdigested
      · intro cited hmem
        obtain ⟨length, hline, -, hcited⟩ := hscanned.prefixes cited hmem
        rw [hbytes, hindexed] at hline hcited
        exact linePrefix_iff.mp ⟨length, hline, hcited⟩

end Journal

/-! ## A package with a journal of two events -/

def firstEventLine : Bytes := asciiBytes "\x7b\"event_id\":\"a\"\x7d\n"
def twoEventJournal : Bytes := firstEventLine ++ asciiBytes "\x7b\"event_id\":\"b\"\x7d\n"

def citingPackage : ReferenceScope where
  entries := [⟨runnerJournalFile, .runnerJournal, .primary, twoEventJournal.length,
      plainDigest twoEventJournal⟩,
    ⟨runSummaryPath, .runSummary, .derived, 0, "summary"⟩]
  files := [⟨runnerJournalFile, twoEventJournal⟩,
    ⟨runSummaryPath, asciiBytes ("\x7b\"journal_ref\":\x7b\"artifact_path\":" ++
      "\"runner/runner-journal.jsonl\",\"artifact_sha256\":\"x\"\x7d\x7d")⟩]
  referencedPackageIndexes := []

def firstEventReference (eventId : String) : JsonDocument :=
  .object [(jsString "artifact_path", .string (jsString runnerJournalFile)),
    (jsString "artifact_sha256", .string (jsString (plainDigest firstEventLine))),
    (jsString "event_id", .string (jsString eventId))]

theorem citingPackage_journal : IndexedJournal plainDigest citingPackage twoEventJournal where
  stored := by decide +kernel
  indexed := by decide +kernel

theorem firstEventReference_cites (eventId : String) :
    CitesJournal (firstEventReference eventId) (jsString (plainDigest firstEventLine)) where
  path := by rfl
  digest := by rfl
  samePackage := by rfl

theorem appended_event_not_cited :
    (∃ cited, (cited = twoEventJournal ∨
        (cited <+: twoEventJournal ∧ cited.getLast? = some newline)) ∧
      jsString (plainDigest cited) = jsString (plainDigest firstEventLine) ∧
      ResolvesIn (firstEventReference "a") (journalLines exactText cited)) ∧
    ¬ ∃ cited, (cited = twoEventJournal ∨
        (cited <+: twoEventJournal ∧ cited.getLast? = some newline)) ∧
      jsString (plainDigest cited) = jsString (plainDigest firstEventLine) ∧
      ResolvesIn (firstEventReference "b") (journalLines exactText cited) := by
  have hfirst : (referenceProblem exactText plainDigest citingPackage (firstEventReference "a")
      (referenceProblems exactText plainDigest citingPackage [] emptyCache).2).1 = none := by
    decide +kernel
  have hsecond : (referenceProblem exactText plainDigest citingPackage (firstEventReference "b")
      (referenceProblems exactText plainDigest citingPackage [] emptyCache).2).1 ≠ none := by
    decide +kernel
  have hresolve := (journal_references_resolve exactText plainDigest citingPackage twoEventJournal
    plainDigest_injective citingPackage_journal).1 []
  exact ⟨(hresolve _ _ (firstEventReference_cites "a")).mp hfirst,
    fun h => hsecond ((hresolve _ _ (firstEventReference_cites "b")).mpr h)⟩

theorem whole_journal_digested_twice :
    Function.Injective plainDigest ∧
    IndexedJournal plainDigest citingPackage twoEventJournal ∧
    ¬ ∀ cited, cited <+: twoEventJournal → cited.getLast? = some newline →
      (resolveReferences exactText citingPackage plainDigest).2.digested.count cited ≤ 1 := by
  refine ⟨plainDigest_injective, citingPackage_journal, ?_⟩
  intro honce
  have htwice : (resolveReferences exactText citingPackage plainDigest).2.digested.count
      twoEventJournal = 2 := by
    decide +kernel
  have hatMost := honce twoEventJournal (List.prefix_refl _) (by decide +kernel)
  omega

end RefundStudy.Package
