/-
  The amendment graph of one package (`evidence-package/amendment-chain.ts`; BR-RUA-043).
-/
import RefundStudy.Package.Integrity
import Mathlib.Data.List.Dedup
import Mathlib.Data.List.Sort

set_option autoImplicit false

namespace RefundStudy.Package

open Foundation Record

inductive AmendmentKind where
  | lateEvidence
  | operationalRecovery
  | billing
  | reassessment
  deriving DecidableEq

structure AmendmentIndex where
  identity : IdentityCarrier
  executionManifestSha256 : Sha256Hex
  amendmentId : Uuid4
  amendmentKind : AmendmentKind
  sequence : Nat
  originalPackageIndexSha256 : Sha256Hex
  parentAmendmentIndexSha256 : Option Sha256Hex
  entries : List IndexEntry
  createdAt : UtcMillis
  deriving DecidableEq

structure ParsedAmendment where
  location : String
  index : AmendmentIndex
  indexSha256 : Sha256Hex
  files : List PackageFile
  deriving DecidableEq

structure AmendmentLink where
  sequence : Nat
  amendmentId : Uuid4
  amendmentKind : AmendmentKind
  amendmentIndexSha256 : Sha256Hex

structure AmendmentGraphInput where
  identity : ExecutionIdentity
  executionManifestSha256 : Sha256Hex
  originalPackageIndexSha256 : Sha256Hex
  amendments : List ParsedAmendment
  selectedHead : Option Sha256Hex

structure AmendmentGraph where
  selectedChain : List ParsedAmendment
  knownDescendants : List AmendmentLink
  reasons : List PackageIneligibilityReason

abbrev DigestMap : Type := InsertionMap Sha256Hex ParsedAmendment

variable (amendments : List ParsedAmendment)

/-- The map `byDigest`: the first amendment of a digest is kept. -/
def amendmentsByDigest : DigestMap :=
  amendments.foldl
    (fun map amendment => map.set amendment.indexSha256
      ((map.get? amendment.indexSha256).getD amendment)) []

/-- The amendment that the parent digest names, when it is known. -/
def parentOf (byDigest : DigestMap) (amendment : ParsedAmendment) : Option ParsedAmendment :=
  amendment.index.parentAmendmentIndexSha256.bind byDigest.get?

variable (amendment : ParsedAmendment)

def amendmentLink : AmendmentLink :=
  ⟨amendment.index.sequence, amendment.index.amendmentId, amendment.index.amendmentKind,
    amendment.indexSha256⟩

def broken : PackageIneligibilityReason :=
  ineligibility .brokenParent amendment.location none

def unselected : PackageIneligibilityReason :=
  ineligibility .unselectedDescendant amendment.location none

/-- The loop of `selectedChain`: the amendments it pushes, in that order. -/
def walkParents (byDigest : DigestMap) :
    Nat → List Sha256Hex → Option ParsedAmendment → List ParsedAmendment
  | 0, _, _ => []
  | _ + 1, _, none => []
  | fuel + 1, visited, some next =>
    if next.indexSha256 ∈ visited then []
    else next :: walkParents byDigest fuel (next.indexSha256 :: visited) (parentOf byDigest next)

/-- The head and its ancestors, oldest first. -/
def selectedChain (head : Option Sha256Hex) (byDigest : DigestMap) : List ParsedAmendment :=
  (walkParents byDigest (byDigest.length + 1) [] (head.bind byDigest.get?)).reverse

def membershipReasons (input : AmendmentGraphInput) : List PackageIneligibilityReason :=
  (if belongsToExecution amendment.index.identity input.identity then [] else [broken amendment]) ++
  (if amendment.index.executionManifestSha256 = input.executionManifestSha256 then []
    else [broken amendment]) ++
  (if amendment.index.originalPackageIndexSha256 = input.originalPackageIndexSha256 then []
    else [broken amendment])

def parentReasons (byDigest : DigestMap) : List PackageIneligibilityReason :=
  if amendment.index.sequence = 1 then
    match amendment.index.parentAmendmentIndexSha256 with
    | none => []
    | some _ => [broken amendment]
  else
    match (parentOf byDigest amendment).map fun parent => parent.index.sequence with
    | none => [broken amendment]
    | some parentSequence =>
      if parentSequence + 1 = amendment.index.sequence then [] else [broken amendment]

/-- The loop of `duplicateDigestReasons`, with the digests seen so far. -/
def duplicatesAfter (seen : List Sha256Hex) :
    List ParsedAmendment → List PackageIneligibilityReason
  | [] => []
  | amendment :: rest =>
    (if amendment.indexSha256 ∈ seen then [broken amendment] else []) ++
      duplicatesAfter (amendment.indexSha256 :: seen) rest

def duplicateDigestReasons : List PackageIneligibilityReason :=
  duplicatesAfter [] amendments

/-- One reason for each sequence that does not follow the one before it. -/
def gapsAfter (previous : Nat) : List Nat → List PackageIneligibilityReason
  | [] => []
  | sequence :: rest =>
    (if sequence = previous + 1 then []
      else [ineligibility .sequenceGap "amendments" none]) ++ gapsAfter sequence rest

def sequenceGapReasons : List PackageIneligibilityReason :=
  gapsAfter 0
    ((amendments.map fun amendment => amendment.index.sequence).dedup.insertionSort (· ≤ ·))

/-- The loop of `cycleReasons` for one start: the digests on the path and where it stopped. -/
def followParents (byDigest : DigestMap) (settled : List Sha256Hex) :
    Nat → List Sha256Hex → Option ParsedAmendment → List Sha256Hex × Option ParsedAmendment
  | 0, path, next => (path, next)
  | _ + 1, path, none => (path, none)
  | fuel + 1, path, some next =>
    if next.indexSha256 ∈ settled ∨ next.indexSha256 ∈ path then (path, some next)
    else followParents byDigest settled fuel (next.indexSha256 :: path) (parentOf byDigest next)

/-- One start of `cycleReasons`, with the reasons so far and the digests settled so far. -/
def cycleStep (byDigest : DigestMap)
    (done : List PackageIneligibilityReason × List Sha256Hex) (start : ParsedAmendment) :
    List PackageIneligibilityReason × List Sha256Hex :=
  let followed := followParents byDigest done.2 (byDigest.length + 1) [] (some start)
  let reentered := followed.2.filter fun next => followed.1.contains next.indexSha256
  (done.1 ++ reentered.toList.map fun next => ineligibility .cycle next.location none,
    done.2 ++ followed.1)

def cycleReasons (byDigest : DigestMap) : List PackageIneligibilityReason :=
  (amendments.foldl (cycleStep byDigest) ([], [])).1

def headReasons (head : Option Sha256Hex) (byDigest : DigestMap) :
    List PackageIneligibilityReason :=
  match head with
  | none => []
  | some digest =>
    if (byDigest.get? digest).isSome then [] else [ineligibility .unknownHead "amendments" none]

/-- The order `compareLinks` sorts by. -/
def linkLe (first second : AmendmentLink) : Bool :=
  decide (first.sequence < second.sequence) ||
    (first.sequence == second.sequence &&
      codeUnitsLe first.amendmentIndexSha256 second.amendmentIndexSha256)

def resolveAmendmentGraph (input : AmendmentGraphInput) : AmendmentGraph :=
  let byDigest := amendmentsByDigest input.amendments
  let chain := selectedChain input.selectedHead byDigest
  let inChain := chain.map ParsedAmendment.indexSha256
  let reasons :=
    input.amendments.flatMap (fun amendment => membershipReasons amendment input) ++
    input.amendments.flatMap (fun amendment => parentReasons amendment byDigest) ++
    duplicateDigestReasons input.amendments ++
    sequenceGapReasons input.amendments ++
    cycleReasons input.amendments byDigest ++
    headReasons input.selectedHead byDigest ++
    (input.amendments.filter fun amendment => !inChain.contains amendment.indexSha256).map unselected
  ⟨chain, (input.amendments.map amendmentLink).insertionSort (linkLe · ·), reasons⟩

/-! ## The digest map -/

section Digests

variable {amendments : List ParsedAmendment} {amendment parent : ParsedAmendment}
  {byDigest : DigestMap} {digest : Sha256Hex}

theorem amendmentsByDigest_get? (amendments : List ParsedAmendment) (digest : Sha256Hex) :
    (amendmentsByDigest amendments).get? digest =
      amendments.find? fun amendment => amendment.indexSha256 == digest := by
  have hfold : ∀ map : DigestMap, (amendments.foldl (fun map amendment =>
      map.set amendment.indexSha256 ((map.get? amendment.indexSha256).getD amendment)) map).get?
        digest = (map.get? digest).or
          (amendments.find? fun amendment => amendment.indexSha256 == digest) := by
    induction amendments with
    | nil => intro map; simp
    | cons first rest ih =>
      intro map
      rw [List.foldl_cons, ih]
      by_cases hkey : digest = first.indexSha256
      · subst hkey
        rw [InsertionMap.get?_set_self]
        cases hbefore : map.get? first.indexSha256 <;> simp
      · rw [InsertionMap.get?_set_of_ne _ hkey,
          List.find?_cons_of_neg (by simpa using Ne.symm hkey)]
  rw [amendmentsByDigest, hfold]
  simp

theorem get?_byDigest (h : (amendmentsByDigest amendments).get? digest = some amendment) :
    amendment ∈ amendments ∧ amendment.indexSha256 = digest := by
  rw [amendmentsByDigest_get?] at h
  refine ⟨List.mem_of_find?_eq_some h, ?_⟩
  have hdigest := List.find?_some h
  simpa using hdigest

theorem get?_byDigest_of_mem (hdistinct : (amendments.map ParsedAmendment.indexSha256).Nodup)
    (hmem : amendment ∈ amendments) :
    (amendmentsByDigest amendments).get? amendment.indexSha256 = some amendment := by
  cases hfound : (amendmentsByDigest amendments).get? amendment.indexSha256 with
  | none =>
    rw [amendmentsByDigest_get?, List.find?_eq_none] at hfound
    have hother := hfound amendment hmem
    simp at hother
  | some found =>
    obtain ⟨hfoundMem, hdigest⟩ := get?_byDigest hfound
    rw [List.inj_on_of_nodup_map hdistinct hfoundMem hmem hdigest]

theorem parentOf_some (h : parentOf (amendmentsByDigest amendments) amendment = some parent) :
    parent ∈ amendments ∧
      amendment.index.parentAmendmentIndexSha256 = some parent.indexSha256 := by
  obtain ⟨digest, hparent, hfound⟩ := Option.bind_eq_some_iff.mp h
  obtain ⟨hmem, hdigest⟩ := get?_byDigest hfound
  exact ⟨hmem, by rw [hparent, hdigest]⟩

/-- What holds at the start of a walk and passes from an amendment to its parent holds of
everything the walk pushes. -/
theorem walkParents_forall {P : ParsedAmendment → Prop}
    (hparent : ∀ amendment parent, P amendment → parentOf byDigest amendment = some parent →
      P parent) {fuel : Nat} {visited : List Sha256Hex} {start : Option ParsedAmendment}
    (hstart : ∀ amendment, start = some amendment → P amendment) :
    ∀ amendment ∈ walkParents byDigest fuel visited start, P amendment := by
  induction fuel generalizing visited start with
  | zero => intro amendment hmem; cases hmem
  | succ fuel ih =>
    intro amendment hmem
    cases start with
    | none => cases hmem
    | some next =>
      have hnext := hstart next rfl
      simp only [walkParents] at hmem
      split at hmem
      · cases hmem
      · rcases List.mem_cons.mp hmem with rfl | hlater
        · exact hnext
        · exact ih (fun parent hfound => hparent next parent hnext hfound) amendment hlater

theorem mem_selectedChain {P : ParsedAmendment → Prop} {head : Option Sha256Hex}
    (hparent : ∀ amendment parent, P amendment → parentOf byDigest amendment = some parent →
      P parent) (hhead : ∀ amendment, head.bind byDigest.get? = some amendment → P amendment) :
    ∀ amendment ∈ selectedChain head byDigest, P amendment := by
  intro amendment hmem
  exact walkParents_forall hparent hhead amendment (List.mem_reverse.mp hmem)

/-- The digests of the map that a walk has not met yet. -/
def unvisited (byDigest : DigestMap) (visited : List Sha256Hex) : List Sha256Hex :=
  (byDigest.map Prod.fst).filter fun digest => !visited.contains digest

theorem unvisited_cons_lt {visited : List Sha256Hex} (hkey : digest ∈ byDigest.map Prod.fst)
    (hnew : digest ∉ visited) :
    (unvisited byDigest (digest :: visited)).length < (unvisited byDigest visited).length := by
  have hfilter : unvisited byDigest (digest :: visited) =
      (unvisited byDigest visited).filter fun key => !decide (key = digest) := by
    unfold unvisited
    rw [List.filter_filter]
    refine List.filter_congr fun key _ => ?_
    simp [Bool.not_or]
  rw [hfilter]
  refine List.length_filter_lt_length_iff_exists.mpr ⟨digest, ?_, by simp⟩
  exact List.mem_filter.mpr ⟨hkey, by simpa using hnew⟩

/-- More fuel than there are digests left to meet changes nothing. -/
theorem walkParents_fuel
    (hkeys : ∀ digest amendment, byDigest.get? digest = some amendment →
      amendment.indexSha256 ∈ byDigest.map Prod.fst)
    {fuel : Nat} (extra : Nat) {visited : List Sha256Hex} {start : Option ParsedAmendment}
    (hstart : ∀ amendment, start = some amendment →
      amendment.indexSha256 ∈ byDigest.map Prod.fst)
    (hfuel : (unvisited byDigest visited).length < fuel) :
    walkParents byDigest (fuel + extra) visited start =
      walkParents byDigest fuel visited start := by
  induction fuel generalizing visited start with
  | zero => omega
  | succ fuel ih =>
    rw [Nat.add_right_comm]
    cases start with
    | none => rfl
    | some next =>
      simp only [walkParents]
      split
      · rfl
      · rename_i hnew
        have hless := unvisited_cons_lt (hstart next rfl) hnew
        rw [ih (fun parent hparent => ?_) (by omega)]
        obtain ⟨digest, -, hfound⟩ := Option.bind_eq_some_iff.mp hparent
        exact hkeys digest parent hfound

theorem byDigest_keys (amendments : List ParsedAmendment) (digest : Sha256Hex)
    (amendment : ParsedAmendment)
    (h : (amendmentsByDigest amendments).get? digest = some amendment) :
    amendment.indexSha256 ∈ (amendmentsByDigest amendments).map Prod.fst := by
  rw [(get?_byDigest h).2]
  exact List.mem_map.mpr ⟨_, InsertionMap.mem_of_get? h, rfl⟩

/-- The fuel of `selectedChain` never ends its walk. -/
theorem selectedChain_fuel (head : Option Sha256Hex) (amendments : List ParsedAmendment)
    (extra : Nat) :
    (walkParents (amendmentsByDigest amendments)
      ((amendmentsByDigest amendments).length + 1 + extra) []
      (head.bind (amendmentsByDigest amendments).get?)).reverse =
      selectedChain head (amendmentsByDigest amendments) := by
  rw [selectedChain, walkParents_fuel (byDigest_keys amendments)]
  · intro amendment hfound
    obtain ⟨digest, -, hfound⟩ := Option.bind_eq_some_iff.mp hfound
    exact byDigest_keys amendments digest amendment hfound
  · have hle := List.length_filter_le (fun digest => !([] : List Sha256Hex).contains digest)
      ((amendmentsByDigest amendments).map Prod.fst)
    rw [List.length_map] at hle
    exact Nat.lt_succ_of_le hle

end Digests

/-! ## A graph without reasons -/

section NoReasons

variable {input : AmendmentGraphInput} {amendment : ParsedAmendment}

/-- What the checks of a graph without reasons say. -/
structure CompleteChain (input : AmendmentGraphInput) : Prop where
  belongs : ∀ amendment ∈ input.amendments,
    belongsToExecution amendment.index.identity input.identity = true
  manifest : ∀ amendment ∈ input.amendments,
    amendment.index.executionManifestSha256 = input.executionManifestSha256
  original : ∀ amendment ∈ input.amendments,
    amendment.index.originalPackageIndexSha256 = input.originalPackageIndexSha256
  parents : ∀ amendment ∈ input.amendments,
    (amendment.index.sequence = 1 ∧ amendment.index.parentAmendmentIndexSha256 = none) ∨
    ∃ parent, parentOf (amendmentsByDigest input.amendments) amendment = some parent ∧
      parent.index.sequence + 1 = amendment.index.sequence
  distinct : (input.amendments.map ParsedAmendment.indexSha256).Nodup
  headKnown : ∀ head, input.selectedHead = some head →
    ∃ amendment, (amendmentsByDigest input.amendments).get? head = some amendment
  selected : ∀ amendment ∈ input.amendments, ∃ chosen ∈
    selectedChain input.selectedHead (amendmentsByDigest input.amendments),
    chosen.indexSha256 = amendment.indexSha256

theorem membershipReasons_nil (h : membershipReasons amendment input = []) :
    belongsToExecution amendment.index.identity input.identity = true ∧
    amendment.index.executionManifestSha256 = input.executionManifestSha256 ∧
    amendment.index.originalPackageIndexSha256 = input.originalPackageIndexSha256 := by
  unfold membershipReasons at h
  simp only [List.append_eq_nil_iff] at h
  obtain ⟨⟨hbelongs, hmanifest⟩, horiginal⟩ := h
  refine ⟨?_, ?_, ?_⟩
  · by_contra hnot
    simp [hnot] at hbelongs
  · by_contra hnot
    simp [hnot] at hmanifest
  · by_contra hnot
    simp [hnot] at horiginal

theorem parentReasons_nil {byDigest : DigestMap} (h : parentReasons amendment byDigest = []) :
    (amendment.index.sequence = 1 ∧ amendment.index.parentAmendmentIndexSha256 = none) ∨
    ∃ parent, parentOf byDigest amendment = some parent ∧
      parent.index.sequence + 1 = amendment.index.sequence := by
  unfold parentReasons at h
  split at h
  · rename_i hone
    split at h
    · rename_i hnone
      exact .inl ⟨hone, hnone⟩
    · cases h
  · split at h
    · cases h
    · rename_i parentSequence hfound
      obtain ⟨parent, hparent, rfl⟩ := Option.map_eq_some_iff.mp hfound
      split at h
      · rename_i hnext
        exact .inr ⟨parent, hparent, hnext⟩
      · cases h

theorem duplicatesAfter_nil {seen : List Sha256Hex} {amendments : List ParsedAmendment}
    (h : duplicatesAfter seen amendments = []) :
    (amendments.map ParsedAmendment.indexSha256).Nodup ∧
      ∀ amendment ∈ amendments, amendment.indexSha256 ∉ seen := by
  induction amendments generalizing seen with
  | nil => exact ⟨List.nodup_nil, fun amendment hmem => absurd hmem List.not_mem_nil⟩
  | cons first rest ih =>
    simp only [duplicatesAfter, List.append_eq_nil_iff] at h
    obtain ⟨hfirst, hrest⟩ := h
    obtain ⟨hnodup, hunseen⟩ := ih hrest
    have hnew : first.indexSha256 ∉ seen := by
      intro hseen
      simp [hseen] at hfirst
    constructor
    · rw [List.map_cons, List.nodup_cons]
      refine ⟨fun hmem => ?_, hnodup⟩
      obtain ⟨later, hlater, hdigest⟩ := List.mem_map.mp hmem
      exact hunseen later hlater (by rw [hdigest]; exact List.mem_cons_self)
    · intro amendment hmem
      rcases List.mem_cons.mp hmem with rfl | hlater
      · exact hnew
      · exact fun hseen => hunseen amendment hlater (List.mem_cons_of_mem _ hseen)

theorem completeChain_of_no_reasons (h : (resolveAmendmentGraph input).reasons = []) :
    CompleteChain input := by
  simp only [resolveAmendmentGraph, List.append_eq_nil_iff, List.flatMap_eq_nil_iff,
    List.map_eq_nil_iff] at h
  obtain ⟨⟨⟨⟨⟨⟨hmember, hparents⟩, hduplicate⟩, -⟩, -⟩, hhead⟩, hselected⟩ := h
  refine ⟨fun amendment hmem => (membershipReasons_nil (hmember amendment hmem)).1,
    fun amendment hmem => (membershipReasons_nil (hmember amendment hmem)).2.1,
    fun amendment hmem => (membershipReasons_nil (hmember amendment hmem)).2.2,
    fun amendment hmem => parentReasons_nil (hparents amendment hmem),
    (duplicatesAfter_nil hduplicate).1, fun head hsome => ?_, fun amendment hmem => ?_⟩
  · rw [hsome] at hhead
    simp only [headReasons] at hhead
    split at hhead
    · rename_i hknown
      exact Option.isSome_iff_exists.mp hknown
    · cases hhead
  · have hin := List.filter_eq_nil_iff.mp hselected amendment hmem
    simp only [Bool.not_eq_true', Bool.not_eq_false, List.contains_iff_mem, List.mem_map] at hin
    exact hin

theorem CompleteChain.digest_known {first second : AmendmentGraphInput}
    (hfirst : CompleteChain first) (hsecond : CompleteChain second)
    (hhead : first.selectedHead = second.selectedHead)
    (hsame : ∀ here ∈ first.amendments, ∀ there ∈ second.amendments,
      here.indexSha256 = there.indexSha256 → here.index = there.index)
    {here : ParsedAmendment} (hmem : here ∈ first.amendments) :
    ∃ there ∈ second.amendments, there.indexSha256 = here.indexSha256 := by
  -- the walk of the first chain never leaves what the second one knows
  have hwalk : ∀ chosen ∈ selectedChain first.selectedHead (amendmentsByDigest first.amendments),
      chosen ∈ first.amendments ∧
        ∃ there ∈ second.amendments, there.indexSha256 = chosen.indexSha256 := by
    apply mem_selectedChain
    · rintro chosen parent ⟨hchosen, there, hthere, hdigest⟩ hparent
      obtain ⟨hparentMem, hparentDigest⟩ := parentOf_some hparent
      have hindex := hsame chosen hchosen there hthere hdigest.symm
      rw [hindex] at hparentDigest
      refine ⟨hparentMem, ?_⟩
      rcases hsecond.parents there hthere with ⟨-, hnone⟩ | ⟨other, hother, -⟩
      · rw [hparentDigest] at hnone
        cases hnone
      · obtain ⟨hotherMem, hotherDigest⟩ := parentOf_some hother
        rw [hparentDigest] at hotherDigest
        exact ⟨other, hotherMem, (Option.some.inj hotherDigest).symm⟩
    · intro chosen hfound
      obtain ⟨digest, hselected, hchosen⟩ := Option.bind_eq_some_iff.mp hfound
      obtain ⟨hchosenMem, hchosenDigest⟩ := get?_byDigest hchosen
      obtain ⟨there, hthere⟩ := hsecond.headKnown digest (hhead ▸ hselected)
      obtain ⟨hthereMem, hthereDigest⟩ := get?_byDigest hthere
      exact ⟨hchosenMem, there, hthereMem, hthereDigest.trans hchosenDigest.symm⟩
  obtain ⟨chosen, hchosen, hdigest⟩ := hfirst.selected here hmem
  obtain ⟨-, there, hthere, hknown⟩ := hwalk chosen hchosen
  exact ⟨there, hthere, hknown.trans hdigest⟩

theorem CompleteChain.amendments_nil (h : CompleteChain input) (hhead : input.selectedHead = none) :
    input.amendments = [] := by
  rw [List.eq_nil_iff_forall_not_mem]
  intro amendment hmem
  obtain ⟨chosen, hchosen, -⟩ := h.selected amendment hmem
  rw [hhead] at hchosen
  cases hchosen

end NoReasons

/-! ## A linear chain has no reason -/

/-- The amendments are one chain: sequences `1..n`, each but the first with the digest of the one
before it as its parent, and the last one selected. -/
structure LinearChain (input : AmendmentGraphInput) : Prop where
  belongs : ∀ amendment ∈ input.amendments,
    belongsToExecution amendment.index.identity input.identity = true
  manifest : ∀ amendment ∈ input.amendments,
    amendment.index.executionManifestSha256 = input.executionManifestSha256
  original : ∀ amendment ∈ input.amendments,
    amendment.index.originalPackageIndexSha256 = input.originalPackageIndexSha256
  distinct : (input.amendments.map ParsedAmendment.indexSha256).Nodup
  sequences : (input.amendments.map fun amendment => amendment.index.sequence).Perm
    (List.range' 1 input.amendments.length)
  parents : ∀ amendment ∈ input.amendments,
    (amendment.index.sequence = 1 ∧ amendment.index.parentAmendmentIndexSha256 = none) ∨
    ∃ parent ∈ input.amendments, parent.index.sequence + 1 = amendment.index.sequence ∧
      amendment.index.parentAmendmentIndexSha256 = some parent.indexSha256
  head : ∃ last ∈ input.amendments, last.index.sequence = input.amendments.length ∧
    input.selectedHead = some last.indexSha256

section Linear

variable {input : AmendmentGraphInput} {amendment parent : ParsedAmendment}

theorem LinearChain.parentOf_eq (h : LinearChain input) (hmem : parent ∈ input.amendments)
    (hparent : amendment.index.parentAmendmentIndexSha256 = some parent.indexSha256) :
    parentOf (amendmentsByDigest input.amendments) amendment = some parent := by
  unfold parentOf
  rw [hparent]
  exact get?_byDigest_of_mem h.distinct hmem

theorem LinearChain.parent_lower (h : LinearChain input) (hmem : amendment ∈ input.amendments)
    (hparent : parentOf (amendmentsByDigest input.amendments) amendment = some parent) :
    parent ∈ input.amendments ∧ parent.index.sequence + 1 = amendment.index.sequence := by
  obtain ⟨hparentMem, hdigest⟩ := parentOf_some hparent
  rcases h.parents amendment hmem with ⟨-, hnone⟩ | ⟨other, hother, hlower, hotherDigest⟩
  · rw [hnone] at hdigest
    cases hdigest
  · have hsame : other.indexSha256 = parent.indexSha256 :=
      Option.some.inj (hotherDigest.symm.trans hdigest)
    obtain rfl : other = parent := List.inj_on_of_nodup_map h.distinct hother hparentMem hsame
    exact ⟨hother, hlower⟩

theorem duplicatesAfter_eq_nil {seen : List Sha256Hex} {amendments : List ParsedAmendment}
    (hdistinct : (amendments.map ParsedAmendment.indexSha256).Nodup)
    (hunseen : ∀ amendment ∈ amendments, amendment.indexSha256 ∉ seen) :
    duplicatesAfter seen amendments = [] := by
  induction amendments generalizing seen with
  | nil => rfl
  | cons first rest ih =>
    rw [List.map_cons, List.nodup_cons] at hdistinct
    have hrest : duplicatesAfter (first.indexSha256 :: seen) rest = [] := by
      refine ih hdistinct.2 (fun amendment hmem hseen => ?_)
      rcases List.mem_cons.mp hseen with heq | hseen
      · exact hdistinct.1 (List.mem_map.mpr ⟨amendment, hmem, heq⟩)
      · exact hunseen amendment (List.mem_cons_of_mem _ hmem) hseen
    simp [duplicatesAfter, hunseen first List.mem_cons_self, hrest]

theorem gapsAfter_range' (previous count : Nat) :
    gapsAfter previous (List.range' (previous + 1) count) = [] := by
  induction count generalizing previous with
  | zero => rfl
  | succ count ih =>
    rw [List.range'_succ]
    simp [gapsAfter, ih]

theorem LinearChain.no_gap (h : LinearChain input) : sequenceGapReasons input.amendments = [] := by
  unfold sequenceGapReasons
  have hnodup : (input.amendments.map fun amendment => amendment.index.sequence).Nodup :=
    h.sequences.nodup_iff.mpr List.nodup_range'
  have hsorted : (input.amendments.map fun amendment => amendment.index.sequence).insertionSort
      (· ≤ ·) = List.range' 1 input.amendments.length := by
    apply List.Perm.eq_of_pairwise' (r := (· ≤ ·))
    · exact List.pairwise_insertionSort _ _
    · exact (List.pairwise_lt_range' 1).imp le_of_lt
    · exact (List.perm_insertionSort _ _).trans h.sequences
  rw [hnodup.dedup, hsorted]
  exact gapsAfter_range' 0 _

/-- The path of the cycle search only holds amendments of higher sequence than where it is. -/
def Climbed (input : AmendmentGraphInput) (path : List Sha256Hex)
    (next : Option ParsedAmendment) : Prop :=
  ∀ amendment, next = some amendment → amendment ∈ input.amendments ∧
    ∀ digest ∈ path, ∃ above ∈ input.amendments, above.indexSha256 = digest ∧
      amendment.index.sequence < above.index.sequence

theorem LinearChain.followParents_climbed (h : LinearChain input) {settled path : List Sha256Hex}
    {fuel : Nat} {next : Option ParsedAmendment} (hnext : Climbed input path next) :
    Climbed input (followParents (amendmentsByDigest input.amendments) settled fuel path next).1
      (followParents (amendmentsByDigest input.amendments) settled fuel path next).2 := by
  induction fuel generalizing path next with
  | zero => exact hnext
  | succ fuel ih =>
    cases next with
    | none => exact hnext
    | some amendment =>
      simp only [followParents]
      split
      · exact hnext
      · obtain ⟨hmem, habove⟩ := hnext amendment rfl
        apply ih
        intro parent hparent
        obtain ⟨hparentMem, hlower⟩ := h.parent_lower hmem hparent
        refine ⟨hparentMem, fun digest hdigest => ?_⟩
        rcases List.mem_cons.mp hdigest with rfl | hdigest
        · exact ⟨amendment, hmem, rfl, by omega⟩
        · obtain ⟨above, haboveMem, hsame, hless⟩ := habove digest hdigest
          exact ⟨above, haboveMem, hsame, by omega⟩

theorem LinearChain.cycleStep_fst (h : LinearChain input) (hmem : amendment ∈ input.amendments)
    (done : List PackageIneligibilityReason × List Sha256Hex) :
    (cycleStep (amendmentsByDigest input.amendments) done amendment).1 = done.1 := by
  have hstart : Climbed input [] (some amendment) := by
    intro start hstart
    obtain rfl := Option.some.inj hstart
    exact ⟨hmem, fun digest hdigest => absurd hdigest List.not_mem_nil⟩
  have hclimbed : Climbed input
      (followParents (amendmentsByDigest input.amendments) done.2
        ((amendmentsByDigest input.amendments).length + 1) [] (some amendment)).1
      (followParents (amendmentsByDigest input.amendments) done.2
        ((amendmentsByDigest input.amendments).length + 1) [] (some amendment)).2 :=
    h.followParents_climbed hstart
  simp only [cycleStep]
  generalize followParents (amendmentsByDigest input.amendments) done.2
    ((amendmentsByDigest input.amendments).length + 1) [] (some amendment) = followed at hclimbed
  cases hstop : followed.2 with
  | none => simp
  | some stop =>
    obtain ⟨hstopMem, habove⟩ := hclimbed stop hstop
    have hout : stop.indexSha256 ∉ followed.1 := by
      intro hin
      obtain ⟨above, haboveMem, hsame, hless⟩ := habove _ hin
      obtain rfl : above = stop :=
        List.inj_on_of_nodup_map h.distinct haboveMem hstopMem hsame
      omega
    simp [hout]

theorem LinearChain.no_cycle (h : LinearChain input) :
    cycleReasons input.amendments (amendmentsByDigest input.amendments) = [] := by
  have hfold : ∀ (starts : List ParsedAmendment)
      (done : List PackageIneligibilityReason × List Sha256Hex),
      (∀ start ∈ starts, start ∈ input.amendments) →
      (starts.foldl (cycleStep (amendmentsByDigest input.amendments)) done).1 = done.1 := by
    intro starts
    induction starts with
    | nil => exact fun done _ => rfl
    | cons first rest ih =>
      intro done hstarts
      rw [List.foldl_cons, ih _ fun start hstart => hstarts start (List.mem_cons_of_mem _ hstart)]
      exact h.cycleStep_fst (hstarts first List.mem_cons_self) done
  exact hfold input.amendments ([], []) fun start hstart => hstart

theorem LinearChain.sequence_inj (h : LinearChain input) {first second : ParsedAmendment}
    (hfirst : first ∈ input.amendments) (hsecond : second ∈ input.amendments)
    (hsame : first.index.sequence = second.index.sequence) : first = second :=
  List.inj_on_of_nodup_map (h.sequences.nodup_iff.mpr List.nodup_range') hfirst hsecond hsame

theorem LinearChain.walk_complete (h : LinearChain input) {fuel : Nat} {visited : List Sha256Hex}
    {start : ParsedAmendment} (hstart : start ∈ input.amendments)
    (hvisited : ∀ digest ∈ visited, ∃ above ∈ input.amendments, above.indexSha256 = digest ∧
      start.index.sequence < above.index.sequence)
    (hfuel : start.index.sequence ≤ fuel) (hmem : amendment ∈ input.amendments)
    (hle : amendment.index.sequence ≤ start.index.sequence) :
    amendment ∈ walkParents (amendmentsByDigest input.amendments) fuel visited (some start) := by
  induction fuel generalizing visited start with
  | zero =>
    have hzero : start.index.sequence ∈ List.range' 1 input.amendments.length :=
      h.sequences.mem_iff.mp (List.mem_map_of_mem hstart)
    have hpositive := (List.mem_range'_1.mp hzero).1
    omega
  | succ fuel ih =>
    have hnew : start.indexSha256 ∉ visited := by
      intro hin
      obtain ⟨above, haboveMem, hsame, hless⟩ := hvisited _ hin
      obtain rfl : above = start := List.inj_on_of_nodup_map h.distinct haboveMem hstart hsame
      omega
    simp only [walkParents, if_neg hnew, List.mem_cons]
    by_cases hsame : amendment.index.sequence = start.index.sequence
    · exact .inl (h.sequence_inj hmem hstart hsame)
    · right
      rcases h.parents start hstart with ⟨hone, -⟩ | ⟨parent, hparent, hlower, hdigest⟩
      · have hpositive : amendment.index.sequence ∈ List.range' 1 input.amendments.length :=
          h.sequences.mem_iff.mp (List.mem_map_of_mem hmem)
        have := (List.mem_range'_1.mp hpositive).1
        omega
      · rw [h.parentOf_eq hparent hdigest]
        refine ih hparent (fun digest hin => ?_) (by omega) (by omega)
        rcases List.mem_cons.mp hin with rfl | hin
        · exact ⟨start, hstart, rfl, by omega⟩
        · obtain ⟨above, haboveMem, hsame, hless⟩ := hvisited digest hin
          exact ⟨above, haboveMem, hsame, by omega⟩

theorem length_le_byDigest {amendments : List ParsedAmendment}
    (hdistinct : (amendments.map ParsedAmendment.indexSha256).Nodup) :
    amendments.length ≤ (amendmentsByDigest amendments).length := by
  have hsub : amendments.map ParsedAmendment.indexSha256 ⊆
      (amendmentsByDigest amendments).map Prod.fst := by
    intro digest hmem
    obtain ⟨amendment, hamendment, rfl⟩ := List.mem_map.mp hmem
    exact byDigest_keys amendments _ amendment (get?_byDigest_of_mem hdistinct hamendment)
  have hle := (List.subperm_of_subset hdistinct hsub).length_le
  simpa using hle

theorem LinearChain.no_reasons (h : LinearChain input) :
    (resolveAmendmentGraph input).reasons = [] := by
  obtain ⟨last, hlast, hsequence, hhead⟩ := h.head
  have hknown := get?_byDigest_of_mem h.distinct hlast
  have hmember : ∀ amendment ∈ input.amendments, membershipReasons amendment input = [] := by
    intro amendment hmem
    simp [membershipReasons, h.belongs amendment hmem, h.manifest amendment hmem,
      h.original amendment hmem]
  have hparents : ∀ amendment ∈ input.amendments,
      parentReasons amendment (amendmentsByDigest input.amendments) = [] := by
    intro amendment hmem
    unfold parentReasons
    rcases h.parents amendment hmem with ⟨hone, hnone⟩ | ⟨parent, hparent, hlower, hdigest⟩
    · simp [hone, hnone]
    · have hrange : parent.index.sequence ∈ List.range' 1 input.amendments.length :=
        h.sequences.mem_iff.mp (List.mem_map_of_mem hparent)
      have hpositive := (List.mem_range'_1.mp hrange).1
      have hne : amendment.index.sequence ≠ 1 := by omega
      simp [hne, h.parentOf_eq hparent hdigest, hlower]
  have hselected : (input.amendments.filter fun amendment =>
      !((selectedChain input.selectedHead (amendmentsByDigest input.amendments)).map
        ParsedAmendment.indexSha256).contains amendment.indexSha256) = [] := by
    rw [List.filter_eq_nil_iff]
    intro amendment hmem
    have hrange : amendment.index.sequence ∈ List.range' 1 input.amendments.length :=
      h.sequences.mem_iff.mp (List.mem_map_of_mem hmem)
    have hbound := List.mem_range'_1.mp hrange
    have hlength := length_le_byDigest h.distinct
    have hwalk : amendment ∈ walkParents (amendmentsByDigest input.amendments)
        ((amendmentsByDigest input.amendments).length + 1) [] (some last) := by
      refine h.walk_complete hlast (fun digest hin => absurd hin List.not_mem_nil) ?_ hmem ?_
      · omega
      · omega
    have hchain : amendment ∈ selectedChain input.selectedHead
        (amendmentsByDigest input.amendments) := by
      unfold selectedChain
      rw [hhead, List.mem_reverse, Option.bind_some, hknown]
      exact hwalk
    simpa using ⟨amendment, hchain, rfl⟩
  have hduplicates : duplicateDigestReasons input.amendments = [] :=
    duplicatesAfter_eq_nil h.distinct fun amendment _ hseen => absurd hseen List.not_mem_nil
  have hheadReasons : headReasons input.selectedHead (amendmentsByDigest input.amendments) = [] := by
    rw [hhead]
    simp [headReasons, hknown]
  simp only [resolveAmendmentGraph, List.append_eq_nil_iff, List.flatMap_eq_nil_iff,
    List.map_eq_nil_iff]
  exact ⟨⟨⟨⟨⟨⟨hmember, hparents⟩, hduplicates⟩, h.no_gap⟩, h.no_cycle⟩, hheadReasons⟩, hselected⟩

end Linear

end RefundStudy.Package
