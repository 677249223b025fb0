/-
  The amendment graph is judged exactly (`evidence-package/amendment-chain.ts`).
-/
import RefundStudy.Foundation.Trail
import RefundStudy.Package.AmendmentChain

set_option autoImplicit false

namespace RefundStudy.Package

open Foundation Record

/-! ## The walk of a complete chain -/

section Walk

variable {input : AmendmentGraphInput} {start : ParsedAmendment}

theorem CompleteChain.walk_sequences (h : CompleteChain input) {fuel : Nat}
    {visited : List Sha256Hex} (hstart : start ∈ input.amendments)
    (hvisited : ∀ digest ∈ visited, ∃ above ∈ input.amendments, above.indexSha256 = digest ∧
      start.index.sequence < above.index.sequence)
    (hfuel : start.index.sequence ≤ fuel) :
    (walkParents (amendmentsByDigest input.amendments) fuel visited (some start)).map
      (fun amendment => amendment.index.sequence) =
      (List.range' 1 start.index.sequence).reverse := by
  induction fuel generalizing visited start with
  | zero =>
    rcases h.parents start hstart with ⟨hone, -⟩ | ⟨parent, -, hlower⟩
    · omega
    · omega
  | succ fuel ih =>
    have hnew : start.indexSha256 ∉ visited := by
      intro hin
      obtain ⟨above, haboveMem, hsame, hless⟩ := hvisited _ hin
      obtain rfl : above = start := List.inj_on_of_nodup_map h.distinct haboveMem hstart hsame
      omega
    rw [walkParents, if_neg hnew, List.map_cons]
    rcases h.parents start hstart with ⟨hone, hnone⟩ | ⟨parent, hparent, hlower⟩
    · have hend : parentOf (amendmentsByDigest input.amendments) start = none := by
        rw [parentOf, hnone, Option.bind_none]
      rw [hend, hone]
      cases fuel with
      | zero => rfl
      | succ fuel => rfl
    · have hparentMem := (parentOf_some hparent).1
      rw [hparent, ih hparentMem ?_ (by omega), ← hlower, List.range'_concat,
        List.reverse_append]
      · simp [Nat.add_comm]
      · intro digest hin
        rcases List.mem_cons.mp hin with rfl | hin
        · exact ⟨start, hstart, rfl, by omega⟩
        · obtain ⟨above, haboveMem, hsame, hless⟩ := hvisited digest hin
          exact ⟨above, haboveMem, hsame, by omega⟩

theorem CompleteChain.selected_sequences (h : CompleteChain input) {head : Sha256Hex}
    (hhead : input.selectedHead = some head) :
    ∃ last ∈ input.amendments, last.indexSha256 = head ∧
      (selectedChain input.selectedHead (amendmentsByDigest input.amendments)).map
        (fun amendment => amendment.index.sequence) = List.range' 1 last.index.sequence := by
  obtain ⟨last, hknown⟩ := h.headKnown head hhead
  obtain ⟨hlast, hdigest⟩ := get?_byDigest hknown
  refine ⟨last, hlast, hdigest, ?_⟩
  rw [← selectedChain_fuel _ _ last.index.sequence, hhead, Option.bind_some, hknown,
    List.map_reverse, h.walk_sequences hlast ?_ (by omega), List.reverse_reverse]
  intro digest hin
  cases hin

theorem CompleteChain.selected_all (h : CompleteChain input) :
    (selectedChain input.selectedHead (amendmentsByDigest input.amendments)).Perm
        input.amendments ∧
      (selectedChain input.selectedHead (amendmentsByDigest input.amendments)).map
        (fun amendment => amendment.index.sequence) =
        List.range' 1 input.amendments.length := by
  cases hhead : input.selectedHead with
  | none =>
    rw [h.amendments_nil hhead]
    exact ⟨List.Perm.nil, rfl⟩
  | some head =>
    obtain ⟨last, hlast, hdigest, hsequences⟩ := h.selected_sequences hhead
    rw [hhead] at hsequences
    have hmem : ∀ amendment ∈
        selectedChain (some head) (amendmentsByDigest input.amendments),
        amendment ∈ input.amendments := by
      apply mem_selectedChain
      · intro amendment parent _ hparent
        exact (parentOf_some hparent).1
      · intro amendment hfound
        obtain ⟨digest, -, hfound⟩ := Option.bind_eq_some_iff.mp hfound
        exact (get?_byDigest hfound).1
    have hdistinct : (selectedChain (some head)
        (amendmentsByDigest input.amendments)).Nodup := by
      apply List.Nodup.of_map (fun amendment => amendment.index.sequence)
      rw [hsequences]
      exact List.nodup_range'
    have hperm : (selectedChain (some head) (amendmentsByDigest input.amendments)).Perm
        input.amendments := by
      apply (List.perm_ext_iff_of_nodup hdistinct (List.Nodup.of_map _ h.distinct)).mpr
      intro amendment
      constructor
      · exact hmem amendment
      · intro hamendment
        obtain ⟨chosen, hchosen, hsame⟩ := h.selected amendment hamendment
        rw [hhead] at hchosen
        rw [← List.inj_on_of_nodup_map h.distinct (hmem chosen hchosen) hamendment hsame]
        exact hchosen
    refine ⟨hperm, ?_⟩
    have hlength : last.index.sequence = input.amendments.length := by
      rw [← hperm.length_eq, ← List.length_map (f := fun amendment =>
        ParsedAmendment.index amendment |>.sequence), hsequences, List.length_range']
    rw [hsequences, hlength]

end Walk

/-! ## One chain -/

/-- The amendments are one chain of this execution: sequences 1..n, each but the first with the
digest of the one before it as its parent, and the last one selected. -/
structure OneChain (input : AmendmentGraphInput) : Prop where
  distinct : (input.amendments.map ParsedAmendment.indexSha256).Nodup
  belongs : ∀ amendment ∈ input.amendments,
    belongsToExecution amendment.index.identity input.identity = true
  manifest : ∀ amendment ∈ input.amendments,
    amendment.index.executionManifestSha256 = input.executionManifestSha256
  original : ∀ amendment ∈ input.amendments,
    amendment.index.originalPackageIndexSha256 = input.originalPackageIndexSha256
  sequences : (input.amendments.map fun amendment => amendment.index.sequence).Perm
    (List.range' 1 input.amendments.length)
  first : ∀ amendment ∈ input.amendments, amendment.index.sequence = 1 →
    amendment.index.parentAmendmentIndexSha256 = none
  linked : ∀ before ∈ input.amendments, ∀ amendment ∈ input.amendments,
    amendment.index.sequence = before.index.sequence + 1 →
      amendment.index.parentAmendmentIndexSha256 = some before.indexSha256
  noHead : input.amendments = [] → input.selectedHead = none
  head : ∀ last ∈ input.amendments, last.index.sequence = input.amendments.length →
    input.selectedHead = some last.indexSha256

section OneChains

variable {input : AmendmentGraphInput} {amendment : ParsedAmendment}

theorem OneChain.sequence_bounds (h : OneChain input) (hmem : amendment ∈ input.amendments) :
    1 ≤ amendment.index.sequence ∧ amendment.index.sequence ≤ input.amendments.length := by
  have hrange : amendment.index.sequence ∈ List.range' 1 input.amendments.length :=
    h.sequences.mem_iff.mp (List.mem_map_of_mem hmem)
  have hbounds := List.mem_range'_1.mp hrange
  omega

theorem OneChain.exists_sequence (h : OneChain input) {sequence : Nat} (hone : 1 ≤ sequence)
    (hle : sequence ≤ input.amendments.length) :
    ∃ amendment ∈ input.amendments, amendment.index.sequence = sequence := by
  have hmem : sequence ∈ List.range' 1 input.amendments.length :=
    List.mem_range'_1.mpr (by omega)
  exact List.mem_map.mp (h.sequences.mem_iff.mpr hmem)

theorem OneChain.linear (h : OneChain input) (hsome : input.amendments ≠ []) :
    LinearChain input := by
  have hpositive := List.length_pos_iff.mpr hsome
  refine ⟨h.belongs, h.manifest, h.original, h.distinct, h.sequences, ?_, ?_⟩
  · intro amendment hmem
    have hbounds := h.sequence_bounds hmem
    by_cases hone : amendment.index.sequence = 1
    · exact .inl ⟨hone, h.first amendment hmem hone⟩
    · have hexists : ∃ before ∈ input.amendments,
          before.index.sequence = amendment.index.sequence - 1 :=
        h.exists_sequence (by omega) (by omega)
      obtain ⟨before, hbefore, hsequence⟩ := hexists
      exact .inr ⟨before, hbefore, by omega, h.linked before hbefore amendment hmem (by omega)⟩
  · obtain ⟨last, hlast, hsequence⟩ := h.exists_sequence hpositive (Nat.le_refl _)
    exact ⟨last, hlast, hsequence, h.head last hlast hsequence⟩

theorem OneChain.no_reasons (h : OneChain input) : (resolveAmendmentGraph input).reasons = [] := by
  by_cases hnone : input.amendments = []
  · simp only [resolveAmendmentGraph, hnone, h.noHead hnone]
    rfl
  · exact (h.linear hnone).no_reasons

theorem CompleteChain.oneChain (h : CompleteChain input) : OneChain input := by
  obtain ⟨hperm, hsequences⟩ := h.selected_all
  have hall : (input.amendments.map fun amendment => amendment.index.sequence).Perm
      (List.range' 1 input.amendments.length) := by
    rw [← hsequences]
    exact (hperm.map _).symm
  have hpositive : ∀ amendment ∈ input.amendments, 1 ≤ amendment.index.sequence := by
    intro amendment hmem
    exact (List.mem_range'_1.mp (hall.mem_iff.mp (List.mem_map_of_mem hmem))).1
  have hinjective : ∀ first ∈ input.amendments, ∀ second ∈ input.amendments,
      first.index.sequence = second.index.sequence → first = second := by
    intro first hfirst second hsecond hsame
    exact List.inj_on_of_nodup_map (hall.nodup_iff.mpr List.nodup_range') hfirst hsecond hsame
  refine ⟨h.distinct, h.belongs, h.manifest, h.original, hall, ?_, ?_, ?_, ?_⟩
  · intro amendment hmem hone
    rcases h.parents amendment hmem with ⟨-, hnone⟩ | ⟨parent, hparent, hlower⟩
    · exact hnone
    · have hbound := hpositive parent (parentOf_some hparent).1
      omega
  · intro before hbefore amendment hmem hnext
    have hbound := hpositive before hbefore
    rcases h.parents amendment hmem with ⟨hone, -⟩ | ⟨parent, hparent, hlower⟩
    · omega
    · obtain ⟨hparentMem, hdigest⟩ := parentOf_some hparent
      rw [← hinjective parent hparentMem before hbefore (by omega)]
      exact hdigest
  · intro hnone
    cases hhead : input.selectedHead with
    | none => rfl
    | some head =>
      obtain ⟨last, hlast, -⟩ := h.selected_sequences hhead
      rw [hnone] at hlast
      cases hlast
  · intro last hlast hsequence
    cases hhead : input.selectedHead with
    | none =>
      rw [h.amendments_nil hhead] at hlast
      cases hlast
    | some head =>
      obtain ⟨found, hfound, hdigest, hfoundSequences⟩ := h.selected_sequences hhead
      have hlength : found.index.sequence = input.amendments.length := by
        have hboth := congrArg List.length (hfoundSequences.symm.trans hsequences)
        rwa [List.length_range', List.length_range'] at hboth
      rw [← hdigest, hinjective found hfound last hlast (by omega)]

theorem reasons_nil_iff : (resolveAmendmentGraph input).reasons = [] ↔ OneChain input := by
  constructor
  · intro hnone
    exact (completeChain_of_no_reasons hnone).oneChain
  · exact OneChain.no_reasons

end OneChains

/-! ## The search for cycles -/

/-- Following parents from the amendment comes back to it. -/
def ReturnsToItself (amendments : List ParsedAmendment) (amendment : ParsedAmendment) : Prop :=
  Relation.TransGen (StepsTo (parentOf (amendmentsByDigest amendments))) amendment amendment

def Known (byDigest : DigestMap) (amendment : ParsedAmendment) : Prop :=
  byDigest.get? amendment.indexSha256 = some amendment

section Search

variable {amendments : List ParsedAmendment} {byDigest : DigestMap} {amendment : ParsedAmendment}

theorem digest_mem_byDigest (hmem : amendment ∈ amendments) :
    ∃ found, (amendmentsByDigest amendments).get? amendment.indexSha256 = some found ∧
      found.indexSha256 = amendment.indexSha256 := by
  cases hfound : (amendmentsByDigest amendments).get? amendment.indexSha256 with
  | none =>
    rw [amendmentsByDigest_get?, List.find?_eq_none] at hfound
    have hother := hfound amendment hmem
    simp at hother
  | some found => exact ⟨found, rfl, (get?_byDigest hfound).2⟩

theorem known_of_parentOf {parent : ParsedAmendment}
    (h : parentOf (amendmentsByDigest amendments) amendment = some parent) :
    Known (amendmentsByDigest amendments) parent := by
  obtain ⟨digest, -, hfound⟩ := Option.bind_eq_some_iff.mp h
  rw [Known, (get?_byDigest hfound).2]
  exact hfound

theorem known_or_earlier {before rest : List ParsedAmendment}
    (hsplit : amendments = before ++ amendment :: rest) :
    Known (amendmentsByDigest amendments) amendment ∨
      ∃ earlier ∈ before, earlier.indexSha256 = amendment.indexSha256 := by
  by_cases hearlier : ∃ earlier ∈ before, earlier.indexSha256 = amendment.indexSha256
  · exact .inr hearlier
  · left
    push Not at hearlier
    have hnone : (before.find? fun other => other.indexSha256 == amendment.indexSha256) = none := by
      rw [List.find?_eq_none]
      intro other hother hsame
      exact hearlier other hother (beq_iff_eq.mp hsame)
    rw [Known, amendmentsByDigest_get?, hsplit, List.find?_append, hnone, Option.none_or,
      List.find?_cons_of_pos (by simp)]

/-- One loop of the search follows parents until nothing is left, or what is next has been met:
in an earlier search or on this path. -/
theorem followParents_trail
    (hkeys : ∀ digest amendment, byDigest.get? digest = some amendment →
      amendment.indexSha256 ∈ byDigest.map Prod.fst)
    {settled path : List Sha256Hex} {fuel : Nat} {next : Option ParsedAmendment}
    (hnext : ∀ amendment, next = some amendment →
      amendment.indexSha256 ∈ byDigest.map Prod.fst)
    (hfuel : (unvisited byDigest path).length < fuel) :
    ∃ met last, Trail (parentOf byDigest) next met last ∧
      (∀ extra, followParents byDigest settled (fuel + extra) path next =
        ((met.map ParsedAmendment.indexSha256).reverse ++ path, last)) ∧
      ∀ stop ∈ last, stop.indexSha256 ∈ settled ∨
        stop.indexSha256 ∈ (met.map ParsedAmendment.indexSha256).reverse ++ path := by
  induction fuel generalizing path next with
  | zero => omega
  | succ fuel ih =>
    cases next with
    | none =>
      refine ⟨[], none, rfl, ?_, ?_⟩
      · intro extra
        rw [Nat.add_right_comm]
        rfl
      · intro stop hstop
        cases hstop
    | some element =>
      by_cases hmet : element.indexSha256 ∈ settled ∨ element.indexSha256 ∈ path
      · refine ⟨[], some element, rfl, ?_, ?_⟩
        · intro extra
          rw [Nat.add_right_comm, followParents, if_pos hmet]
          rfl
        · intro stop hstop
          obtain rfl := Option.mem_some_iff.mp hstop
          exact hmet
      · have hnew : element.indexSha256 ∉ path := fun hin => hmet (.inr hin)
        have hless := unvisited_cons_lt (hnext element rfl) hnew
        have hparentKey : ∀ parent, parentOf byDigest element = some parent →
            parent.indexSha256 ∈ byDigest.map Prod.fst := by
          intro parent hparent
          obtain ⟨digest, -, hfound⟩ := Option.bind_eq_some_iff.mp hparent
          exact hkeys digest parent hfound
        obtain ⟨met, last, htrail, hfollow, hstop⟩ :=
          @ih (element.indexSha256 :: path) (parentOf byDigest element) hparentKey (by omega)
        have hpath : (met.map ParsedAmendment.indexSha256).reverse ++
            element.indexSha256 :: path =
            ((element :: met).map ParsedAmendment.indexSha256).reverse ++ path := by
          simp
        refine ⟨element :: met, last, ⟨rfl, htrail⟩, ?_, ?_⟩
        · intro extra
          rw [Nat.add_right_comm, followParents, if_neg hmet, hfollow, hpath]
        · rw [← hpath]
          exact hstop

/-- What holds after the search has started at some of the amendments. -/
structure Searched (amendments before : List ParsedAmendment)
    (done : List PackageIneligibilityReason × List Sha256Hex) : Prop where
  settled : ∀ amendment ∈ before, amendment.indexSha256 ∈ done.2
  codes : ∀ reason ∈ done.1, reason.code = .cycle
  found : done.1 ≠ [] → ∃ amendment ∈ amendments, ReturnsToItself amendments amendment
  ended : done.1 = [] → ∀ amendment, Known (amendmentsByDigest amendments) amendment →
    amendment.indexSha256 ∈ done.2 → RunsOut (parentOf (amendmentsByDigest amendments)) amendment

theorem unvisited_nil_lt (byDigest : DigestMap) :
    (unvisited byDigest []).length < byDigest.length + 1 := by
  have hle := List.length_filter_le (fun digest => !([] : List Sha256Hex).contains digest)
    (byDigest.map Prod.fst)
  rw [List.length_map] at hle
  exact Nat.lt_succ_of_le hle

theorem Known.eq {other : ParsedAmendment} (h : Known byDigest amendment)
    (hother : Known byDigest other) (hsame : amendment.indexSha256 = other.indexSha256) :
    amendment = other := by
  unfold Known at h hother
  rw [hsame, hother] at h
  exact (Option.some.inj h).symm

theorem cycleStep_settled {done : List PackageIneligibilityReason × List Sha256Hex}
    (hsettled : amendment.indexSha256 ∈ done.2) :
    cycleStep byDigest done amendment = done := by
  have hfollow : followParents byDigest done.2 (byDigest.length + 1) [] (some amendment) =
      ([], some amendment) := by
    rw [followParents, if_pos (.inl hsettled)]
  simp [cycleStep, hfollow]

/-- One loop of the search from a start the map knows. -/
structure Followed (amendments : List ParsedAmendment) (settled : List Sha256Hex)
    (start : ParsedAmendment) (met : List ParsedAmendment) (last : Option ParsedAmendment) :
    Prop where
  trail : Trail (parentOf (amendmentsByDigest amendments)) (some start) met last
  follows : followParents (amendmentsByDigest amendments) settled
    ((amendmentsByDigest amendments).length + 1) [] (some start) =
    ((met.map ParsedAmendment.indexSha256).reverse, last)
  stops : ∀ stop ∈ last, stop.indexSha256 ∈ settled ∨
    stop.indexSha256 ∈ met.map ParsedAmendment.indexSha256
  metKnown : ∀ amendment ∈ met, Known (amendmentsByDigest amendments) amendment
  lastKnown : ∀ stop ∈ last, Known (amendmentsByDigest amendments) stop

theorem exists_followed {start : ParsedAmendment}
    (hknown : Known (amendmentsByDigest amendments) start) (settled : List Sha256Hex) :
    ∃ met last, Followed amendments settled start met last := by
  have hkey : ∀ found, some start = some found →
      found.indexSha256 ∈ (amendmentsByDigest amendments).map Prod.fst := by
    intro found hfound
    rw [← Option.some.inj hfound]
    exact byDigest_keys amendments _ start hknown
  obtain ⟨met, last, htrail, hfollow, hstop⟩ :=
    followParents_trail (byDigest_keys amendments) hkey (unvisited_nil_lt _)
  have hfollow' := hfollow 0
  rw [Nat.add_zero, List.append_nil] at hfollow'
  have hknownAll := htrail.holds (P := Known (amendmentsByDigest amendments))
    (by
      intro element helement
      rw [← Option.mem_some_iff.mp helement]
      exact hknown)
    (by
      intro element next _ hnext
      exact known_of_parentOf hnext)
  refine ⟨met, last, htrail, hfollow', ?_, hknownAll.1, hknownAll.2⟩
  intro stop hlast
  have hmet := hstop stop hlast
  rwa [List.append_nil, List.mem_reverse] at hmet

section Following

variable {settled : List Sha256Hex} {start stop : ParsedAmendment} {met : List ParsedAmendment}
  {last : Option ParsedAmendment}

theorem Followed.start_mem (h : Followed amendments settled start met last)
    (hnew : start.indexSha256 ∉ settled) : start ∈ met := by
  have htrail := h.trail
  cases met with
  | nil =>
    obtain rfl : some start = last := htrail
    rcases h.stops start (Option.mem_some_self start) with hin | hin
    · exact absurd hin hnew
    · cases hin
  | cons first others =>
    rw [Option.some.inj htrail.1]
    exact List.mem_cons_self

theorem Followed.returns (h : Followed amendments settled start met (some stop))
    (hin : stop.indexSha256 ∈ met.map ParsedAmendment.indexSha256) :
    ∃ amendment ∈ amendments, ReturnsToItself amendments amendment := by
  obtain ⟨element, helement, hsame⟩ := List.mem_map.mp hin
  have hknown := h.metKnown element helement
  have heq := hknown.eq (h.lastKnown stop (Option.mem_some_self stop)) hsame
  have hreaches := h.trail.reaches helement
  rw [← heq] at hreaches
  exact ⟨element, (get?_byDigest hknown).1, hreaches⟩

/-- A loop that does not stop on its own path has only met what can be followed finitely often. -/
theorem Followed.runsOut (h : Followed amendments settled start met last)
    (hsettled : ∀ amendment, Known (amendmentsByDigest amendments) amendment →
      amendment.indexSha256 ∈ settled → RunsOut (parentOf (amendmentsByDigest amendments)) amendment)
    (hout : ∀ stop ∈ last, stop.indexSha256 ∉ met.map ParsedAmendment.indexSha256) :
    ∀ amendment ∈ met, RunsOut (parentOf (amendmentsByDigest amendments)) amendment := by
  intro amendment hmem
  refine h.trail.runsOut_of_mem ?_ hmem
  intro stop hlast
  rcases h.stops stop hlast with hbefore | hpath
  · exact hsettled stop (h.lastKnown stop hlast) hbefore
  · exact absurd hpath (hout stop hlast)

theorem Followed.cycleStep_fst (h : Followed amendments settled start met last)
    (reasons : List PackageIneligibilityReason) :
    (cycleStep (amendmentsByDigest amendments) (reasons, settled) start).1 =
      reasons ++ (last.filter fun next =>
        (met.map ParsedAmendment.indexSha256).reverse.contains next.indexSha256).toList.map
          fun next => ineligibility .cycle next.location none := by
  simp only [cycleStep, h.follows]

theorem Followed.cycleStep_snd (h : Followed amendments settled start met last)
    (reasons : List PackageIneligibilityReason) :
    (cycleStep (amendmentsByDigest amendments) (reasons, settled) start).2 =
      settled ++ (met.map ParsedAmendment.indexSha256).reverse := by
  simp only [cycleStep, h.follows]

end Following

theorem Searched.step {before rest : List ParsedAmendment} {start : ParsedAmendment}
    {reasons : List PackageIneligibilityReason} {settled : List Sha256Hex}
    (h : Searched amendments before (reasons, settled))
    (hsplit : amendments = before ++ start :: rest) :
    Searched amendments (before ++ [start])
      (cycleStep (amendmentsByDigest amendments) (reasons, settled) start) := by
  by_cases hsettled : start.indexSha256 ∈ settled
  · rw [cycleStep_settled hsettled]
    refine ⟨?_, h.codes, h.found, h.ended⟩
    intro amendment hamendment
    rcases List.mem_append.mp hamendment with hbefore | hstart
    · exact h.settled amendment hbefore
    · rw [List.mem_singleton.mp hstart]
      exact hsettled
  · have hknown : Known (amendmentsByDigest amendments) start := by
      rcases known_or_earlier hsplit with hknown | ⟨earlier, hearlier, hsame⟩
      · exact hknown
      · rw [← hsame] at hsettled
        exact absurd (h.settled earlier hearlier) hsettled
    obtain ⟨met, last, hfollowed⟩ := exists_followed hknown settled
    refine ⟨?_, ?_, ?_, ?_⟩
    · intro amendment hamendment
      rw [hfollowed.cycleStep_snd, List.mem_append, List.mem_reverse]
      rcases List.mem_append.mp hamendment with hbefore | hself
      · exact .inl (h.settled amendment hbefore)
      · rw [List.mem_singleton.mp hself]
        exact .inr (List.mem_map_of_mem (hfollowed.start_mem hsettled))
    · intro reason hreason
      rw [hfollowed.cycleStep_fst] at hreason
      rcases List.mem_append.mp hreason with hold | hnew
      · exact h.codes reason hold
      · obtain ⟨next, -, rfl⟩ := List.mem_map.mp hnew
        rfl
    · intro hsome
      by_cases hold : reasons = []
      · rw [hfollowed.cycleStep_fst, hold, List.nil_append] at hsome
        cases hlast : last with
        | none =>
          rw [hlast] at hsome
          exact absurd rfl hsome
        | some stop =>
          rw [hlast] at hsome hfollowed
          exact hfollowed.returns (by simpa using hsome)
      · exact h.found hold
    · intro hnone amendment hamendmentKnown hin
      rw [hfollowed.cycleStep_fst, List.append_eq_nil_iff] at hnone
      have hout : ∀ stop ∈ last,
          stop.indexSha256 ∉ met.map ParsedAmendment.indexSha256 := by
        intro stop hlast hpath
        have hadded := hnone.2
        rw [Option.mem_def.mp hlast, Option.filter_some, if_pos (by simpa using hpath)] at hadded
        cases hadded
      rw [hfollowed.cycleStep_snd, List.mem_append, List.mem_reverse] at hin
      rcases hin with hbefore | hnew
      · exact h.ended hnone.1 amendment hamendmentKnown hbefore
      · obtain ⟨element, helement, hsame⟩ := List.mem_map.mp hnew
        rw [← (hfollowed.metKnown element helement).eq hamendmentKnown hsame]
        exact hfollowed.runsOut (h.ended hnone.1) hout element helement

theorem searched_foldl (before rest : List ParsedAmendment) (hsplit : amendments = before ++ rest)
    (done : List PackageIneligibilityReason × List Sha256Hex)
    (h : Searched amendments before done) :
    Searched amendments amendments
      (rest.foldl (cycleStep (amendmentsByDigest amendments)) done) := by
  induction rest generalizing before done with
  | nil =>
    rw [List.append_nil] at hsplit
    rw [← hsplit] at h
    exact h
  | cons start rest ih =>
    refine ih (before ++ [start]) (by simpa using hsplit) _ ?_
    exact h.step hsplit

/-- The search reports exactly the graphs in which some amendment is its own ancestor. -/
theorem cycleReasons_ne_nil_iff (amendments : List ParsedAmendment) :
    cycleReasons amendments (amendmentsByDigest amendments) ≠ [] ↔
      ∃ amendment ∈ amendments, ReturnsToItself amendments amendment := by
  have hstart : Searched amendments [] ([], []) := by
    refine ⟨?_, ?_, ?_, ?_⟩
    · intro amendment hmem
      cases hmem
    · intro reason hmem
      cases hmem
    · intro hsome
      exact absurd rfl hsome
    · intro _ amendment _ hmem
      cases hmem
  have hsearched := searched_foldl [] amendments rfl ([], []) hstart
  constructor
  · exact hsearched.found
  · intro hreturns hnone
    obtain ⟨amendment, hmem, hreturn⟩ := hreturns
    have hknown : Known (amendmentsByDigest amendments) amendment := by
      obtain ⟨before, -, hparent⟩ := Relation.TransGen.tail'_iff.mp hreturn
      exact known_of_parentOf hparent
    exact not_runsOut_of_returns hreturn
      (hsearched.ended hnone amendment hknown (hsearched.settled amendment hmem))

theorem cycleReasons_codes (amendments : List ParsedAmendment) :
    ∀ reason ∈ cycleReasons amendments (amendmentsByDigest amendments), reason.code = .cycle := by
  have hcodes : ∀ (rest : List ParsedAmendment)
      (done : List PackageIneligibilityReason × List Sha256Hex),
      (∀ reason ∈ done.1, reason.code = .cycle) →
      ∀ reason ∈ (rest.foldl (cycleStep (amendmentsByDigest amendments)) done).1,
        reason.code = .cycle := by
    intro rest
    induction rest with
    | nil => exact fun done hdone => hdone
    | cons start rest ih =>
      intro done hdone
      refine ih _ ?_
      intro reason hreason
      rcases List.mem_append.mp hreason with hold | hnew
      · exact hdone reason hold
      · obtain ⟨next, -, rfl⟩ := List.mem_map.mp hnew
        rfl
  exact hcodes amendments ([], []) fun reason hmem => absurd hmem List.not_mem_nil

/-- One more step than there are digests always ends the loop of the search. -/
theorem followParents_fuel (hmem : amendment ∈ amendments) (settled : List Sha256Hex)
    (extra : Nat) :
    followParents (amendmentsByDigest amendments) settled
        ((amendmentsByDigest amendments).length + 1 + extra) [] (some amendment) =
      followParents (amendmentsByDigest amendments) settled
        ((amendmentsByDigest amendments).length + 1) [] (some amendment) := by
  have hkey : ∀ found, some amendment = some found →
      found.indexSha256 ∈ (amendmentsByDigest amendments).map Prod.fst := by
    intro found hfound
    obtain ⟨known, hget, hsame⟩ := digest_mem_byDigest hmem
    rw [← Option.some.inj hfound, ← hsame]
    exact byDigest_keys amendments _ known hget
  obtain ⟨met, last, -, hfollow, -⟩ := @followParents_trail _ (byDigest_keys amendments) settled []
    _ _ hkey (unvisited_nil_lt _)
  rw [hfollow extra]
  exact (hfollow 0).symm

end Search

/-! ## The graph -/

section Reasons

variable {input : AmendmentGraphInput}

theorem duplicatesAfter_codes (amendments : List ParsedAmendment) (seen : List Sha256Hex) :
    ∀ reason ∈ duplicatesAfter seen amendments, reason.code = .brokenParent := by
  induction amendments generalizing seen with
  | nil =>
    intro reason hmem
    cases hmem
  | cons first rest ih =>
    intro reason hmem
    rcases List.mem_append.mp hmem with hfirst | hrest
    · split at hfirst
      · rw [List.mem_singleton.mp hfirst]
        rfl
      · cases hfirst
    · exact ih _ reason hrest

theorem gapsAfter_codes (previous : Nat) (sequences : List Nat) :
    ∀ reason ∈ gapsAfter previous sequences, reason.code = .sequenceGap := by
  induction sequences generalizing previous with
  | nil =>
    intro reason hmem
    cases hmem
  | cons sequence rest ih =>
    intro reason hmem
    rcases List.mem_append.mp hmem with hfirst | hrest
    · split at hfirst
      · cases hfirst
      · rw [List.mem_singleton.mp hfirst]
        rfl
    · exact ih _ reason hrest

theorem membershipReasons_codes (amendment : ParsedAmendment) :
    ∀ reason ∈ membershipReasons amendment input, reason.code = .brokenParent := by
  have hone : ∀ (condition : Prop) [Decidable condition],
      ∀ reason ∈ (if condition then [] else [broken amendment]), reason.code = .brokenParent := by
    intro condition _ reason hmem
    split at hmem
    · cases hmem
    · rw [List.mem_singleton.mp hmem]
      rfl
  intro reason hmem
  rcases List.mem_append.mp hmem with hfront | horiginal
  · rcases List.mem_append.mp hfront with hbelongs | hmanifest
    · exact hone _ reason hbelongs
    · exact hone _ reason hmanifest
  · exact hone _ reason horiginal

theorem parentReasons_codes (amendment : ParsedAmendment) (byDigest : DigestMap) :
    ∀ reason ∈ parentReasons amendment byDigest, reason.code = .brokenParent := by
  intro reason hmem
  unfold parentReasons at hmem
  split at hmem
  · split at hmem
    · cases hmem
    · rw [List.mem_singleton.mp hmem]
      rfl
  · split at hmem
    · rw [List.mem_singleton.mp hmem]
      rfl
    · split at hmem
      · cases hmem
      · rw [List.mem_singleton.mp hmem]
        rfl

theorem exists_cycle_iff :
    (∃ reason ∈ (resolveAmendmentGraph input).reasons, reason.code = .cycle) ↔
      cycleReasons input.amendments (amendmentsByDigest input.amendments) ≠ [] := by
  simp only [resolveAmendmentGraph, List.mem_append]
  constructor
  · intro hcycle
    obtain ⟨reason, hmem, hcode⟩ := hcycle
    have hother : ∀ {code : PackageIneligibilityCode}, reason.code = code → code ≠ .cycle →
        False := by
      intro code hhas hne
      exact hne (hhas.symm.trans hcode)
    rcases hmem with (((((hmember | hparent) | hduplicate) | hgap) | hsearch) | hhead) | hunselected
    · obtain ⟨amendment, -, hmember⟩ := List.mem_flatMap.mp hmember
      exact (hother (membershipReasons_codes amendment reason hmember) (by decide)).elim
    · obtain ⟨amendment, -, hparent⟩ := List.mem_flatMap.mp hparent
      exact (hother (parentReasons_codes amendment _ reason hparent) (by decide)).elim
    · exact (hother (duplicatesAfter_codes _ _ reason hduplicate) (by decide)).elim
    · exact (hother (gapsAfter_codes _ _ reason hgap) (by decide)).elim
    · exact List.ne_nil_of_mem hsearch
    · refine (@hother .unknownHead ?_ (by decide)).elim
      cases hselected : input.selectedHead with
      | none =>
        rw [hselected] at hhead
        cases hhead
      | some head =>
        rw [hselected, headReasons] at hhead
        split at hhead
        · cases hhead
        · rw [List.mem_singleton.mp hhead]
          rfl
    · obtain ⟨amendment, -, rfl⟩ := List.mem_map.mp hunselected
      cases hcode
  · intro hsome
    obtain ⟨reason, hreason⟩ := List.exists_mem_of_ne_nil _ hsome
    exact ⟨reason, .inl (.inl (.inr hreason)), cycleReasons_codes _ reason hreason⟩

end Reasons

/-- `resolveAmendmentGraph` ends for every list of amendments and every head, finds no reason
exactly for one chain, then selects all of it in ascending sequence, and reports a cycle exactly
when following parents from some amendment comes back to it. -/
theorem amendment_graph_exact (input : AmendmentGraphInput) :
    (∀ extra, (walkParents (amendmentsByDigest input.amendments)
        ((amendmentsByDigest input.amendments).length + 1 + extra) []
        (input.selectedHead.bind (amendmentsByDigest input.amendments).get?)).reverse =
      selectedChain input.selectedHead (amendmentsByDigest input.amendments)) ∧
    (∀ start ∈ input.amendments, ∀ settled extra,
      followParents (amendmentsByDigest input.amendments) settled
          ((amendmentsByDigest input.amendments).length + 1 + extra) [] (some start) =
        followParents (amendmentsByDigest input.amendments) settled
          ((amendmentsByDigest input.amendments).length + 1) [] (some start)) ∧
    ((resolveAmendmentGraph input).reasons = [] ↔ OneChain input) ∧
    ((resolveAmendmentGraph input).reasons = [] →
      (resolveAmendmentGraph input).selectedChain.Perm input.amendments ∧
      (resolveAmendmentGraph input).selectedChain.map
        (fun amendment => amendment.index.sequence) =
        List.range' 1 input.amendments.length) ∧
    ((∃ reason ∈ (resolveAmendmentGraph input).reasons, reason.code = .cycle) ↔
      ∃ amendment ∈ input.amendments, ReturnsToItself input.amendments amendment) := by
  refine ⟨selectedChain_fuel _ _, ?_, reasons_nil_iff, ?_, ?_⟩
  · intro start hstart settled extra
    exact followParents_fuel hstart settled extra
  · intro hnone
    exact (completeChain_of_no_reasons hnone).selected_all
  · exact exists_cycle_iff.trans (cycleReasons_ne_nil_iff input.amendments)

end RefundStudy.Package
