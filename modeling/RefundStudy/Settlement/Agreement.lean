/-
  The live observer and the oracle judge different extensions of the same samples, and agree.
-/
import RefundStudy.Foundation.Sorting
import RefundStudy.Settlement.Window
import RefundStudy.Settlement.Observer

set_option autoImplicit false

namespace RefundStudy.Settlement

open Foundation Record

/-! ## Samples in order -/

/-- The order the evaluator reads samples in. -/
abbrev observedBefore (left right : SettlementSample) : Prop := left.observedAt ≤ right.observedAt

instance : Std.Total observedBefore := ⟨fun left right => Nat.le_total left.observedAt right.observedAt⟩

instance : IsTrans SettlementSample observedBefore := ⟨fun _ _ _ => Nat.le_trans⟩

theorem inObservationOrder_ordered (samples : List SettlementSample) :
    ObservedInOrder (inObservationOrder samples) :=
  List.pairwise_insertionSort observedBefore samples

theorem judgedSamples_ordered (samples : List SettlementSample) (policy : SettlementPolicy)
    (publishedAt : UtcMillis) : ObservedInOrder (judgedSamples samples policy publishedAt) :=
  (inObservationOrder_ordered samples).filter _

/-! ## Later samples -/

/-- `extended` is `samples` with further samples, anywhere among them, all observed after
`instant`. -/
inductive AddedAfter (instant : UtcMillis) : List SettlementSample → List SettlementSample → Prop where
  | nil : AddedAfter instant [] []
  | kept (sample : SettlementSample) {samples extended : List SettlementSample}
      (rest : AddedAfter instant samples extended) :
      AddedAfter instant (sample :: samples) (sample :: extended)
  | added (sample : SettlementSample) {samples extended : List SettlementSample}
      (later : instant < sample.observedAt) (rest : AddedAfter instant samples extended) :
      AddedAfter instant samples (sample :: extended)

def upTo (instant : UtcMillis) (samples : List SettlementSample) : List SettlementSample :=
  samples.filter fun sample => decide (sample.observedAt ≤ instant)

section Later

variable {policy : SettlementPolicy} {publishedAt instant : UtcMillis}
  {samples extended : List SettlementSample} {members : Established}

theorem AddedAfter.upTo_eq (h : AddedAfter instant samples extended) :
    upTo instant extended = upTo instant samples := by
  unfold upTo
  induction h with
  | nil => rfl
  | kept sample rest ih => simp [List.filter_cons, ih]
  | added sample later rest ih => simp [ih, Nat.not_le.mpr later]

theorem upTo_judgedSamples (samples : List SettlementSample) :
    upTo instant (judgedSamples samples policy publishedAt) =
      judgedSamples (upTo instant samples) policy publishedAt := by
  have hsort := filter_insertionSort (r := observedBefore)
    (fun sample => decide (sample.observedAt ≤ instant)) samples
  unfold judgedSamples upTo
  rw [List.filter_comm]
  exact congrArg _ hsort

theorem judgedSamples_split (instant : UtcMillis) (samples : List SettlementSample)
    (policy : SettlementPolicy) (publishedAt : UtcMillis) :
    ∃ later, judgedSamples samples policy publishedAt =
      upTo instant (judgedSamples samples policy publishedAt) ++ later := by
  refine ⟨_, (filter_append_filter_not (r := observedBefore)
    (judgedSamples_ordered samples policy publishedAt) ?_).symm⟩
  intro left right hbefore hright
  exact decide_eq_true (hbefore.trans (of_decide_eq_true hright))

theorem judgeSamples_append_error (h : judgeSamples policy samples = .error members)
    (later : List SettlementSample) : judgeSamples policy (samples ++ later) = .error members := by
  unfold judgeSamples at h ⊢
  rw [List.foldlM_append, h]
  rfl

theorem judgeSamples_upTo_recheck (hordered : ObservedInOrder samples)
    (h : judgeSamples policy samples = .error members) :
    judgeSamples policy (upTo members.recheckedAt samples) = .error members := by
  obtain ⟨front, recheck, back, state, rfl, hstate, hjudged⟩ := judgeSamples_error h
  have hrechecked : members.recheckedAt = recheck.observedAt := by
    have hcases := judgeSample_cases policy state recheck
    rw [hjudged] at hcases
    cases hcases with
    | establishes first last hquiet hphase hstart huntil => rfl
  have hfront : upTo members.recheckedAt (front ++ [recheck]) = front ++ [recheck] := by
    apply List.filter_eq_self.mpr
    intro sample hmem
    rw [hrechecked]
    rcases List.mem_append.mp hmem with hbefore | hlast
    · exact decide_eq_true ((List.pairwise_append.mp hordered).2.2 sample hbefore recheck
        List.mem_cons_self)
    · rw [List.mem_singleton.mp hlast]
      exact decide_eq_true (Nat.le_refl _)
  have hsplit : front ++ recheck :: back = (front ++ [recheck]) ++ back := by simp
  have hupTo : upTo members.recheckedAt (front ++ recheck :: back) =
      (front ++ [recheck]) ++ upTo members.recheckedAt back := by
    rw [hsplit]
    nth_rewrite 2 [← hfront]
    exact List.filter_append ..
  rw [hupTo]
  apply judgeSamples_append_error
  rw [judgeSamples_concat_of_ok hstate]
  exact hjudged

/-- Samples observed after the recheck do not change an established assessment. -/
theorem evaluateSettlement_addedAfter
    (h : evaluateSettlement samples policy publishedAt = .established members)
    (hadded : AddedAfter members.recheckedAt samples extended) :
    evaluateSettlement extended policy publishedAt = .established members := by
  rw [evaluateSettlement_established] at h ⊢
  have hupTo := judgeSamples_upTo_recheck (judgedSamples_ordered samples policy publishedAt) h
  obtain ⟨later, hlater⟩ := judgedSamples_split members.recheckedAt extended policy publishedAt
  rw [hlater]
  apply judgeSamples_append_error
  rw [upTo_judgedSamples, hadded.upTo_eq, ← upTo_judgedSamples]
  exact hupTo

end Later

/-! ## Permuted samples -/

theorem inObservationOrder_perm {samples permuted : List SettlementSample}
    (hdistinct : (samples.map SettlementSample.observedAt).Nodup) (hperm : permuted.Perm samples) :
    inObservationOrder permuted = inObservationOrder samples := by
  have hsorted : (inObservationOrder permuted).Perm (inObservationOrder samples) :=
    ((List.perm_insertionSort _ permuted).trans hperm).trans (List.perm_insertionSort _ samples).symm
  refine List.Perm.eq_of_pairwise ?_ (inObservationOrder_ordered permuted)
    (inObservationOrder_ordered samples) hsorted
  intro left right hleft hright hle hge
  have hleft' : left ∈ samples := hperm.mem_iff.mp ((List.mem_insertionSort _).mp hleft)
  have hright' : right ∈ samples := (List.mem_insertionSort _).mp hright
  exact List.inj_on_of_nodup_map hdistinct hleft' hright' (Nat.le_antisymm hle hge)

/-! ## The probe -/

/-- A recheck the observer may take next: inactive relative to the last sample, observed no earlier
than it and no later than the deadline. -/
structure Admissible (samples : List SettlementSample) (policy : SettlementPolicy)
    (publishedAt : UtcMillis) (recheck : SettlementSample) : Prop where
  phase : recheck.phase = .preFreezeRecheck
  inactive : activityCauses recheck samples.getLast? = []
  after : ∀ last, samples.getLast? = some last → last.observedAt ≤ recheck.observedAt
  inTime : recheck.observedAt ≤ deadlineMs policy publishedAt

section Probe

variable {policy : SettlementPolicy} {publishedAt : UtcMillis} {samples front : List SettlementSample}
  {state : EvaluatorState} {recheck last : SettlementSample}

theorem ObservedInOrder.le_last (hordered : ObservedInOrder samples)
    (hlast : samples.getLast? = some last) : ∀ sample ∈ samples,
    sample.observedAt ≤ last.observedAt := by
  obtain ⟨front, rfl⟩ := List.getLast?_eq_some_iff.mp hlast
  intro sample hmem
  rcases List.mem_append.mp hmem with hfront | hend
  · exact (observedInOrder_concat.mp hordered).2 sample hfront
  · rw [List.mem_singleton.mp hend]

theorem ObservedInOrder.concat (hordered : ObservedInOrder samples)
    (hafter : ∀ last, samples.getLast? = some last → last.observedAt ≤ recheck.observedAt) :
    ObservedInOrder (samples ++ [recheck]) := by
  refine observedInOrder_concat.mpr ⟨hordered, ?_⟩
  intro earlier hmem
  obtain ⟨last, hlast⟩ := Option.isSome_iff_exists.mp
    (List.getLast?_isSome.mpr (List.ne_nil_of_mem hmem))
  exact (hordered.le_last hlast earlier hmem).trans (hafter last hlast)

theorem judgedSamples_in_time (hordered : ObservedInOrder samples)
    (hinTime : ∀ last, samples.getLast? = some last →
      last.observedAt ≤ deadlineMs policy publishedAt) :
    judgedSamples samples policy publishedAt = samples := by
  rw [judgedSamples_of_ordered hordered]
  apply List.filter_eq_self.mpr
  intro sample hmem
  obtain ⟨last, hlast⟩ := Option.isSome_iff_exists.mp
    (List.getLast?_isSome.mpr (List.ne_nil_of_mem hmem))
  exact decide_eq_true ((hordered.le_last hlast sample hmem).trans (hinTime last hlast))

theorem evaluateSettlement_recheck (hordered : ObservedInOrder samples)
    (hafter : ∀ last, samples.getLast? = some last → last.observedAt ≤ recheck.observedAt)
    (hinTime : recheck.observedAt ≤ deadlineMs policy publishedAt)
    (hstate : judgeSamples policy (judgedSamples samples policy publishedAt) = .ok state) :
    (evaluateSettlement (samples ++ [recheck]) policy publishedAt).isEstablished = true ↔
      ∃ members, judgeSample policy state recheck = .error members := by
  rw [evaluateSettlement_isEstablished, judgedSamples_concat (hordered.concat hafter),
    if_pos hinTime, judgeSamples_concat_of_ok hstate]

theorem admissible_establishes (hordered : ObservedInOrder samples)
    (hrecheck : Admissible samples policy publishedAt recheck)
    (hstate : judgeSamples policy (judgedSamples samples policy publishedAt) = .ok state) :
    (evaluateSettlement (samples ++ [recheck]) policy publishedAt).isEstablished = true ↔
      state.windowStart ≠ none ∧ state.quietUntil ≠ none := by
  have hall : judgedSamples samples policy publishedAt = samples :=
    judgedSamples_in_time hordered fun last hlast =>
      (hrecheck.after last hlast).trans hrecheck.inTime
  have hquiet : activityCauses recheck state.previous = [] := by
    rw [(judgeSamples_window hstate).previous, hall]
    exact hrecheck.inactive
  rw [evaluateSettlement_recheck hordered hrecheck.after hrecheck.inTime hstate]
  constructor
  · intro h
    obtain ⟨members, hmembers⟩ := h
    have hcases := judgeSample_cases policy state recheck
    rw [hmembers] at hcases
    cases hcases with
    | establishes first until_ _ _ hstart huntil =>
      rw [hstart, huntil]
      exact ⟨Option.some_ne_none _, Option.some_ne_none _⟩
  · intro h
    obtain ⟨first, hfirst⟩ := Option.ne_none_iff_exists'.mp h.1
    obtain ⟨until_, huntil⟩ := Option.ne_none_iff_exists'.mp h.2
    exact ⟨_, judgeSample_recheck hquiet hrecheck.phase hfirst huntil⟩

/-- The sample `windowComplete` probes with. -/
def repeatedRecheck (last : SettlementSample) : SettlementSample :=
  { last with phase := .preFreezeRecheck }

theorem activityCauses_repeated :
    activityCauses (repeatedRecheck last) (some last) = [] ↔ quietViolations last = [] := by
  rw [activityCauses_eq_nil]
  have hquiet : quietViolations (repeatedRecheck last) = quietViolations last := rfl
  have hsame : changesSince (repeatedRecheck last) (some last) = [] := by
    simp [changesSince, repeatedRecheck]
  rw [hquiet, hsame]
  simp

theorem windowStart_none_of_not_quiet (hlast : samples.getLast? = some last)
    (hviolations : quietViolations last ≠ [])
    (hstate : judgeSamples policy samples = .ok state) : state.windowStart = none := by
  obtain ⟨front, rfl⟩ := List.getLast?_eq_some_iff.mp hlast
  obtain ⟨before, -, hjudged⟩ := judgeSamples_front hstate
  have hcases := judgeSample_cases policy before last
  rw [hjudged] at hcases
  cases hcases with
  | restarts firstCause others hcauses => rfl
  | continues hquiet hopen => exact absurd (activityCauses_eq_nil.mp hquiet).1 hviolations

theorem windowComplete_iff (hordered : ObservedInOrder samples)
    (hstate : judgeSamples policy (judgedSamples samples policy publishedAt) = .ok state) :
    windowComplete samples policy publishedAt = true ↔
      ∃ last, samples.getLast? = some last ∧
        last.observedAt ≤ deadlineMs policy publishedAt ∧ quietViolations last = [] ∧
        state.windowStart ≠ none ∧ state.quietUntil ≠ none := by
  unfold windowComplete
  cases hlast : samples.getLast? with
  | none => simp
  | some last =>
    dsimp only
    have hafter : ∀ found, samples.getLast? = some found →
        found.observedAt ≤ (repeatedRecheck last).observedAt := by
      intro found hfound
      rw [Option.some.inj (hfound.symm.trans hlast)]
      exact Nat.le_refl _
    by_cases hinTime : last.observedAt ≤ deadlineMs policy publishedAt
    · by_cases hquiet : quietViolations last = []
      · have hrecheck : Admissible samples policy publishedAt (repeatedRecheck last) :=
          ⟨rfl, by rw [hlast]; exact activityCauses_repeated.mpr hquiet, hafter, hinTime⟩
        have hestablishes := admissible_establishes hordered hrecheck hstate
        simp only [Option.some.injEq, exists_eq_left', hinTime, hquiet, true_and]
        exact hestablishes
      · have hall : judgedSamples samples policy publishedAt = samples := by
          apply judgedSamples_in_time hordered
          intro found hfound
          rw [Option.some.inj (hfound.symm.trans hlast)]
          exact hinTime
        constructor
        · intro hprobe
          obtain ⟨members, hmembers⟩ :=
            (evaluateSettlement_recheck hordered hafter hinTime hstate).mp hprobe
          have hcases := judgeSample_cases policy state (repeatedRecheck last)
          rw [hmembers] at hcases
          cases hcases with
          | establishes first until_ hinactive hphase hstart huntil =>
            rw [(judgeSamples_window hstate).previous, hall, hlast] at hinactive
            exact absurd (activityCauses_repeated.mp hinactive) hquiet
        · intro h
          obtain ⟨found, hfound, -, hfoundQuiet, -⟩ := h
          rw [Option.some.inj hfound] at hquiet
          exact absurd hfoundQuiet hquiet
    · -- the repetition lies behind the deadline and is not judged
      have hlate : ¬ (repeatedRecheck last).observedAt ≤ deadlineMs policy publishedAt := hinTime
      constructor
      · intro hprobe
        obtain ⟨members, hmembers⟩ := evaluateSettlement_isEstablished.mp hprobe
        have hsame : judgedSamples (samples ++ [repeatedRecheck last]) policy publishedAt =
            judgedSamples samples policy publishedAt := by
          rw [judgedSamples_concat (hordered.concat hafter), if_neg hlate, List.append_nil]
        have hmembers' : judgeSamples policy (judgedSamples samples policy publishedAt) =
            .error members := by
          rw [← hsame]
          exact hmembers
        rw [hstate] at hmembers'
        cases hmembers'
      · intro h
        obtain ⟨found, hfound, hfoundInTime, -⟩ := h
        rw [Option.some.inj hfound] at hinTime
        exact absurd hfoundInTime hinTime

theorem windowComplete_decides (hordered : ObservedInOrder samples)
    (hrecheck : Admissible samples policy publishedAt recheck)
    (hstate : judgeSamples policy (judgedSamples samples policy publishedAt) = .ok state) :
    windowComplete samples policy publishedAt = true ↔
      (evaluateSettlement (samples ++ [recheck]) policy publishedAt).isEstablished = true := by
  rw [windowComplete_iff hordered hstate, admissible_establishes hordered hrecheck hstate]
  constructor
  · intro h
    obtain ⟨last, -, -, -, hwindow⟩ := h
    exact hwindow
  · intro h
    have hall : judgedSamples samples policy publishedAt = samples :=
      judgedSamples_in_time hordered fun last hlast =>
        (hrecheck.after last hlast).trans hrecheck.inTime
    cases hlast : samples.getLast? with
    | none =>
      rw [List.getLast?_eq_none_iff.mp hlast] at hstate
      cases Except.ok.inj hstate
      exact absurd rfl h.1
    | some last =>
      refine ⟨last, rfl, (hrecheck.after last hlast).trans hrecheck.inTime, ?_, h⟩
      by_contra hnot
      rw [hall] at hstate
      exact h.1 (windowStart_none_of_not_quiet hlast hnot hstate)

theorem windowComplete_admissible (hordered : ObservedInOrder samples)
    (hstate : judgeSamples policy (judgedSamples samples policy publishedAt) = .ok state)
    (h : windowComplete samples policy publishedAt = true) :
    ∃ recheck, Admissible samples policy publishedAt recheck := by
  obtain ⟨last, hlast, hinTime, hquiet, -⟩ := (windowComplete_iff hordered hstate).mp h
  refine ⟨repeatedRecheck last, rfl, ?_, ?_, hinTime⟩
  · rw [hlast]
    exact activityCauses_repeated.mpr hquiet
  · intro found hfound
    rw [Option.some.inj (hfound.symm.trans hlast)]
    exact Nat.le_refl _

end Probe

theorem judgeSamples_ok_of_unestablished {samples : List SettlementSample}
    {policy : SettlementPolicy} {publishedAt : UtcMillis}
    (h : (evaluateSettlement samples policy publishedAt).isEstablished = false) :
    ∃ state, judgeSamples policy (judgedSamples samples policy publishedAt) = .ok state := by
  cases hjudged : judgeSamples policy (judgedSamples samples policy publishedAt) with
  | ok state => exact ⟨state, rfl⟩
  | error members =>
    rw [evaluateSettlement_isEstablished.mpr ⟨members, hjudged⟩] at h
    cases h

/-- The three laws by which the live observer and the oracle agree. -/
theorem settlement_judges_agree (policy : SettlementPolicy) (publishedAt : UtcMillis) :
    (∀ samples members extended,
      evaluateSettlement samples policy publishedAt = .established members →
      AddedAfter members.recheckedAt samples extended →
      evaluateSettlement extended policy publishedAt = .established members) ∧
    (∀ samples permuted : List SettlementSample,
      (samples.map SettlementSample.observedAt).Nodup → permuted.Perm samples →
      evaluateSettlement permuted policy publishedAt =
        evaluateSettlement samples policy publishedAt) ∧
    (∀ samples, ObservedInOrder samples →
      (∀ front, front <+: samples →
        (evaluateSettlement front policy publishedAt).isEstablished = false) →
      (∀ recheck, Admissible samples policy publishedAt recheck →
        (windowComplete samples policy publishedAt = true ↔
          (evaluateSettlement (samples ++ [recheck]) policy publishedAt).isEstablished = true)) ∧
      (windowComplete samples policy publishedAt = true →
        ∃ recheck, Admissible samples policy publishedAt recheck)) := by
  refine ⟨?_, ?_, ?_⟩
  · intro samples members extended hestablished hadded
    exact evaluateSettlement_addedAfter hestablished hadded
  · intro samples permuted hdistinct hperm
    unfold evaluateSettlement judgedSamples
    rw [inObservationOrder_perm hdistinct hperm]
  · intro samples hordered hunestablished
    obtain ⟨state, hstate⟩ :=
      judgeSamples_ok_of_unestablished (hunestablished samples (List.prefix_refl samples))
    exact ⟨fun recheck hrecheck => windowComplete_decides hordered hrecheck hstate,
      windowComplete_admissible hordered hstate⟩

end RefundStudy.Settlement
