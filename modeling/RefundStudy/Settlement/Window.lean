/-
  What the loop of the settlement evaluator has established after any number of samples.
-/
import Mathlib.Data.List.Induction
import RefundStudy.Settlement.Evaluation

set_option autoImplicit false

namespace RefundStudy.Settlement

open Record

variable {policy : SettlementPolicy} {state state' : EvaluatorState}
  {sample : SettlementSample} {samples front : List SettlementSample} {members : Established}

/-! ## One sample -/

/-- The three ways the loop's body ends. -/
inductive JudgedAs (policy : SettlementPolicy) (state : EvaluatorState)
    (sample : SettlementSample) : Except Established EvaluatorState → Prop where
  | restarts (firstCause : SettlementRestartCause) (others : List SettlementRestartCause)
      (hcauses : activityCauses sample state.previous = firstCause :: others) :
      JudgedAs policy state sample
        (.ok (restartWindow state sample firstCause (firstCause :: others)))
  | establishes (start until_ : SettlementSample)
      (hquiet : activityCauses sample state.previous = [])
      (hphase : sample.phase = .preFreezeRecheck) (hstart : state.windowStart = some start)
      (huntil : state.quietUntil = some until_) :
      JudgedAs policy state sample
        (.error ⟨start.observedAt, until_.observedAt, sample.observedAt, state.restarts⟩)
  | continues (hquiet : activityCauses sample state.previous = [])
      (hopen : sample.phase = .preFreezeRecheck → state.windowStart ≠ none →
        state.quietUntil = none) :
      JudgedAs policy state sample (.ok (extendWindow policy state sample))

theorem judgeSample_cases (policy : SettlementPolicy) (state : EvaluatorState)
    (sample : SettlementSample) :
    JudgedAs policy state sample (judgeSample policy state sample) := by
  unfold judgeSample
  split
  · next firstCause others hcauses => exact .restarts firstCause others hcauses
  · next hquiet =>
      split
      · next start until_ hphase hstart huntil =>
          exact .establishes start until_ hquiet hphase hstart huntil
      · next hother =>
          refine .continues hquiet ?_
          intro hphase hstart
          cases huntil : state.quietUntil with
          | none => rfl
          | some until_ =>
            obtain ⟨start, hsome⟩ := Option.ne_none_iff_exists'.mp hstart
            exact absurd huntil (hother start until_ hphase hsome)

theorem judgeSample_observation (hphase : sample.phase = .observation) :
    ∃ next, judgeSample policy state sample = .ok next := by
  have hcases := judgeSample_cases policy state sample
  cases hjudged : judgeSample policy state sample with
  | ok next => exact ⟨next, rfl⟩
  | error members =>
    rw [hjudged] at hcases
    cases hcases with
    | establishes start until_ _ hrecheck => cases hphase.symm.trans hrecheck

theorem judgeSample_recheck {start until_ : SettlementSample}
    (hquiet : activityCauses sample state.previous = [])
    (hphase : sample.phase = .preFreezeRecheck) (hstart : state.windowStart = some start)
    (huntil : state.quietUntil = some until_) :
    judgeSample policy state sample =
      .error ⟨start.observedAt, until_.observedAt, sample.observedAt, state.restarts⟩ := by
  unfold judgeSample
  rw [hquiet, hphase, hstart, huntil]

/-! ## Some samples -/

theorem judgeSamples_concat (policy : SettlementPolicy) (front : List SettlementSample)
    (sample : SettlementSample) :
    judgeSamples policy (front ++ [sample]) =
      judgeSamples policy front >>= fun state => judgeSample policy state sample := by
  unfold judgeSamples
  rw [List.foldlM_append]
  cases List.foldlM (judgeSample policy) EvaluatorState.start front with
  | error members => rfl
  | ok state =>
    show (judgeSample policy state sample >>= pure) = judgeSample policy state sample
    exact bind_pure _

theorem judgeSamples_concat_of_ok (h : judgeSamples policy front = .ok state) :
    judgeSamples policy (front ++ [sample]) = judgeSample policy state sample := by
  rw [judgeSamples_concat, h]
  rfl

theorem judgeSamples_front (h : judgeSamples policy (front ++ [sample]) = .ok state') :
    ∃ state, judgeSamples policy front = .ok state ∧
      judgeSample policy state sample = .ok state' := by
  rw [judgeSamples_concat] at h
  cases hfront : judgeSamples policy front with
  | error members => rw [hfront] at h; cases h
  | ok state => rw [hfront] at h; exact ⟨state, rfl, h⟩

theorem judgeSamples_error (h : judgeSamples policy samples = .error members) :
    ∃ front sample back state, samples = front ++ sample :: back ∧
      judgeSamples policy front = .ok state ∧
      judgeSample policy state sample = .error members := by
  induction samples using List.reverseRecOn with
  | nil => cases h
  | append_singleton front sample ih =>
    cases hfront : judgeSamples policy front with
    | error earlier =>
      rw [judgeSamples_concat, hfront] at h
      obtain rfl : earlier = members := Except.error.inj h
      obtain ⟨before, ending, back, state, rfl, hstate, hjudged⟩ := ih hfront
      exact ⟨before, ending, back ++ [sample], state, by simp, hstate, hjudged⟩
    | ok state =>
      rw [judgeSamples_concat_of_ok hfront] at h
      exact ⟨front, sample, [], state, rfl, hfront, h⟩

/-! ## The window -/

def QuietRun : Option SettlementSample → List SettlementSample → Prop
  | _, [] => True
  | previous, sample :: rest =>
    activityCauses sample previous = [] ∧ QuietRun (some sample) rest

theorem QuietRun.concat {previous : Option SettlementSample}
    (hrun : QuietRun previous front)
    (hquiet : activityCauses sample (front.getLast?.or previous) = []) :
    QuietRun previous (front ++ [sample]) := by
  induction front generalizing previous with
  | nil => exact ⟨hquiet, trivial⟩
  | cons head rest ih =>
    refine ⟨hrun.1, ih hrun.2 ?_⟩
    cases rest with
    | nil => exact hquiet
    | cons next others => simpa [List.getLast?_cons] using hquiet

/-- What the loop's variables say about the samples judged so far. -/
structure Window (policy : SettlementPolicy) (judged : List SettlementSample)
    (state : EvaluatorState) : Prop where
  previous : state.previous = judged.getLast?
  opened : ∀ start, state.windowStart = some start → ∃ before rest,
    judged = before ++ start :: rest ∧ QuietRun before.getLast? (start :: rest)
  completed : ∀ until_, state.quietUntil = some until_ → until_ ∈ judged ∧
    ∃ start, state.windowStart = some start ∧
      start.observedAt + policy.stabilizationMs ≤ until_.observedAt

theorem Window.extended {judged : List SettlementSample} (hwindow : Window policy judged state)
    (hquiet : activityCauses sample state.previous = []) {start : SettlementSample}
    (hstart : (state.windowStart.getD sample) = start) : ∃ before rest,
    judged ++ [sample] = before ++ start :: rest ∧ QuietRun before.getLast? (start :: rest) := by
  rw [hwindow.previous] at hquiet
  cases hopen : state.windowStart with
  | none =>
    rw [hopen] at hstart
    obtain rfl : sample = start := hstart
    exact ⟨judged, [], rfl, hquiet, trivial⟩
  | some opened =>
    rw [hopen] at hstart
    obtain rfl : opened = start := hstart
    obtain ⟨before, rest, rfl, hrun⟩ := hwindow.opened opened hopen
    refine ⟨before, rest ++ [sample], by simp, ?_⟩
    refine hrun.concat ?_
    simpa [List.getLast?_append, List.getLast?_cons] using hquiet

theorem Window.step {judged : List SettlementSample} (hwindow : Window policy judged state)
    (h : judgeSample policy state sample = .ok state') :
    Window policy (judged ++ [sample]) state' := by
  have hcases := judgeSample_cases policy state sample
  rw [h] at hcases
  cases hcases with
  | restarts firstCause others hcauses =>
    refine ⟨by simp [restartWindow], ?_, ?_⟩
    · intro start hstart
      cases hstart
    · intro until_ huntil
      cases huntil
  | continues hquiet hopen =>
    refine ⟨by simp [extendWindow], ?_, ?_⟩
    · intro start hstart
      exact hwindow.extended hquiet (Option.some.inj hstart)
    · intro until_ huntil
      simp only [extendWindow] at huntil ⊢
      split at huntil
      · next hfar =>
          obtain rfl : sample = until_ := Option.some.inj huntil
          exact ⟨by simp, _, rfl, hfar.2⟩
      · obtain ⟨hmem, start, hstart, hfar⟩ := hwindow.completed until_ huntil
        refine ⟨by simp [hmem], start, ?_, hfar⟩
        rw [hstart, Option.getD_some]

theorem judgeSamples_window (h : judgeSamples policy samples = .ok state) :
    Window policy samples state := by
  induction samples using List.reverseRecOn generalizing state with
  | nil =>
    obtain rfl : EvaluatorState.start = state := Except.ok.inj h
    refine ⟨rfl, ?_, ?_⟩
    · intro start hstart
      cases hstart
    · intro until_ huntil
      cases huntil
  | append_singleton front sample ih =>
    obtain ⟨before, hfront, hjudged⟩ := judgeSamples_front h
    exact (ih hfront).step hjudged

theorem judgeSamples_established (h : judgeSamples policy samples = .error members) :
    ∃ (before : List SettlementSample) (start : SettlementSample) (rest : List SettlementSample)
        (recheck : SettlementSample) (back : List SettlementSample),
      samples = before ++ start :: rest ++ recheck :: back ∧
      QuietRun before.getLast? (start :: rest ++ [recheck]) ∧
      members.windowStart = start.observedAt ∧ members.recheckedAt = recheck.observedAt ∧
      recheck.phase = .preFreezeRecheck := by
  obtain ⟨front, recheck, back, state, rfl, hstate, hjudged⟩ := judgeSamples_error h
  have hwindow := judgeSamples_window hstate
  have hcases := judgeSample_cases policy state recheck
  rw [hjudged] at hcases
  cases hcases with
  | establishes start until_ hquiet hphase hstart huntil =>
    obtain ⟨before, rest, rfl, hrun⟩ := hwindow.opened start hstart
    refine ⟨before, start, rest, recheck, back, by simp, ?_, rfl, rfl, hphase⟩
    refine hrun.concat ?_
    rw [hwindow.previous] at hquiet
    simpa [List.getLast?_append, List.getLast?_cons] using hquiet

theorem Window.completed_at_observation {judged : List SettlementSample}
    (hwindow : Window policy judged state) (hphase : sample.phase = .observation)
    (hlast : ∀ earlier ∈ judged, earlier.observedAt ≤ sample.observedAt)
    (h : judgeSample policy state sample = .ok state') {until_ : SettlementSample}
    (huntil : state'.quietUntil = some until_) : until_ = sample := by
  have hcases := judgeSample_cases policy state sample
  rw [h] at hcases
  cases hcases with
  | restarts firstCause others hcauses => cases huntil
  | continues hquiet hopen =>
    simp only [extendWindow] at huntil
    split at huntil
    · exact (Option.some.inj huntil).symm
    · next hnear =>
        -- the window was completed before, so it is far enough from this later sample too
        obtain ⟨hmem, start, hstart, hfar⟩ := hwindow.completed until_ huntil
        have hle := hlast until_ hmem
        refine absurd ⟨hphase, ?_⟩ hnear
        rw [hstart, Option.getD_some]
        exact hfar.trans hle

/-! ## Samples in the order they were observed -/

/-- The samples of a history whose clock never went back. -/
def ObservedInOrder (samples : List SettlementSample) : Prop :=
  samples.Pairwise fun earlier later => earlier.observedAt ≤ later.observedAt

theorem inObservationOrder_eq_self (h : ObservedInOrder samples) :
    inObservationOrder samples = samples :=
  List.Pairwise.insertionSort_eq h

theorem judgedSamples_of_ordered (h : ObservedInOrder samples) (publishedAt : UtcMillis) :
    judgedSamples samples policy publishedAt =
      samples.filter fun sample => decide (sample.observedAt ≤ deadlineMs policy publishedAt) := by
  unfold judgedSamples
  rw [inObservationOrder_eq_self h]

theorem observedInOrder_concat : ObservedInOrder (front ++ [sample]) ↔
    ObservedInOrder front ∧ ∀ earlier ∈ front, earlier.observedAt ≤ sample.observedAt := by
  simp [ObservedInOrder, List.pairwise_append]

theorem judgedSamples_concat (h : ObservedInOrder (front ++ [sample])) (publishedAt : UtcMillis) :
    judgedSamples (front ++ [sample]) policy publishedAt =
      judgedSamples front policy publishedAt ++
        if sample.observedAt ≤ deadlineMs policy publishedAt then [sample] else [] := by
  rw [judgedSamples_of_ordered h, judgedSamples_of_ordered (observedInOrder_concat.mp h).1,
    List.filter_append]
  by_cases hin : sample.observedAt ≤ deadlineMs policy publishedAt <;> simp [hin]

end RefundStudy.Settlement
