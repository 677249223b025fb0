/-
  What holds when the settlement observer returns.
-/
import RefundStudy.Settlement.Observer

set_option autoImplicit false

namespace RefundStudy.Settlement

open Foundation Record

variable {C : Type} {advances : Bool} {plan : ObservationPlan} {w w' : ObserverWorld C}
  {rounds : List SettlementReading}

/-! ## Answers -/

theorem answers_now {reply : UtcMillis} (h : observerAnswers C advances .now w reply w') :
    reply = w'.clock ∧ (passingTime C).rel w w' := by
  obtain ⟨choice, hexec⟩ := h
  cases choice with
  | passing elapsedMs =>
    obtain ⟨rfl, rfl⟩ := Prod.mk.inj (Option.some.inj hexec)
    exact ⟨rfl, Nat.le_add_right _ _, rfl, rfl⟩
  | interruption found => cases hexec
  | reading elapsedMs reading => cases hexec
  | collection elapsedMs collection => cases hexec

theorem answers_sleep {durationMs : Int} {reply : Unit}
    (h : observerAnswers C advances (.sleep durationMs) w reply w') :
    (passingTime C).rel w w' ∧ (advances → (w.clock : Int) + durationMs ≤ w'.clock) := by
  obtain ⟨choice, hexec⟩ := h
  cases choice with
  | passing elapsedMs =>
    simp only [observerMachine, answerObserver] at hexec
    split at hexec
    · cases hexec
    · next hlong =>
        obtain ⟨-, rfl⟩ := Prod.mk.inj (Option.some.inj hexec)
        refine ⟨⟨Nat.le_add_right _ _, rfl, rfl⟩, ?_⟩
        intro hadvances
        rw [hadvances, Bool.true_and, decide_eq_true_iff] at hlong
        push_cast
        omega
  | interruption found => cases hexec
  | reading elapsedMs reading => cases hexec
  | collection elapsedMs collection => cases hexec

theorem answers_interruption {reply : Option TrialInterruption}
    (h : observerAnswers C advances .interruption w reply w') : w' = w := by
  obtain ⟨choice, hexec⟩ := h
  cases choice with
  | passing elapsedMs => cases hexec
  | interruption found => exact (Prod.mk.inj (Option.some.inj hexec)).2.symm
  | reading elapsedMs reading => cases hexec
  | collection elapsedMs collection => cases hexec

/-- What a read call gives: a round of the phase asked for, observed while the call ran. -/
structure RoundRead (phase : SettlementSamplePhase) (reading : SettlementReading)
    (w w' : ObserverWorld C) : Prop where
  phase : reading.sample.phase = phase
  after : w.clock ≤ reading.sample.observedAt
  before : reading.sample.observedAt ≤ w'.clock
  reads : w'.reads = w.reads ++ [reading]
  collects : w'.collects = w.collects

theorem answers_read {phase : SettlementSamplePhase} {previous : Option SettlementSample}
    {reading : SettlementReading}
    (h : observerAnswers C advances (.read phase previous) w reading w') :
    RoundRead phase reading w w' := by
  obtain ⟨choice, hexec⟩ := h
  cases choice with
  | passing elapsedMs => cases hexec
  | interruption found => cases hexec
  | reading elapsedMs found =>
    simp only [observerMachine, answerObserver] at hexec
    split at hexec
    · next hwithin =>
        obtain ⟨rfl, rfl⟩ := Prod.mk.inj (Option.some.inj hexec)
        exact ⟨hwithin.1, hwithin.2.1, hwithin.2.2, rfl, rfl⟩
    · cases hexec
  | collection elapsedMs collection => cases hexec

theorem answers_collect {collection : C} (h : observerAnswers C advances .collect w collection w') :
    w.clock ≤ w'.clock ∧ w'.reads = w.reads ∧
      w'.collects = w.collects ++ [⟨w.clock, w'.clock, collection⟩] := by
  obtain ⟨choice, hexec⟩ := h
  cases choice with
  | passing elapsedMs => cases hexec
  | interruption found => cases hexec
  | reading elapsedMs reading => cases hexec
  | collection elapsedMs found =>
    obtain ⟨rfl, rfl⟩ := Prod.mk.inj (Option.some.inj hexec)
    exact ⟨Nat.le_add_right _ _, rfl, rfl⟩

/-! ## The invariant -/

/-- How many of some rounds have a phase. -/
def countPhase (phase : SettlementSamplePhase) (rounds : List SettlementReading) : Nat :=
  rounds.countP fun round => decide (round.sample.phase = phase)

theorem countPhase_concat (phase : SettlementSamplePhase) (rounds : List SettlementReading)
    (round : SettlementReading) : countPhase phase (rounds ++ [round]) =
      countPhase phase rounds + if round.sample.phase = phase then 1 else 0 := by
  simp [countPhase, List.countP_append, List.countP_cons]

/-- The recheck was active after the round before it, or observed after the deadline. -/
def RecheckFailed (plan : ObservationPlan) (before : List SettlementReading)
    (round : SettlementReading) : Prop :=
  activityCauses round.sample (lastSample before) ≠ [] ∨
    deadlineMs plan.policy plan.publishedAt < round.sample.observedAt

/-- Every recheck that did not establish settlement when it was taken failed. -/
def RechecksFailed (plan : ObservationPlan) (rounds : List SettlementReading) : Prop :=
  ∀ before round after, rounds = before ++ round :: after →
    round.sample.phase = .preFreezeRecheck →
    (plan.assess (before ++ [round])).isEstablished = false → RecheckFailed plan before round

/-- The samples the evaluator reads of some rounds. -/
def ObservationPlan.judged (plan : ObservationPlan) (rounds : List SettlementReading) :
    List SettlementSample :=
  judgedSamples (samplesOf rounds) plan.policy plan.publishedAt

/-- What holds of the rounds read so far, between any two of them. -/
structure Observed (advances : Bool) (plan : ObservationPlan) (rounds : List SettlementReading)
    (w : ObserverWorld C) : Prop where
  reads : w.reads = rounds
  ordered : ObservedInOrder (samplesOf rounds)
  past : ∀ sample ∈ samplesOf rounds, sample.observedAt ≤ w.clock
  unsettled : ∃ state, judgeSamples plan.policy (plan.judged rounds) = .ok state
  rechecks : RechecksFailed plan rounds
  counted : countPhase .preFreezeRecheck rounds ≤ countPhase .observation rounds
  polled : advances → countPhase .observation rounds ≠ 0 →
    plan.publishedAt + countPhase .observation rounds * plan.policy.pollIntervalMs ≤ w.clock
  bounded : advances → countPhase .observation rounds * plan.policy.pollIntervalMs ≤
    plan.policy.observationDeadlineMs

theorem Observed.start (hreads : w.reads = []) : Observed advances plan [] w where
  reads := hreads
  ordered := List.Pairwise.nil
  past := by
    intro sample hsample
    cases hsample
  unsettled := ⟨EvaluatorState.start, rfl⟩
  rechecks := by
    intro before round after hsplit
    simp at hsplit
  counted := Nat.le_refl _
  polled := fun _ hcount => absurd rfl hcount
  bounded := by
    intro _
    simp [countPhase]

theorem Observed.pass (hobserved : Observed advances plan rounds w)
    (hrel : (passingTime C).rel w w') : Observed advances plan rounds w' where
  reads := hrel.2.1.trans hobserved.reads
  ordered := hobserved.ordered
  past := fun sample hsample => (hobserved.past sample hsample).trans hrel.1
  unsettled := hobserved.unsettled
  rechecks := hobserved.rechecks
  counted := hobserved.counted
  polled := fun hadvances hcount => (hobserved.polled hadvances hcount).trans hrel.1
  bounded := hobserved.bounded

theorem samplesOf_concat (rounds : List SettlementReading) (round : SettlementReading) :
    samplesOf (rounds ++ [round]) = samplesOf rounds ++ [round.sample] := by
  simp [samplesOf]

theorem getLast?_samplesOf (rounds : List SettlementReading) :
    (samplesOf rounds).getLast? = lastSample rounds := by
  simp [samplesOf, lastSample, List.getLast?_map]

variable {round : SettlementReading}

theorem Observed.ordered_concat (hobserved : Observed advances plan rounds w)
    (hafter : w.clock ≤ round.sample.observedAt) :
    ObservedInOrder (samplesOf rounds ++ [round.sample]) := by
  refine observedInOrder_concat.mpr ⟨hobserved.ordered, ?_⟩
  intro earlier hearlier
  exact (hobserved.past earlier hearlier).trans hafter

theorem Observed.past_concat (hobserved : Observed advances plan rounds w)
    {phase : SettlementSamplePhase} (hread : RoundRead phase round w w') :
    ∀ sample ∈ samplesOf (rounds ++ [round]), sample.observedAt ≤ w'.clock := by
  intro sample hsample
  rw [samplesOf_concat] at hsample
  rcases List.mem_append.mp hsample with hold | hnew
  · exact (hobserved.past sample hold).trans (hread.after.trans hread.before)
  · rw [List.mem_singleton.mp hnew]
    exact hread.before

theorem Observed.judged_concat (hobserved : Observed advances plan rounds w)
    (hafter : w.clock ≤ round.sample.observedAt) :
    plan.judged (rounds ++ [round]) = plan.judged rounds ++
      if round.sample.observedAt ≤ deadlineMs plan.policy plan.publishedAt then [round.sample]
      else [] := by
  unfold ObservationPlan.judged
  rw [samplesOf_concat, judgedSamples_concat (hobserved.ordered_concat hafter)]

theorem rechecksFailed_concat (h : RechecksFailed plan rounds)
    (hround : round.sample.phase = .preFreezeRecheck →
      (plan.assess (rounds ++ [round])).isEstablished = false → RecheckFailed plan rounds round) :
    RechecksFailed plan (rounds ++ [round]) := by
  intro before found after hsplit hphase hassessed
  rcases List.eq_nil_or_concat after with rfl | ⟨middle, last, rfl⟩
  · obtain ⟨rfl, rfl⟩ := List.append_inj' hsplit rfl |>.imp_right List.singleton_inj.mp
    exact hround hphase hassessed
  · refine h before found middle ?_ hphase hassessed
    have hsplit' : rounds ++ [round] = (before ++ found :: middle) ++ [last] := by
      simpa using hsplit
    exact (List.append_inj' hsplit' rfl).1

/-! ## Polls -/

theorem nextPollMs_gt {nowMs : UtcMillis} {policy : SettlementPolicy} {publishedAt : UtcMillis}
    {count : Nat} (hpassed : count ≠ 0 → publishedAt + count * policy.pollIntervalMs ≤ nowMs) :
    publishedAt + (count + 1) * policy.pollIntervalMs ≤ nextPollMs publishedAt nowMs policy := by
  unfold nextPollMs
  refine Nat.add_le_add_left ?_ _
  rcases Nat.eq_zero_or_pos policy.pollIntervalMs with hzero | hpos
  · rw [hzero, Nat.mul_zero, Nat.mul_zero]
  refine Nat.mul_le_mul_right _ ?_
  rcases Nat.eq_zero_or_pos count with rfl | hcount
  · omega
  · have hle : (count : Int) ≤ ((nowMs : Int) - publishedAt) / policy.pollIntervalMs := by
      rw [Int.le_ediv_iff_mul_le (by omega)]
      have hpast := hpassed (by omega)
      have hcast : ((publishedAt + count * policy.pollIntervalMs : Nat) : Int) ≤ nowMs :=
        Int.ofNat_le.mpr hpast
      push_cast at hcast
      omega
    omega

/-- An observation round keeps the invariant; `polledAt` is the grid instant it waited for. -/
theorem Observed.observation (hobserved : Observed advances plan rounds w)
    (hread : RoundRead .observation round w w')
    (hpoll : advances → plan.publishedAt + (countPhase .observation rounds + 1) *
      plan.policy.pollIntervalMs ≤ min w.clock (deadlineMs plan.policy plan.publishedAt)) :
    Observed advances plan (rounds ++ [round]) w' := by
  have hclock : w.clock ≤ w'.clock := hread.after.trans hread.before
  have hobservations : countPhase .observation (rounds ++ [round]) =
      countPhase .observation rounds + 1 := by
    rw [countPhase_concat, if_pos hread.phase]
  have hrechecks : countPhase .preFreezeRecheck (rounds ++ [round]) =
      countPhase .preFreezeRecheck rounds := by
    rw [countPhase_concat, hread.phase]
    rfl
  refine ⟨by rw [hread.reads, hobserved.reads], ?_, hobserved.past_concat hread, ?_, ?_, ?_, ?_, ?_⟩
  · rw [samplesOf_concat]
    exact hobserved.ordered_concat hread.after
  · obtain ⟨state, hstate⟩ := hobserved.unsettled
    rw [hobserved.judged_concat hread.after]
    split
    · rw [judgeSamples_concat_of_ok hstate]
      exact judgeSample_observation hread.phase
    · rw [List.append_nil]
      exact ⟨state, hstate⟩
  · refine rechecksFailed_concat hobserved.rechecks ?_
    intro hphase
    cases hphase.symm.trans hread.phase
  · rw [hobservations, hrechecks]
    exact hobserved.counted.trans (Nat.le_succ _)
  · intro hadvances _
    rw [hobservations]
    exact (hpoll hadvances).trans ((Nat.min_le_left _ _).trans hclock)
  · intro hadvances
    rw [hobservations]
    exact Nat.le_of_add_le_add_left ((hpoll hadvances).trans (Nat.min_le_right _ _))

/-! ## A complete window -/

/-- The evaluator stands at the last observation, one quiet recheck before settlement. -/
structure Ready (plan : ObservationPlan) (rounds : List SettlementReading)
    (last start : SettlementSample) (state : EvaluatorState) : Prop where
  judged : judgeSamples plan.policy (plan.judged rounds) = .ok state
  lastRead : lastSample rounds = some last
  previous : state.previous = some last
  windowStart : state.windowStart = some start
  quietUntil : state.quietUntil = some last

theorem isEstablished_of_judged_error {members : Established}
    (h : judgeSamples plan.policy (plan.judged rounds) = .error members) :
    plan.assess rounds = .established members :=
  evaluateSettlement_established.mpr h

theorem not_isEstablished_of_judged_ok {state : EvaluatorState}
    (h : judgeSamples plan.policy (plan.judged rounds) = .ok state) :
    (plan.assess rounds).isEstablished = false := by
  rw [Bool.eq_false_iff]
  intro hestablished
  obtain ⟨members, hmembers⟩ := evaluateSettlement_isEstablished.mp hestablished
  cases h.symm.trans hmembers

theorem Observed.ready (hobserved : Observed advances plan rounds w)
    (hphase : round.sample.phase = .observation) (hafter : w.clock ≤ round.sample.observedAt)
    (hcomplete : windowComplete (samplesOf (rounds ++ [round])) plan.policy plan.publishedAt =
      true) : ∃ start state, Ready plan (rounds ++ [round]) round.sample start state := by
  obtain ⟨before, hbefore⟩ := hobserved.unsettled
  set repeated : SettlementSample := { round.sample with phase := .preFreezeRecheck }
  have hordered : ObservedInOrder (samplesOf (rounds ++ [round]) ++ [repeated]) := by
    rw [samplesOf_concat]
    refine observedInOrder_concat.mpr ⟨hobserved.ordered_concat hafter, ?_⟩
    intro earlier hearlier
    rcases List.mem_append.mp hearlier with hold | hnew
    · exact (hobserved.past earlier hold).trans hafter
    · rw [List.mem_singleton.mp hnew]
  simp only [windowComplete, samplesOf_concat, List.getLast?_concat] at hcomplete
  rw [← samplesOf_concat] at hcomplete
  obtain ⟨members, hmembers⟩ := evaluateSettlement_isEstablished.mp hcomplete
  rw [judgedSamples_concat hordered] at hmembers
  -- the last observation was judged, and the repetition ends the loop right behind it
  obtain ⟨state, hstate⟩ : ∃ state, judgeSamples plan.policy (plan.judged (rounds ++ [round])) =
      .ok state := by
    rw [hobserved.judged_concat hafter]
    split
    · rw [judgeSamples_concat_of_ok hbefore]
      exact judgeSample_observation hphase
    · rw [List.append_nil]
      exact ⟨before, hbefore⟩
  by_cases hin : round.sample.observedAt ≤ deadlineMs plan.policy plan.publishedAt
  · have hrepeated : repeated.observedAt ≤ deadlineMs plan.policy plan.publishedAt := hin
    rw [if_pos hrepeated] at hmembers
    have hjudged : judgeSample plan.policy state repeated = .error members := by
      rw [← hmembers]
      exact (judgeSamples_concat_of_ok hstate).symm
    have hlast : judgeSample plan.policy before round.sample = .ok state := by
      rw [← hstate, hobserved.judged_concat hafter, if_pos hin]
      exact (judgeSamples_concat_of_ok hbefore).symm
    have hcases := judgeSample_cases plan.policy state repeated
    rw [hjudged] at hcases
    cases hcases with
    | establishes start until_ _ _ hstart huntil =>
      have hwindow := judgeSamples_window hbefore
      have hlate : ∀ earlier ∈ plan.judged rounds,
          earlier.observedAt ≤ round.sample.observedAt := by
        intro earlier hearlier
        rw [ObservationPlan.judged, judgedSamples_of_ordered hobserved.ordered] at hearlier
        exact (hobserved.past earlier (List.mem_filter.mp hearlier).1).trans hafter
      obtain rfl := hwindow.completed_at_observation hphase hlate hlast huntil
      refine ⟨start, state, hstate, ?_, ?_, hstart, huntil⟩
      · simp [lastSample]
      · rw [(hwindow.step hlast).previous, List.getLast?_concat]
  · have hrepeated : ¬ repeated.observedAt ≤ deadlineMs plan.policy plan.publishedAt := hin
    rw [if_neg hrepeated, List.append_nil] at hmembers
    cases hstate.symm.trans hmembers

/-- One recheck behind a complete window: it establishes settlement with the last observation as
the window's end, or it failed. -/
theorem Observed.recheck (hobserved : Observed advances plan rounds w)
    {last start : SettlementSample} {state : EvaluatorState}
    (hready : Ready plan rounds last start state) (hread : RoundRead .preFreezeRecheck round w w') :
    (∃ members, plan.assess (rounds ++ [round]) = .established members ∧
      members.establishedAt = last.observedAt ∧
      members.recheckedAt = round.sample.observedAt) ∨
    ((∃ next, judgeSamples plan.policy (plan.judged (rounds ++ [round])) = .ok next) ∧
      RecheckFailed plan rounds round) := by
  by_cases hin : round.sample.observedAt ≤ deadlineMs plan.policy plan.publishedAt
  · have hjudged : judgeSamples plan.policy (plan.judged (rounds ++ [round])) =
        judgeSample plan.policy state round.sample := by
      rw [hobserved.judged_concat hread.after, if_pos hin]
      exact judgeSamples_concat_of_ok hready.judged
    by_cases hquiet : activityCauses round.sample state.previous = []
    · left
      rw [judgeSample_recheck hquiet hread.phase hready.windowStart hready.quietUntil] at hjudged
      exact ⟨_, isEstablished_of_judged_error hjudged, rfl, rfl⟩
    · right
      refine ⟨?_, .inl ?_⟩
      · have hcases := judgeSample_cases plan.policy state round.sample
        rw [hjudged]
        cases hresult : judgeSample plan.policy state round.sample with
        | ok next => exact ⟨next, rfl⟩
        | error members =>
          rw [hresult] at hcases
          cases hcases with
          | establishes _ _ hnone => exact absurd hnone hquiet
      · rwa [hready.lastRead, ← hready.previous]
  · right
    refine ⟨?_, .inr (Nat.lt_of_not_le hin)⟩
    rw [hobserved.judged_concat hread.after, if_neg hin, List.append_nil]
    exact ⟨state, hready.judged⟩

/-! ## Observing -/

/-- What an observation leaves: it has spent its fuel on rounds, or it holds every round read and
their judgement, with a complete window when it says so. -/
def ObservePost (advances : Bool) (plan : ObservationPlan) (rounds : List SettlementReading)
    (fuel : Nat) : Option Observation → ObserverWorld C → Prop
  | none, w => ∃ found, Observed advances plan found w ∧
      countPhase .observation rounds + fuel ≤ countPhase .observation found
  | some observation, w => Observed advances plan observation.rounds w ∧
      observation.assessment = plan.assess observation.rounds ∧
      countPhase .observation rounds ≤ countPhase .observation observation.rounds ∧
      (observation.stop = .windowComplete →
        (∃ last start state, Ready plan observation.rounds last start state) ∧
        countPhase .preFreezeRecheck observation.rounds <
          countPhase .observation observation.rounds ∧
        countPhase .observation rounds < countPhase .observation observation.rounds)

variable {fuel : Nat}

theorem ObservePost.pass {result : Option Observation}
    (h : ObservePost advances plan rounds fuel result w) (hrel : (passingTime C).rel w w') :
    ObservePost advances plan rounds fuel result w' := by
  cases result with
  | none =>
    obtain ⟨found, hobserved, hcount⟩ := h
    exact ⟨found, hobserved.pass hrel, hcount⟩
  | some observation => exact ⟨h.1.pass hrel, h.2⟩

/-- No promise about single calls is needed. -/
abbrev anyCall (C : Type) : ObserverWorld C → ObserverWorld C → Prop := fun _ _ => True

theorem interrupted_safe (fuel : Nat) (hobserved : Observed advances plan rounds w)
    {clock : UtcMillis} (hclock : clock ≤ w.clock) :
    Safe (observerAnswers C advances) (passingTime C) (anyCall C)
      (fun result w => (result = none → Observed advances plan rounds w ∧ clock ≤ w.clock) ∧
        ∀ observation, result = some observation →
          ObservePost advances plan rounds fuel (some observation) w)
      (interrupted rounds plan) w := by
  refine Safe.call ?_
  intro w₁ hrel reply w₂ hanswer
  refine ⟨trivial, ?_⟩
  obtain rfl := answers_interruption hanswer
  cases reply with
  | none =>
    refine Safe.ret ?_
    intro w₃ hrel₃
    refine ⟨fun _ => ⟨(hobserved.pass hrel).pass hrel₃, hclock.trans (hrel.1.trans hrel₃.1)⟩, ?_⟩
    intro observation hsome
    cases hsome
  | some found =>
    refine Safe.ret ?_
    intro w₃ hrel₃
    refine ⟨fun hnone => (by cases hnone), ?_⟩
    intro observation hsome
    obtain rfl := Option.some.inj hsome
    refine ⟨(hobserved.pass hrel).pass hrel₃, rfl, Nat.le_refl _, ?_⟩
    intro hstop
    cases hstop

theorem readPoll_safe {pollMs : UtcMillis}
    {again : List SettlementReading → Observing C (Option Observation)}
    (hobserved : Observed advances plan rounds w) (hpolled : advances → pollMs ≤ w.clock)
    (hpoll : advances → plan.publishedAt + (countPhase .observation rounds + 1) *
      plan.policy.pollIntervalMs ≤ pollMs) (hdue : pollMs ≤ deadlineMs plan.policy plan.publishedAt)
    (hagain : ∀ next w, Observed advances plan next w →
      countPhase .observation next = countPhase .observation rounds + 1 →
      Safe (observerAnswers C advances) (passingTime C) (anyCall C)
        (ObservePost advances plan next fuel) (again next) w) :
    Safe (observerAnswers C advances) (passingTime C) (anyCall C)
      (ObservePost advances plan rounds (fuel + 1)) (readPoll plan rounds again) w := by
  refine Safe.call ?_
  intro w₁ hrel round w₂ hanswer
  refine ⟨trivial, ?_⟩
  have hread := answers_read hanswer
  have hobserved₁ := hobserved.pass hrel
  have hobserved₂ : Observed advances plan (rounds ++ [round]) w₂ := by
    refine hobserved₁.observation hread ?_
    intro hadvances
    refine (hpoll hadvances).trans (Nat.le_min.mpr ⟨?_, hdue⟩)
    exact (hpolled hadvances).trans hrel.1
  have hcount : countPhase .observation (rounds ++ [round]) =
      countPhase .observation rounds + 1 := by
    rw [countPhase_concat, if_pos hread.phase]
  have hrechecks : countPhase .preFreezeRecheck (rounds ++ [round]) =
      countPhase .preFreezeRecheck rounds := by
    rw [countPhase_concat, hread.phase]
    rfl
  show Safe _ _ _ _ (if windowComplete (samplesOf (rounds ++ [round])) plan.policy
    plan.publishedAt then _ else _) w₂
  split
  · next hcomplete =>
      refine Safe.ret ?_
      intro w₃ hrel₃
      refine ⟨hobserved₂.pass hrel₃, rfl, ?_, ?_⟩
      · show _ ≤ countPhase .observation (rounds ++ [round])
        omega
      · intro _
        obtain ⟨start, state, hready⟩ := hobserved₁.ready hread.phase hread.after hcomplete
        refine ⟨⟨_, start, state, hready⟩, ?_, ?_⟩
        · show countPhase _ (rounds ++ [round]) < countPhase _ (rounds ++ [round])
          rw [hcount, hrechecks]
          exact Nat.lt_succ_of_le hobserved.counted
        · show _ < countPhase .observation (rounds ++ [round])
          omega
  · refine (hagain _ w₂ hobserved₂ hcount).weaken ?_
    intro result w₃ hpost
    cases result with
    | none =>
      obtain ⟨found, hfound, hle⟩ := hpost
      exact ⟨found, hfound, by omega⟩
    | some observation =>
      obtain ⟨hfound, hassess, hle, hcomplete⟩ := hpost
      refine ⟨hfound, hassess, by omega, ?_⟩
      intro hstop
      obtain ⟨hready, hrecheck, hlt⟩ := hcomplete hstop
      exact ⟨hready, hrecheck, by omega⟩

theorem awaitPoll_safe {pollMs : UtcMillis}
    {again : List SettlementReading → Observing C (Option Observation)}
    (hobserved : Observed advances plan rounds w)
    (hpoll : advances → plan.publishedAt + (countPhase .observation rounds + 1) *
      plan.policy.pollIntervalMs ≤ pollMs) (hdue : pollMs ≤ deadlineMs plan.policy plan.publishedAt)
    (hagain : ∀ next w, Observed advances plan next w →
      countPhase .observation next = countPhase .observation rounds + 1 →
      Safe (observerAnswers C advances) (passingTime C) (anyCall C)
        (ObservePost advances plan next fuel) (again next) w) :
    Safe (observerAnswers C advances) (passingTime C) (anyCall C)
      (ObservePost advances plan rounds (fuel + 1)) (awaitPoll plan rounds pollMs again) w := by
  refine Safe.call ?_
  intro w₁ hrel₁ now w₂ hnow
  refine ⟨trivial, Safe.call ?_⟩
  obtain ⟨rfl, hrel₂⟩ := answers_now hnow
  intro w₃ hrel₃ reply w₄ hsleep
  refine ⟨trivial, ?_⟩
  obtain ⟨hrel₄, hadvance⟩ := answers_sleep hsleep
  have hobserved₄ := (((hobserved.pass hrel₁).pass hrel₂).pass hrel₃).pass hrel₄
  have hslept : advances → pollMs ≤ w₄.clock := by
    intro hadvances
    have hpast := hadvance hadvances
    have hclock : (w₂.clock : Int) ≤ w₃.clock := Int.ofNat_le.mpr hrel₃.1
    exact Int.ofNat_le.mp (by omega)
  show Safe _ _ _ _ (interrupted rounds plan >>= _) w₄
  refine Safe.bind (interrupted_safe (fuel + 1) hobserved₄ (Nat.le_refl w₄.clock)) ?_
  intro after w₅ hafter
  cases after with
  | some observation =>
    refine Safe.ret ?_
    intro w₆ hrel₆
    exact (hafter.2 observation rfl).pass hrel₆
  | none =>
    obtain ⟨hobserved₅, hclock₅⟩ := hafter.1 rfl
    exact readPoll_safe hobserved₅ (fun hadvances => (hslept hadvances).trans hclock₅) hpoll hdue
      hagain

theorem observe_safe (fuel : Nat) (hobserved : Observed advances plan rounds w) :
    Safe (observerAnswers C advances) (passingTime C) (anyCall C)
      (ObservePost advances plan rounds fuel) (observe plan rounds fuel) w := by
  induction fuel generalizing rounds w with
  | zero =>
    refine Safe.ret ?_
    intro w' hrel
    exact ⟨rounds, hobserved.pass hrel, Nat.le_refl _⟩
  | succ fuel ih =>
    unfold observe
    refine Safe.call ?_
    intro w₁ hrel now w₂ hnow
    refine ⟨trivial, ?_⟩
    obtain ⟨rfl, hrel₂⟩ := answers_now hnow
    have hobserved₂ := (hobserved.pass hrel).pass hrel₂
    show Safe _ _ _ _ (interrupted rounds plan >>= _) w₂
    refine Safe.bind (interrupted_safe (fuel + 1) hobserved₂ (Nat.le_refl w₂.clock)) ?_
    intro before w₃ hbefore
    cases before with
    | some observation =>
      refine Safe.ret ?_
      intro w₄ hrel₄
      exact (hbefore.2 observation rfl).pass hrel₄
    | none =>
      have hobserved₃ := (hbefore.1 rfl).1
      dsimp only
      split
      · refine Safe.ret ?_
        intro w₄ hrel₄
        refine ⟨hobserved₃.pass hrel₄, rfl, Nat.le_refl _, ?_⟩
        intro hstop
        cases hstop
      · next hdue =>
          refine awaitPoll_safe hobserved₃ ?_ (Nat.le_of_not_lt hdue) ?_
          · intro hadvances
            exact nextPollMs_gt (hobserved₂.polled hadvances)
          · intro next w₄ hnext _
            exact ih hnext

/-! ## Settling -/

/-- What holds when `settle` has returned. -/
structure Settled (advances : Bool) (plan : ObservationPlan) (capture : SettledCapture C)
    (w : ObserverWorld C) : Prop where
  rounds : capture.rounds = w.reads
  assessment : capture.assessment = plan.assess capture.rounds
  collected : ∀ members, capture.assessment = .established members →
    ∃ span ∈ w.collects, span.collection = capture.collection ∧
      members.establishedAt ≤ span.startedAt ∧ span.endedAt ≤ members.recheckedAt
  rechecks : RechecksFailed plan capture.rounds
  recheckCount : countPhase .preFreezeRecheck capture.rounds ≤
    countPhase .observation capture.rounds
  observationCount : advances → countPhase .observation capture.rounds *
    plan.policy.pollIntervalMs ≤ plan.policy.observationDeadlineMs

theorem Settled.pass {capture : SettledCapture C} (h : Settled advances plan capture w)
    (hrel : (passingTime C).rel w w') : Settled advances plan capture w' where
  rounds := h.rounds.trans hrel.2.1.symm
  assessment := h.assessment
  collected := by
    rw [hrel.2.2]
    exact h.collected
  rechecks := h.rechecks
  recheckCount := h.recheckCount
  observationCount := h.observationCount

theorem Observed.settled (hobserved : Observed advances plan rounds w) (collection : C)
    (interruption : Option TrialInterruption) :
    Settled advances plan ⟨collection, rounds, plan.assess rounds, interruption⟩ w where
  rounds := hobserved.reads.symm
  assessment := rfl
  collected := by
    intro members hestablished
    obtain ⟨state, hstate⟩ := hobserved.unsettled
    have hfalse := not_isEstablished_of_judged_ok hstate
    rw [show plan.assess rounds = .established members from hestablished] at hfalse
    cases hfalse
  rechecks := hobserved.rechecks
  recheckCount := hobserved.counted
  observationCount := hobserved.bounded

/-- What the loop leaves: it has spent its fuel on rounds, or it has settled. -/
def SettlePost (advances : Bool) (plan : ObservationPlan) (polls : Nat)
    (rounds : List SettlementReading) (fuel : Nat) :
    Option (SettledCapture C) → ObserverWorld C → Prop
  | none, w => ∃ found, Observed advances plan found w ∧
      (polls ≤ countPhase .observation found ∨
        countPhase .observation rounds + fuel ≤ countPhase .observation found)
  | some capture, w => Settled advances plan capture w

theorem Observed.failedRecheck (hobserved : Observed advances plan rounds w)
    (hread : RoundRead .preFreezeRecheck round w w')
    (hcount : countPhase .preFreezeRecheck rounds < countPhase .observation rounds)
    (hunsettled : ∃ state, judgeSamples plan.policy (plan.judged (rounds ++ [round])) = .ok state)
    (hfailed : RecheckFailed plan rounds round) :
    Observed advances plan (rounds ++ [round]) w' := by
  have hobservations : countPhase .observation (rounds ++ [round]) =
      countPhase .observation rounds := by
    rw [countPhase_concat, hread.phase]
    rfl
  have hrechecks : countPhase .preFreezeRecheck (rounds ++ [round]) =
      countPhase .preFreezeRecheck rounds + 1 := by
    rw [countPhase_concat, if_pos hread.phase]
  refine ⟨by rw [hread.reads, hobserved.reads], ?_, hobserved.past_concat hread, hunsettled,
    rechecksFailed_concat hobserved.rechecks fun _ _ => hfailed, ?_, ?_, ?_⟩
  · rw [samplesOf_concat]
    exact hobserved.ordered_concat hread.after
  · rw [hobservations, hrechecks]
    exact hcount
  · rw [hobservations]
    intro hadvances hne
    exact (hobserved.polled hadvances hne).trans (hread.after.trans hread.before)
  · rw [hobservations]
    exact hobserved.bounded

/-- A recheck that establishes settlement ends the loop with the collection taken between the
last observation and itself. -/
theorem Observed.settledRecheck (hobserved : Observed advances plan rounds w)
    (hread : RoundRead .preFreezeRecheck round w w')
    (hcount : countPhase .preFreezeRecheck rounds < countPhase .observation rounds)
    {members : Established} (hmembers : plan.assess (rounds ++ [round]) = .established members)
    {span : CollectSpan C} (hspan : span ∈ w.collects)
    (hstarted : members.establishedAt ≤ span.startedAt)
    (hended : span.endedAt ≤ members.recheckedAt) :
    Settled advances plan
      ⟨span.collection, rounds ++ [round], plan.assess (rounds ++ [round]), none⟩ w' where
  rounds := by rw [hread.reads, hobserved.reads]
  assessment := rfl
  collected := by
    intro found hfound
    obtain rfl : members = found :=
      SettlementAssessment.established.inj (hmembers.symm.trans hfound)
    refine ⟨span, ?_, rfl, hstarted, hended⟩
    rwa [hread.collects]
  rechecks := by
    refine rechecksFailed_concat hobserved.rechecks ?_
    intro _ hfalse
    rw [hmembers] at hfalse
    cases hfalse
  recheckCount := by
    have hobservations : countPhase .observation (rounds ++ [round]) =
        countPhase .observation rounds := by
      rw [countPhase_concat, hread.phase]
      rfl
    show countPhase .preFreezeRecheck (rounds ++ [round]) ≤
      countPhase .observation (rounds ++ [round])
    rw [hobservations, countPhase_concat, if_pos hread.phase]
    exact hcount
  observationCount := by
    intro hadvances
    show countPhase .observation (rounds ++ [round]) * _ ≤ _
    rw [countPhase_concat, hread.phase]
    exact hobserved.bounded hadvances

theorem Observed.collect (hobserved : Observed advances plan rounds w) {span : CollectSpan C}
    (h : w.clock ≤ w'.clock ∧ w'.reads = w.reads ∧ w'.collects = w.collects ++ [span]) :
    Observed advances plan rounds w' where
  reads := h.2.1.trans hobserved.reads
  ordered := hobserved.ordered
  past := fun sample hsample => (hobserved.past sample hsample).trans h.1
  unsettled := hobserved.unsettled
  rechecks := hobserved.rechecks
  counted := hobserved.counted
  polled := fun hadvances hcount => (hobserved.polled hadvances hcount).trans h.1
  bounded := hobserved.bounded

theorem collectAndRecheck_safe {polls : Nat} {last start : SettlementSample}
    {state : EvaluatorState}
    {again : List SettlementReading → Observing C (Option (SettledCapture C))}
    {before : List SettlementReading} (hobserved : Observed advances plan rounds w)
    (hready : Ready plan rounds last start state)
    (hcount : countPhase .preFreezeRecheck rounds < countPhase .observation rounds)
    (hagain : ∀ next w, Observed advances plan next w →
      countPhase .observation next = countPhase .observation rounds →
      Safe (observerAnswers C advances) (passingTime C) (anyCall C)
        (SettlePost advances plan polls before fuel) (again next) w) :
    Safe (observerAnswers C advances) (passingTime C) (anyCall C)
      (SettlePost advances plan polls before fuel)
      (collectAndRecheck plan rounds (plan.assess rounds) again) w := by
  refine Safe.call ?_
  intro w₁ hrel₁ collection w₂ hanswer
  refine ⟨trivial, Safe.call ?_⟩
  have hcollect := answers_collect hanswer
  have hobserved₂ := (hobserved.pass hrel₁).collect hcollect
  intro w₃ hrel₃ interruption w₄ hinterruption
  refine ⟨trivial, ?_⟩
  obtain rfl := answers_interruption hinterruption
  have hobserved₃ := hobserved₂.pass hrel₃
  cases interruption with
  | some found =>
    refine Safe.ret ?_
    intro w₅ hrel₅
    exact (hobserved₃.settled collection (some found)).pass hrel₅
  | none =>
    refine Safe.call ?_
    intro w₅ hrel₅ round w₆ hround
    refine ⟨trivial, ?_⟩
    have hread := answers_read hround
    have hobserved₅ := hobserved₃.pass hrel₅
    have hlast : last.observedAt ≤ w₁.clock := by
      refine (hobserved.past last ?_).trans hrel₁.1
      refine List.mem_of_getLast? ?_
      rw [getLast?_samplesOf, hready.lastRead]
    rcases hobserved₅.recheck hready hread with
      ⟨members, hmembers, hestablishedAt, hrecheckedAt⟩ | ⟨hunsettled, hfailed⟩
    · have htrue : (plan.assess (rounds ++ [round])).isEstablished = true := by
        rw [hmembers]
        rfl
      show Safe _ _ _ _ (if (plan.assess (rounds ++ [round])).isEstablished then _ else _) w₆
      rw [if_pos htrue]
      refine Safe.ret ?_
      intro w₇ hrel₇
      have hspan : (⟨w₁.clock, w₂.clock, collection⟩ : CollectSpan C) ∈ w₅.collects := by
        rw [hrel₅.2.2, hrel₃.2.2, hcollect.2.2]
        exact List.mem_append_right _ List.mem_cons_self
      refine (hobserved₅.settledRecheck hread hcount hmembers hspan ?_ ?_).pass hrel₇
      · rw [hestablishedAt]
        exact hlast
      · rw [hrecheckedAt]
        exact (hrel₃.1.trans hrel₅.1).trans hread.after
    · obtain ⟨next, hnext⟩ := hunsettled
      show Safe _ _ _ _ (if (plan.assess (rounds ++ [round])).isEstablished then _ else _) w₆
      rw [not_isEstablished_of_judged_ok hnext]
      refine hagain _ w₆ (hobserved₅.failedRecheck hread hcount ⟨next, hnext⟩ hfailed) ?_
      rw [countPhase_concat, hread.phase]
      rfl

theorem settleFrom_safe (polls fuel : Nat) (hobserved : Observed advances plan rounds w) :
    Safe (observerAnswers C advances) (passingTime C) (anyCall C)
      (SettlePost advances plan polls rounds fuel) (settleFrom plan polls rounds fuel) w := by
  induction fuel generalizing rounds w with
  | zero =>
    refine Safe.ret ?_
    intro w' hrel
    exact ⟨rounds, hobserved.pass hrel, .inr (Nat.le_refl _)⟩
  | succ fuel ih =>
    unfold settleFrom
    refine Safe.bind (observe_safe polls hobserved) ?_
    intro observed w₁ hpost
    cases observed with
    | none =>
      obtain ⟨found, hfound, hle⟩ := hpost
      refine Safe.ret ?_
      intro w₂ hrel₂
      exact ⟨found, hfound.pass hrel₂, .inl (by omega)⟩
    | some observation =>
      obtain ⟨hobserved₁, hassess, -, hcomplete⟩ := hpost
      dsimp only
      split
      · refine Safe.call ?_
        intro w₂ hrel₂ collection w₃ hcollect
        refine ⟨trivial, Safe.ret ?_⟩
        intro w₄ hrel₄
        have hobserved₃ := (hobserved₁.pass hrel₂).collect (answers_collect hcollect)
        show Settled advances plan ⟨collection, _, observation.assessment, _⟩ w₄
        rw [hassess]
        exact (hobserved₃.settled collection _).pass hrel₄
      · next hstop =>
          obtain ⟨⟨last, start, state, hready⟩, hcount, hmore⟩ :=
            hcomplete (not_not.mp hstop)
          rw [hassess]
          refine collectAndRecheck_safe hobserved₁ hready hcount ?_
          intro next w₂ hnext hsame
          refine (ih hnext).weaken ?_
          intro result w₃ hpost
          cases result with
          | none =>
            obtain ⟨found, hfound, hle⟩ := hpost
            refine ⟨found, hfound, hle.imp_right ?_⟩
            intro hle
            omega
          | some capture => exact hpost

/-- Whatever the clock, the rounds and the interruptions: a capture that `settle` returns is
settled, and with a sleep that takes its time `settle` returns one. -/
theorem settle_settles {fuel : Nat} {result : Option (SettledCapture C)} (hreads : w.reads = [])
    (hrun : RunsTo (observerAnswers C advances) (passingTime C) (settle plan fuel) w result w') :
    (∀ capture, result = some capture → Settled advances plan capture w') ∧
    (advances → plan.policy.observationDeadlineMs < fuel * plan.policy.pollIntervalMs →
      result ≠ none) := by
  have hpost : SettlePost advances plan fuel [] fuel result w' :=
    hrun.result (settleFrom_safe fuel fuel (Observed.start hreads))
  refine ⟨?_, ?_⟩
  · rintro capture rfl
    exact hpost
  · rintro hadvances hfuel rfl
    obtain ⟨found, hfound, hle⟩ := hpost
    have hmany : fuel ≤ countPhase .observation found := by
      simpa [countPhase] using hle
    have hbound := (Nat.mul_le_mul_right plan.policy.pollIntervalMs hmany).trans
      (hfound.bounded hadvances)
    omega

def quietSample (observedAt : UtcMillis) (phase : SettlementSamplePhase) : SettlementSample where
  observedAt := observedAt
  phase := phase
  publicationStopped := true
  processingTerminal := true
  innerExecutionsTerminal := none
  providerActiveCalls := 0
  providerHeldBarriers := 0
  providerPendingReleases := 0
  treatmentTerminal := none
  ledgerSnapshotPossible := true
  sourceQueue := .counters ⟨0, 0, 0⟩
  dlq := .counters ⟨0, 0, 0⟩
  correlatedDlqMessageIds := []
  dlqCapturedMessageIds := []
  correlatedEventWatermark := 5
  ledgerItemCount := 1

def quietChoices : List (ObserverChoice Unit) :=
  [.passing 0, .interruption none, .passing 0, .passing 30000, .interruption none,
    .reading 100 ⟨quietSample 1030000 .observation, []⟩,
    .passing 0, .interruption none, .passing 0, .passing 29900, .interruption none,
    .reading 100 ⟨quietSample 1060000 .observation, []⟩,
    .collection 4000 (), .interruption none,
    .reading 100 ⟨quietSample 1064100 .preFreezeRecheck, []⟩]

def quietPlan : ObservationPlan := ⟨1000000, ⟨30000, 600000, 30000⟩⟩

theorem quietChoices_settle :
    ((Program.play (observerMachine Unit true) () quietChoices (settle quietPlan 21)
      ⟨1000000, [], []⟩).bind fun run => run.1.map SettledCapture.assessment) =
    some (.established ⟨1030000, 1060000, 1064100, []⟩) := by
  decide +kernel

theorem settle_settles_quiet : ∃ (capture : SettledCapture Unit) (w' : ObserverWorld Unit),
    RunsTo (observerAnswers Unit true) (passingTime Unit) (settle quietPlan 21)
      ⟨1000000, [], []⟩ (some capture) w' ∧
    capture.assessment = .established ⟨1030000, 1060000, 1064100, []⟩ ∧
    Settled true quietPlan capture w' := by
  obtain ⟨⟨result, w'⟩, hplay, hassessment⟩ := Option.bind_eq_some_iff.mp quietChoices_settle
  obtain ⟨capture, rfl, hestablished⟩ := Option.map_eq_some_iff.mp hassessment
  have hrun := Program.play_runsTo (R := passingTime Unit) hplay
  exact ⟨capture, w', hrun, hestablished, (settle_settles rfl hrun).1 capture rfl⟩

end RefundStudy.Settlement
