/-
  When a round with a failed read stays out of an accepted window.
-/
import RefundStudy.Settlement.Reading

set_option autoImplicit false

namespace RefundStudy.Settlement

open Record

variable {sample : SettlementSample}

/-! ## Stable sorting -/

section Sorting

variable {α : Type} (r : α → α → Prop) [DecidableRel r]

theorem orderedInsert_append {a : α} {back : List α} (hback : ∀ b ∈ back, r a b) :
    ∀ front : List α,
      (front ++ back).orderedInsert r a = front.orderedInsert r a ++ back
  | [] => by
    cases back with
    | nil => rfl
    | cons head rest => simp [hback head]
  | head :: front => by
    by_cases hle : r a head
    · simp [hle]
    · simp [hle, orderedInsert_append hback front]

theorem insertionSort_append {front back : List α} (h : ∀ a ∈ front, ∀ b ∈ back, r a b) :
    (front ++ back).insertionSort r = front.insertionSort r ++ back.insertionSort r := by
  induction front with
  | nil => rfl
  | cons head front ih =>
    rw [List.cons_append, List.insertionSort_cons, List.insertionSort_cons,
      ih fun a ha => h a (List.mem_cons_of_mem _ ha)]
    refine orderedInsert_append r ?_ _
    intro b hb
    exact h head List.mem_cons_self b ((List.mem_insertionSort r).mp hb)

end Sorting

/-! ## Reads that succeeded -/

def UnitReads.queues : UnitReads → Option QueueReads
  | .conventional _ queues => some queues
  | .durable _ queues _ => some queues
  | .probe _ => none

def QueueReads.CountersRead (queues : QueueReads) : Prop :=
  (∃ counters, queues.source = .ok counters) ∧ ∃ counters, queues.dlq = .ok counters

/-- The receive from the DLQ, made when its counters show a message, came to its end. -/
def QueueReads.Received (queues : QueueReads) : Prop :=
  ∀ counters, queues.dlq = .ok counters → counters.total ≠ 0 →
    queues.dlqCapture.receiveComplete = true

def RoundReads.Received (reads : RoundReads) : Prop :=
  ∀ queues, reads.unitReads.queues = some queues → queues.Received

structure RoundReads.Succeeded (reads : RoundReads) : Prop where
  caller : ∃ events, reads.callerJournal = .ok events
  experiment : ∃ events, reads.experimentJournal = .ok events
  treatment : ∃ item, reads.treatment = .ok item
  ledger : reads.ledger.complete = true
  counters : ∀ queues, reads.unitReads.queues = some queues → queues.CountersRead
  received : reads.Received
  listed : ∀ scenario queues listing, reads.unitReads = .durable scenario queues listing →
    listing.complete = true

def RoundReads.Read (reads : RoundReads) : Prop :=
  (∃ events, reads.callerJournal = .ok events) ∧
    (∃ events, reads.experimentJournal = .ok events) ∧ ∃ item, reads.treatment = .ok item

theorem exists_ok_iff {α : Type} {read : Except ReadFailure α} :
    (∃ value, read = .ok value) ↔ read.toOption.isSome = true := by
  cases read <;> simp [Except.toOption]

/-- An unread journal or treatment puts the watermark above the previous sample's. -/
theorem readUnitRound_watermark {phase : SettlementSamplePhase} {previous : SettlementSample}
    {reads : RoundReads} (hunread : ¬ reads.Read) : previous.correlatedEventWatermark <
      (readUnitRound phase (some previous) reads).sample.correlatedEventWatermark := by
  have hflag : (!reads.journalsComplete || !reads.treatment.toOption.isSome) = true := by
    by_contra hflag
    refine hunread ?_
    simp only [RoundReads.Read, exists_ok_iff]
    simp only [RoundReads.journalsComplete, Bool.not_and, Bool.or_eq_true, Bool.not_eq_true',
      not_or, Bool.not_eq_false] at hflag
    exact ⟨hflag.1.1, hflag.1.2, hflag.2⟩
  simp only [readUnitRound, hflag, if_true, Option.map_some, Option.getD_some]
  omega

theorem quietViolations_ledger
    (h : sample.ledgerSnapshotPossible = false) : quietViolations sample ≠ [] := by
  simp [quietViolations, h]

theorem quietViolations_unavailable
    (h : sample.sourceQueue = .unavailable ∨ sample.dlq = .unavailable) :
    quietViolations sample ≠ [] := by
  simp [quietViolations, h]

theorem quietViolations_inner
    (h : sample.innerExecutionsTerminal = some false) : quietViolations sample ≠ [] := by
  simp [quietViolations, h]

theorem observeQueue_unavailable {read : Except ReadFailure QueueCounters}
    (h : ¬ ∃ counters, read = .ok counters) : observeQueue read = .unavailable := by
  cases read with
  | ok counters => exact absurd ⟨counters, rfl⟩ h
  | error code => rfl

theorem builtSample_queues (phase : SettlementSamplePhase) {reads : RoundReads}
    {queues : QueueReads} (h : reads.unitReads.queues = some queues) :
    (builtSample phase reads).sourceQueue = observeQueue queues.source ∧
      (builtSample phase reads).dlq = observeQueue queues.dlq := by
  have hread : (readDlqMessages queues).sourceQueue = observeQueue queues.source ∧
      (readDlqMessages queues).dlq = observeQueue queues.dlq := by
    unfold readDlqMessages
    split
    · exact ⟨rfl, rfl⟩
    · split <;> exact ⟨rfl, rfl⟩
  cases hunit : reads.unitReads with
  | probe returned => rw [hunit] at h; cases h
  | conventional scenario found =>
    rw [hunit] at h
    obtain rfl : found = queues := Option.some.inj h
    simpa [builtSample, buildSettlementSample, hunit, unitReadings,
      SampleUnitReadings.queues] using hread
  | durable scenario found listing =>
    rw [hunit] at h
    obtain rfl : found = queues := Option.some.inj h
    simpa [builtSample, buildSettlementSample, hunit, unitReadings,
      SampleUnitReadings.queues] using hread

/-- A round with a quiet sample failed in its journals, its treatment item or its receive only. -/
theorem succeeded_of_quiet {phase : SettlementSamplePhase} {reads : RoundReads}
    (hquiet : quietViolations (builtSample phase reads) = []) (hread : reads.Read)
    (hreceived : reads.Received) : reads.Succeeded where
  caller := hread.1
  experiment := hread.2.1
  treatment := hread.2.2
  received := hreceived
  ledger := by
    by_contra hincomplete
    exact quietViolations_ledger (Bool.eq_false_iff.mpr hincomplete) hquiet
  counters := by
    intro queues hqueues
    obtain ⟨hsource, hdlq⟩ := builtSample_queues phase hqueues
    constructor
    · by_contra hfailed
      refine quietViolations_unavailable (.inl ?_) hquiet
      rw [hsource, observeQueue_unavailable hfailed]
    · by_contra hfailed
      refine quietViolations_unavailable (.inr ?_) hquiet
      rw [hdlq, observeQueue_unavailable hfailed]
  listed := by
    intro scenario queues listing hunit
    by_contra hincomplete
    refine quietViolations_inner ?_ hquiet
    simp [builtSample, buildSettlementSample, hunit, unitReadings, innerExecutionsTerminal,
      hincomplete]

/-! ## Rounds whose failures show -/

/-- A round of an observation: the phase it was asked for and what it was told. -/
abbrev Round : Type := SettlementSamplePhase × RoundReads

/-- The round follows another one, and the clock kept the two in order and next to each other. -/
def InOrderAt (before : List Round) (round : Round) (after : List Round) : Prop :=
  ∃ earlier previous, before = earlier ++ [previous] ∧
    (∀ other ∈ earlier, other.2.observedAt ≤ previous.2.observedAt) ∧
    previous.2.observedAt ≤ round.2.observedAt ∧
    ∀ other ∈ after, round.2.observedAt ≤ other.2.observedAt

/-- A failed read of the round shows: no other round shares its instant, and either the sample is
not quiet by itself or only its journals or its treatment item are unread and the round follows
another in clock order. -/
structure Shown (before : List Round) (round : Round) (after : List Round) : Prop where
  alone : ∀ other ∈ before ++ after, other.2.observedAt ≠ round.2.observedAt
  shown : quietViolations (builtSample round.1 round.2) ≠ [] ∨
    round.2.Received ∧ InOrderAt before round after

def FailuresShown (rounds : List Round) : Prop :=
  ∀ before round after, rounds = before ++ round :: after → ¬ round.2.Succeeded →
    Shown before round after

/-! ## Where a round stands among the judged samples -/

variable {policy : SettlementPolicy} {publishedAt : UtcMillis}

variable (previous : Option SettlementSample)

def samplesRead (rounds : List Round) : List SettlementSample :=
  samplesOf (readRounds previous rounds)

theorem samplesRead_cons (round : Round)
    (rest : List Round) : samplesRead previous (round :: rest) =
      (readUnitRound round.1 previous round.2).sample ::
        samplesRead (some (readUnitRound round.1 previous round.2).sample) rest := rfl

theorem samplesRead_append (front back : List Round) :
    samplesRead previous (front ++ back) = samplesRead previous front ++
      samplesRead ((samplesRead previous front).getLast?.or previous) back := by
  induction front generalizing previous with
  | nil => rfl
  | cons round front ih =>
    rw [List.cons_append, samplesRead_cons, samplesRead_cons, ih, List.cons_append]
    congr 2
    cases hlast : (samplesRead
      (some (readUnitRound round.1 previous round.2).sample) front).getLast? <;>
      simp [List.getLast?_cons, hlast]

theorem samplesRead_observedAt (rounds : List Round) :
    (samplesRead previous rounds).map SettlementSample.observedAt =
      rounds.map fun round => round.2.observedAt := by
  induction rounds generalizing previous with
  | nil => rfl
  | cons round rest ih =>
    rw [samplesRead_cons, List.map_cons, List.map_cons, ih, readUnitRound_observedAt]

theorem forall_samplesRead {P : UtcMillis → Prop} {previous : Option SettlementSample}
    {rounds : List Round} (h : ∀ round ∈ rounds, P round.2.observedAt) :
    ∀ sample ∈ samplesRead previous rounds, P sample.observedAt := by
  intro sample hsample
  have hmem : sample.observedAt ∈ rounds.map fun round => round.2.observedAt := by
    rw [← samplesRead_observedAt previous]
    exact List.mem_map_of_mem hsample
  obtain ⟨round, hround, heq⟩ := List.mem_map.mp hmem
  rw [← heq]
  exact h round hround

/-- How many samples share an instant. -/
def countAt (instant : UtcMillis) (samples : List SettlementSample) : Nat :=
  samples.countP fun sample => decide (sample.observedAt = instant)

theorem countAt_judgedSamples_le (instant : UtcMillis) (samples : List SettlementSample) :
    countAt instant (judgedSamples samples policy publishedAt) ≤ countAt instant samples := by
  unfold countAt judgedSamples
  calc _ ≤ (inObservationOrder samples).countP _ := List.filter_sublist.countP_le
    _ = _ := (List.perm_insertionSort _ samples).countP_eq _

theorem countAt_pos {instant : UtcMillis} {samples : List SettlementSample}
    (hmem : sample ∈ samples) (hat : sample.observedAt = instant) :
    0 < countAt instant samples :=
  List.countP_pos_iff.mpr ⟨sample, hmem, decide_eq_true hat⟩

theorem not_mem_of_countAt {front back : List SettlementSample}
    (h : countAt sample.observedAt (front ++ sample :: back) ≤ 1) :
    (∀ other ∈ front, other.observedAt ≠ sample.observedAt) ∧
      ∀ other ∈ back, other.observedAt ≠ sample.observedAt := by
  have hsplit : countAt sample.observedAt (front ++ sample :: back) =
      countAt sample.observedAt front + countAt sample.observedAt back + 1 := by
    simp [countAt, List.countP_append, Nat.add_assoc]
  constructor
  · intro other hmem hat
    have hpos := countAt_pos hmem hat
    omega
  · intro other hmem hat
    have hpos := countAt_pos hmem hat
    omega

theorem countAt_samplesRead {before after : List Round} {round : Round}
    (halone : ∀ other ∈ before ++ after, other.2.observedAt ≠ round.2.observedAt) :
    countAt round.2.observedAt (samplesRead none (before ++ round :: after)) ≤ 1 := by
  have hcount : countAt round.2.observedAt (samplesRead none (before ++ round :: after)) =
      ((before ++ round :: after).map fun other => other.2.observedAt).countP
        fun instant => decide (instant = round.2.observedAt) := by
    rw [← samplesRead_observedAt none, List.countP_map]
    rfl
  have hnone : ∀ rounds : List Round,
      (∀ other ∈ rounds, other.2.observedAt ≠ round.2.observedAt) →
      (rounds.map fun other => other.2.observedAt).countP
        (fun instant => decide (instant = round.2.observedAt)) = 0 := by
    intro rounds hrounds
    rw [List.countP_eq_zero]
    intro instant hinstant
    obtain ⟨other, hother, rfl⟩ := List.mem_map.mp hinstant
    simpa using hrounds other hother
  rw [hcount, List.map_append, List.countP_append, List.map_cons, List.countP_cons,
    hnone before fun other hother => halone other (List.mem_append_left _ hother),
    hnone after fun other hother => halone other (List.mem_append_right _ hother)]
  simp

theorem QuietRun.quiet_at {before front back : List SettlementSample}
    (hrun : QuietRun before.getLast? (front ++ sample :: back)) :
    activityCauses sample (before ++ front).getLast? = [] := by
  induction front generalizing before with
  | nil => simpa using hrun.1
  | cons head front ih =>
    have hrest : QuietRun (before ++ [head]).getLast? (front ++ sample :: back) := by
      simpa using hrun.2
    simpa using ih hrest

/-- A sample that has its instant to itself, inside an established window, was quiet after the
sample judged before it. -/
theorem established_quiet_at {samples : List SettlementSample} {members : Established}
    (h : evaluateSettlement samples policy publishedAt = .established members)
    (hmem : sample ∈ samples) (halone : countAt sample.observedAt samples ≤ 1)
    (hstart : members.windowStart ≤ sample.observedAt)
    (hend : sample.observedAt ≤ members.recheckedAt) :
    ∃ front back, judgedSamples samples policy publishedAt = front ++ sample :: back ∧
      activityCauses sample front.getLast? = [] := by
  obtain ⟨before, start, rest, recheck, back, hjudged, hrun, hwindow, hrecheck, -⟩ :=
    judgeSamples_established (evaluateSettlement_established.mp h)
  rw [hwindow] at hstart
  rw [hrecheck] at hend
  have hcount : countAt sample.observedAt (judgedSamples samples policy publishedAt) ≤ 1 :=
    (countAt_judgedSamples_le sample.observedAt samples).trans halone
  have hsorted : (judgedSamples samples policy publishedAt).Pairwise
      fun left right => left.observedAt ≤ right.observedAt :=
    (List.pairwise_insertionSort _ samples).sublist List.filter_sublist
  have hjudgedMem : sample ∈ judgedSamples samples policy publishedAt := by
    have hlast : recheck ∈ judgedSamples samples policy publishedAt := by simp [hjudged]
    refine List.mem_filter.mpr ⟨(List.mem_insertionSort _).mpr hmem, decide_eq_true ?_⟩
    exact hend.trans (of_decide_eq_true (List.mem_filter.mp hlast).2)
  rw [hjudged] at hcount hsorted hjudgedMem ⊢
  have hparts : before ++ start :: rest ++ recheck :: back =
      before ++ (start :: rest ++ [recheck]) ++ back := by simp
  rw [hparts] at hjudgedMem
  rcases List.mem_append.mp hjudgedMem with hin | hin
  · rcases List.mem_append.mp hin with hin | hin
    · -- before the window: the sample would share the start's instant
      obtain ⟨front, middle, rfl⟩ := List.append_of_mem hin
      have hle : sample.observedAt ≤ start.observedAt := by
        rw [List.append_assoc, List.pairwise_append] at hsorted
        exact hsorted.2.2 sample (by simp) start (by simp)
      have hsplit : front ++ sample :: middle ++ start :: rest ++ recheck :: back =
          front ++ sample :: (middle ++ start :: rest ++ recheck :: back) := by simp
      rw [hsplit] at hcount
      exact absurd (Nat.le_antisymm hstart hle)
        ((not_mem_of_countAt hcount).2 start (by simp))
    · obtain ⟨front, middle, hsplit⟩ := List.append_of_mem hin
      rw [hsplit] at hrun
      refine ⟨before ++ front, middle ++ back, ?_, hrun.quiet_at⟩
      rw [hparts, hsplit]
      simp
  · -- behind the recheck: the sample would share the recheck's instant
    obtain ⟨front, middle, rfl⟩ := List.append_of_mem hin
    have hle : recheck.observedAt ≤ sample.observedAt := by
      rw [List.pairwise_append] at hsorted
      exact (List.pairwise_cons.mp hsorted.2.1).1 sample (by simp)
    have hsplit : before ++ start :: rest ++ recheck :: (front ++ sample :: middle) =
        (before ++ start :: rest ++ recheck :: front) ++ sample :: middle := by simp
    rw [hsplit] at hcount
    exact absurd (Nat.le_antisymm hle hend)
      ((not_mem_of_countAt hcount).1 recheck (by simp))

/-- Two samples next to each other stay so when the clock kept them in order. -/
theorem inObservationOrder_pair {front back : List SettlementSample}
    {previous sample : SettlementSample}
    (hfront : ∀ other ∈ front, other.observedAt ≤ previous.observedAt)
    (hpair : previous.observedAt ≤ sample.observedAt)
    (hback : ∀ other ∈ back, sample.observedAt ≤ other.observedAt) :
    inObservationOrder (front ++ previous :: sample :: back) =
      inObservationOrder front ++ previous :: sample :: inObservationOrder back := by
  have hprevious : ∀ other ∈ sample :: back, previous.observedAt ≤ other.observedAt := by
    intro other hother
    rcases List.mem_cons.mp hother with rfl | hother
    · exact hpair
    · exact hpair.trans (hback other hother)
  let r : SettlementSample → SettlementSample → Prop :=
    fun left right => left.observedAt ≤ right.observedAt
  unfold inObservationOrder
  rw [insertionSort_append, List.insertionSort_cons_of_forall_rel (r := r) hprevious,
    List.insertionSort_cons_of_forall_rel (r := r) hback]
  intro left hleft right hright
  rcases List.mem_cons.mp hright with rfl | hright
  · exact hfront left hleft
  · exact (hfront left hleft).trans (hprevious right hright)

theorem judgedSamples_inOrderAt {before after : List Round} {round : Round}
    (horder : InOrderAt before round after)
    (hin : round.2.observedAt ≤ deadlineMs policy publishedAt) :
    ∃ previous front back,
      judgedSamples (samplesRead none (before ++ round :: after)) policy publishedAt =
        front ++ previous :: (readUnitRound round.1 (some previous) round.2).sample :: back := by
  obtain ⟨earlier, last, rfl, hearlier, hlast, hafter⟩ := horder
  set previous :=
    (readUnitRound last.1 ((samplesRead none earlier).getLast?.or none) last.2).sample
  set sample := (readUnitRound round.1 (some previous) round.2).sample
  have hpreviousAt : previous.observedAt = last.2.observedAt := readUnitRound_observedAt _ _ _
  have hsampleAt : sample.observedAt = round.2.observedAt := readUnitRound_observedAt _ _ _
  have hsamples : samplesRead none (earlier ++ [last] ++ round :: after) =
      samplesRead none earlier ++ previous :: sample :: samplesRead (some sample) after := by
    rw [List.append_assoc, samplesRead_append]
    rfl
  have hfront : ∀ other ∈ samplesRead none earlier, other.observedAt ≤ previous.observedAt := by
    rw [hpreviousAt]
    exact forall_samplesRead (P := fun instant => instant ≤ last.2.observedAt) hearlier
  have hback : ∀ other ∈ samplesRead (some sample) after,
      sample.observedAt ≤ other.observedAt := by
    rw [hsampleAt]
    exact forall_samplesRead hafter
  have hsorted := inObservationOrder_pair hfront (by rwa [hpreviousAt, hsampleAt]) hback
  have hpreviousIn : previous.observedAt ≤ deadlineMs policy publishedAt := by
    rw [hpreviousAt]
    exact hlast.trans hin
  have hsampleIn : sample.observedAt ≤ deadlineMs policy publishedAt := by
    rwa [hsampleAt]
  unfold judgedSamples
  rw [hsamples, hsorted, List.filter_append, List.filter_cons_of_pos (by simpa using hpreviousIn),
    List.filter_cons_of_pos (by simpa using hsampleIn)]
  exact ⟨previous, _, _, rfl⟩

/-! ## Accepted windows -/

/-- A round that has its instant to itself and failed in its journals or its treatment item shows
as activity behind the round before it. -/
theorem unread_round_active {before after : List Round} {round : Round}
    (halone : ∀ other ∈ before ++ after, other.2.observedAt ≠ round.2.observedAt)
    (horder : InOrderAt before round after) (hunread : ¬ round.2.Read)
    (hin : round.2.observedAt ≤ deadlineMs policy publishedAt)
    {front back : List SettlementSample}
    (hat : sample.observedAt = round.2.observedAt)
    (hjudged : judgedSamples (samplesRead none (before ++ round :: after)) policy publishedAt =
      front ++ sample :: back) : activityCauses sample front.getLast? ≠ [] := by
  obtain ⟨previous, front', back', hjudged'⟩ := judgedSamples_inOrderAt horder hin
  have hcount : countAt sample.observedAt (front ++ sample :: back) ≤ 1 := by
    rw [← hjudged, hat]
    exact (countAt_judgedSamples_le _ _).trans (countAt_samplesRead halone)
  obtain ⟨hnotFront, hnotBack⟩ := not_mem_of_countAt hcount
  have hsame : (readUnitRound round.1 (some previous) round.2).sample.observedAt =
      sample.observedAt := (readUnitRound_observedAt _ _ _).trans hat.symm
  have hsplit : front ++ sample :: back = (front' ++ [previous]) ++
      (readUnitRound round.1 (some previous) round.2).sample :: back' := by
    rw [← hjudged, hjudged']
    simp
  obtain ⟨rfl, rfl, -⟩ := (List.append_cons_inj_of_notMem
    (fun hmem => hnotFront _ hmem hsame) (fun hmem => hnotBack _ hmem hsame)).mp hsplit
  rw [List.getLast?_concat]
  exact activityCauses_ne_nil_of_watermark (readUnitRound_watermark hunread)

/-- An established assessment accepts no round with a failed read between its window's start and
its recheck, when every failed read shows. -/
theorem failed_reads_stay_out {rounds : List Round} {members : Established}
    (hshown : FailuresShown rounds)
    (hestablished : evaluateSettlement (samplesOf (readRounds none rounds)) policy publishedAt =
      .established members) :
    ∀ round ∈ rounds, members.windowStart ≤ round.2.observedAt →
      round.2.observedAt ≤ members.recheckedAt → round.2.Succeeded := by
  intro round hround hstart hend
  by_contra hfailed
  obtain ⟨before, after, rfl⟩ := List.append_of_mem hround
  have hround := hshown before round after rfl hfailed
  set prior := (samplesRead none before).getLast?.or none with hprior
  set sample := (readUnitRound round.1 prior round.2).sample with hsample
  have hat : sample.observedAt = round.2.observedAt := readUnitRound_observedAt _ _ _
  have hmem : sample ∈ samplesRead none (before ++ round :: after) := by
    rw [samplesRead_append, samplesRead_cons]
    exact List.mem_append_right _ List.mem_cons_self
  rw [← hat] at hstart hend
  have halone : countAt sample.observedAt (samplesRead none (before ++ round :: after)) ≤ 1 := by
    rw [hat]
    exact countAt_samplesRead hround.alone
  obtain ⟨front, back, hjudged, hquiet⟩ :=
    established_quiet_at hestablished hmem halone hstart hend
  have hviolations : quietViolations (builtSample round.1 round.2) = [] := by
    rw [← readUnitRound_quietViolations round.1 prior round.2]
    exact (activityCauses_eq_nil.mp hquiet).1
  rcases hround.shown with hloud | ⟨hreceived, horder⟩
  · exact hloud hviolations
  · have hin : round.2.observedAt ≤ deadlineMs policy publishedAt := by
      have hjudgedMem : sample ∈ judgedSamples (samplesRead none (before ++ round :: after))
          policy publishedAt := by
        rw [show judgedSamples (samplesRead none (before ++ round :: after)) policy publishedAt =
          front ++ sample :: back from hjudged]
        exact List.mem_append_right _ List.mem_cons_self
      rw [← hat]
      exact of_decide_eq_true (List.mem_filter.mp hjudgedMem).2
    have hunread : ¬ round.2.Read :=
      fun hread => hfailed (succeeded_of_quiet hviolations hread hreceived)
    exact unread_round_active hround.alone horder hunread hin hat hjudged hquiet

theorem failuresShown_of_one {before after : List Round} {round : Round}
    (hbefore : ∀ other ∈ before, other.2.Succeeded) (hafter : ∀ other ∈ after, other.2.Succeeded)
    (hshown : Shown before round after) : FailuresShown (before ++ round :: after) := by
  intro before' round' after' hsplit hfailed
  rcases List.append_eq_append_iff.mp hsplit with ⟨middle, rfl, hmiddle⟩ | ⟨middle, rfl, hmiddle⟩
  · cases middle with
    | nil =>
      obtain ⟨rfl, rfl⟩ := List.cons.inj hmiddle
      simpa using hshown
    | cons head middle =>
      obtain ⟨rfl, rfl⟩ := List.cons.inj hmiddle
      exact absurd (hafter round' (by simp)) hfailed
  · cases middle with
    | nil =>
      obtain ⟨rfl, rfl⟩ := List.cons.inj hmiddle
      simpa using hshown
    | cons head middle =>
      obtain ⟨rfl, rfl⟩ := List.cons.inj hmiddle
      exact absurd (hbefore round' (by simp)) hfailed

def controlReads (observedAt : UtcMillis) (treatment : Except ReadFailure (Option TreatmentRow)) :
    RoundReads where
  observedAt := observedAt
  callerJournal := .ok [⟨some "request_state_recorded", some "FINISHED", none⟩]
  experimentJournal := .ok ([], [])
  treatment := treatment
  ledger := ⟨true, 1, []⟩
  unitReads := .conventional .control
    ⟨.ok ⟨0, 0, 0⟩, .ok ⟨0, 0, 0⟩, ⟨[], [], true, []⟩⟩

theorem controlReads_succeeded (observedAt : UtcMillis) (item : Option TreatmentRow) :
    (controlReads observedAt (.ok item)).Succeeded where
  caller := ⟨_, rfl⟩
  experiment := ⟨_, rfl⟩
  treatment := ⟨_, rfl⟩
  ledger := rfl
  counters := by
    intro queues hqueues
    obtain rfl := Option.some.inj hqueues
    exact ⟨⟨_, rfl⟩, ⟨_, rfl⟩⟩
  received := by
    intro queues hqueues counters _ _
    obtain rfl := Option.some.inj hqueues
    rfl
  listed := by
    intro scenario queues listing hunit
    cases hunit

def secondRoundUnread : List Round :=
  [(.observation, controlReads 30000 (.ok none))] ++
    (.observation, controlReads 60000 (.error "ThrottlingException")) ::
  [(.observation, controlReads 90000 (.ok none)), (.observation, controlReads 210000 (.ok none)),
    (.preFreezeRecheck, controlReads 215000 (.ok none))]

theorem failed_reads_stay_out_second : ∃ members,
    evaluateSettlement (samplesOf (readRounds none secondRoundUnread)) trialSettlementPolicy 0 =
      .established members ∧ members.windowStart = 90000 ∧
    ∀ round ∈ secondRoundUnread, members.windowStart ≤ round.2.observedAt →
      round.2.observedAt ≤ members.recheckedAt → round.2.Succeeded := by
  have hevaluated :
      evaluateSettlement (samplesOf (readRounds none secondRoundUnread)) trialSettlementPolicy 0 =
        .established ⟨90000, 210000, 215000, [⟨60000, .correlatedJournalActivity⟩]⟩ := by
    decide +kernel
  refine ⟨_, hevaluated, rfl, failed_reads_stay_out ?_ hevaluated⟩
  refine failuresShown_of_one ?_ ?_ ⟨by decide, .inr ⟨?_, ?_⟩⟩
  · intro other hother
    obtain rfl := List.mem_singleton.mp hother
    exact controlReads_succeeded _ _
  · intro other hother
    simp only [List.mem_cons, List.not_mem_nil, or_false] at hother
    rcases hother with rfl | rfl | rfl <;> exact controlReads_succeeded _ _
  · intro queues hqueues counters _ _
    obtain rfl := Option.some.inj hqueues
    rfl
  · exact ⟨[], _, rfl, by decide, by decide, by decide⟩

def firstRoundUnread : List Round :=
  [(.observation, controlReads 30000 (.error "ThrottlingException")),
    (.observation, controlReads 60000 (.ok none)), (.observation, controlReads 150000 (.ok none)),
    (.preFreezeRecheck, controlReads 155000 (.ok none))]

theorem firstRoundUnread_accepted : ∃ members,
    evaluateSettlement (samplesOf (readRounds none firstRoundUnread)) trialSettlementPolicy 0 =
      .established members ∧
    ∃ round ∈ firstRoundUnread, members.windowStart ≤ round.2.observedAt ∧
      round.2.observedAt ≤ members.recheckedAt ∧ ¬ ∃ item, round.2.treatment = .ok item := by
  refine ⟨⟨30000, 150000, 155000, []⟩, by decide +kernel, _, List.mem_cons_self, by decide,
    by decide, ?_⟩
  rintro ⟨item, hitem⟩
  cases hitem

end RefundStudy.Settlement
