/-
  What a run of `performAttempt` does and what its report means.
-/
import RefundStudy.Attempt.Perform

set_option autoImplicit false

namespace RefundStudy.Attempt

open Foundation Record RefundStudy.Runtime Journal

/-! ## What the client throws -/

/-- Anything but the error of a resolution that contradicts its dispatch state. -/
def NotInconsistent (thrown : Thrown) : Prop := ∀ attemptId, thrown ≠ .resolvedInconsistently attemptId

section Throws

variable {writer : JournalWriter} {body : EventBody} {causation : List Uuid4}

theorem sync_throws {α : Type} {allowed : Thrown → Prop} {result : Except Thrown α}
    (h : ∀ e, result = .error e → allowed e) : ThrowsOnly allowed (sync result).run := h

theorem outOfFuel_throws {α : Type} {allowed : Thrown → Prop} :
    ThrowsOnly allowed (outOfFuel : Async α).run :=
  ThrowsOnly.call fun reply => nomatch reply

theorem nextEntry_throws : ThrowsOnly NotInconsistent (writer.nextEntry body causation).run := by
  refine ThrowsOnly.call fun eventId => ThrowsOnly.call fun occurredAt => ?_
  split
  · exact ThrowsOnly.pure
  · exact ThrowsOnly.throw nofun

theorem writeEntry_throws {entry : JournalEntry} (retries : Nat) :
    ThrowsOnly NotInconsistent (JournalWriter.writeEntry entry retries).run := by
  induction retries with
  | zero => exact ThrowsOnly.call fun outcome => ThrowsOnly.pure
  | succ retries ih =>
    refine ThrowsOnly.call fun outcome => ?_
    split
    · exact ih
    · exact ThrowsOnly.pure

theorem append_throws : ThrowsOnly NotInconsistent (writer.append body causation).run := by
  unfold JournalWriter.append
  split
  · exact ThrowsOnly.pure
  · split
    · exact ThrowsOnly.throw nofun
    · refine ThrowsOnly.bind nextEntry_throws fun drafted => ?_
      refine ThrowsOnly.bind (writeEntry_throws _) fun verdict => ?_
      split <;> exact ThrowsOnly.pure

theorem prepare_throws : ThrowsOnly NotInconsistent (writer.prepare body causation).run := by
  unfold JournalWriter.prepare
  split
  · exact ThrowsOnly.pure
  · split
    · exact ThrowsOnly.throw nofun
    · exact ThrowsOnly.bind nextEntry_throws fun drafted => ThrowsOnly.pure

theorem confirm_error {put : JournalEntry} {outcome : WriteOutcome ItemOf} {index : Nat} {e : Thrown}
    (h : writer.confirm put outcome index = .error e) : e = .writerMisuse := by
  unfold JournalWriter.confirm at h
  split at h
  · dsimp only at h
    split at h
    · cases h
    · split at h <;> cases h
  · exact (Except.error.inj h).symm

theorem prepareRetry_error {put : JournalEntry} {e : Thrown}
    (h : writer.prepareRetry put = .error e) : e = .writerMisuse := by
  unfold JournalWriter.prepareRetry at h
  split at h
  · cases h
  · split at h
    · cases h
    · exact (Except.error.inj h).symm

theorem notInconsistent_misuse {e : Thrown} (h : e = .writerMisuse) : NotInconsistent e := by
  rw [h]
  exact nofun

theorem transitionTries_throws {write : JournalEntry → List (WriteAction ItemOf)}
    {put : JournalEntry} (retries : Nat) :
    ThrowsOnly NotInconsistent (transitionTries write put retries writer).run := by
  induction retries generalizing writer put with
  | zero =>
    refine ThrowsOnly.call fun outcome => ?_
    refine ThrowsOnly.bind (sync_throws fun e he => notInconsistent_misuse (confirm_error he)) ?_
    exact fun confirmed => ThrowsOnly.pure
  | succ retries ih =>
    refine ThrowsOnly.call fun outcome => ?_
    refine ThrowsOnly.bind (sync_throws fun e he => notInconsistent_misuse (confirm_error he)) ?_
    intro confirmed
    dsimp only
    split
    · refine ThrowsOnly.bind
        (sync_throws fun e he => notInconsistent_misuse (prepareRetry_error he)) ?_
      intro prepared
      split
      · exact ih
      · exact ThrowsOnly.pure
    · exact ThrowsOnly.pure

theorem runDurableTransition_throws {write : JournalEntry → List (WriteAction ItemOf)}
    (retries : Nat) :
    ThrowsOnly NotInconsistent (runDurableTransition writer retries body causation write).run := by
  refine ThrowsOnly.bind prepare_throws fun prepared => ?_
  dsimp only
  split
  · exact transitionTries_throws retries
  · exact ThrowsOnly.pure

theorem raceLoop_throws (originNs fuel : Nat) :
    ThrowsOnly NotInconsistent (raceLoop originNs fuel).run := by
  induction fuel with
  | zero => exact outOfFuel_throws
  | succ fuel ih =>
    refine ThrowsOnly.call fun event => ?_
    cases event with
    | timerFires =>
      refine ThrowsOnly.call fun now => ?_
      split
      · exact ih
      · exact ThrowsOnly.call fun _ => ThrowsOnly.call fun _ => ThrowsOnly.call fun _ =>
          ThrowsOnly.pure
    | settles result =>
      refine ThrowsOnly.call fun now => ThrowsOnly.call fun _ => ?_
      split
      · exact outOfFuel_throws
      · exact ThrowsOnly.pure

theorem lateLoop_throws (originNs graceStartNs : Nat) (pending : Bool) (fuel : Nat) :
    ThrowsOnly NotInconsistent (lateLoop originNs graceStartNs pending fuel).run := by
  induction fuel generalizing pending with
  | zero => exact outOfFuel_throws
  | succ fuel ih =>
    refine ThrowsOnly.call fun event => ?_
    cases event with
    | timerFires =>
      refine ThrowsOnly.call fun now => ?_
      split
      · exact ih pending
      · exact ThrowsOnly.pure
    | settles result =>
      refine ThrowsOnly.call fun now => ?_
      split
      · exact ThrowsOnly.pure
      · exact ih false

variable {client : ProviderClient} {correlation : AttemptCorrelation} {registered : JournalEvent}

theorem recordNotDispatched_throws {failure : AttemptFailureCode} : ThrowsOnly NotInconsistent
    (client.recordNotDispatched writer correlation registered failure).run := by
  refine ThrowsOnly.bind (runDurableTransition_throws _) fun result => ?_
  dsimp only
  split <;> exact ThrowsOnly.pure

theorem recordTimeout_throws (fuel originNs : Nat) {dispatchStarted : JournalEvent}
    {dispatchAt deadlineAt timerFiredAt abortRequestedAt : UtcMillis} {elapsedNs : DecimalNs} :
    ThrowsOnly NotInconsistent (ProviderClient.recordTimeout fuel writer correlation dispatchStarted
      dispatchAt deadlineAt originNs elapsedNs timerFiredAt abortRequestedAt).run := by
  refine ThrowsOnly.call fun recordedAt => ?_
  refine ThrowsOnly.bind append_throws fun timeout => ?_
  dsimp only
  split
  · refine ThrowsOnly.bind ?_ fun writer' => ThrowsOnly.pure
    refine ThrowsOnly.bind (ThrowsOnly.call fun graceStartNs => ThrowsOnly.call fun _ =>
      lateLoop_throws originNs graceStartNs true fuel) fun late => ?_
    split
    · exact ThrowsOnly.pure
    · exact ThrowsOnly.bind append_throws fun appended => ThrowsOnly.pure
  · exact ThrowsOnly.pure

theorem resolve_throws {input : AttemptInput} (fuel : Nat) : ThrowsOnly NotInconsistent
    (client.resolve fuel writer input correlation registered).run := by
  unfold ProviderClient.resolve
  split
  · exact recordNotDispatched_throws
  · refine ThrowsOnly.call fun dispatchAt => ?_
    refine ThrowsOnly.bind (runDurableTransition_throws _) fun dispatched => ?_
    dsimp only
    split
    · exact recordNotDispatched_throws
    · exact ThrowsOnly.pure
    · exact ThrowsOnly.pure
    · refine ThrowsOnly.bind (ThrowsOnly.call fun originNs => ThrowsOnly.call fun _ =>
        ThrowsOnly.call fun _ => raceLoop_throws originNs fuel) fun decision => ?_
      split
      · exact ThrowsOnly.pure
      · exact recordTimeout_throws fuel _

theorem performAttempt_throws {input : AttemptInput} (fuel : Nat) :
    ThrowsOnly NotInconsistent (client.performAttempt fuel writer input).run := by
  unfold ProviderClient.performAttempt
  split
  · refine ThrowsOnly.call fun attemptId => ThrowsOnly.call fun providerRequestId => ?_
    refine ThrowsOnly.bind ?_ fun registered => ?_
    · refine ThrowsOnly.bind (runDurableTransition_throws _) fun result => ?_
      dsimp only
      split
      · exact ThrowsOnly.pure
      · exact ThrowsOnly.throw fun _ h => by cases h
    · refine ThrowsOnly.bind (resolve_throws fuel) fun resolved => ?_
      refine ThrowsOnly.bind append_throws fun outcome => ?_
      refine ThrowsOnly.bind (sync_throws fun e he => ?_) fun report => ThrowsOnly.pure
      obtain ⟨outcomeClass, hclass⟩ := classifyOutcome_resolution resolved.1.resolution
      simp only [toAttemptReport, hclass] at he
      cases he
  · exact ThrowsOnly.throw fun _ h => by cases h

end Throws

/-! ## Invocations -/

def isInvocation : TraceEntry → Bool
  | .invoked .. => true
  | .settled _ | .claimed _ => false

/-- At most one invocation, over a durable dispatch. -/
structure InvokedOnce (entries : List TraceEntry) : Prop where
  atMostOnce : (entries.filter isInvocation).length ≤ 1
  dispatched : ∀ call items, .invoked call items ∈ entries → DurablyDispatched items call

theorem InvokedOnce.append {entries : List TraceEntry} {entry : TraceEntry}
    (h : InvokedOnce entries) (hother : isInvocation entry = false) :
    InvokedOnce (entries ++ [entry]) where
  atMostOnce := by
    rw [List.filter_append, List.length_append]
    simpa [hother] using h.atMostOnce
  dispatched := fun call items hmem => by
    rcases List.mem_append.mp hmem with hold | hnew
    · exact h.dispatched call items hold
    · obtain rfl := List.mem_singleton.mp hnew
      cases hother

section Invocations

variable {ι : Type} [DecidableEq ι] {i : ι} {exclusive : Prop}
  {guard : AttemptCorrelation → World ι → Prop} {base : List TraceEntry} {w w' : World ι}

theorem AttemptMove.invokedOnce (hmove : AttemptMove i exclusive guard base w w')
    (h : ∃ entries, activity i w = base ++ entries ∧ InvokedOnce entries) :
    ∃ entries, activity i w' = base ++ entries ∧ InvokedOnce entries := by
  obtain ⟨entries, htrace, honce⟩ := h
  cases hmove with
  | @invoked call hfirst hdispatched =>
    refine ⟨[.invoked call w.items], by rw [activity_traced, hfirst], ?_, ?_⟩
    · exact Nat.le_refl 1
    · intro call' items hmem
      obtain ⟨rfl, rfl⟩ := TraceEntry.invoked.inj (List.mem_singleton.mp hmem)
      exact hdispatched
  | settled result =>
    refine ⟨entries ++ [.settled result], ?_, honce.append rfl⟩
    rw [activity_traced, htrace, List.append_assoc]
  | claimed winner =>
    refine ⟨entries ++ [.claimed winner], ?_, honce.append rfl⟩
    rw [activity_traced, htrace, List.append_assoc]
  | same => exact ⟨entries, htrace, honce⟩
  | drew => exact ⟨entries, htrace, honce⟩
  | observed => exact ⟨entries, htrace, honce⟩
  | resolved => exact ⟨entries, htrace, honce⟩
  | registered => exact ⟨entries, htrace, honce⟩
  | transitioned => exact ⟨entries, htrace, honce⟩

/-- Wherever a run of `performAttempt` is stopped, the transport was invoked at most once
and only while the store held phase `DISPATCHED` with its `dispatch_started` event.  A report
`NOT_DISPATCHED` means that the store holds that phase with its event and nothing was
invoked; a report `TIMED_OUT` means that the timeout is stored with at least the deadline
elapsed; a report `SUCCEEDED` or `REJECTED` means that the transport won the arbiter with a
response echoing the attempt.  The report is never refused as inconsistent. -/
theorem attempt_report_grounded {client : ProviderClient} {input : AttemptInput}
    {writer : JournalWriter} {fuel : Nat} (hwriter : CallerWriter writer)
    (hidentified : Identified w) :
    (∀ w', CutAt ((machine ι).answers i) (attemptEnv i False)
        (client.performAttempt fuel writer input).run w w' →
      ∃ entries, activity i w' = activity i w ++ entries ∧ InvokedOnce entries) ∧
    (∀ report writer' w', RunsTo ((machine ι).answers i) (attemptEnv i False)
        (client.performAttempt fuel writer input).run w (.ok (report, writer')) w' →
      (report.dispatchState = .notDispatched →
        (∃ item, w'.items.lookup (.attemptState report.attemptId) = some item ∧
          item.phase = .notDispatched) ∧
        (∃ key event, StoredAt w'.items key event ∧
          TransitionBody ⟨report.attemptId, report.providerRequestId, input.refundRequestId⟩
            .notDispatched event.body) ∧
        activity i w' = activity i w) ∧
      (report.outcome = .timedOut → ∃ key event timeout, StoredAt w'.items key event ∧
        event.body = .callerTimeoutRecorded
          ⟨report.attemptId, report.providerRequestId, input.refundRequestId⟩ timeout ∧
        deadlineNs ≤ timeout.elapsedNs) ∧
      (report.outcome = .succeeded ∨ report.outcome = .rejected → ∃ call items result,
        activity i w' =
          activity i w ++ [.invoked call items, .settled result, .claimed .transport] ∧
        EchoesAttempt client.parseJsonDocument report.attemptId report.providerRequestId result)) ∧
    (∀ thrown w', RunsTo ((machine ι).answers i) (attemptEnv i False)
        (client.performAttempt fuel writer input).run w (.error thrown) w' →
      ∀ attemptId, thrown ≠ .resolvedInconsistently attemptId) := by
  have hsafe : SafeAt i (attemptEnv i False) (AttemptMove i False (fun _ _ => True) (activity i w))
      (ReportPost i False (activity i w) client.parseJsonDocument input.refundRequestId writer)
      (client.performAttempt fuel writer input) w :=
    performAttempt_spec fuel (fun _ _ h => h) hwriter hidentified (fun h => h.elim)
      ⟨fun _ _ _ _ _ => trivial, fun _ _ _ _ _ => trivial⟩ (fun _ _ => trivial) rfl
  refine ⟨?_, ?_, ?_⟩
  · intro w' hcut
    refine hcut.keeps hsafe ?_ (fun _ _ hmove => hmove.invokedOnce) ?_
    · rintro w₁ w₂ henv ⟨entries, htrace, honce⟩
      exact ⟨entries, henv.silent.trans htrace, honce⟩
    · exact ⟨[], (List.append_nil _).symm, Nat.zero_le 1, nofun⟩
  · intro report writer' w' hrun
    have hpost : ReportPost i False (activity i w) client.parseJsonDocument input.refundRequestId
        writer (report, writer') w' := hrun.result hsafe (report, writer') rfl
    exact ⟨hpost.facts.notDispatched, hpost.facts.timedOut, hpost.facts.answered⟩
  · intro thrown w' hrun
    exact hrun.thrown (performAttempt_throws fuel)

end Invocations

/-! A timed-out attempt of the conventional caller over an empty store. -/

def trialClient : ProviderClient := ⟨⟨.run, .trial⟩, 2, fun _ => none⟩

def trialWriter : JournalWriter :=
  { table := .callerJournal, source := .conventionalCaller, instanceId := 0
    maxDefinitiveRetries := 2 }

def trialInput : AttemptInput :=
  ⟨.conventional, "ref-poc-001", "pay-poc-001", 10000, "BRL", "7", []⟩

def emptyWorld : World Unit := ⟨∅, fun _ => none, []⟩

def timedOutChoices : List Choice :=
  [.id 1, .id 2,
    .id 3, .reading 0, .fate (.refused "ThrottlingException"), .fate .answered,
    .reading 0, .id 4, .reading 0, .fate .answered,
    .reading 5, .reading 5, .done, .happens .timerFires, .reading 6,
    .happens .timerFires, .reading 3000000007, .done, .reading 0, .reading 0,
    .reading 0, .id 5, .reading 0, .fate .answered,
    .reading 3000000008, .reading 3000000008, .happens .timerFires, .reading 6000000000,
    .id 6, .reading 0, .fate .answered]

theorem timedOut_plays : ∃ report writer w, Program.play (machine Unit) () timedOutChoices
    (trialClient.performAttempt 2 trialWriter trialInput).run emptyWorld =
      some (.ok (report, writer), w) ∧ report.outcome = .timedOut :=
  ⟨_, _, _, rfl, rfl⟩

theorem attempt_report_grounded_timed_out :
    ∃ report writer w, RunsTo ((machine Unit).answers ()) (attemptEnv () False)
      (trialClient.performAttempt 2 trialWriter trialInput).run emptyWorld
      (.ok (report, writer)) w ∧
    report.outcome = .timedOut ∧
    (∃ entries, activity () w = activity () emptyWorld ++ entries ∧ InvokedOnce entries) ∧
    ∃ key event timeout, StoredAt w.items key event ∧
      event.body = .callerTimeoutRecorded
        ⟨report.attemptId, report.providerRequestId, trialInput.refundRequestId⟩ timeout ∧
      deadlineNs ≤ timeout.elapsedNs := by
  obtain ⟨report, writer, w, hplay, houtcome⟩ := timedOut_plays
  have hrun : RunsTo ((machine Unit).answers ()) (attemptEnv () False) _ emptyWorld _ w :=
    Program.play_runsTo hplay
  have hidentified : Identified emptyWorld := fun key event hstored => by cases hstored
  have hwriter : CallerWriter trialWriter := ⟨rfl, by decide⟩
  obtain ⟨hcut, hreport, -⟩ := @attempt_report_grounded Unit _ () emptyWorld trialClient
    trialInput trialWriter 2 hwriter hidentified
  obtain ⟨-, htimedOut, -⟩ := hreport report writer w hrun
  exact ⟨report, writer, w, hrun, houtcome, hcut w hrun.cutAt, htimedOut houtcome⟩

end RefundStudy.Attempt
