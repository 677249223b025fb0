/-
  The specification of `performAttempt`, one lemma a function.
-/
import RefundStudy.Attempt.Discipline

set_option autoImplicit false

namespace RefundStudy.Attempt

open Foundation Record RefundStudy.Runtime Journal

structure CallerWriter (writer : JournalWriter) : Prop where
  table : writer.table = .callerJournal
  source : writer.source ∈ callerEventSources

theorem CallerWriter.sameInstance {writer writer' : JournalWriter} (h : CallerWriter writer)
    (hsame : SameInstance writer writer') : CallerWriter writer' :=
  ⟨by rw [hsame.table, h.table], by rw [hsame.source]; exact h.source⟩

theorem CallerWriter.callerPut {ι : Type} {i : ι} {writer : JournalWriter} {body : EventBody}
    {causation : List Uuid4} {entry : JournalEntry} {w : World ι} (hwriter : CallerWriter writer)
    (hbuilt : Built i writer body causation entry w)
    (habsent : w.items.lookup (.journal entry.key) = none) : CallerPut i entry w := by
  obtain ⟨eventId, occurredAt, hevent⟩ := hbuilt.event
  refine ⟨?_, ?_, habsent, hbuilt.drawn⟩
  · rw [hbuilt.key]
    exact hwriter.table
  · rw [hevent]
    exact hwriter.source

theorem outOfFuel_spec {ι α : Type} {i : ι} {R : Interference (World ι)}
    {G : World ι → World ι → Prop} {Q : α → World ι → Prop} {w : World ι} :
    SafeAt i R G Q (outOfFuel : Async α) w :=
  SafeOk.call fun _ _ reply _ _ => nomatch reply

section Specs

variable {ι : Type} [DecidableEq ι] {i : ι} {exclusive : Prop}
  {guard : AttemptCorrelation → World ι → Prop} {base trace : List TraceEntry}
  {R : Interference (World ι)} {correlation : AttemptCorrelation} {phase : AttemptPhase}
  {writer : JournalWriter} {body : EventBody} {causation : List Uuid4} {entry : JournalEntry}
  {w : World ι}

theorem held_carries (hR : ∀ w w', R.rel w w' → AttemptEnv i exclusive w w') :
    Carries i R (AttemptMove i exclusive guard base)
      (fun w => Held i exclusive correlation phase w ∧ activity i w = trace) where
  foreign := fun w w' h => (hR w w' h).foreign
  same := .same
  draw := fun _ _ => .drew
  stable := fun w w' h hP => ⟨hP.1.env (hR w w' h), (hR w w' h).silent.trans hP.2⟩
  drawStable := fun _ _ hfresh hP => ⟨hP.1.draw hfresh, hP.2⟩
  identified := fun _ hP => hP.1.identified

/-! ## The transitions -/

/-- The guard of a registration survives the others and the ids this process draws. -/
structure GuardStable (i : ι) (R : Interference (World ι))
    (guard : AttemptCorrelation → World ι → Prop) : Prop where
  stable : ∀ correlation w w', R.rel w w' → guard correlation w → guard correlation w'
  draw : ∀ correlation w id, w.drawn id = none → guard correlation w →
    guard correlation (w.draw i id)

/-- The registration: from a begun attempt to phase `PRE_DISPATCH`. -/
theorem register_transitions {paymentId currency providerQualifier : String} {amountMinor : Nat}
    (hR : ∀ w w', R.rel w w' → AttemptEnv i exclusive w w') (hguard : GuardStable i R guard)
    (hwriter : CallerWriter writer) :
    Transitions i R (AttemptMove i exclusive guard base) writer
      (.attemptRegistered correlation paymentId amountMinor currency providerQualifier) causation
      (registerPreDispatch correlation) False
      (fun w => Begun i exclusive correlation w ∧ activity i w = base ∧ guard correlation w)
      (fun _ w => Held i exclusive correlation .preDispatch w ∧ activity i w = base) where
  carries :=
    { foreign := fun w w' h => (hR w w' h).foreign
      same := .same
      draw := fun _ _ => .drew
      stable := fun w w' h hP => ⟨hP.1.env (hR w w' h), (hR w w' h).silent.trans hP.2.1,
        hguard.stable _ w w' h hP.2.2⟩
      drawStable := fun _ _ hfresh hP => ⟨hP.1.draw hfresh, hP.2.1,
        hguard.draw _ _ _ hfresh hP.2.2⟩
      identified := fun _ hP => hP.1.identified }
  head := fun _ => rfl
  applies := fun w put hP hbuilt happlies => by
    have hkey : w.items.lookup (.journal put.key) = none :=
      (itemAbsent_iff _).mp (happlies.condition (List.mem_cons_self ..))
    have hitem : w.items.lookup (.attemptState correlation.attemptId) = none :=
      (itemAbsent_iff _).mp (happlies.condition
        (List.mem_cons_of_mem _ (List.mem_singleton.mpr rfl)))
    refine ⟨.registered (hwriter.callerPut hbuilt hkey) hbuilt.body_eq hP.1.drawn hP.1.pending
      hitem hP.2.2, ?_, hP.2.1⟩
    refine @Begun.write ι i exclusive correlation w hP.1 put
      ⟨correlation.attemptId, correlation.providerRequestId, correlation.refundRequestId,
        .preDispatch⟩ hbuilt.drawn ?_ (fun hmoved => absurd rfl hmoved) (fun _ => rfl)
    intro correlation' resolution
    rw [hbuilt.body_eq]
    simp
  clear := fun h => h.elim
  stable := fun _ w w' h hP => ⟨hP.1.env (hR w w' h), (hR w w' h).silent.trans hP.2⟩

/-- A phase transition: from `PRE_DISPATCH` to the phase its event names. -/
theorem phase_transitions {target : AttemptPhase}
    (hR : ∀ w w', R.rel w w' → AttemptEnv i exclusive w w') (hwriter : CallerWriter writer)
    (hbody : TransitionBody correlation target body) :
    Transitions i R (AttemptMove i exclusive guard base) writer body causation
      (fun put => [journalPutAction put, phaseUpdate correlation.attemptId target]) exclusive
      (fun w => Held i exclusive correlation .preDispatch w ∧ activity i w = base)
      (fun _ w => Held i exclusive correlation target w ∧ activity i w = base) where
  carries := held_carries hR
  head := fun _ => rfl
  applies := fun w put hP hbuilt happlies => by
    have hkey : w.items.lookup (.journal put.key) = none :=
      (itemAbsent_iff _).mp (happlies.condition (List.mem_cons_self ..))
    obtain ⟨item, hitem, hphase⟩ := (attributeEquals_iff _ _ _).mp (happlies.condition
      (List.mem_cons_of_mem _ (List.mem_singleton.mpr rfl)))
    change w.items.lookup (.attemptState correlation.attemptId) = some item at hitem
    have hitems : applyAll [journalPutAction put, phaseUpdate correlation.attemptId target]
        w.items = (w.items.insert (.journal put.key) put.event).insert
          (.attemptState correlation.attemptId) { item with phase := target } := by
      simp [WriteAction.apply, journalPutAction, phaseUpdate, hitem]
    have hbodyEq : TransitionBody correlation target put.event.body := by
      rw [hbuilt.body_eq]
      exact hbody
    rw [hitems]
    refine ⟨.transitioned (hwriter.callerPut hbuilt hkey) hbodyEq hP.1.drawn hP.1.pending hitem
      hphase, ?_, hP.2⟩
    refine @Begun.write ι i exclusive correlation w hP.1.toBegun put { item with phase := target }
      hbuilt.drawn ?_ (fun _ => hbodyEq) ?_
    · intro correlation' resolution heq
      rw [heq] at hbodyEq
      cases target <;> exact hbodyEq
    · intro hexclusive
      obtain ⟨found, hfound, -, hrequest⟩ := hP.1.item (.inr hexclusive)
      obtain rfl := Option.some.inj (hitem.symm.trans hfound)
      exact hrequest hexclusive
  clear := fun hexclusive w put hP action hmem => by
    obtain rfl := List.mem_singleton.mp hmem
    obtain ⟨item, hitem, hphase, -⟩ := hP.1.item (.inr hexclusive)
    exact (attributeEquals_iff _ _ _).mpr ⟨item, hitem, hphase⟩
  stable := fun _ w w' h hP => ⟨hP.1.env (hR w w' h), (hR w w' h).silent.trans hP.2⟩

/-! ## The race -/

/-- What the transport activity shows of a decided race. -/
def RaceTrace (base : List TraceEntry) (call : ProviderRefundCall) (decision : RaceDecision)
    (trace : List TraceEntry) : Prop :=
  ∃ items, match decision with
    | .transport result _ =>
      trace = base ++ [.invoked call items, .settled result, .claimed .transport]
    | .timer _ elapsedNs _ _ =>
      deadlineNs ≤ elapsedNs ∧ trace = base ++ [.invoked call items, .claimed .timer]

/-- Waiting for the winner: only the transport activity changes, and it shows who claimed. -/
theorem raceLoop_spec {call : ProviderRefundCall} {items : Items} (originNs fuel : Nat)
    (hR : ∀ w w', R.rel w w' → AttemptEnv i exclusive w w')
    (hheld : Held i exclusive correlation phase w)
    (htrace : activity i w = base ++ [.invoked call items]) :
    SafeAt i R (AttemptMove i exclusive guard base)
      (fun decision w' => Held i exclusive correlation phase w' ∧
        RaceTrace base call decision (activity i w'))
      (raceLoop originNs fuel) w := by
  induction fuel generalizing w with
  | zero => exact outOfFuel_spec
  | succ fuel ih =>
    refine SafeOk.call fun w₁ h₁ event w₂ hrace => ?_
    have hheld₁ := hheld.env (hR _ _ h₁)
    have htrace₁ := (hR _ _ h₁).silent.trans htrace
    rcases answers_awaitRace hrace with ⟨rfl, rfl⟩ | ⟨result, rfl, rfl⟩
    · refine ⟨.same _, SafeOk.call fun w₃ h₃ now w₄ hnow => ?_⟩
      obtain rfl := answers_monotonicNow hnow
      have hheld₃ := hheld₁.env (hR _ _ h₃)
      have htrace₃ := (hR _ _ h₃).silent.trans htrace₁
      refine ⟨.same _, ?_⟩
      split
      · exact ih hheld₃ htrace₃
      · -- on time: the timer claims, then the two wall clock readings
        rename_i hlate
        have hdeadline : originNs + deadlineNs ≤ now := Nat.le_of_not_lt hlate
        refine SafeOk.call fun w₅ h₅ _ w₆ hclaim => ?_
        obtain rfl := answers_claim hclaim
        have hheld₅ := (hheld₃.env (hR _ _ h₅)).traced (.claimed .timer)
        have htrace₅ : activity i (w₅.traced i (.claimed .timer)) =
            base ++ [.invoked call items, .claimed .timer] := by
          rw [activity_traced, (hR _ _ h₅).silent, htrace₃, List.append_assoc]
          rfl
        refine ⟨.claimed .timer, SafeOk.call fun w₇ h₇ fired w₈ hwall => ?_⟩
        obtain rfl := answers_wallNow hwall
        refine ⟨.same _, SafeOk.call fun w₉ h₉ aborted w₁₀ hwall => ?_⟩
        obtain rfl := answers_wallNow hwall
        refine ⟨.same _, SafeOk.pure fun w' h' => ?_⟩
        have henv := hR _ _ (R.trans h₇ (R.trans h₉ h'))
        exact ⟨hheld₅.env henv, items, Nat.le_sub_of_add_le' hdeadline,
          henv.silent.trans htrace₅⟩
    · have hheld₂ := hheld₁.traced (.settled result)
      refine ⟨.settled result, SafeOk.call fun w₃ h₃ now w₄ hnow => ?_⟩
      obtain rfl := answers_monotonicNow hnow
      refine ⟨.same _, SafeOk.call fun w₅ h₅ _ w₆ hclaim => ?_⟩
      obtain rfl := answers_claim hclaim
      have henv := hR _ _ (R.trans h₃ h₅)
      have hheld₅ := (hheld₂.env henv).traced (.claimed .transport)
      have htrace₅ : activity i (w₅.traced i (.claimed .transport)) =
          base ++ [.invoked call items, .settled result, .claimed .transport] := by
        rw [activity_traced, henv.silent, activity_traced, htrace₁]
        simp
      refine ⟨.claimed .transport, ?_⟩
      split
      · exact outOfFuel_spec
      · refine SafeOk.pure fun w' h' => ?_
        exact ⟨hheld₅.env (hR _ _ h'), items, (hR _ _ h').silent.trans htrace₅⟩

theorem raceTransportAgainstDeadline_spec {call : ProviderRefundCall} (fuel : Nat)
    (hR : ∀ w w', R.rel w w' → AttemptEnv i exclusive w w')
    (hcall : (⟨call.attemptId, call.providerRequestId, call.refundRequestId⟩ :
      AttemptCorrelation) = correlation)
    (hheld : Held i exclusive correlation .dispatched w) (htrace : activity i w = base) :
    SafeAt i R (AttemptMove i exclusive guard base)
      (fun decision w' => Held i exclusive correlation .dispatched w' ∧
        RaceTrace base call decision (activity i w'))
      (raceTransportAgainstDeadline fuel call) w := by
  refine SafeOk.call fun w₁ h₁ originNs w₂ hnow => ?_
  obtain rfl := answers_monotonicNow hnow
  refine ⟨.same _, SafeOk.call fun w₃ h₃ armed w₄ hnow => ?_⟩
  obtain rfl := answers_monotonicNow hnow
  refine ⟨.same _, SafeOk.call fun w₅ h₅ _ w₆ hinvoke => ?_⟩
  obtain rfl := answers_invoke hinvoke
  have henv := hR _ _ (R.trans h₁ (R.trans h₃ h₅))
  have hheld₅ := hheld.env henv
  have htrace₅ := henv.silent.trans htrace
  have hdispatched : DurablyDispatched w₅.items call := by
    subst hcall
    obtain ⟨item, hitem, hphase, -⟩ := hheld₅.item (.inl (by decide))
    exact ⟨⟨item, hitem, hphase⟩, hheld₅.evidence (by decide)⟩
  refine ⟨.invoked htrace₅ hdispatched, ?_⟩
  exact raceLoop_spec originNs fuel hR (hheld₅.traced _) (by rw [activity_traced, htrace₅])

/-! ## What a resolution shows -/

/-- The timeout of the attempt is stored, with at least the deadline elapsed. -/
def TimeoutStored {ι : Type} (correlation : AttemptCorrelation) (w : World ι) : Prop :=
  ∃ key event timeout, StoredAt w.items key event ∧
    event.body = .callerTimeoutRecorded correlation timeout ∧ deadlineNs ≤ timeout.elapsedNs

/-- The durable and observed facts a report rests on, by what it says. -/
structure ReportFacts (i : ι) (base : List TraceEntry)
    (parseJsonDocument : List UInt8 → Option JsonValue) (correlation : AttemptCorrelation)
    (outcome : AttemptOutcome) (dispatchState : DispatchState) (w : World ι) : Prop where
  notDispatched : dispatchState = .notDispatched →
    (∃ item, w.items.lookup (.attemptState correlation.attemptId) = some item ∧
      item.phase = .notDispatched) ∧
    (∃ key event, StoredAt w.items key event ∧
      TransitionBody correlation .notDispatched event.body) ∧
    activity i w = base
  timedOut : outcome = .timedOut → TimeoutStored correlation w
  answered : outcome = .succeeded ∨ outcome = .rejected → ∃ call items result,
    activity i w = base ++ [TraceEntry.invoked call items, .settled result, .claimed .transport] ∧
    EchoesAttempt parseJsonDocument correlation.attemptId correlation.providerRequestId result

variable {parseJsonDocument : List UInt8 → Option JsonValue} {outcome : AttemptOutcome}
  {dispatchState : DispatchState} {w' : World ι}

theorem ReportFacts.env
    (h : ReportFacts i base parseJsonDocument correlation outcome dispatchState w)
    (henv : AttemptEnv i exclusive w w') :
    ReportFacts i base parseJsonDocument correlation outcome dispatchState w' where
  notDispatched := fun hstate => by
    obtain ⟨⟨item, hitem, hphase⟩, ⟨key, event, hstored, hbody⟩, htrace⟩ := h.notDispatched hstate
    refine ⟨⟨item, henv.settled _ item hitem ?_, hphase⟩,
      ⟨key, event, henv.foreign.kept key event hstored, hbody⟩, henv.silent.trans htrace⟩
    rw [hphase]
    decide
  timedOut := fun houtcome => by
    obtain ⟨key, event, timeout, hstored, hbody, helapsed⟩ := h.timedOut houtcome
    exact ⟨key, event, timeout, henv.foreign.kept key event hstored, hbody, helapsed⟩
  answered := fun houtcome => by
    obtain ⟨call, items, result, htrace, hechoes⟩ := h.answered houtcome
    exact ⟨call, items, result, henv.silent.trans htrace, hechoes⟩

theorem ReportFacts.draw
    (h : ReportFacts i base parseJsonDocument correlation outcome dispatchState w) (id : Uuid4) :
    ReportFacts i base parseJsonDocument correlation outcome dispatchState (w.draw i id) :=
  ⟨h.notDispatched, h.timedOut, h.answered⟩

theorem ReportFacts.put
    (h : ReportFacts i base parseJsonDocument correlation outcome dispatchState w)
    (habsent : w.items.lookup (.journal entry.key) = none) :
    ReportFacts i base parseJsonDocument correlation outcome dispatchState
      (w.withItems (w.items.insert (.journal entry.key) entry.event)) where
  notDispatched := fun hstate => by
    obtain ⟨⟨item, hitem, hphase⟩, ⟨key, event, hstored, hbody⟩, htrace⟩ := h.notDispatched hstate
    refine ⟨⟨item, ?_, hphase⟩, ⟨key, event, storedAt_insert_absent habsent hstored, hbody⟩, htrace⟩
    rw [World.withItems_items, AList.lookup_insert_ne (by simp)]
    exact hitem
  timedOut := fun houtcome => by
    obtain ⟨key, event, timeout, hstored, hbody, helapsed⟩ := h.timedOut houtcome
    exact ⟨key, event, timeout, storedAt_insert_absent habsent hstored, hbody, helapsed⟩
  answered := h.answered

/-- What is known when an attempt is resolved: its phase fits the resolution, unless the
writer has stopped and can record no outcome. -/
structure ResolvedPost (i : ι) (exclusive : Prop) (base : List TraceEntry)
    (parseJsonDocument : List UInt8 → Option JsonValue) (correlation : AttemptCorrelation)
    (writer : JournalWriter) (result : ResolvedAttempt × JournalWriter) (w : World ι) : Prop where
  same : SameInstance writer result.2
  begun : Begun i exclusive correlation w
  held : result.2.stopReason = none →
    Held i exclusive correlation (phaseFor result.1.resolution.dispatchState) w
  facts : ReportFacts i base parseJsonDocument correlation result.1.resolution.outcome
    result.1.resolution.dispatchState w

theorem recordNotDispatched_spec {client : ProviderClient} {registered : JournalEvent}
    {failure : AttemptFailureCode} (hR : ∀ w w', R.rel w w' → AttemptEnv i exclusive w w')
    (hwriter : CallerWriter writer) (hheld : Held i exclusive correlation .preDispatch w)
    (htrace : activity i w = base) :
    SafeAt i R (AttemptMove i exclusive guard base)
      (ResolvedPost i exclusive base client.parseJsonDocument correlation writer)
      (client.recordNotDispatched writer correlation registered failure) w := by
  have ht : Transitions i R (AttemptMove i exclusive guard base) writer
      (.attemptNotDispatched correlation failure) [registered.eventId]
      (transitionToNotDispatched correlation.attemptId) exclusive _ _ :=
    phase_transitions hR hwriter rfl
  refine SafeOk.bind (runDurableTransition_spec client.maxDefinitiveRetries ht ⟨hheld, htrace⟩) ?_
  rintro ⟨result, writer₁⟩ w₁ ⟨hsame, hresult⟩
  have hnoFacts : ∀ w, ReportFacts i base client.parseJsonDocument correlation .failed .unknown w :=
    fun w => ⟨nofun, nofun, fun h => by rcases h with h | h <;> cases h⟩
  cases result with
  | applied event =>
    refine SafeOk.pure fun w' h' => ?_
    have hheld' : Held i exclusive correlation .notDispatched w' := hresult.1.env (hR _ _ h')
    refine ⟨hsame, hheld'.toBegun, fun _ => hheld', fun _ => ?_, nofun, ?_⟩
    · obtain ⟨item, hitem, hphase, -⟩ := hheld'.item (.inl (by decide))
      exact ⟨⟨item, hitem, hphase⟩, hheld'.evidence (by decide),
        (hR _ _ h').silent.trans hresult.2⟩
    · intro h
      rcases h with h | h <;> cases h
  | notApplied kind =>
    refine SafeOk.pure fun w' h' => ?_
    cases kind with
    | rejected =>
      have hheld' : Held i exclusive correlation .preDispatch w' := hresult.1.env (hR _ _ h')
      exact ⟨hsame, hheld'.toBegun, fun _ => hheld', hnoFacts w'⟩
    | conditionFailed =>
      have hheld' : Held i exclusive correlation .preDispatch w' :=
        hresult.1.1.env (hR _ _ h')
      exact ⟨hsame, hheld'.toBegun, fun _ => hheld', hnoFacts w'⟩
    | ambiguous =>
      obtain ⟨hboth, hstopped⟩ := hresult
      refine ⟨hsame, ?_, fun hlive => absurd hlive hstopped, hnoFacts w'⟩
      rcases hboth with ⟨hheld, -⟩ | ⟨event, hheld, -⟩
      · exact (hheld.env (hR _ _ h')).toBegun
      · exact (hheld.env (hR _ _ h')).toBegun

/-! ## The timeout -/

structure TimedOut (i : ι) (exclusive : Prop) (correlation : AttemptCorrelation) (w : World ι) :
    Prop where
  held : Held i exclusive correlation .dispatched w
  stored : TimeoutStored correlation w

theorem timedOut_carries (hR : ∀ w w', R.rel w w' → AttemptEnv i exclusive w w') :
    Carries i R (AttemptMove i exclusive guard base) (TimedOut i exclusive correlation) where
  foreign := fun w w' h => (hR w w' h).foreign
  same := .same
  draw := fun _ _ => .drew
  stable := fun w w' h hP => by
    obtain ⟨key, event, timeout, hstored, hbody, helapsed⟩ := hP.stored
    exact ⟨hP.held.env (hR w w' h),
      key, event, timeout, (hR w w' h).foreign.kept key event hstored, hbody, helapsed⟩
  drawStable := fun _ _ hfresh hP => ⟨hP.held.draw hfresh, hP.stored⟩
  identified := fun _ hP => hP.held.identified

/-- Waiting for a late settlement changes nothing but the transport activity. -/
theorem lateLoop_spec (originNs graceStartNs : Nat) (pending : Bool) (fuel : Nat)
    (hR : ∀ w w', R.rel w w' → AttemptEnv i exclusive w w')
    (h : TimedOut i exclusive correlation w) :
    SafeAt i R (AttemptMove i exclusive guard base)
      (fun _ => TimedOut i exclusive correlation) (lateLoop originNs graceStartNs pending fuel) w := by
  have hc : Carries i R (AttemptMove i exclusive guard base) (TimedOut i exclusive correlation) :=
    timedOut_carries hR
  have hstable := hc.stable
  induction fuel generalizing w pending with
  | zero => exact outOfFuel_spec
  | succ fuel ih =>
    refine SafeOk.call fun w₁ h₁ event w₂ hrace => ?_
    have hw₁ := hstable _ _ h₁ h
    rcases answers_awaitRace hrace with ⟨rfl, rfl⟩ | ⟨result, rfl, rfl⟩
    · refine ⟨.same _, SafeOk.call fun w₃ h₃ now w₄ hnow => ?_⟩
      obtain rfl := answers_monotonicNow hnow
      refine ⟨.same _, ?_⟩
      split
      · exact ih pending (hstable _ _ h₃ hw₁)
      · exact SafeOk.pure fun w' h' => hstable _ _ (R.trans h₃ h') hw₁
    · have hw₂ : TimedOut i exclusive correlation (w₁.traced i (.settled result)) :=
        ⟨hw₁.held.traced _, hw₁.stored⟩
      refine ⟨.settled result, SafeOk.call fun w₃ h₃ now w₄ hnow => ?_⟩
      obtain rfl := answers_monotonicNow hnow
      refine ⟨.same _, ?_⟩
      split
      · exact SafeOk.pure fun w' h' => hstable _ _ (R.trans h₃ h') hw₂
      · exact ih false (hstable _ _ h₃ hw₂)

theorem recordLateSettlement_spec {dispatchStarted : JournalEvent} (fuel originNs : Nat)
    (hR : ∀ w w', R.rel w w' → AttemptEnv i exclusive w w') (hwriter : CallerWriter writer)
    (h : TimedOut i exclusive correlation w) :
    SafeAt i R (AttemptMove i exclusive guard base)
      (fun writer' w' => SameInstance writer writer' ∧ TimedOut i exclusive correlation w')
      (ProviderClient.recordLateSettlement fuel writer correlation dispatchStarted originNs) w := by
  have hc : Carries i R (AttemptMove i exclusive guard base) (TimedOut i exclusive correlation) :=
    timedOut_carries hR
  have hwithin : SafeAt i R (AttemptMove i exclusive guard base)
      (fun _ => TimedOut i exclusive correlation) (lateSettlementWithin fuel originNs) w := by
    refine SafeOk.call fun w₁ h₁ graceStartNs w₂ hnow => ?_
    obtain rfl := answers_monotonicNow hnow
    refine ⟨.same _, SafeOk.call fun w₃ h₃ armed w₄ hnow => ?_⟩
    obtain rfl := answers_monotonicNow hnow
    exact ⟨.same _, lateLoop_spec originNs graceStartNs true fuel hR
      (hc.stable _ _ (R.trans h₁ h₃) h)⟩
  refine SafeOk.bind hwithin ?_
  intro late w₁ hw₁
  cases late with
  | none => exact SafeOk.pure fun w' h' => ⟨.refl _, hc.stable _ _ h' hw₁⟩
  | some settlement =>
    have hP₁ : ∀ (_ : JournalEvent) w w', R.rel w w' → TimedOut i exclusive correlation w →
        TimedOut i exclusive correlation w' := fun _ => hc.stable
    refine SafeOk.bind (append_settlement hc hP₁ ?_ hw₁) ?_
    · intro w entry _ hP hbuilt habsent
      have hput := hwriter.callerPut hbuilt habsent
      have hother : ∀ correlation resolution,
          entry.event.body ≠ .attemptOutcomeRecorded correlation resolution := by
        intro correlation' resolution
        rw [hbuilt.body_eq]
        simp
      refine ⟨.observed hput (by rw [hbuilt.body_eq]; exact rfl) hP.held.drawn hP.held.pending
        ?_, hP.held.put habsent hbuilt.drawn hother, ?_⟩
      · intro _
        obtain ⟨item, hitem, -, -⟩ := hP.held.item (.inl (by decide))
        exact ⟨item, hitem⟩
      · obtain ⟨key, event, timeout, hstored, hbody, helapsed⟩ := hP.stored
        exact ⟨key, event, timeout, storedAt_insert_absent habsent hstored, hbody, helapsed⟩
    · rintro ⟨result, writer₂⟩ w₂ ⟨hsame, hresult⟩
      refine SafeOk.pure fun w' h' => ⟨hsame, ?_⟩
      cases result with
      | appended event => exact hc.stable _ _ h' hresult
      | stopped reason =>
        rcases hresult.1 with hbefore | ⟨event, hafter⟩
        · exact hc.stable _ _ h' hbefore
        · exact hc.stable _ _ h' hafter

/-- `#recordTimeout`: a durable timeout record makes the attempt `TIMED_OUT`. -/
theorem recordTimeout_spec (client : ProviderClient) {dispatchStarted : JournalEvent}
    {dispatchAt deadlineAt timerFiredAt abortRequestedAt : UtcMillis} {elapsedNs : DecimalNs}
    (fuel originNs : Nat) (hR : ∀ w w', R.rel w w' → AttemptEnv i exclusive w w')
    (hwriter : CallerWriter writer) (helapsed : deadlineNs ≤ elapsedNs)
    (hheld : Held i exclusive correlation .dispatched w) :
    SafeAt i R (AttemptMove i exclusive guard base)
      (ResolvedPost i exclusive base client.parseJsonDocument correlation writer)
      (ProviderClient.recordTimeout fuel writer correlation dispatchStarted dispatchAt deadlineAt
        originNs elapsedNs timerFiredAt abortRequestedAt) w := by
  have hc : Carries i R (AttemptMove i exclusive guard base) (Held i exclusive correlation .dispatched) :=
    { foreign := fun w w' h => (hR w w' h).foreign
      same := .same
      draw := fun _ _ => .drew
      stable := fun w w' h hP => hP.env (hR w w' h)
      drawStable := fun _ _ hfresh hP => hP.draw hfresh
      identified := fun _ hP => hP.identified }
  have hafter : Carries i R (AttemptMove i exclusive guard base) (TimedOut i exclusive correlation) :=
    timedOut_carries hR
  refine SafeOk.call fun w₁ h₁ recordedAt w₂ hwall => ?_
  obtain rfl := answers_wallNow hwall
  refine ⟨.same _, ?_⟩
  have hP₁ : ∀ (_ : JournalEvent) w w', R.rel w w' → TimedOut i exclusive correlation w →
      TimedOut i exclusive correlation w' := fun _ => hafter.stable
  refine SafeOk.bind (append_settlement hc hP₁ ?_ (hc.stable _ _ h₁ hheld)) ?_
  · intro w entry _ hP hbuilt habsent
    have hother : ∀ correlation resolution,
        entry.event.body ≠ .attemptOutcomeRecorded correlation resolution := by
      intro correlation' resolution
      rw [hbuilt.body_eq]
      simp
    refine ⟨.observed (hwriter.callerPut hbuilt habsent) (by rw [hbuilt.body_eq]; exact rfl)
      hP.drawn hP.pending ?_, hP.put habsent hbuilt.drawn hother, ?_⟩
    · intro _
      obtain ⟨item, hitem, -, -⟩ := hP.item (.inl (by decide))
      exact ⟨item, hitem⟩
    · exact ⟨entry.key, entry.event, _, AList.lookup_insert _, hbuilt.body_eq, helapsed⟩
  · rintro ⟨result, writer₂⟩ w₂ ⟨hsame, hresult⟩
    cases result with
    | appended event =>
      refine SafeOk.bind (recordLateSettlement_spec fuel originNs hR
        (hwriter.sameInstance hsame) hresult) ?_
      intro writer₃ w₃ ⟨hsame₃, hw₃⟩
      refine SafeOk.pure fun w' h' => ?_
      have hw' := hafter.stable _ _ h' hw₃
      refine ⟨hsame.trans hsame₃, hw'.held.toBegun, fun _ => hw'.held, nofun,
        fun _ => hw'.stored, ?_⟩
      intro h
      rcases h with h | h <;> cases h
    | stopped reason =>
      obtain ⟨hboth, hstopped⟩ := hresult
      refine SafeOk.pure fun w' h' => ?_
      have hbegun : Begun i exclusive correlation w' := by
        rcases hboth with hbefore | ⟨event, hafter'⟩
        · exact (hbefore.env (hR _ _ h')).toBegun
        · exact (hafter'.held.env (hR _ _ h')).toBegun
      refine ⟨hsame, hbegun, fun hlive => absurd hlive hstopped, nofun, nofun, ?_⟩
      intro h
      rcases h with h | h <;> cases h

/-! ## The whole attempt -/

theorem resolutionFromResponse_facts {call : ProviderRefundCall} {items : Items}
    {result : ProviderTransportResult} {expected : ExpectedProviderResponse} {ns : DecimalNs}
    (hattempt : expected.attemptId = correlation.attemptId)
    (hrequest : expected.providerRequestId = correlation.providerRequestId)
    (htrace : activity i w = base ++ [TraceEntry.invoked call items, .settled result, .claimed .transport]) :
    (resolutionFromResponse (parseProviderResponse parseJsonDocument result expected)
      ns).dispatchState = .dispatched ∧
    ReportFacts i base parseJsonDocument correlation
      (resolutionFromResponse (parseProviderResponse parseJsonDocument result expected) ns).outcome
      (resolutionFromResponse (parseProviderResponse parseJsonDocument result expected)
        ns).dispatchState w := by
  have hechoes : (∀ failure diagnostics,
      parseProviderResponse parseJsonDocument result expected ≠ .failed failure diagnostics) →
      EchoesAttempt parseJsonDocument correlation.attemptId correlation.providerRequestId result := by
    intro hanswer
    rw [← hattempt, ← hrequest]
    exact parseProviderResponse_echoes hanswer
  cases hparsed : parseProviderResponse parseJsonDocument result expected with
  | succeeded callId transactionId diagnostics =>
    refine ⟨rfl, nofun, nofun, fun _ => ⟨call, items, result, htrace, hechoes ?_⟩⟩
    simp [hparsed]
  | rejected callId reason diagnostics =>
    refine ⟨rfl, nofun, nofun, fun _ => ⟨call, items, result, htrace, hechoes ?_⟩⟩
    simp [hparsed]
  | failed failure diagnostics =>
    refine ⟨rfl, nofun, nofun, fun h => ?_⟩
    rcases h with h | h <;> cases h

theorem resolve_spec {client : ProviderClient} {input : AttemptInput} {registered : JournalEvent}
    (fuel : Nat) (hR : ∀ w w', R.rel w w' → AttemptEnv i exclusive w w')
    (hwriter : CallerWriter writer)
    (hrequest : input.refundRequestId = correlation.refundRequestId)
    (hheld : Held i exclusive correlation .preDispatch w) (htrace : activity i w = base) :
    SafeAt i R (AttemptMove i exclusive guard base)
      (ResolvedPost i exclusive base client.parseJsonDocument correlation writer)
      (client.resolve fuel writer input correlation registered) w := by
  unfold ProviderClient.resolve
  cases hcall : buildProviderCall input correlation client.scope with
  | none => exact recordNotDispatched_spec hR hwriter hheld htrace
  | some call =>
    have hcorrelation : (⟨call.attemptId, call.providerRequestId, call.refundRequestId⟩ :
        AttemptCorrelation) = correlation := by
      unfold buildProviderCall at hcall
      split at hcall
      · obtain rfl := Option.some.inj hcall
        simp [hrequest]
      · cases hcall
    refine SafeOk.call fun w₁ h₁ dispatchAt w₂ hwall => ?_
    obtain rfl := answers_wallNow hwall
    refine ⟨.same _, ?_⟩
    have ht : Transitions i R (AttemptMove i exclusive guard base) writer
        (.dispatchStarted correlation dispatchAt (dispatchAt + deadlineNs / nsPerMs) deadlineNs)
        [registered.eventId] (transitionToDispatched correlation.attemptId) exclusive _ _ :=
      phase_transitions hR hwriter rfl
    refine SafeOk.bind (runDurableTransition_spec client.maxDefinitiveRetries ht
      ⟨hheld.env (hR _ _ h₁), (hR _ _ h₁).silent.trans htrace⟩) ?_
    rintro ⟨result, writer₁⟩ w₃ ⟨hsame, hresult⟩
    have hnoFacts : ∀ w, ReportFacts i base client.parseJsonDocument correlation .failed
        .unknown w := fun w => ⟨nofun, nofun, fun h => by rcases h with h | h <;> cases h⟩
    cases result with
    | notApplied kind =>
      cases kind with
      | rejected =>
        refine SafeOk.weaken (recordNotDispatched_spec hR (hwriter.sameInstance hsame)
          hresult.1 hresult.2) ?_
        intro value w' hpost
        exact ⟨hsame.trans hpost.same, hpost.begun, hpost.held, hpost.facts⟩
      | conditionFailed =>
        refine SafeOk.pure fun w' h' => ?_
        have hheld' := hresult.1.1.env (hR _ _ h')
        exact ⟨hsame, hheld'.toBegun, fun _ => hheld', hnoFacts w'⟩
      | ambiguous =>
        obtain ⟨hboth, hstopped⟩ := hresult
        refine SafeOk.pure fun w' h' => ⟨hsame, ?_, fun hlive => absurd hlive hstopped,
          hnoFacts w'⟩
        rcases hboth with ⟨hbefore, -⟩ | ⟨event, hafter, -⟩
        · exact (hbefore.env (hR _ _ h')).toBegun
        · exact (hafter.env (hR _ _ h')).toBegun
    | applied event =>
      refine SafeOk.bind (raceTransportAgainstDeadline_spec fuel hR hcorrelation hresult.1
        hresult.2) ?_
      rintro decision w₄ ⟨hheld₄, items, hdecision⟩
      cases decision with
      | transport settled settledAfterNs =>
        refine SafeOk.pure fun w' h' => ?_
        have hheld' := hheld₄.env (hR _ _ h')
        obtain ⟨hstate, hfacts⟩ := @resolutionFromResponse_facts ι _ i base correlation w'
          client.parseJsonDocument call items settled
          ⟨input.providerQualifier, correlation.attemptId, correlation.providerRequestId⟩
          settledAfterNs rfl rfl ((hR _ _ h').silent.trans hdecision)
        refine ⟨hsame, hheld'.toBegun, fun _ => ?_, hfacts⟩
        dsimp only
        rw [hstate]
        exact hheld'
      | timer originNs elapsedNs timerFiredAt abortRequestedAt =>
        refine SafeOk.weaken (recordTimeout_spec client fuel originNs hR
          (hwriter.sameInstance hsame) hdecision.1 hheld₄) ?_
        intro value w' hpost
        exact ⟨hsame.trans hpost.same, hpost.begun, hpost.held, hpost.facts⟩

/-- The outcome event of an attempt is stored and no request state accounts for the
attempt yet. -/
structure OutcomeRecorded (i : ι) (correlation : AttemptCorrelation)
    (resolution : AttemptResolution) (event : JournalEvent) (w : World ι) : Prop where
  identified : Identified w
  drawn : w.drawn correlation.attemptId = some i
  stored : ∃ key : JournalKey, key.table = .callerJournal ∧ StoredAt w.items key event
  body : event.body = .attemptOutcomeRecorded correlation resolution
  unaccounted : ∀ request state, w.items.lookup (.requestState request) = some state →
    correlation.attemptId ∉ state.attemptIds

theorem OutcomeRecorded.env {resolution : AttemptResolution} {event : JournalEvent}
    (h : OutcomeRecorded i correlation resolution event w) (hexclusive : exclusive)
    (henv : AttemptEnv i exclusive w w') :
    OutcomeRecorded i correlation resolution event w' where
  identified := h.identified.foreign henv.foreign
  drawn := henv.foreign.drawn _ _ h.drawn
  stored := by
    obtain ⟨key, htable, hstored⟩ := h.stored
    exact ⟨key, htable, henv.foreign.kept key event hstored⟩
  body := h.body
  unaccounted := fun request state hstate hmem => by
    obtain ⟨before, hbefore, hmember⟩ :=
      (henv.own hexclusive _ h.drawn).accounted request state hstate hmem
    exact h.unaccounted request before hbefore hmember

/-- The class of a resolution: only a proven pre-dispatch failure is not dispatched, so no
resolution contradicts its dispatch state. -/
theorem classifyOutcome_resolution (resolution : AttemptResolution) :
    ∃ outcomeClass, classifyOutcome resolution.outcome resolution.dispatchState =
      .ok outcomeClass := by
  cases resolution with
  | succeeded => exact ⟨.success, rfl⟩
  | rejected => exact ⟨.rejection, rfl⟩
  | timedOut => exact ⟨.ambiguous, rfl⟩
  | failed dispatchState => exact ⟨_, rfl⟩

structure ReportPost (i : ι) (exclusive : Prop) (base : List TraceEntry)
    (parseJsonDocument : List UInt8 → Option JsonValue) (refundRequestId : String)
    (writer : JournalWriter) (result : AttemptReport × JournalWriter) (w : World ι) : Prop where
  same : SameInstance writer result.2
  facts : ReportFacts i base parseJsonDocument
    ⟨result.1.attemptId, result.1.providerRequestId, refundRequestId⟩ result.1.outcome
    result.1.dispatchState w
  recorded : exclusive → ∀ eventId, result.1.outcomeEventId = some eventId →
    ∃ resolution event, event.eventId = eventId ∧
      OutcomeRecorded i ⟨result.1.attemptId, result.1.providerRequestId, refundRequestId⟩
        resolution event w ∧
      classifyOutcome resolution.outcome resolution.dispatchState = .ok result.1.outcomeClass

theorem reportOf_spec {parseJsonDocument : List UInt8 → Option JsonValue}
    {resolved : ResolvedAttempt} {writer₁ : JournalWriter}
    (hR : ∀ w w', R.rel w w' → AttemptEnv i exclusive w w') (hwriter : CallerWriter writer)
    (hpost : ResolvedPost i exclusive base parseJsonDocument correlation writer
      (resolved, writer₁) w) :
    SafeAt i R (AttemptMove i exclusive guard base) (AppendPost writer₁
        (fun w => ResolvedPost i exclusive base parseJsonDocument correlation writer
          (resolved, writer₁) w)
        (fun event w => ReportFacts i base parseJsonDocument correlation
            resolved.resolution.outcome resolved.resolution.dispatchState w ∧
          (exclusive → OutcomeRecorded i correlation resolved.resolution event w)))
      (writer₁.append (.attemptOutcomeRecorded correlation resolved.resolution)
        [resolved.cause.eventId]) w := by
  refine append_settlement ⟨fun w w' h => (hR w w' h).foreign, .same, fun _ _ => .drew, ?_, ?_,
    fun _ hP => hP.begun.identified⟩ ?_ ?_ hpost
  · intro w w' h hP
    exact ⟨hP.same, hP.begun.env (hR w w' h), fun hlive => (hP.held hlive).env (hR w w' h),
      hP.facts.env (hR w w' h)⟩
  · intro w id hfresh hP
    exact ⟨hP.same, hP.begun.draw hfresh, fun hlive => (hP.held hlive).draw hfresh,
      hP.facts.draw id⟩
  · intro event w w' h hP
    exact ⟨hP.1.env (hR w w' h), fun hexclusive => (hP.2 hexclusive).env hexclusive (hR w w' h)⟩
  · intro w entry hlive hP hbuilt habsent
    have hput := (hwriter.sameInstance hP.same).callerPut hbuilt habsent
    have hheld := hP.held hlive
    refine ⟨.resolved hput hbuilt.body_eq hheld.drawn hheld.pending ?_, hP.facts.put habsent, ?_⟩
    · intro hexclusive
      obtain ⟨item, hitem, hphase, -⟩ := hheld.item (.inr hexclusive)
      exact ⟨item, hitem, hphase⟩
    · intro hexclusive
      refine ⟨?_, hheld.drawn, ⟨entry.key, hput.table, AList.lookup_insert _⟩, hbuilt.body_eq, ?_⟩
      · intro key event hstored
        rcases storedAt_insert_cases hstored with rfl | hold
        · exact ⟨i, hbuilt.drawn⟩
        · exact hheld.identified key event hold
      · intro request state hstate
        rw [World.withItems_items, AList.lookup_insert_ne (by simp)] at hstate
        exact (hheld.pending hexclusive).unaccounted request state hstate

/-- `performAttempt`, from a world whose events have drawn ids. -/
theorem performAttempt_spec {client : ProviderClient} {input : AttemptInput} (fuel : Nat)
    (hR : ∀ w w', R.rel w w' → AttemptEnv i exclusive w w') (hwriter : CallerWriter writer)
    (hidentified : Identified w)
    (hattempts : exclusive → ∀ w', R.rel w w' → AttemptsDrawn w') (hguard : GuardStable i R guard)
    (hclear : ∀ correlation, correlation.refundRequestId = input.refundRequestId →
      guard correlation w)
    (htrace : activity i w = base) :
    SafeAt i R (AttemptMove i exclusive guard base)
      (ReportPost i exclusive base client.parseJsonDocument input.refundRequestId writer)
      (client.performAttempt fuel writer input) w := by
  unfold ProviderClient.performAttempt
  split
  · refine SafeOk.call fun w₁ h₁ attemptId w₂ hid => ?_
    obtain ⟨hfresh, rfl⟩ := answers_nextId hid
    refine ⟨.drew hfresh, SafeOk.call fun w₃ h₃ providerRequestId w₄ hid => ?_⟩
    obtain ⟨hfresh₃, rfl⟩ := answers_nextId hid
    refine ⟨.drew hfresh₃, ?_⟩
    have hbegun : Begun i exclusive ⟨attemptId, providerRequestId, input.refundRequestId⟩
        (w₃.draw i providerRequestId) := by
      have hfirst : Begun i exclusive ⟨attemptId, providerRequestId, input.refundRequestId⟩
          (w₁.draw i attemptId) :=
        ⟨(hidentified.foreign (hR _ _ h₁).foreign).draw hfresh, World.draw_drawn_self _ _ _,
          fun hexclusive => (hattempts hexclusive _ h₁).pending hfresh⟩
      exact (hfirst.env (hR _ _ h₃)).draw hfresh₃
    have htrace₃ : activity i (w₃.draw i providerRequestId) = base := by
      rw [activity_draw, (hR _ _ h₃).silent, activity_draw, (hR _ _ h₁).silent]
      exact htrace
    have hclear₃ : guard ⟨attemptId, providerRequestId, input.refundRequestId⟩
        (w₃.draw i providerRequestId) := by
      have hfirst := hguard.draw _ _ _ hfresh (hguard.stable _ _ _ h₁
        (hclear ⟨attemptId, providerRequestId, input.refundRequestId⟩ rfl))
      exact hguard.draw _ _ _ hfresh₃ (hguard.stable _ _ _ h₃ hfirst)
    refine SafeOk.bind (Q := fun result w =>
      Held i exclusive ⟨attemptId, providerRequestId, input.refundRequestId⟩ .preDispatch w ∧
        activity i w = base ∧ SameInstance writer result.2) ?_ ?_
    · refine SafeOk.bind (runDurableTransition_spec client.maxDefinitiveRetries
        (register_transitions hR hguard hwriter) ⟨hbegun, htrace₃, hclear₃⟩) ?_
      rintro ⟨result, writer₁⟩ w₅ ⟨hsame, hresult⟩
      cases result with
      | applied event =>
        exact SafeOk.pure fun w' h' => ⟨hresult.1.env (hR _ _ h'),
          (hR _ _ h').silent.trans hresult.2, hsame⟩
      | notApplied failure => exact SafeOk.throw
    · rintro ⟨registered, writer₁⟩ w₅ ⟨hheld, htrace₅, hsame⟩
      refine SafeOk.bind (resolve_spec fuel hR (hwriter.sameInstance hsame) rfl hheld htrace₅) ?_
      rintro ⟨resolved, writer₂⟩ w₆ hresolved
      refine SafeOk.bind (reportOf_spec hR (hwriter.sameInstance hsame) hresolved) ?_
      rintro ⟨outcome, writer₃⟩ w₇ ⟨hsame₃, houtcome⟩
      refine sync_spec fun report hreport => ?_
      obtain ⟨outcomeClass, hclass⟩ := classifyOutcome_resolution resolved.resolution
      simp only [toAttemptReport, hclass] at hreport
      obtain rfl := Except.ok.inj hreport
      refine SafeOk.pure fun w' h' => ?_
      have hinstance := hsame.trans (hresolved.same.trans hsame₃)
      cases outcome with
      | appended event =>
        refine ⟨hinstance, houtcome.1.env (hR _ _ h'), fun hexclusive eventId heventId => ?_⟩
        obtain rfl := Option.some.inj heventId
        exact ⟨resolved.resolution, event, rfl,
          (houtcome.2 hexclusive).env hexclusive (hR _ _ h'), hclass⟩
      | stopped reason =>
        refine ⟨hinstance, ?_, fun _ eventId heventId => by cases heventId⟩
        rcases houtcome.1 with hbefore | ⟨event, hafter, -⟩
        · exact hbefore.facts.env (hR _ _ h')
        · exact hafter.env (hR _ _ h')
  · exact SafeOk.throw

end Specs

end RefundStudy.Attempt
