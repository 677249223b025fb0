/-
  In every run of the treatment protocol the waits settle: every stored item is
  readable, the faults for impossible states are never thrown, and nobody spins.
-/
import RefundStudy.Treatment.Protocol
import RefundStudy.Treatment.Conduct

set_option autoImplicit false

namespace RefundStudy.Treatment

open Foundation Record RefundStudy.Runtime Journal
open Provider Controller Cleanup

variable {item : TreatmentItem} {state : TreatmentState}

variable {ι : Type} {w w' : World ι}

/-! ## Every party keeps a true view -/

theorem party_conducts (party : Party) : Conducts (fun _ _ => True) party.program {} := by
  cases party with
  | providerCall fuel received =>
    exact TracksTo.bind (handleCall_conducts rfl) fun _ _ _ => TracksTo.pure trivial
  | controllerInvocation record =>
    exact TracksTo.bind (handle_conducts rfl) fun _ _ _ => TracksTo.pure trivial
  | cleanupRelease =>
    exact TracksTo.bind (attemptRelease_conducts maxReleaseAttempts rfl (by decide))
      fun _ _ _ => TracksTo.pure trivial

theorem Armed.holds (h : Armed w) (i : ι) : Holds i {} w where
  sourced := fun key event hstored => absurd hstored (h.no_event key event)
  drawn := fun _ hid => by cases hid
  unwritten := Unwritten.unknown
  item := ⟨armedTreatment, h.coherentWith, .refl, trivial⟩
  own := fun _ _ _ hstage => by cases hstage

/-- Every party of an armed partition acts fairly, makes only so many store calls before it
sleeps, and throws nothing unexpected. -/
theorem Armed.metered (h : Armed w) (party : ι → Party) (i : ι) :
    Safe (((machine ι).answers i).metered storeMeter) (company i).metered
      (fun v v' => Acts i v.1 v'.1 ∧ v'.2 ≤ storeCallLimit)
      (fun result _ => ∀ e, result = .error e → Expected e)
      (party i).program.run (w, 0) := by
  have hsafe := ((h.allSafe party i).lessInterference fun _ _ => company_env).metered storeMeter 0
  have hviewed := hsafe.tracks (party_conducts (party i))
    (I := fun view v => v.2 = view.storeCalls ∧ Holds i view v.1)
    (K := fun v v' => Fair i v.1 v'.1 ∧ v'.2 ≤ storeCallLimit) ?_ ?_ ⟨rfl, h.holds i⟩
  · refine hviewed.mono ?_ ?_
    · exact fun v v' hboth => ⟨⟨hboth.1, hboth.2.1⟩, hboth.2.2⟩
    · rintro result v ⟨-, view, hends, -⟩ e rfl
      exact hends
  · rintro view v v' ⟨hrel, hreading⟩ ⟨hcalls, hholds⟩
    exact ⟨hreading.trans hcalls, hholds.company hrel⟩
  · rintro view v request reply v' ⟨hcalls, hholds⟩ ⟨hans, htick⟩ hmove
    refine ⟨hholds.possible hans, ?_⟩
    rintro view' ⟨hlearns, hlimit⟩
    obtain ⟨hfair, hholds'⟩ := hholds.learns hans hmove hlearns
    have hcalls' : v'.2 = view'.storeCalls := by
      rw [htick, hcalls, hlearns.storeCalls]
    exact ⟨⟨hfair, hcalls' ▸ hlimit⟩, hcalls', hholds'⟩

theorem Armed.allActs (h : Armed w) (party : ι → Party) :
    AllSafe (machine ι).answers (fun i => Acts i)
      (fun _ result _ => ∀ e, result = .error e → Expected e) (start party w) :=
  fun i => (h.metered party i).unmetered storeMeter (fun _ _ hacts => hacts.1) fun _ _ hend => hend

/-! ## Stored items are readable -/

theorem Carries.exists (h : Carries item state)
    (field : TreatmentIdField) (hfield : field ∈ fieldsOf state) :
    ∃ id, idOf item field = some id :=
  Option.isSome_iff_exists.mp ((h field).mpr hfield)

theorem Carries.treatmentCommit_ok
    (h : Carries item state) (hfields : ∀ field ∈ commitFields, field ∈ fieldsOf state) :
    ∃ commit, treatmentCommit item = .ok commit := by
  obtain ⟨attemptId, hattempt⟩ := h.exists .targetedAttemptId (hfields _ (by decide))
  obtain ⟨commitId, hcommit⟩ := h.exists .providerCommitId (hfields _ (by decide))
  obtain ⟨eventId, hevent⟩ := h.exists .commitEventId (hfields _ (by decide))
  change item.targetedAttemptId = _ at hattempt
  change item.providerCommitId = _ at hcommit
  change item.commitEventId = _ at hevent
  refine ⟨⟨attemptId, commitId, eventId⟩, ?_⟩
  unfold treatmentCommit
  rw [hattempt, hcommit, hevent]
  rfl

theorem Carries.signalledTreatment_ok
    (h : Carries item state) (signalled : SignalledTreatmentState)
    (hfields : ∀ field ∈ commitFields, field ∈ fieldsOf state)
    (hsignal : .signalCallerEventId ∈ fieldsOf state) :
    ∃ treatment, signalledTreatment signalled item = .ok treatment := by
  obtain ⟨commit, hcommit⟩ := h.treatmentCommit_ok hfields
  obtain ⟨callerEventId, hcaller⟩ := h.exists .signalCallerEventId hsignal
  change item.signalCallerEventId = _ at hcaller
  refine ⟨.signalled signalled commit callerEventId, ?_⟩
  unfold signalledTreatment
  rw [hcommit, hcaller]
  rfl

theorem WellFormed.decodes (h : WellFormed item)
    (hversion : isPositiveSafeInteger item.version = true) :
    ∃ treatment, decodeControllerTreatment item = .ok treatment := by
  unfold decodeControllerTreatment
  rw [if_pos hversion]
  have hcarries := h.carries
  cases hstate : item.state with
  | armed => exact ⟨_, rfl⟩
  | safetyReleased => exact ⟨_, rfl⟩
  | committedWaiting =>
    rw [hstate] at hcarries
    obtain ⟨commit, hcommit⟩ := (hcarries (by simp)).treatmentCommit_ok (by decide)
    refine ⟨.committedWaiting commit, ?_⟩
    simp only [hcommit]
    rfl
  | timeoutSignalled | timeoutObserved | responseReleased =>
    rw [hstate] at hcarries
    exact (hcarries (by simp)).signalledTreatment_ok _ (by decide) (by decide)

/-! ## The wait state a safety release records -/

/-- The step that releases an item for safety changes no identity, and an event of the release
it stores records the state the item left. -/
theorem Moves.safetyReleased {i : ι} {item item' : TreatmentItem} (h : Moves i w w')
    (hitem : w.items.lookup .treatment = some item)
    (hitem' : w'.items.lookup .treatment = some item') (hne : item' ≠ item)
    (hstate : item'.state = .safetyReleased) :
    (∃ cause, item' = safetyReleasedItem item cause) ∧
      ∀ key event cause fromState commit elapsed, StoredAt w'.items key event →
        ¬ StoredAt w.items key event →
        event.body = .treatmentSafetyReleased cause fromState commit elapsed →
        item.state = fromState.toTreatmentState := by
  have hsame : w'.items.lookup .treatment ≠ w.items.lookup .treatment := by
    intro hlookup
    rw [hlookup, hitem] at hitem'
    exact hne (Option.some.inj hitem').symm
  cases h with
  | same => exact absurd rfl hsame
  | drew => exact absurd rfl hsame
  | appended | noted => exact absurd (AList.lookup_insert_ne (by simp)) hsame
  | committed =>
    refine absurd ?_ hsame
    rw [World.withItems_items, committedItems, AList.lookup_insert_ne (by simp),
      AList.lookup_insert_ne (by simp)]
  | consumed =>
    rw [World.withItems_items, AList.lookup_insert] at hitem'
    obtain rfl := Option.some.inj hitem'
    cases hstate
  | advanced hputs htreatment hadvance =>
    rw [World.withItems_items, AList.lookup_insert_ne (by simp), AList.lookup_insert] at hitem'
    obtain rfl := Option.some.inj hitem'
    obtain rfl := Option.some.inj (hitem.symm.trans htreatment)
    cases hadvance with
    | safetyReleased hleft hentry =>
      refine ⟨⟨_, rfl⟩, ?_⟩
      intro key event cause fromState commit elapsed hstored hnew hbody
      have habsent : (w.items.insert .treatment (safetyReleasedItem item .safetyDeadline)).lookup
          (.journal _) = none := (AList.lookup_insert_ne (by simp)).trans hputs.absent
      rcases (storedAt_insert_journal habsent).mp hstored with ⟨-, rfl⟩ | hold
      · obtain ⟨-, rfl, -⟩ := EventBody.treatmentSafetyReleased.inj (hentry.symm.trans hbody)
        exact hleft
      · exact absurd (storedAt_insert_treatment.mp hold) hnew
    | signalled | observed | released => cases hstate
  | cleaned htreatment =>
    rw [World.withItems_items, AList.lookup_insert] at hitem'
    obtain rfl := Option.some.inj (hitem.symm.trans htreatment)
    refine ⟨⟨_, (Option.some.inj hitem').symm⟩, ?_⟩
    intro key event cause fromState commit elapsed hstored hnew
    exact absurd (storedAt_insert_treatment.mp hstored) hnew

theorem Moves.enters {i : ι} {item item' : TreatmentItem} {state : CommittedWaitState}
    (h : Moves i w w') (hitem : CoherentWith w item) (hitem' : CoherentWith w' item')
    (hbefore : waitsPassed item < waitRank state) (hafter : waitRank state ≤ waitsPassed item') :
    item'.state = state.toTreatmentState := by
  -- the next wait state after a passed one is the one entered
  have hentered : ∀ entered : CommittedWaitState,
      item'.state = entered.toTreatmentState → waitRank entered ≤ waitsPassed item + 1 →
      item'.state = state.toTreatmentState := by
    intro entered hstate hle
    have heq := hitem'.formed.waitsPassed_eq entered hstate
    have hrank : waitRank entered = waitRank state := by omega
    rw [hstate]
    cases entered <;> cases state <;> simp_all [waitRank, stateRank,
      CommittedWaitState.toTreatmentState]
  have hsame : item' ≠ item := by
    rintro rfl
    omega
  obtain ⟨found, hfound, hmoved⟩ := hitem.step h
  obtain rfl := Option.some.inj (hfound.treatment.symm.trans hitem'.treatment)
  rcases hmoved with rfl | hadvances
  · exact absurd rfl hsame
  have hedge := hadvances.edge
  generalize hstate : item.state = before at hedge
  generalize hstate' : found.state = after at hedge
  cases hedge with
  | commit => exact hstate' ▸ hentered .committedWaiting hstate' (by simp [waitRank, stateRank,
      CommittedWaitState.toTreatmentState])
  | signal =>
    have hpassed := hitem.formed.waitsPassed_eq .committedWaiting hstate
    exact hstate' ▸ hentered .timeoutSignalled hstate' (by rw [hpassed]; decide)
  | observe =>
    have hpassed := hitem.formed.waitsPassed_eq .timeoutSignalled hstate
    exact hstate' ▸ hentered .timeoutObserved hstate' (by rw [hpassed]; decide)
  | release =>
    have hpassed := hitem.formed.waitsPassed_eq .timeoutObserved hstate
    have hrank : waitRank state ≤ waitRank .timeoutObserved := by
      cases state <;> decide
    omega
  | safety =>
    obtain ⟨⟨cause, rfl⟩, -⟩ := h.safetyReleased hitem.treatment hitem'.treatment hsame hstate'
    exact absurd hafter (Nat.not_le_of_lt hbefore)

section Runs

variable [DecidableEq ι] {party : ι → Party} {w₀ : World ι} {cfg cfg' : Partition ι}

theorem Armed.was_waiting (harmed : Armed w₀)
    (hreach : Reachable (machine ι).answers (start party w₀) cfg)
    (hitem : CoherentWith cfg.world item) {state : CommittedWaitState}
    (hpassed : waitRank state ≤ waitsPassed item) :
    ∃ earlier found, Reachable (machine ι).answers (start party w₀) earlier ∧
      Reachable (machine ι).answers earlier cfg ∧
      earlier.world.items.lookup .treatment = some found ∧
      found.state = state.toTreatmentState ∧ found.providerCommitId = item.providerCommitId := by
  induction hreach generalizing item with
  | refl =>
    obtain rfl := Option.some.inj (hitem.treatment.symm.trans harmed.treatment)
    have hrank : 1 ≤ waitRank state := by
      cases state <;> decide
    have harmedPassed : waitsPassed armedTreatment = 0 := rfl
    omega
  | @tail middle cfg hmiddle hlast ih =>
    obtain ⟨i, hmove, -⟩ := harmed.moves hmiddle hlast
    obtain ⟨before, hbefore, -⟩ := harmed.reachable hmiddle
    by_cases hearlier : waitRank state ≤ waitsPassed before
    · obtain ⟨earlier, found, hstart, hrest, hlookup, hstate, hcommit⟩ := ih hbefore hearlier
      refine ⟨earlier, found, hstart, hrest.tail hlast, hlookup, hstate, ?_⟩
      -- the commit id was set then, and stays
      obtain ⟨coherent, hcoherent, -⟩ := harmed.reachable hstart
      obtain rfl := Option.some.inj (hcoherent.treatment.symm.trans hlookup)
      obtain ⟨id, hid⟩ := (hcoherent.formed.carries (by
        cases state <;> simp [hstate, CommittedWaitState.toTreatmentState])).exists
        .providerCommitId (by
          rw [hstate]
          cases state <;> decide)
      change coherent.providerCommitId = some id at hid
      obtain ⟨after, hafter, hmoved⟩ := hbefore.step hmove
      obtain rfl := Option.some.inj (hafter.treatment.symm.trans hitem.treatment)
      rcases hmoved with rfl | hadvances
      · exact hcommit
      · rw [hid, eq_comm]
        exact hadvances.keeps .providerCommitId id (hcommit.symm.trans hid)
    · refine ⟨cfg, item, hmiddle.tail hlast, .refl, hitem.treatment, ?_, rfl⟩
      exact hmove.enters hbefore hitem (Nat.lt_of_not_le hearlier) hpassed

/-- What a new safety-release event records: the state the item leaves in that step, or, when
the item had been released before, a wait state the item was in earlier. -/
theorem Armed.safety_release_recorded (harmed : Armed w₀)
    (hreach : Reachable (machine ι).answers (start party w₀) cfg)
    (hstep : Step (machine ι).answers cfg cfg') {key : JournalKey} {event : JournalEvent}
    {cause : SafetyReleaseCause} {fromState : CommittedWaitState} {commit : CommitRefs}
    {elapsed : DecimalNs} (hstored : StoredAt cfg'.world.items key event)
    (hnew : ¬ StoredAt cfg.world.items key event)
    (hbody : event.body = .treatmentSafetyReleased cause fromState commit elapsed) :
    ∃ item item', cfg.world.items.lookup .treatment = some item ∧
      cfg'.world.items.lookup .treatment = some item' ∧ item'.state = .safetyReleased ∧
      (item.state = fromState.toTreatmentState ∨
        (item' = item ∧ ∃ earlier found,
          Reachable (machine ι).answers (start party w₀) earlier ∧
          Reachable (machine ι).answers earlier cfg ∧
          earlier.world.items.lookup .treatment = some found ∧
          found.state = fromState.toTreatmentState ∧
          found.providerCommitId = item.providerCommitId)) := by
  obtain ⟨-, i, hacts, -⟩ :=
    hstep.keeps_safe (Reachable.safe hreach (harmed.allActs party))
  obtain ⟨item, hitem, -⟩ := harmed.reachable hreach
  obtain ⟨item', hitem', hmoved⟩ := hitem.step hacts.moves
  have hagrees := hitem'.chain.agrees key event hstored
  simp only [Agrees, hbody] at hagrees
  refine ⟨item, item', hitem.treatment, hitem'.treatment, hagrees, ?_⟩
  rcases hmoved with rfl | hadvances
  · -- the item was released before: the recorded state is grounded
    obtain hold | ⟨found, hfound, hpassed⟩ :=
      hacts.fair.grounded key event cause fromState commit elapsed hstored hbody
    · exact absurd hold hnew
    · obtain rfl := Option.some.inj (hfound.symm.trans hitem'.treatment)
      exact .inr ⟨rfl, harmed.was_waiting hreach hitem hpassed⟩
  · -- the step released the item and put the event
    refine .inl ?_
    have hchanged : item' ≠ item := by
      rintro rfl
      exact absurd hadvances.edge.stateRank_lt (Nat.lt_irrefl _)
    exact (hacts.moves.safetyReleased hitem.treatment hitem'.treatment hchanged hagrees).2
      key event cause fromState commit elapsed hstored hnew hbody

/-- In every run: the stored item decodes for the provider and for the controller; nobody throws
`TREATMENT_UNEXPECTED` or `SIGNAL_REDECIDED_TO_SIGNAL`; a step that stores a safety-release event
records the state the item leaves in that step or, when the item had been released before, a wait
state the item was in earlier in the run, for the same commit; and between two sleeps no party
makes more than `storeCallLimit` store calls. -/
theorem waits_settle_within_bounds (harmed : Armed w₀) {calls : List (ι × Call)}
    (hrun : Runs (machine ι).answers (start party w₀) calls cfg) :
    (∃ item, cfg.world.items.lookup .treatment = some item ∧
      decodeTreatmentItem item = .ok item ∧
      ∃ treatment, decodeControllerTreatment item = .ok treatment) ∧
    (∀ i phase, cfg.programs i ≠ .ret (.error (.providerFault .treatmentUnexpected phase))) ∧
    (∀ i, cfg.programs i ≠ .ret (.error (.controllerFault .signalRedecidedToSignal))) ∧
    (∀ cfg', Step (machine ι).answers cfg cfg' →
      ∀ key event cause fromState commit elapsed, StoredAt cfg'.world.items key event →
        ¬ StoredAt cfg.world.items key event →
        event.body = .treatmentSafetyReleased cause fromState commit elapsed →
        ∃ item item', cfg.world.items.lookup .treatment = some item ∧
          cfg'.world.items.lookup .treatment = some item' ∧ item'.state = .safetyReleased ∧
          (item.state = fromState.toTreatmentState ∨
            (item' = item ∧ ∃ earlier found,
              Reachable (machine ι).answers (start party w₀) earlier ∧
              Reachable (machine ι).answers earlier cfg ∧
              earlier.world.items.lookup .treatment = some found ∧
              found.state = fromState.toTreatmentState ∧
              found.providerCommitId = item.providerCommitId))) ∧
    (∀ i before between after, calls = before ++ between ++ after →
      (∀ call ∈ between, call.1 = i → storeMeter.resets call.2 = false) →
      storeMeter.counted i between ≤ storeCallLimit) := by
  have hreach := hrun.reachable
  obtain ⟨item, hitem, hlater⟩ := harmed.reachable hreach
  have hversion := hlater.isPositiveSafeInteger
  have hdecodes : decodeTreatmentItem item = .ok item := by
    rw [decodeTreatmentItem, if_pos hversion]
  refine ⟨⟨item, hitem.treatment, hdecodes, hitem.formed.decodes hversion⟩, ?_, ?_, ?_, ?_⟩
  · intro i phase hret
    have hexpected := Reachable.returned hreach (harmed.allActs party) hret _ rfl
    exact hexpected.1 phase rfl
  · intro i hret
    have hexpected := Reachable.returned hreach (harmed.allActs party) hret _ rfl
    exact hexpected.2 rfl
  · intro cfg' hstep key event cause fromState commit elapsed hstored hnew hbody
    exact harmed.safety_release_recorded hreach hstep hstored hnew hbody
  · rintro i before between after rfl hbetween
    exact hrun.counted_le (harmed.allActs party) (harmed.metered party i)
      (fun _ _ hacts => hacts.2) hbetween

end Runs

/-! ## A wait cleanup releases

The call waits in `COMMITTED_WAITING` and sleeps; the controller signals, cleanup releases the
item, and the call wakes up and records the wait state it had seen. -/

def callTimeoutAndCleanup : Fin 3 → Party
  | 0 => .providerCall 2 ⟨"digest", fun _ _ =>
    .accepted ⟨.conventional, 101, 102, "request", "payment", 500, "EUR"⟩⟩
  | 1 => .controllerInvocation ⟨fun _ => .ok ⟨201, 101⟩⟩
  | 2 => .cleanupRelease

def armedWorldOfThree : World (Fin 3) := ⟨armedItems, fun _ => none, []⟩

def signalledSchedule : List (Fin 3 × Choice) :=
  (([.id 1, .readOk, .readOk, .readOk, .id 2, .id 3, .reading 0, .fate .answered,
    .id 4, .reading 0, .fate .answered, .id 5, .id 6, .reading 0, .id 7, .reading 0,
    .fate .answered, .reading 0, .reading 0, .id 8, .reading 0, .fate .answered,
    .readOk, .reading 0, .done] : List Choice).map fun choice => (0, choice)) ++
  (([.readOk, .readOk, .id 20, .id 21, .reading 0, .id 22,
    .fate .answered] : List Choice).map fun choice => (1, choice)) ++ [(2, Choice.readOk)]

def preparedSchedule : List (Fin 3 × Choice) :=
  ([.readOk, .reading 0, .reading 0, .id 9, .reading 0] : List Choice).map fun choice =>
    (0, choice)

theorem armedWorldOfThree_armed : Armed armedWorldOfThree where
  treatment := rfl
  ledger := armedWorld_armed.ledger
  journal := armedWorld_armed.journal

def cleanedKey : JournalKey := ⟨.experimentJournal, .refundProvider, 2, 5⟩

def cleanedEvent : JournalEvent :=
  ⟨9, 0, .refundProvider, 2, 5, [7],
    .treatmentSafetyReleased .cleanupRequest .committedWaiting ⟨5, 1, 101⟩ 0⟩

theorem cleanedSchedule_plays : ∃ signalled cleaned prepared recorded : Partition (Fin 3),
    (start callTimeoutAndCleanup armedWorldOfThree).play (machine (Fin 3)) signalledSchedule =
      some signalled ∧
    signalled.advance (machine (Fin 3)) 2 (.fate .answered) = some cleaned ∧
    cleaned.play (machine (Fin 3)) preparedSchedule = some prepared ∧
    prepared.advance (machine (Fin 3)) 0 (.fate .answered) = some recorded ∧
    (signalled.world.items.lookup .treatment).map TreatmentItem.state = some .timeoutSignalled ∧
    (cleaned.world.items.lookup .treatment).map TreatmentItem.state = some .safetyReleased ∧
    prepared.world.items.lookup (.journal cleanedKey) = none ∧
    recorded.world.items.lookup (.journal cleanedKey) = some cleanedEvent :=
  ⟨_, _, _, _, rfl, rfl, rfl, rfl, rfl, rfl, rfl, rfl⟩

theorem cleanup_release_records_earlier_wait :
    ∃ signalled cleaned recorded : Partition (Fin 3), ∃ event commit elapsed,
      Armed armedWorldOfThree ∧
      Reachable (machine (Fin 3)).answers (start callTimeoutAndCleanup armedWorldOfThree)
        signalled ∧
      Step (machine (Fin 3)).answers signalled cleaned ∧
      (signalled.world.items.lookup .treatment).map TreatmentItem.state =
        some .timeoutSignalled ∧
      (cleaned.world.items.lookup .treatment).map TreatmentItem.state = some .safetyReleased ∧
      Reachable (machine (Fin 3)).answers cleaned recorded ∧
      StoredAt recorded.world.items cleanedKey event ∧
      event.body = .treatmentSafetyReleased .cleanupRequest .committedWaiting commit elapsed := by
  obtain ⟨signalled, cleaned, prepared, recorded, hsignalled, hcleaned, hprepared, hrecorded,
    hbefore, hafter, -, hstored⟩ := cleanedSchedule_plays
  refine ⟨signalled, cleaned, recorded, cleanedEvent, ⟨5, 1, 101⟩, 0, armedWorldOfThree_armed,
    Config.play_reachable hsignalled, Config.advance_step hcleaned, hbefore, hafter, ?_, hstored,
    rfl⟩
  exact (Config.play_reachable hprepared).tail (Config.advance_step hrecorded)

theorem waits_settle_within_bounds_cleaned : ∃ prepared recorded : Partition (Fin 3),
    Step (machine (Fin 3)).answers prepared recorded ∧
    (∃ item earlier found, prepared.world.items.lookup .treatment = some item ∧
      Reachable (machine (Fin 3)).answers earlier prepared ∧
      earlier.world.items.lookup .treatment = some found ∧ found.state = .committedWaiting ∧
      found.providerCommitId = item.providerCommitId) := by
  obtain ⟨signalled, cleaned, prepared, recorded, hsignalled, hcleaned, hprepared, hrecorded,
    -, hafter, hnew, hstored⟩ := cleanedSchedule_plays
  have hreach : Reachable (machine (Fin 3)).answers
      (start callTimeoutAndCleanup armedWorldOfThree) prepared :=
    ((Config.play_reachable hsignalled).tail (Config.advance_step hcleaned)).trans
      (Config.play_reachable hprepared)
  obtain ⟨calls, hrun⟩ := Reachable.runs hreach
  obtain ⟨-, -, -, hrecords, -⟩ := waits_settle_within_bounds armedWorldOfThree_armed hrun
  have hstep := Config.advance_step hrecorded
  obtain ⟨item, item', hitem, hitem', -, hrecorded'⟩ := hrecords recorded hstep cleanedKey
    cleanedEvent .cleanupRequest .committedWaiting ⟨5, 1, 101⟩ 0 hstored
    (fun hold => by simp [StoredAt, hnew] at hold) rfl
  refine ⟨prepared, recorded, hstep, item, ?_⟩
  rcases hrecorded' with hstate | ⟨-, earlier, found, -, hlater, hfound, hwas, hcommit⟩
  · exact ⟨prepared, item, hitem, .refl, hitem, hstate, rfl⟩
  · exact ⟨earlier, found, hitem, hlater, hfound, hwas, hcommit⟩

end RefundStudy.Treatment
