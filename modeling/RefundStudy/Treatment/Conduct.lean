/-
  What the programs of the parties do with the replies they get.
-/
import RefundStudy.Treatment.View

set_option autoImplicit false

namespace RefundStudy.Treatment

open Foundation Record RefundStudy.Runtime Journal
open Provider Controller Cleanup

variable {journal : JournalWriter} {commit : BarrierCommit}
  {event : Except InvalidCallerTimeout CallerTimeoutView} {causation : List Uuid4}
  {body : EventBody} {treatment : Option TreatmentItem} {writer : JournalWriter}
  {outcome : WriteOutcome ItemOf} {put : JournalEntry} {scenario : Scenario} {kind : CommitKind}
  {view : View}

def callBudget : Nat := 14

/-- The store calls a party makes without sleeping, at most. -/
def storeCallLimit : Nat := 21

/-- The faults a truthful store rules out are not thrown. -/
def Expected (thrown : Runtime.Thrown) : Prop :=
  (∀ phase, thrown ≠ .providerFault .treatmentUnexpected phase) ∧
    thrown ≠ .controllerFault .signalRedecidedToSignal

def Learned (view : View) (request : Call) (reply : Reply request) (view' : View) : Prop :=
  Learns view request reply view' ∧ view'.storeCalls ≤ storeCallLimit

/-- The program makes only calls of the protocol, within the limit, throws nothing unexpected,
and `Q` holds of what it returns. -/
abbrev Conducts {α : Type} (Q : α → View → Prop) (program : Async α) (view : View) : Prop :=
  TracksTo Possible Learned Expected Q program view

variable {α β : Type} {Q : α → View → Prop} {view : View}

/-! ## Single calls -/

theorem sync_conducts {result : Except Runtime.Thrown β} {rest : β → Async α}
    (hok : ∀ value, result = .ok value → Conducts Q (rest value) view)
    (herror : ∀ e, result = .error e → Expected e) :
    Conducts Q (sync result >>= rest) view := by
  cases result with
  | ok value => exact hok value rfl
  | error e => exact herror e rfl

theorem nextId_conducts {rest : Uuid4 → Async α} (hlimit : view.storeCalls ≤ storeCallLimit)
    (h : ∀ id, Conducts Q (rest id) { view with drawn := id :: view.drawn }) :
    Conducts Q (await .nextId >>= rest) view :=
  TracksTo.call fun id _ => ⟨_, ⟨.drew, hlimit⟩, h id⟩

theorem monotonicNow_conducts {rest : Nat → Async α}
    (hlimit : view.storeCalls ≤ storeCallLimit) (h : ∀ now, Conducts Q (rest now) view) :
    Conducts Q (await .monotonicNow >>= rest) view :=
  TracksTo.call fun now _ => ⟨_, ⟨.monotonicNow, hlimit⟩, h now⟩

theorem wallNow_conducts {rest : UtcMillis → Async α}
    (hlimit : view.storeCalls ≤ storeCallLimit) (h : ∀ now, Conducts Q (rest now) view) :
    Conducts Q (await .wallNow >>= rest) view :=
  TracksTo.call fun now _ => ⟨_, ⟨.wallNow, hlimit⟩, h now⟩

theorem outOfFuel_conducts : Conducts Q outOfFuel view := fun never => never.elim

/-! ## The journal -/

/-- The writer is live and its next key is the one the view knows to be absent. -/
structure Tied (writer : JournalWriter) (view : View) : Prop where
  live : writer.stopReason = none
  next : view.next = some (writer.keyAt writer.nextSequence)
  retries : writer.maxDefinitiveRetries = 2

/-- Another view of the same journal and stage, with more ids. -/
structure Beside (view view' : View) : Prop where
  storeCalls : view'.storeCalls = view.storeCalls
  drawn : view.drawn ⊆ view'.drawn
  next : view'.next = view.next
  stage : view'.stage = view.stage

theorem Beside.drew (view : View) (id : Uuid4) :
    Beside view { view with drawn := id :: view.drawn } :=
  ⟨rfl, List.subset_cons_self _ _, rfl, rfl⟩

theorem nextEntry_conducts
    (hlimit : view.storeCalls ≤ storeCallLimit) :
    Conducts (fun result view' => Beside view view' ∧
        result.1.key = writer.keyAt writer.nextSequence ∧ result.1.event.body = body ∧
        result.2 = { writer with retryable := none })
      (writer.nextEntry body causation) view := by
  refine nextId_conducts hlimit fun eventId => wallNow_conducts hlimit fun occurredAt => ?_
  split
  · exact TracksTo.pure ⟨.drew view eventId, rfl, rfl, rfl⟩
  · exact TracksTo.throw ⟨nofun, nofun⟩

variable {existing : Option (Sigma ItemOf)}

theorem Refused.ne_put {actions : List (WriteAction ItemOf)}
    {failed : Nat} (h : Refused view actions outcome)
    (hkey : view.next = some put.key) (index : Nat)
    (hput : actions[index]? = some (journalPutAction put))
    (houtcome : outcome = .conditionFailed failed existing) : failed ≠ index := by
  rintro rfl
  obtain ⟨action, found, hget, hfalse, -, hbelieves⟩ := h _ _ houtcome
  obtain rfl := Option.some.inj (hput.symm.trans hget)
  obtain rfl := hbelieves hkey
  cases hfalse

theorem writeEntry_conducts {entry : JournalEntry} (retries : Nat)
    (hkey : view.next = some entry.key) (hbody : Recordable view.stage entry.event.body)
    (hlimit : view.storeCalls + retries + 1 ≤ storeCallLimit) :
    Conducts (fun verdict view' => view'.storeCalls ≤ view.storeCalls + retries + 1 ∧
        view'.drawn = view.drawn ∧ view'.stage = view.stage ∧ verdict ≠ .sequenceConflict ∧
        (verdict = .applied → view'.next = some (nextKey entry.key)))
      (JournalWriter.writeEntry entry retries) view := by
  induction retries generalizing view with
  | zero =>
    refine TracksTo.call fun outcome hrefused =>
      ⟨_, ⟨.put hkey hbody, hlimit⟩, TracksTo.pure ?_⟩
    cases outcome with
    | conditionFailed failed existing =>
      obtain ⟨action, -, hget, -⟩ := hrefused failed existing rfl
      have hne := Refused.ne_put hrefused hkey 0 rfl rfl
      rw [List.getElem?_singleton, if_neg hne] at hget
      cases hget
    | applied => exact ⟨Nat.le_refl _, rfl, rfl, nofun, fun _ => rfl⟩
    | definitiveFailure | ambiguous => exact ⟨Nat.le_refl _, rfl, rfl, nofun, nofun⟩
  | succ retries ih =>
    have hroom : view.storeCalls + 1 ≤ storeCallLimit := by omega
    refine TracksTo.call fun outcome hrefused => ⟨_, ⟨.put hkey hbody, hroom⟩, ?_⟩
    have hle : view.storeCalls + 1 ≤ view.storeCalls + (retries + 1) + 1 := by omega
    cases outcome with
    | conditionFailed failed existing =>
      obtain ⟨action, -, hget, -⟩ := hrefused failed existing rfl
      have hne := Refused.ne_put hrefused hkey 0 rfl rfl
      rw [List.getElem?_singleton, if_neg hne] at hget
      cases hget
    | applied => exact TracksTo.pure ⟨hle, rfl, rfl, nofun, fun _ => rfl⟩
    | ambiguous => exact TracksTo.pure ⟨hle, rfl, rfl, nofun, nofun⟩
    | definitiveFailure code =>
      -- the key is still absent: the same put is tried again
      have hagain := @ih (view.settled entry.key (.definitiveFailure code) view.stage) rfl hbody
        (by simp only [View.settled]; omega)
      refine TracksTo.weaken hagain fun verdict view' => ?_
      rintro ⟨hcalls, hdrawn, hstage, hconflict, happlied⟩
      refine ⟨?_, hdrawn, hstage, hconflict, happlied⟩
      simp only [View.settled] at hcalls
      omega

/-- What a view is after an append: at most three more store calls, and a writer that is
still live is tied to it. -/
structure AppendedTo (view : View) (result : Journal.AppendResult × JournalWriter) (view' : View) :
    Prop where
  storeCalls : view'.storeCalls ≤ view.storeCalls + 3
  drawn : view.drawn ⊆ view'.drawn
  stage : view'.stage = view.stage
  tied : ∀ event, result.1 = .appended event → Tied result.2 view'

theorem append_conducts
    (htied : Tied writer view) (hbody : Recordable view.stage body)
    (hlimit : view.storeCalls + 3 ≤ storeCallLimit) :
    Conducts (AppendedTo view) (writer.append body causation) view := by
  unfold JournalWriter.append
  rw [htied.live]
  cases hreserved : writer.reservation with
  | some put => exact TracksTo.throw ⟨nofun, nofun⟩
  | none =>
    refine TracksTo.bind (nextEntry_conducts (Nat.le_trans (Nat.le_add_right _ 3) hlimit)) ?_
    rintro ⟨entry, writer₁⟩ view₁ ⟨hbeside, hkey, hentry, rfl⟩
    have hnext : view₁.next = some entry.key := by
      rw [hbeside.next, htied.next, hkey]
    have hrecordable : Recordable view₁.stage entry.event.body := by
      rw [hbeside.stage, hentry]
      exact hbody
    have hretries : writer.maxDefinitiveRetries = 2 := htied.retries
    have hcalls := hbeside.storeCalls
    refine TracksTo.bind (writeEntry_conducts _ hnext hrecordable ?_) ?_
    · simp only [hretries]
      omega
    rintro verdict view₂ ⟨hcalls₂, hdrawn, hstage, hconflict, happlied⟩
    simp only [hretries] at hcalls₂
    have hafter : ∀ result : Journal.AppendResult × JournalWriter,
        (∀ event, result.1 = .appended event → Tied result.2 view₂) →
        AppendedTo view result view₂ := fun result htied₂ =>
      ⟨by omega, hdrawn ▸ hbeside.drawn, hstage.trans hbeside.stage, htied₂⟩
    cases verdict with
    | notApplied | ambiguous =>
      exact TracksTo.pure (hafter _ fun event hevent => by cases hevent)
    | sequenceConflict => exact absurd rfl hconflict
    | applied =>
      refine TracksTo.pure (hafter _ fun _ _ => ⟨htied.live, ?_, hretries⟩)
      rw [happlied rfl, hkey]
      rfl

theorem prepare_conducts
    (htied : Tied writer view) (hlimit : view.storeCalls ≤ storeCallLimit) :
    Conducts (fun result view' => Beside view view' ∧ ∃ put,
        result = (.prepared put, { writer with reservation := some put, retryable := none }) ∧
        put.key = writer.keyAt writer.nextSequence ∧ put.event.body = body)
      (writer.prepare body causation) view := by
  unfold JournalWriter.prepare
  split
  · rename_i reason hstopped
    rw [htied.live] at hstopped
    cases hstopped
  · split
    · exact TracksTo.throw ⟨nofun, nofun⟩
    · refine TracksTo.bind (nextEntry_conducts hlimit) ?_
      rintro ⟨entry, writer₁⟩ view₁ ⟨hbeside, hkey, hentry, rfl⟩
      exact TracksTo.pure ⟨hbeside, entry, rfl, hkey, hentry⟩

/-- Confirming a put whose own key was not refused: it is stored, or the writer stops, or it may
be tried again. -/
theorem confirm_conducts
    {index : Nat} {rest : ConfirmResult × JournalWriter → Async α}
    (hput : ∀ failed existing, outcome = .conditionFailed failed existing → failed ≠ index)
    (happlied : outcome = .applied → Conducts Q (rest (.appended put.event, { writer with
      reservation := none, retryable := none, nextSequence := writer.nextSequence + 1 })) view)
    (hstopped : ∀ writer', Conducts Q (rest (.stopped .ambiguousAppend, writer')) view)
    (hrefused : ((∃ code, outcome = .definitiveFailure code) ∨
        ∃ failed existing, outcome = .conditionFailed failed existing ∧ failed ≠ index) →
      Conducts Q (rest (.notApplied put.event outcome,
        { writer with reservation := none, retryable := some put })) view) :
    Conducts Q (sync ({ writer with reservation := some put, retryable := none }.confirm
      put outcome index) >>= rest) view := by
  unfold JournalWriter.confirm
  rw [if_pos rfl]
  cases outcome with
  | applied => exact happlied rfl
  | ambiguous code => exact hstopped _
  | definitiveFailure code => exact hrefused (.inl ⟨code, rfl⟩)
  | conditionFailed failed existing =>
    have hne := hput failed existing rfl
    simp only [classifyJournalOutcome, if_pos hne]
    exact hrefused (.inr ⟨failed, existing, rfl, hne⟩)

/-! ## The provider call up to its commit -/

theorem recordable_of_not {stage : Stage}
    (h : ∀ cause fromState commit elapsed,
      body ≠ .treatmentSafetyReleased cause fromState commit elapsed) : Recordable stage body :=
  fun cause fromState commit elapsed hbody => absurd hbody (h cause fromState commit elapsed)

theorem appendOrFault_conducts {phase : FaultPhase}
    (htied : Tied journal view) (hbody : Recordable view.stage body)
    (hlimit : view.storeCalls + 3 ≤ storeCallLimit) :
    Conducts (fun result view' => view'.storeCalls ≤ view.storeCalls + 3 ∧
        view.drawn ⊆ view'.drawn ∧ view'.stage = view.stage ∧ Tied result.2 view')
      (appendOrFault journal body phase causation) view := by
  refine TracksTo.bind (append_conducts htied hbody hlimit) ?_
  rintro ⟨appended, journal₁⟩ view₁ ⟨hcalls, hdrawn, hstage, htied₁⟩
  cases appended with
  | stopped reason => exact TracksTo.throw ⟨nofun, nofun⟩
  | appended event => exact TracksTo.pure ⟨hcalls, hdrawn, hstage, htied₁ event rfl⟩

theorem readControl_conducts {View : Type} {key : ItemKey}
    {decode : ItemOf key → Except String View} (hlimit : view.storeCalls + 1 ≤ storeCallLimit) :
    Conducts (fun _ view' => view'.storeCalls = view.storeCalls + 1)
      (readControl key decode) view := by
  refine TracksTo.call fun read _ => ⟨_, ⟨.read, hlimit⟩, ?_⟩
  match read with
  | .error code => exact TracksTo.pure rfl
  | .ok none => exact TracksTo.pure rfl
  | .ok (some item) =>
    dsimp only
    split
    · exact TracksTo.pure rfl
    · exact TracksTo.pure rfl

/-- What a view is after the commit of a call: the targeted call waits for it. -/
structure CommittedTo (plan : CommitPlan) (journal : JournalWriter) (view : View) : Prop where
  tied : Tied journal view
  targeted : plan.kind = .targeted → view.stage = .waiting plan.identities.providerCommitId 1 1
  untargeted : plan.kind = .untargeted → view.stage = .free

variable {request : CommitRequest}

theorem recordCommitFailure_conducts {plan : CommitPlan}
    (htied : Tied journal view)
    (hlimit : view.storeCalls + 3 ≤ storeCallLimit) :
    Conducts Q (recordCommitFailure journal request plan outcome) view := by
  refine TracksTo.bind (append_conducts htied (recordable_of_not nofun) hlimit) ?_
  rintro ⟨failed, journal₁⟩ view₁ _
  cases failed with
  | stopped reason => exact TracksTo.throw ⟨nofun, nofun⟩
  | appended event => exact TracksTo.throw ⟨nofun, nofun⟩

theorem planCommit_kind (input : CommitPlanInput) : (planCommit input).kind = input.kind := by
  unfold planCommit
  cases input.kind <;> rfl

theorem planCommit_identities (input : CommitPlanInput) :
    (planCommit input).identities = input.identities := by
  unfold planCommit
  cases input.kind <;> rfl

theorem committedTo_applied {input : CommitPlanInput}
    (htied : Tied journal view) (hstage : view.stage = .committed input .applied) :
    CommittedTo (planCommit input) journal view := by
  refine ⟨htied, fun hkind => ?_, fun hkind => ?_⟩
  · rw [planCommit_kind] at hkind
    rw [hstage, planCommit_identities]
    simp only [Stage.committed, hkind]
  · rw [planCommit_kind] at hkind
    rw [hstage]
    simp only [Stage.committed, hkind]

/-- One commit: one store call, and a re-plan starts from a view that is tied again. -/
theorem attemptCommitWith_conducts {replan : JournalWriter → Async CommittedPlan}
    {calls : Nat} (htied : Tied journal view)
    (hlimit : view.storeCalls + 4 ≤ storeCallLimit) (hcalls : view.storeCalls + 1 ≤ calls)
    (hreplan : ∀ journal view', Tied journal view' →
      view'.storeCalls = view.storeCalls + 1 →
      Conducts (fun attempt view'' => view''.storeCalls ≤ calls ∧
        CommittedTo attempt.plan attempt.journal view'') (replan journal) view') :
    Conducts (fun attempt view' => view'.storeCalls ≤ calls ∧
        CommittedTo attempt.plan attempt.journal view')
      (attemptCommitWith request replan journal kind) view := by
  have hroom : view.storeCalls ≤ storeCallLimit := by omega
  refine nextId_conducts hroom fun providerCommitId => nextId_conducts hroom
    fun providerTransactionId => wallNow_conducts hroom fun requestedAt => ?_
  refine TracksTo.bind (prepare_conducts ⟨htied.live, htied.next, htied.retries⟩ hroom) ?_
  rintro ⟨prepared, journal₁⟩ view₁ ⟨hbeside, put, hprepared, hkey, hbody⟩
  obtain ⟨rfl, rfl⟩ := Prod.mk.inj hprepared
  have hcalls₁ : view₁.storeCalls = view.storeCalls := hbeside.storeCalls
  have hnext : view₁.next = some put.key := by
    rw [hbeside.next, hkey]
    exact htied.next
  have hdrawn : providerCommitId ∈ view₁.drawn := hbeside.drawn (by simp)
  have hrecordable : Recordable .free put.event.body := by
    rw [hbody]
    exact recordable_of_not nofun
  refine TracksTo.call fun outcome hrefused => ?_
  refine ⟨_, ⟨@Learns.committed view₁ ⟨kind, request.call, request.providerCallId,
    ⟨providerCommitId, providerTransactionId⟩, requestedAt, put⟩ _ outcome hnext hdrawn
    hrecordable, ?_⟩, ?_⟩
  · simp only [View.settled]
    omega
  -- only the equations of the plan matter from here
  generalize hinput : (⟨kind, request.call, request.providerCallId,
    ⟨providerCommitId, providerTransactionId⟩, requestedAt, put⟩ : CommitPlanInput) = input
  have hput : (planCommit input).actions[commitJournalActionIndex]? =
      some (journalPutAction put) := by
    rw [← hinput]
    exact planCommit_put _
  have hevent : input.commitEvent.key = put.key := by rw [← hinput]
  rw [hinput] at hrefused
  have hroom₁ : view₁.storeCalls + 1 ≤ storeCallLimit := by omega
  refine monotonicNow_conducts hroom₁ fun ackNs => wallNow_conducts hroom₁ fun ackWall => ?_
  have hne : ∀ failed existing, outcome = .conditionFailed failed existing →
      failed ≠ commitJournalActionIndex := fun failed existing houtcome =>
    Refused.ne_put hrefused hnext commitJournalActionIndex hput houtcome
  refine confirm_conducts hne ?_ (fun _ => TracksTo.throw ⟨nofun, nofun⟩) ?_
  · rintro rfl
    refine TracksTo.pure ⟨?_, committedTo_applied ⟨htied.live, ?_, htied.retries⟩ rfl⟩
    · simp only [View.settled]
      omega
    · simp only [View.settled, nextAfter, hevent, hkey]
      rfl
  · intro houtcome
    -- the store is as it was: the key is still next
    have hsettled : view₁.settled input.commitEvent.key outcome (.committed input outcome) =
        { view₁ with storeCalls := view₁.storeCalls + 1, stage := .free } := by
      rcases houtcome with ⟨code, rfl⟩ | ⟨failed, existing, rfl, -⟩
      · simp only [View.settled, nextAfter, hevent, hnext, Stage.committed]
      · simp only [View.settled, nextAfter, hevent, hnext, Stage.committed]
    rw [hsettled]
    have htied₁ : Tied { journal with reservation := none, retryable := some put }
        { view₁ with storeCalls := view₁.storeCalls + 1, stage := .free } := by
      refine ⟨htied.live, ?_, htied.retries⟩
      rw [hnext, hkey]
      rfl
    dsimp only
    split
    · exact hreplan _ _ htied₁ (by simp only [hcalls₁])
    · refine recordCommitFailure_conducts htied₁ ?_
      simp only
      omega

theorem attemptCommit_conducts
    (htied : Tied journal view) (hlimit : view.storeCalls + 5 ≤ storeCallLimit) :
    Conducts (fun attempt view' => view'.storeCalls ≤ view.storeCalls + 2 ∧
        CommittedTo attempt.plan attempt.journal view')
      (attemptCommit request 1 journal kind) view := by
  refine attemptCommitWith_conducts htied (by omega) (by omega) ?_
  intro journal₁ view₁ htied₁ hcalls₁
  refine attemptCommitWith_conducts htied₁ (by omega) (by omega) ?_
  exact fun _ _ _ _ => outOfFuel_conducts

theorem executeCommit_conducts
    (htied : Tied journal view) (hlimit : view.storeCalls + 5 ≤ storeCallLimit) :
    Conducts (fun commit view' => view'.storeCalls ≤ view.storeCalls + 5 ∧
        CommittedTo commit.plan commit.journal view')
      (executeCommit journal request kind) view := by
  refine TracksTo.bind (attemptCommit_conducts htied hlimit) ?_
  rintro attempt view₁ ⟨hcalls, hcommitted⟩
  refine TracksTo.bind (append_conducts hcommitted.tied (recordable_of_not nofun) (by omega)) ?_
  rintro ⟨confirmed, journal₁⟩ view₂ ⟨hcalls₂, hdrawn, hstage, htied₂⟩
  cases confirmed with
  | stopped reason => exact TracksTo.throw ⟨nofun, nofun⟩
  | appended event =>
    refine TracksTo.pure ⟨by omega, htied₂ event rfl, fun hkind => ?_, fun hkind => ?_⟩
    · exact hstage.trans (hcommitted.targeted hkind)
    · exact hstage.trans (hcommitted.untargeted hkind)

/-! ## The wait at the barrier -/

/-- The call waits for its own commit: the stage says so, and the last wait state it read or
wrote is one the item has passed. -/
structure AtBarrier (ownCommitId : Uuid4) (barrier : TreatmentBarrier) (view : View) : Prop where
  tied : Tied barrier.journal view
  stage : ∃ rank passed, view.stage = .waiting ownCommitId rank passed ∧
    waitRank barrier.waitState ≤ passed

structure Imaged (ownCommitId : Uuid4) (image : TreatmentItem) (view : View) : Prop where
  stage : view.stage = .waiting ownCommitId (stateRank image.state) (waitsPassed image)
  shows : Shows view.stage image

def AfterStep (ownCommitId : Uuid4) (view : View) (barrier : TreatmentBarrier)
    (fromState : CommittedWaitState) (target : BarrierTarget)
    (result : TransitionResult × TreatmentBarrier) (view' : View) : Prop :=
  view'.storeCalls = view.storeCalls + 1 ∧ Tied result.2.journal view' ∧
  match result.1 with
  | .applied _ => (∃ rank passed,
        view'.stage = .transitioned ownCommitId rank passed target .applied) ∧
      result.2.waitState = latestWaitState (some target.toTreatmentState) barrier.waitState
  | .superseded current => Imaged ownCommitId current view' ∧ Shows view.stage current ∧
      current.state ≠ fromState.toTreatmentState ∧ result.2.waitState = barrier.waitState
  | .notApplied => view'.stage = view.stage ∧ result.2.waitState = barrier.waitState

variable {target : BarrierTarget} {fromState : CommittedWaitState}

theorem Refused.superseded {eventIdAttribute : Option EventIdAttribute}
    {failed : Nat}
    (h : Refused view (transitionActions fromState target eventIdAttribute put)
      (.conditionFailed failed existing)) (hne : failed ≠ transitionJournalActionIndex) :
    ∃ item, existing = some ⟨.treatment, item⟩ ∧ Shows view.stage item ∧
      item.state ≠ fromState.toTreatmentState := by
  obtain ⟨action, found, hget, hfalse, hexisting, hbelieves⟩ := h failed existing rfl
  match failed, hget with
  | 0, hget =>
    obtain rfl := Option.some.inj hget
    obtain ⟨item, rfl, hshows⟩ := hbelieves
    refine ⟨item, hexisting, hshows, fun hstate => ?_⟩
    have htrue : attributeEquals TreatmentItem.state fromState.toTreatmentState (some item) =
        true := (attributeEquals_iff _ _ _).mpr ⟨item, rfl, hstate⟩
    exact absurd (hfalse.symm.trans htrue) (by simp)
  | 1, _ => exact absurd rfl hne
  | failed + 2, hget => simp [transitionActions] at hget

theorem Shows.decodes {stage : Stage} {item : TreatmentItem} (h : Shows stage item) :
    decodeTreatmentItem item = .ok item := by
  unfold decodeTreatmentItem
  rw [if_pos h.2.1]

variable {barrier : TreatmentBarrier} {ownCommitId : Uuid4}

theorem transition_conducts {eventIdAttribute : Option EventIdAttribute}
    (hwaits : AtBarrier ownCommitId barrier view)
    (hbody : ∀ cause state commit elapsed,
      body = .treatmentSafetyReleased cause state commit elapsed → state = fromState)
    (hlimit : view.storeCalls + 1 ≤ storeCallLimit) :
    Conducts (AfterStep ownCommitId view barrier fromState target)
      (barrier.transition fromState target eventIdAttribute body causation) view := by
  obtain ⟨htied, rank, passed, hstage, -⟩ := hwaits
  refine TracksTo.bind (prepare_conducts htied (by omega)) ?_
  rintro ⟨prepared, journal₁⟩ view₁ ⟨hbeside, put, hprepared, hkey, hput⟩
  obtain ⟨rfl, rfl⟩ := Prod.mk.inj hprepared
  have hcalls₁ := hbeside.storeCalls
  refine nextId_conducts (by omega) fun token => TracksTo.call fun outcome hrefused => ?_
  have hnext : view₁.next = some put.key := by
    rw [hbeside.next, htied.next, hkey]
  have hstage₁ : view₁.stage = .waiting ownCommitId rank passed := hbeside.stage.trans hstage
  refine ⟨_, ⟨.transitioned hstage₁ hnext (hput ▸ hbody), ?_⟩, ?_⟩
  · simp only [View.settled]
    omega
  have hne : ∀ failed existing, outcome = .conditionFailed failed existing →
      failed ≠ transitionJournalActionIndex := fun failed existing houtcome =>
    Refused.ne_put hrefused hnext transitionJournalActionIndex rfl houtcome
  have htied₁ : ∀ retryable view', view'.next = some put.key →
      Tied { barrier.journal with reservation := none, retryable := retryable } view' :=
    fun retryable view' hview => ⟨htied.live, hview.trans (congrArg some hkey), htied.retries⟩
  refine confirm_conducts hne ?_ (fun _ => TracksTo.throw ⟨nofun, nofun⟩) ?_
  · rintro rfl
    refine TracksTo.pure ⟨?_, ⟨htied.live, ?_, htied.retries⟩, ⟨rank, passed, rfl⟩, rfl⟩
    · simp only [View.settled, hcalls₁]
    · simp only [View.settled, nextAfter, hkey]
      rfl
  · intro houtcome
    rcases houtcome with ⟨code, rfl⟩ | ⟨failed, existing, rfl, hfailed⟩
    · -- a definitive failure changed nothing
      refine TracksTo.pure ⟨?_, htied₁ _ _ rfl, ?_, rfl⟩
      · simp only [View.settled, hcalls₁]
      · exact hstage.symm
    · -- the treatment update was refused: its image is the item, in another state
      obtain ⟨item, rfl, hshows, hstate⟩ := Refused.superseded hrefused hfailed
      have hshows' : Shows view.stage item := hbeside.stage ▸ hshows
      have hresult : notAppliedResult (.conditionFailed failed (some ⟨.treatment, item⟩)) =
          .ok (.superseded item) := by
        simp only [notAppliedResult, hshows.decodes]
      refine sync_conducts (fun result hvalue' => ?_) fun e hvalue' => ?_
      · obtain rfl := Except.ok.inj (hresult.symm.trans hvalue')
        rw [hstage] at hshows'
        refine TracksTo.pure ⟨?_, htied₁ _ _ rfl, ⟨rfl, ?_⟩, ?_, hstate, rfl⟩
        · simp only [View.settled, hcalls₁]
        · exact ⟨hshows'.1, hshows'.2.1, hshows'.2.2.1, hshows'.2.2.2.1, Nat.le_refl _,
            Nat.le_refl _⟩
        · rw [hstage]
          exact hshows'
      · cases hresult.symm.trans hvalue'

/-- What one turn of the wait leads to: after a sleep the count starts again, and an image to
decide from pays for the store calls made so far with its rank. -/
def Turned (ownCommitId : Uuid4) (result : Performed × TreatmentBarrier) (view : View) : Prop :=
  match result.1 with
  | .ended _ => True
  | .read => AtBarrier ownCommitId result.2 view ∧ view.storeCalls = 0
  | .decideFrom image => AtBarrier ownCommitId result.2 view ∧ Imaged ownCommitId image view ∧
      view.storeCalls ≤ callBudget + stateRank image.state

variable {passed : Nat}

/-- A call that waits has committed, so the item it is shown has left `ARMED`. -/
theorem Shows.committed {rank : Nat} {item : TreatmentItem}
    (h : Shows (.waiting ownCommitId rank passed) item) : 1 ≤ stateRank item.state := by
  obtain ⟨hformed, -, hown, -⟩ := h
  cases hstate : item.state with
  | armed =>
    have hnone := (hformed.carries (by simp [hstate])).eq_none .providerCommitId
      (by simp [hstate, fieldsOf])
    exact absurd (hnone.symm.trans hown) (by simp)
  | committedWaiting | timeoutSignalled | timeoutObserved | responseReleased | safetyReleased =>
    decide

theorem waitRank_lt {state : TreatmentState} (hle : waitRank fromState ≤ stateRank state)
    (hne : state ≠ fromState.toTreatmentState) : waitRank fromState + 1 ≤ stateRank state := by
  cases fromState <;> cases state <;>
    simp_all [waitRank, stateRank, CommittedWaitState.toTreatmentState]

theorem pollAgain_conducts (hwaits : AtBarrier ownCommitId barrier view) :
    Conducts (Turned ownCommitId)
      (do let next ← TreatmentBarrier.waitOnePoll
          pure (next, barrier)) view := by
  refine TracksTo.call fun _ _ => ⟨_, ⟨.slept, Nat.zero_le _⟩, ?_⟩
  exact TracksTo.pure ⟨⟨⟨hwaits.tied.live, hwaits.tied.next, hwaits.tied.retries⟩, hwaits.stage⟩,
    rfl⟩

/-- Continuing after a transition that did not apply: a superseded one has an image that is
further than the state it was to leave. -/
theorem continueAfter_conducts {barrier' : TreatmentBarrier} {result : TransitionResult}
    {view view' : View} (hwaits : AtBarrier ownCommitId barrier view)
    (hfrom : ∀ image, Shows view.stage image → waitRank fromState ≤ stateRank image.state)
    (hcalls : view.storeCalls ≤ callBudget + waitRank fromState)
    (hafter : AfterStep ownCommitId view barrier fromState target (result, barrier') view')
    (hresult : ∀ eventId, result ≠ .applied eventId) :
    Conducts (Turned ownCommitId)
      (do let next ← TreatmentBarrier.continueAfter result
          pure (next, barrier')) view' := by
  obtain ⟨hcalls', htied', hcase⟩ := hafter
  obtain ⟨rank, passed, hstage, hpassed⟩ := hwaits.stage
  cases result with
  | applied eventId => exact absurd rfl (hresult eventId)
  | notApplied =>
    obtain ⟨hstage', hwaitState⟩ := hcase
    refine pollAgain_conducts ⟨htied', rank, passed, hstage'.trans hstage, ?_⟩
    rw [hwaitState]
    exact hpassed
  | superseded current =>
    obtain ⟨himaged, hshows, hstate, hwaitState⟩ := hcase
    have hlt := waitRank_lt (hfrom current hshows) hstate
    refine TracksTo.pure ⟨⟨htied', _, _, himaged.stage, ?_⟩, himaged, by omega⟩
    rw [hwaitState]
    rw [hstage] at hshows
    exact Nat.le_trans hpassed hshows.2.2.2.2.2

theorem release_conducts {observedEventId : Uuid4}
    (hwaits : AtBarrier commit.providerCommitId barrier view)
    (hfrom : ∀ image, Shows view.stage image → waitRank .timeoutObserved ≤ stateRank image.state)
    (hcalls : view.storeCalls ≤ callBudget + waitRank .timeoutObserved) :
    Conducts (Turned commit.providerCommitId) (barrier.release commit observedEventId) view := by
  have hlimit : view.storeCalls + 1 ≤ storeCallLimit := by
    simp only [callBudget, storeCallLimit, waitRank, stateRank,
      CommittedWaitState.toTreatmentState] at hcalls ⊢
    omega
  refine TracksTo.bind (transition_conducts hwaits ?_ hlimit) ?_
  · intro cause state refs elapsed hbody
    cases hbody
  rintro ⟨result, barrier'⟩ view' hafter
  cases result with
  | applied eventId => exact TracksTo.pure trivial
  | superseded | notApplied =>
    refine continueAfter_conducts hwaits hfrom hcalls hafter ?_
    intro eventId happlied
    cases happlied

theorem observe_conducts {signalEventId : Uuid4}
    (hwaits : AtBarrier commit.providerCommitId barrier view)
    (hfrom : ∀ image, Shows view.stage image → waitRank .timeoutSignalled ≤ stateRank image.state)
    (hcalls : view.storeCalls ≤ callBudget + waitRank .timeoutSignalled) :
    Conducts (Turned commit.providerCommitId) (barrier.observe commit signalEventId) view := by
  have hlimit : view.storeCalls + 1 ≤ storeCallLimit := by
    simp only [callBudget, storeCallLimit, waitRank, stateRank,
      CommittedWaitState.toTreatmentState] at hcalls ⊢
    omega
  refine TracksTo.bind (transition_conducts hwaits ?_ hlimit) ?_
  · intro cause state refs elapsed hbody
    cases hbody
  rintro ⟨result, barrier'⟩ view' hafter
  cases result with
  | applied eventId =>
    obtain ⟨hcalls', htied', ⟨rank, passed, hstage'⟩, hwaitState⟩ := hafter
    have hobserved : view'.stage = .waiting commit.providerCommitId 3 3 := hstage'
    have hnext : waitRank .timeoutSignalled + 1 = waitRank .timeoutObserved := rfl
    refine release_conducts ⟨htied', 3, 3, hobserved, ?_⟩ ?_ (by omega)
    · rw [hwaitState]
      exact Nat.le_refl _
    · intro image hshows
      rw [hobserved] at hshows
      exact hshows.2.2.2.2.1
  | superseded | notApplied =>
    refine continueAfter_conducts hwaits hfrom hcalls hafter ?_
    intro eventId happlied
    cases happlied

theorem safetyReleaseBody_conducts {cause : SafetyReleaseCause}
    (hlimit : view.storeCalls ≤ storeCallLimit) :
    Conducts (fun body view' => view' = view ∧ ∃ elapsed,
        body = .treatmentSafetyReleased cause fromState commit.refs elapsed)
      (TreatmentBarrier.safetyReleaseBody commit cause fromState) view := by
  refine monotonicNow_conducts hlimit fun now => sync_conducts (fun elapsed _ => ?_) ?_
  · exact TracksTo.pure ⟨rfl, elapsed, rfl⟩
  · intro e herror
    unfold elapsedNs at herror
    split at herror
    · obtain rfl := Except.error.inj herror
      exact ⟨nofun, nofun⟩
    · cases herror

theorem safetyRelease_conducts
    (hwaits : AtBarrier commit.providerCommitId barrier view)
    (hfrom : ∀ image, Shows view.stage image → waitRank fromState ≤ stateRank image.state)
    (hcalls : view.storeCalls ≤ callBudget + waitRank fromState) :
    Conducts (Turned commit.providerCommitId) (barrier.safetyRelease commit fromState) view := by
  have hrank : waitRank fromState ≤ 3 := by
    cases fromState <;> decide
  have hlimit : view.storeCalls + 1 ≤ storeCallLimit := by
    simp only [callBudget, storeCallLimit] at hcalls ⊢
    omega
  refine TracksTo.bind (safetyReleaseBody_conducts (by omega)) ?_
  rintro body view₁ ⟨rfl, elapsed, rfl⟩
  refine TracksTo.bind (transition_conducts hwaits ?_ hlimit) ?_
  · intro cause state refs elapsed' hbody
    obtain ⟨-, rfl, -, -⟩ := EventBody.treatmentSafetyReleased.inj hbody
    rfl
  rintro ⟨result, barrier'⟩ view' hafter
  cases result with
  | applied eventId => exact TracksTo.pure trivial
  | superseded | notApplied => exact continueAfter_conducts hwaits hfrom hcalls hafter nofun

/-- Recording somebody else's safety release: three store calls at most, and the wait is over. -/
theorem recordExternalRelease_conducts {cause : SafetyReleaseCause}
    (hwaits : AtBarrier commit.providerCommitId barrier view)
    (hcalls : view.storeCalls ≤ callBudget + 4) :
    Conducts (Turned commit.providerCommitId) (barrier.recordExternalRelease commit cause)
      view := by
  obtain ⟨rank, passed, hstage, hpassed⟩ := hwaits.stage
  have hlimit : view.storeCalls + 3 ≤ storeCallLimit := by
    simp only [callBudget, storeCallLimit] at hcalls ⊢
    omega
  refine TracksTo.bind (safetyReleaseBody_conducts (by omega)) ?_
  rintro body view₁ ⟨rfl, elapsed, rfl⟩
  refine TracksTo.bind (append_conducts hwaits.tied ?_ hlimit) ?_
  · intro cause' state refs elapsed' hbody
    obtain ⟨-, rfl, -, -⟩ := EventBody.treatmentSafetyReleased.inj hbody
    exact ⟨_, _, _, hstage, hpassed⟩
  rintro ⟨appended, journal⟩ view' _
  cases appended with
  | stopped reason => exact TracksTo.throw ⟨nofun, nofun⟩
  | appended event => exact TracksTo.pure trivial

def DecidedFrom (treatment : Option TreatmentItem) (ownCommitId : Uuid4) : BarrierStep → Prop
  | .keepWaiting => True
  | .observe _ => ∃ image, treatment = some image ∧ image.state = .timeoutSignalled
  | .release _ => ∃ image, treatment = some image ∧ image.state = .timeoutObserved
  | .safetyRelease fromState => (treatment = none ∧ fromState = .committedWaiting) ∨
      ∃ image, treatment = some image ∧ image.state = fromState.toTreatmentState
  | .externallyReleased _ => ∃ image, treatment = some image ∧ image.state = .safetyReleased
  | .unexpectedState => ∃ image, treatment = some image ∧
      (image.providerCommitId ≠ some ownCommitId ∨ image.state = .armed ∨
        image.state = .responseReleased ∨
        (image.state = .timeoutObserved ∧ image.observedEventId = none))

theorem decideBarrierStep_decidedFrom (treatment : Option TreatmentItem) (ownCommitId : Uuid4)
    (elapsed deadline : Int) :
    DecidedFrom treatment ownCommitId (decideBarrierStep treatment ownCommitId elapsed deadline) := by
  unfold decideBarrierStep
  cases treatment with
  | none =>
    dsimp only
    split
    · exact .inl ⟨rfl, rfl⟩
    · trivial
  | some image =>
    dsimp only
    split
    · rename_i hother
      exact ⟨image, rfl, .inl hother⟩
    · cases hstate : image.state with
      | armed => exact ⟨image, rfl, .inr (.inl hstate)⟩
      | responseReleased => exact ⟨image, rfl, .inr (.inr (.inl hstate))⟩
      | safetyReleased => exact ⟨image, rfl, hstate⟩
      | committedWaiting =>
        dsimp only
        split
        · exact .inr ⟨image, rfl, hstate⟩
        · trivial
      | timeoutSignalled =>
        dsimp only [signalledStep]
        split
        · exact ⟨image, rfl, hstate⟩
        · split
          · exact .inr ⟨image, rfl, hstate⟩
          · trivial
      | timeoutObserved =>
        dsimp only [observedStep]
        split
        · rename_i hnone
          exact ⟨image, rfl, .inr (.inr (.inr ⟨hstate, hnone⟩))⟩
        · exact ⟨image, rfl, hstate⟩

theorem Shows.expected {rank : Nat} {image : TreatmentItem}
    (h : Shows (.waiting ownCommitId rank passed) image)
    (hunexpected : DecidedFrom (some image) ownCommitId .unexpectedState) : False := by
  have hcommitted := h.committed
  obtain ⟨hformed, -, hown, hheld, -⟩ := h
  obtain ⟨found, hfound, hcase⟩ := hunexpected
  obtain rfl := Option.some.inj hfound
  rcases hcase with hother | harmed | hreleased | ⟨hobserved, hnone⟩
  · exact hother hown
  · rw [harmed] at hcommitted
    exact absurd hcommitted (by decide)
  · exact hheld hreleased
  · have hset := (hformed.carries (by simp [hobserved]) .observedEventId).mpr
      (by simp [hobserved, fieldsOf])
    rw [idOf, hnone] at hset
    cases hset

theorem perform_conducts {elapsed : Int}
    (hwaits : AtBarrier commit.providerCommitId barrier view)
    (himage : ∀ image, treatment = some image → Imaged commit.providerCommitId image view ∧
      view.storeCalls ≤ callBudget + stateRank image.state)
    (hnone : treatment = none → view.storeCalls ≤ callBudget + 1) :
    Conducts (Turned commit.providerCommitId)
      (barrier.perform commit
        (decideBarrierStep treatment commit.providerCommitId elapsed safetyReleaseNs)) view := by
  have hdecided := decideBarrierStep_decidedFrom treatment commit.providerCommitId elapsed
    safetyReleaseNs
  generalize decideBarrierStep treatment commit.providerCommitId elapsed safetyReleaseNs = step
    at hdecided
  -- an item found later is at least as far as the image
  have hlater : ∀ image, Imaged commit.providerCommitId image view → ∀ found,
      Shows view.stage found → stateRank image.state ≤ stateRank found.state := by
    intro image himaged found hshows
    rw [himaged.stage] at hshows
    exact hshows.2.2.2.2.1
  cases step with
  | keepWaiting => exact pollAgain_conducts hwaits
  | observe signalEventId =>
    obtain ⟨image, hsome, hstate⟩ := hdecided
    obtain ⟨himaged, hcalls⟩ := himage image hsome
    have hfrom := hlater image himaged
    rw [hstate] at hcalls hfrom
    exact observe_conducts hwaits hfrom hcalls
  | release observedEventId =>
    obtain ⟨image, hsome, hstate⟩ := hdecided
    obtain ⟨himaged, hcalls⟩ := himage image hsome
    have hfrom := hlater image himaged
    rw [hstate] at hcalls hfrom
    exact release_conducts hwaits hfrom hcalls
  | safetyRelease fromState =>
    rcases hdecided with ⟨hfailed, rfl⟩ | ⟨image, hsome, hstate⟩
    · obtain ⟨rank, passed, hstage, -⟩ := hwaits.stage
      refine safetyRelease_conducts hwaits (fun found hshows => ?_) (hnone hfailed)
      rw [hstage] at hshows
      exact hshows.committed
    · obtain ⟨himaged, hcalls⟩ := himage image hsome
      have hfrom := hlater image himaged
      rw [hstate] at hcalls hfrom
      exact safetyRelease_conducts hwaits hfrom hcalls
  | externallyReleased cause =>
    obtain ⟨image, hsome, hstate⟩ := hdecided
    obtain ⟨-, hcalls⟩ := himage image hsome
    rw [hstate] at hcalls
    exact recordExternalRelease_conducts hwaits hcalls
  | unexpectedState =>
    obtain ⟨image, rfl, hcase⟩ := hdecided
    obtain ⟨himaged, -⟩ := himage image rfl
    have hshows := himaged.shows
    rw [himaged.stage] at hshows
    exact (hshows.expected ⟨image, rfl, hcase⟩).elim

/-- The treatment read of a waiting call: a failure, or an image that the view knows then. -/
theorem loadTreatment_conducts {rank : Nat} (hstage : view.stage = .waiting ownCommitId rank passed)
    (hlimit : view.storeCalls + 1 ≤ storeCallLimit) :
    Conducts (fun read view' => view'.storeCalls = view.storeCalls + 1 ∧
        view'.next = view.next ∧
        ((∃ code, read = .error code ∧ view'.stage = view.stage) ∨
          ∃ item, read = .ok (some item) ∧ Imaged ownCommitId item view' ∧
            Shows view.stage item)) loadTreatment view := by
  refine TracksTo.call fun read hpossible => ?_
  match read, hpossible with
  | .error code, _ => exact ⟨_, ⟨.read, hlimit⟩, TracksTo.pure ⟨rfl, rfl, .inl ⟨code, rfl, rfl⟩⟩⟩
  | .ok none, hpossible =>
    obtain ⟨item, hitem, -⟩ := hpossible none rfl
    cases hitem
  | .ok (some item), hpossible =>
    obtain ⟨found, hfound, hshows⟩ := hpossible (some item) rfl
    obtain rfl := Option.some.inj hfound
    have hwaiting := hshows
    rw [hstage] at hwaiting
    have himaged : Imaged ownCommitId item { view with
        storeCalls := view.storeCalls + 1
        stage := .waiting ownCommitId (stateRank item.state) (waitsPassed item) } :=
      ⟨rfl, hwaiting.1, hwaiting.2.1, hwaiting.2.2.1, hwaiting.2.2.2.1, Nat.le_refl _,
        Nat.le_refl _⟩
    refine ⟨_, ⟨.saw hstage, hlimit⟩, ?_⟩
    simp only [hshows.decodes]
    exact TracksTo.pure ⟨rfl, rfl, .inr ⟨item, rfl, himaged, hshows⟩⟩

theorem turnImage_conducts {known : Option TreatmentItem}
    (hwaits : AtBarrier ownCommitId barrier view)
    (hknown : ∀ image, known = some image → Imaged ownCommitId image view ∧
      view.storeCalls ≤ callBudget + stateRank image.state)
    (hread : known = none → view.storeCalls ≤ callBudget) :
    Conducts (fun treatment view' => AtBarrier ownCommitId barrier view' ∧
        (∀ image, treatment = some image → Imaged ownCommitId image view' ∧
          view'.storeCalls ≤ callBudget + stateRank image.state) ∧
        (treatment = none → view'.storeCalls ≤ callBudget + 1))
      (TreatmentBarrier.turnImage known) view := by
  cases known with
  | some image => exact TracksTo.pure ⟨hwaits, hknown, nofun⟩
  | none =>
    have hcalls := hread rfl
    have hlimit : view.storeCalls + 1 ≤ storeCallLimit := by
      simp only [callBudget, storeCallLimit] at hcalls ⊢
      omega
    obtain ⟨htied, rank, passed, hstage, hpassed⟩ := hwaits
    refine TracksTo.bind (loadTreatment_conducts hstage hlimit) ?_
    rintro read view₁ ⟨hcalls₁, hnext, hcase⟩
    have htied₁ : Tied barrier.journal view₁ :=
      ⟨htied.live, hnext.trans htied.next, htied.retries⟩
    rcases hcase with ⟨code, rfl, hstage₁⟩ | ⟨item, rfl, himaged, hshows⟩
    · refine TracksTo.pure ⟨⟨htied₁, rank, passed, hstage₁.trans hstage, hpassed⟩, ?_, ?_⟩
      · exact fun image himage => by cases himage
      · exact fun _ => by omega
    · rw [hstage] at hshows
      have hcommitted := hshows.committed
      refine TracksTo.pure ⟨⟨htied₁, _, _, himaged.stage, ?_⟩, ?_, ?_⟩
      · exact Nat.le_trans hpassed hshows.2.2.2.2.2
      · intro image himage
        obtain rfl := Option.some.inj himage
        exact ⟨himaged, by omega⟩
      · exact fun hnone => by cases hnone

theorem AtBarrier.remembers
    (hwaits : AtBarrier ownCommitId barrier view)
    (himage : ∀ image, treatment = some image → Imaged ownCommitId image view) :
    AtBarrier ownCommitId ⟨barrier.journal,
      latestWaitState (treatment.map TreatmentItem.state) barrier.waitState⟩ view := by
  obtain ⟨htied, rank, passed, hstage, hpassed⟩ := hwaits
  refine ⟨htied, rank, passed, hstage, ?_⟩
  cases treatment with
  | none => exact hpassed
  | some image =>
    obtain ⟨himaged, hformed, -⟩ := himage image rfl
    obtain ⟨-, -, rfl⟩ := Stage.waiting.inj (hstage.symm.trans himaged)
    simp only [latestWaitState, Option.map_some, Option.bind_some]
    cases hstate : committedWaitState? image.state with
    | none => exact hpassed
    | some state =>
      refine hformed.waitRank_le state ?_
      cases hfound : image.state <;> simp_all [committedWaitState?] <;> subst hstate <;> rfl

theorem awaitRelease_conducts (fuel : Nat) {known : Option TreatmentItem}
    (hwaits : AtBarrier commit.providerCommitId barrier view)
    (hknown : ∀ image, known = some image → Imaged commit.providerCommitId image view ∧
      view.storeCalls ≤ callBudget + stateRank image.state)
    (hread : known = none → view.storeCalls ≤ callBudget) :
    Conducts (fun _ _ => True) (TreatmentBarrier.awaitRelease commit fuel barrier known) view := by
  induction fuel generalizing barrier known view with
  | zero => exact outOfFuel_conducts
  | succ fuel ih =>
    refine TracksTo.bind (turnImage_conducts hwaits hknown hread) ?_
    rintro treatment view₁ ⟨hwaits₁, himage, hnone⟩
    have hlimit : view₁.storeCalls ≤ storeCallLimit := by
      cases treatment with
      | none =>
        have hcalls := hnone rfl
        simp only [callBudget, storeCallLimit] at hcalls ⊢
        omega
      | some image =>
        have hcalls := (himage image rfl).2
        have hrank : stateRank image.state ≤ 4 := by
          cases image.state <;> decide
        simp only [callBudget, storeCallLimit] at hcalls ⊢
        omega
    refine monotonicNow_conducts hlimit fun now => ?_
    refine TracksTo.bind (perform_conducts
      (hwaits₁.remembers fun image hsome => (himage image hsome).1) himage hnone) ?_
    rintro ⟨performed, barrier₁⟩ view₂ hturned
    cases performed with
    | ended outcome => exact TracksTo.pure trivial
    | read =>
      obtain ⟨hwaits₂, hcalls⟩ := hturned
      refine ih hwaits₂ (fun image hsome => by cases hsome) fun _ => ?_
      rw [hcalls]
      exact Nat.zero_le _
    | decideFrom current =>
      obtain ⟨hwaits₂, himaged, hcalls⟩ := hturned
      refine ih hwaits₂ (fun image hsome => ?_) fun hsome => by cases hsome
      obtain rfl := Option.some.inj hsome
      exact ⟨himaged, hcalls⟩

/-! ## The three parties -/

variable {fuel : Nat}

theorem finish_conducts {providerCallId : Uuid4} {call : AcceptedCall} {commit : ConfirmedCommit}
    (hcommitted : CommittedTo commit.plan commit.journal view)
    (hcalls : view.storeCalls ≤ callBudget) :
    Conducts (fun _ _ => True) (finish fuel providerCallId call commit) view := by
  unfold finish
  split
  · rename_i hkind
    refine TracksTo.bind (appendOrFault_conducts hcommitted.tied (recordable_of_not nofun) ?_) ?_
    · simp only [callBudget, storeCallLimit] at hcalls ⊢
      omega
    · exact fun _ _ _ => TracksTo.pure trivial
  · rename_i hkind
    refine TracksTo.bind (awaitRelease_conducts fuel ?_ (fun image hnone => by cases hnone)
      fun _ => hcalls) ?_
    · exact ⟨hcommitted.tied, 1, 1, hcommitted.targeted hkind, Nat.le_refl _⟩
    · exact fun _ _ _ => TracksTo.pure trivial

theorem commitAccepted_conducts {providerCallId receivedEventId : Uuid4}
    {config : ProviderConfigView}
    {call : AcceptedCall} (htied : Tied journal view) (hcalls : view.storeCalls ≤ 6) :
    Conducts (fun _ _ => True)
      (commitAccepted fuel providerCallId config treatment journal receivedEventId call) view := by
  refine TracksTo.bind (appendOrFault_conducts htied (recordable_of_not nofun) ?_) ?_
  · simp only [storeCallLimit]
    omega
  rintro ⟨accepted, journal₁⟩ view₁ ⟨hcalls₁, -, -, htied₁⟩
  refine TracksTo.bind (executeCommit_conducts htied₁ ?_) ?_
  · simp only [storeCallLimit]
    omega
  rintro commit view₂ ⟨hcalls₂, hcommitted⟩
  refine TracksTo.bind (finish_conducts hcommitted ?_) ?_
  · simp only [callBudget]
    omega
  · exact fun _ _ _ => TracksTo.pure trivial

theorem openJournal_conducts {writerOf : Uuid4 → JournalWriter}
    (hfresh : ∀ id, (writerOf id).instanceId = id ∧ (writerOf id).nextSequence = 1 ∧
      (writerOf id).stopReason = none ∧ (writerOf id).maxDefinitiveRetries = 2)
    (hlimit : view.storeCalls ≤ storeCallLimit) :
    Conducts (fun journal view' => view'.storeCalls = view.storeCalls ∧ Tied journal view')
      (do let instanceId ← await .nextId
          pure (writerOf instanceId)) view := by
  refine TracksTo.call fun id _ =>
    ⟨_, ⟨.opened (writerOf id).table (writerOf id).source, hlimit⟩, TracksTo.pure ⟨rfl, ?_⟩⟩
  obtain ⟨hinstance, hsequence, hlive, hretries⟩ := hfresh id
  refine ⟨hlive, ?_, hretries⟩
  simp only [JournalWriter.keyAt, hinstance, hsequence]

theorem readOrFault_expected {View : Type} {read : Except String (Option View)} {e : Runtime.Thrown}
    (h : readOrFault read = .error e) : Expected e := by
  cases read with
  | ok value => cases h
  | error code =>
    obtain rfl := Except.error.inj h
    exact ⟨nofun, nofun⟩

theorem handleCall_conducts {received : ReceivedCall} (hstart : view.storeCalls = 0) :
    Conducts (fun _ _ => True) (handleCall fuel received) view := by
  have hroom : 3 ≤ storeCallLimit := by decide
  refine nextId_conducts (by omega) fun providerCallId => ?_
  refine TracksTo.bind (readControl_conducts (by simp only [hstart]; omega)) ?_
  intro configRead view₁ hcalls₁
  simp only [hstart] at hcalls₁
  refine sync_conducts (fun config _ => ?_) fun e => readOrFault_expected
  cases config with
  | none => exact TracksTo.pure trivial
  | some config =>
    refine TracksTo.bind (readControl_conducts (by omega)) ?_
    intro paymentRead view₂ hcalls₂
    refine sync_conducts (fun payment _ => ?_) fun e => readOrFault_expected
    refine TracksTo.bind (readControl_conducts (by omega)) ?_
    intro treatmentRead view₃ hcalls₃
    refine sync_conducts (fun treatment _ => ?_) fun e => readOrFault_expected
    refine TracksTo.bind (openJournal_conducts (fun _ => ⟨rfl, rfl, rfl, rfl⟩) (by omega)) ?_
    rintro journal view₄ ⟨hcalls₄, htied⟩
    have hlimit : view₄.storeCalls + 6 ≤ storeCallLimit := by
      simp only [storeCallLimit]
      omega
    refine TracksTo.bind (appendOrFault_conducts htied (recordable_of_not nofun) (by omega)) ?_
    rintro ⟨receivedEventId, journal₁⟩ view₅ ⟨hcalls₅, -, -, htied₅⟩
    dsimp only
    split
    · refine TracksTo.bind (appendOrFault_conducts htied₅ (recordable_of_not nofun)
        (by omega)) ?_
      exact fun _ _ _ => TracksTo.pure trivial
    · exact commitAccepted_conducts htied₅ (by omega)

theorem appendOrFail_conducts {decision : AppendedDecision}
    (htied : Tied journal view) (hlimit : view.storeCalls + 3 ≤ storeCallLimit) :
    Conducts (fun _ _ => True) (appendOrFail journal decision) view := by
  have hbody : Recordable view.stage (decisionRecord decision).1 := by
    refine recordable_of_not ?_
    cases decision <;> nofun
  refine TracksTo.bind (append_conducts htied hbody hlimit) ?_
  rintro ⟨appended, journal₁⟩ view₁ _
  cases appended with
  | stopped reason => exact TracksTo.throw ⟨nofun, nofun⟩
  | appended event => exact TracksTo.pure trivial

theorem decideSignal_attempt
    {treatment : Option ControllerTreatment}
    {decision : SignalOnlyDecision}
    (h : decideSignal event scenario treatment = .signal decision) :
    ∃ caller, event = .ok caller ∧ decision.refs.attemptId = caller.attemptId := by
  unfold decideSignal decideOnTreatment decideSignalled decideCommittedWait at h
  grind

/-- A refused signal does not decide to signal again: the image would meet the condition that
was refused. -/
theorem Refused.no_second_signal {decision second : SignalOnlyDecision}
    {first : Option ControllerTreatment} {treatment : Option ControllerTreatment}
    (h : Refused view (signalActions decision put) (.conditionFailed 0 existing))
    (hfirst : decideSignal event scenario first = .signal decision)
    (hdecode : decodeTreatmentAfterConflict existing = .ok treatment)
    (hsecond : decideSignal event scenario treatment = .signal second) : False := by
  obtain ⟨action, found, hget, hfalse, rfl, hbelieves⟩ := h 0 existing rfl
  obtain rfl := Option.some.inj hget
  obtain ⟨item, rfl, -⟩ := hbelieves
  obtain ⟨commit, rfl, hattempt, -⟩ := decideSignal_signal hsecond
  have hitem : decodeControllerTreatment item = .ok (.committedWaiting commit) := by
    simp only [Option.map_some, updateTreatment, decodeTreatmentAfterConflict] at hdecode
    split at hdecode
    · rename_i decoded hdecoded
      rw [hdecoded]
      exact congrArg Except.ok (Option.some.inj (Except.ok.inj hdecode))
    · cases hdecode
  obtain ⟨hstate, htargeted, -, -⟩ := decodeControllerTreatment_committedWaiting hitem
  obtain ⟨caller, hcaller, hrefs⟩ := decideSignal_attempt hfirst
  obtain ⟨caller', hcaller', hrefs'⟩ := decideSignal_attempt hsecond
  obtain rfl := Except.ok.inj (hcaller.symm.trans hcaller')
  -- both decisions are about the same attempt, so the refused condition holds of the image
  have hsame : item.targetedAttemptId = some decision.refs.attemptId := by
    rw [htargeted, ← hattempt, hrefs', hrefs]
  have htrue : allConditions [attributeEquals TreatmentItem.state .committedWaiting,
      attributeEquals TreatmentItem.targetedAttemptId (some decision.refs.attemptId)]
      (some item) = true := by
    simp [allConditions, attributeEquals, hstate, hsame]
  exact absurd (hfalse.symm.trans htrue) (by simp)

theorem signal_conducts {decision : SignalOnlyDecision}
    {first : Option ControllerTreatment} (htied : Tied journal view)
    (hfirst : decideSignal event scenario first = .signal decision)
    (hlimit : view.storeCalls + 4 ≤ storeCallLimit) :
    Conducts (fun _ _ => True) (signal journal decision event scenario) view := by
  refine TracksTo.bind (prepare_conducts htied (by omega)) ?_
  rintro ⟨prepared, journal₁⟩ view₁ ⟨hbeside, put, hprepared, hkey, hput⟩
  obtain ⟨rfl, rfl⟩ := Prod.mk.inj hprepared
  have hcalls₁ := hbeside.storeCalls
  refine nextId_conducts (by omega) fun token => TracksTo.call fun outcome hrefused => ?_
  have hnext : view₁.next = some put.key := by
    rw [hbeside.next, htied.next, hkey]
  refine ⟨_, ⟨.signalled hnext (hput ▸ recordable_of_not nofun), ?_⟩, ?_⟩
  · simp only [View.settled]
    omega
  have hne : ∀ failed existing, outcome = .conditionFailed failed existing →
      failed ≠ signalJournalActionIndex := fun failed existing houtcome =>
    Refused.ne_put hrefused hnext signalJournalActionIndex rfl houtcome
  refine confirm_conducts hne ?_ (fun _ => TracksTo.throw ⟨nofun, nofun⟩) ?_
  · rintro rfl
    exact TracksTo.pure trivial
  · intro houtcome
    dsimp only
    split
    · rename_i existing
      refine sync_conducts (fun treatment hdecode => ?_) fun e hdecode => ?_
      · unfold redecide
        split
        · rename_i second hsecond
          exact (Refused.no_second_signal hrefused hfirst hdecode hsecond).elim
        · refine appendOrFail_conducts ⟨htied.live, ?_, htied.retries⟩ ?_
          · exact congrArg some hkey
          · simp only [View.settled]
            omega
      · have hfault : e = .controllerFault .stateUnreadable := by
          unfold decodeTreatmentAfterConflict at hdecode
          grind
        subst hfault
        exact ⟨nofun, nofun⟩
    · exact TracksTo.throw ⟨nofun, nofun⟩

theorem required_expected {View : Type} {read : Except String (Option View)} {e : Runtime.Thrown}
    (h : required read = .error e) : Expected e := by
  cases read with
  | ok value => cases h
  | error code =>
    obtain rfl := Except.error.inj h
    exact ⟨nofun, nofun⟩

theorem handle_conducts {record : StreamRecord} (hstart : view.storeCalls = 0) :
    Conducts (fun _ _ => True) (handle record) view := by
  have hroom : 6 ≤ storeCallLimit := by decide
  refine TracksTo.bind (readControl_conducts (by omega)) ?_
  intro configRead view₁ hcalls₁
  refine sync_conducts (fun configuration _ => ?_) fun e => required_expected
  cases configuration with
  | none => exact TracksTo.pure trivial
  | some configuration =>
    refine TracksTo.bind (readControl_conducts (by omega)) ?_
    intro treatmentRead view₂ hcalls₂
    refine sync_conducts (fun treatment _ => ?_) fun e => required_expected
    refine TracksTo.bind (openJournal_conducts (fun _ => ⟨rfl, rfl, rfl, rfl⟩) (by omega)) ?_
    rintro journal view₃ ⟨hcalls₃, htied⟩
    split
    · exact appendOrFail_conducts htied (by omega)
    · rename_i decision hdecision
      exact signal_conducts htied hdecision (by omega)

theorem attemptRelease_conducts (attempts : Nat) (hfree : view.stage = .free)
    (hlimit : view.storeCalls + 2 * attempts ≤ storeCallLimit) :
    Conducts (fun _ _ => True) (attemptRelease attempts) view := by
  induction attempts generalizing view with
  | zero => exact TracksTo.pure trivial
  | succ attempts ih =>
    have hdecision : Conducts (fun _ view' => view'.storeCalls = view.storeCalls + 1 ∧
        view'.stage = .free) decideRelease view := by
      refine TracksTo.call fun read _ => ⟨_, ⟨.read, ?_⟩, ?_⟩
      · simp only
        omega
      · match read with
        | .error code => exact TracksTo.pure ⟨rfl, hfree⟩
        | .ok none => exact TracksTo.pure ⟨rfl, hfree⟩
        | .ok (some item) => exact TracksTo.pure ⟨rfl, hfree⟩
    refine TracksTo.bind hdecision ?_
    rintro decision view₁ ⟨hcalls₁, hfree₁⟩
    cases decision with
    | done outcome => exact TracksTo.pure trivial
    | release fromState version =>
      refine TracksTo.call fun written _ => ⟨_, ⟨.released hfree₁, ?_⟩, ?_⟩
      · simp only
        omega
      · cases written with
        | conditionFailed failed existing => exact ih hfree₁ (by simp only; omega)
        | applied => exact TracksTo.pure trivial
        | definitiveFailure code => exact TracksTo.pure trivial
        | ambiguous code => exact TracksTo.pure trivial

end RefundStudy.Treatment
