/-
  Every party of the protocol makes only its moves.
-/
import RefundStudy.Treatment.BarrierSteps
import RefundStudy.Cleanup.BarrierRelease

set_option autoImplicit false

namespace RefundStudy.Treatment

open Foundation Record RefundStudy.Runtime Journal
open Provider Controller Cleanup

variable {journal : JournalWriter} {event : Except InvalidCallerTimeout CallerTimeoutView}
  {providerCallId : Uuid4} {decision : SignalOnlyDecision} {scenario : Scenario}
  {kind : CommitKind}

variable {ι : Type} {i : ι} {w w' : World ι}

/-! ## The commit transaction -/

theorem planCommit_put (input : CommitPlanInput) :
    (planCommit input).actions[commitJournalActionIndex]? =
      some (journalPutAction input.commitEvent) := by
  unfold planCommit
  cases input.kind <;> rfl

theorem planCommit_keys (input : CommitPlanInput) (items : Items) (key : JournalKey)
    (hkey : key ≠ input.commitEvent.key) :
    (applyAll (planCommit input).actions items).lookup (.journal key) =
      items.lookup (.journal key) := by
  have hne : ItemKey.journal key ≠ .journal input.commitEvent.key := by simpa using hkey
  unfold planCommit
  cases input.kind with
  | untargeted =>
    simp only [applyAll_cons, applyAll_nil, WriteAction.apply, journalPutAction, ledgerPut]
    rw [AList.lookup_insert_ne hne, AList.lookup_insert_ne (by simp)]
  | targeted =>
    simp only [List.cons_append, List.nil_append, applyAll_cons, applyAll_nil,
      WriteAction.apply, journalPutAction, ledgerPut, consumeTreatment, updateTreatment]
    rw [AList.lookup_insert_ne (by simp), AList.lookup_insert_ne hne,
      AList.lookup_insert_ne (by simp)]

theorem planCommit_moves {input : CommitPlanInput} (hputs : Puts i w input.commitEvent)
    (hbody : input.commitEvent.event.body = .providerTransactionCommitted
      (commitEventBody input.call input.providerCallId input.identities
        (decide (input.kind = .targeted)) input.commitRequestedAt))
    (hcall : w.drawn input.providerCallId = some i) (hfirst : Uncommitted i w)
    (happlies : Applies (planCommit input).actions w.items) :
    Moves i w (w.withItems (applyAll (planCommit input).actions w.items)) ∧
    (applyAll (planCommit input).actions w.items).lookup
      (.ledger input.identities.providerTransactionId) = some (ledgerTransactionOf input) := by
  have hledger : w.items.lookup (.ledger input.identities.providerTransactionId) = none := by
    have hmem : ledgerPut (ledgerTransactionOf input) ∈ (planCommit input).actions := by
      unfold planCommit
      cases input.kind <;> simp
    exact (itemAbsent_iff _).mp (happlies.condition hmem)
  have hcommits : Commits i w input := ⟨hputs, hbody, hcall, hledger, hfirst.2⟩
  have hfound : (committedItems w.items input).lookup
      (.ledger input.identities.providerTransactionId) = some (ledgerTransactionOf input) := by
    rw [committedItems, AList.lookup_insert_ne (by simp), AList.lookup_insert]
  cases hkind : input.kind with
  | untargeted =>
    have hitems : applyAll (planCommit input).actions w.items =
        committedItems w.items input := by
      unfold planCommit
      rw [hkind]
      rfl
    rw [hitems]
    exact ⟨.committed hcommits hkind, hfound⟩
  | targeted =>
    have hmem : consumeTreatment input ∈ (planCommit input).actions := by
      unfold planCommit
      simp [hkind]
    obtain ⟨item, hitem, harmed⟩ :=
      (attributeEquals_iff _ _ _).mp (happlies.condition hmem)
    have hitem₁ : (committedItems w.items input).lookup .treatment = some item := by
      rw [committedItems, AList.lookup_insert_ne (by simp), AList.lookup_insert_ne (by simp)]
      exact hitem
    have hitems : applyAll (planCommit input).actions w.items =
        (committedItems w.items input).insert .treatment (consumedItem input item) := by
      have happly : applyAll (planCommit input).actions w.items =
          (consumeTreatment input).apply (committedItems w.items input) := by
        unfold planCommit
        rw [hkind]
        rfl
      rw [happly, WriteAction.apply]
      simp only [consumeTreatment, updateTreatment, hitem₁, Option.getD_some]
      rfl
    rw [hitems]
    refine ⟨.consumed hcommits hkind hitem harmed, ?_⟩
    rw [AList.lookup_insert_ne (by simp)]
    exact hfound

/-! ## The provider call -/

def InLedger (providerCallId providerTransactionId : Uuid4) (w : World ι) : Prop :=
  ∃ transaction, w.items.lookup (.ledger providerTransactionId) = some transaction ∧
    transaction.providerCallId = providerCallId

theorem inLedger_stable (providerCallId providerTransactionId : Uuid4) :
    Stable (InLedger (ι := ι) providerCallId providerTransactionId) := by
  rintro j v v' hmove ⟨transaction, hlookup, hcall⟩
  exact ⟨transaction, ledger_stable _ _ j _ _ hmove hlookup, hcall⟩

structure AfterCommit (i : ι) (providerCallId : Uuid4) (plan : CommitPlan)
    (journal : JournalWriter) (w : World ι) : Prop where
  owns : Owns i journal w
  coherent : Coherent w
  ledger : InLedger providerCallId plan.identities.providerTransactionId w

theorem AfterCommit.env {plan : CommitPlan}
    (h : AfterCommit i providerCallId plan journal w) (hrel : (env i).rel w w') :
    AfterCommit i providerCallId plan journal w' where
  owns := h.owns.respects (env_respected i _ _ hrel)
  coherent := coherent_stable.env hrel h.coherent
  ledger := (inLedger_stable _ _).env hrel h.ledger

variable {request : CommitRequest}

theorem recordCommitFailure_spec {α : Type} {Q : α → World ι → Prop}
    {plan : CommitPlan} {outcome : WriteOutcome ItemOf} (howns : Owns i journal w) :
    Abides i Q (recordCommitFailure journal request plan outcome) w := by
  refine SafeOk.bind (append_inert (P := fun _ => True) trivial (fun _ _ _ _ => trivial)
    (fun _ _ _ _ => trivial) howns trivial) ?_
  rintro ⟨failed, journal₁⟩ w₁ _
  cases failed with
  | stopped reason => exact SafeOk.throw
  | appended event => exact SafeOk.throw

def BeforeCommit (i : ι) (providerCallId : Uuid4) (w : World ι) : Prop :=
  Uncommitted i w ∧ w.drawn providerCallId = some i

theorem BeforeCommit.env (h : BeforeCommit i providerCallId w)
    (hrel : (env i).rel w w') : BeforeCommit i providerCallId w' :=
  ⟨h.1.env hrel, (drawn_stable providerCallId).env hrel h.2⟩

theorem BeforeCommit.draw {providerCallId id : Uuid4} (h : BeforeCommit i providerCallId w)
    (hfresh : w.drawn id = none) : BeforeCommit i providerCallId (w.draw i id) :=
  ⟨h.1.draw hfresh, World.draw_drawn_of_some hfresh h.2⟩

theorem commit_moves {input : CommitPlanInput}
    {causation : List Uuid4} {outcome : WriteOutcome ItemOf} {items : Items}
    (howns : Owns i journal w) (hlive : journal.stopReason = none)
    (hbuilt : Built i journal (.providerTransactionCommitted
      (commitEventBody input.call input.providerCallId input.identities
        (decide (input.kind = .targeted)) input.commitRequestedAt)) causation input.commitEvent w)
    (hbefore : BeforeCommit i input.providerCallId w)
    (htransacted : Transacted (planCommit input).actions w.items outcome items) :
    Moves i w (w.withItems items) ∧
      (outcome = .applied → InLedger input.providerCallId
        (planCommit input).identities.providerTransactionId (w.withItems items)) := by
  have hputs : Puts i w input.commitEvent := by
    refine ⟨?_, hbuilt.drawn, hbuilt.absent howns hlive⟩
    rw [hbuilt.instanceId_eq]
    exact howns.drawn
  have hplan : (planCommit input).identities = input.identities := by
    unfold planCommit
    cases input.kind <;> rfl
  cases htransacted with
  | applied happlies =>
    obtain ⟨hmove, hledger⟩ :=
      planCommit_moves hputs hbuilt.body_eq hbefore.2 hbefore.1 happlies
    refine ⟨hmove, fun _ => ⟨ledgerTransactionOf input, ?_, rfl⟩⟩
    rw [hplan]
    exact hledger
  | lostApplied code happlies =>
    obtain ⟨hmove, -⟩ := planCommit_moves hputs hbuilt.body_eq hbefore.2 hbefore.1 happlies
    exact ⟨hmove, fun h => by cases h⟩
  | conditionFailed hfailing => exact ⟨.same _, fun h => by cases h⟩
  | refused code => exact ⟨.same _, fun h => by cases h⟩
  | lost code => exact ⟨.same _, fun h => by cases h⟩

theorem BeforeCommit.quiet (h : BeforeCommit i providerCallId w)
    (hquiet : Quiet i w w') : BeforeCommit i providerCallId w' :=
  ⟨h.1.quiet hquiet, drawn_stable providerCallId i _ _ hquiet.1 h.2⟩

/-- One commit: what it returns is in the ledger, and a re-plan starts where
nothing is committed yet. -/
theorem attemptCommitWith_spec {replan : JournalWriter → Async CommittedPlan}
    (howns : Owns i journal w)
    (hbefore : BeforeCommit i request.providerCallId w)
    (hreplan : ∀ v journal, Owns i journal v → BeforeCommit i request.providerCallId v →
      Abides i
        (fun attempt w' => AfterCommit i request.providerCallId attempt.plan attempt.journal w')
        (replan journal) v) :
    Abides i
      (fun attempt w' => AfterCommit i request.providerCallId attempt.plan attempt.journal w')
      (attemptCommitWith request replan journal kind) w := by
  refine SafeOk.call fun w₁ h₁ providerCommitId w₂ hid => ?_
  obtain ⟨hfresh, rfl⟩ := answers_nextId hid
  refine ⟨.drew hfresh, SafeOk.call fun w₃ h₃ providerTransactionId w₄ hid => ?_⟩
  obtain ⟨hfresh₃, rfl⟩ := answers_nextId hid
  refine ⟨.drew hfresh₃, SafeOk.call fun w₅ h₅ requestedAt w₆ hnow => ?_⟩
  obtain rfl := answers_wallNow hnow
  refine ⟨.same _, ?_⟩
  have hrespects : Respects i w w₆ := (env_respected i _ _ h₁).trans
    ((Respects.draw hfresh).trans ((env_respected i _ _ h₃).trans
      ((Respects.draw hfresh₃).trans (env_respected i _ _ h₅))))
  have hbefore₆ : BeforeCommit i request.providerCallId w₆ :=
    ((((hbefore.env h₁).draw hfresh).env h₃).draw hfresh₃).env h₅
  refine SafeOk.bind (prepare_spec (P := BeforeCommit i request.providerCallId)
    (env_respected i) .same (fun _ _ hfresh => .drew hfresh) (fun _ _ hrel h => h.env hrel)
    (fun _ _ hfresh h => h.draw hfresh) (howns.respects hrespects) hbefore₆) ?_
  rintro ⟨prepared, journal₁⟩ w₇ hprepared
  cases prepared with
  | stopped reason => exact SafeOk.throw
  | prepared put =>
    obtain ⟨hbuilt, howns₇, hbefore₇, hlive, rfl⟩ := hprepared
    refine SafeOk.call fun w₈ h₈ outcome w₉ htransact => ?_
    obtain ⟨items, htransacted, rfl⟩ := answers_transact htransact
    have hrespects₈ := env_respected i _ _ h₈
    have howns₈ := howns₇.respects hrespects₈
    have hbuilt₈ := hbuilt.respects hrespects₈
    have hbefore₈ := hbefore₇.env h₈
    -- from here the plan is a variable: only its equations matter
    have hput := planCommit_put ⟨kind, request.call, request.providerCallId,
      ⟨providerCommitId, providerTransactionId⟩, requestedAt, put⟩
    have hkeys := planCommit_keys ⟨kind, request.call, request.providerCallId,
      ⟨providerCommitId, providerTransactionId⟩, requestedAt, put⟩ w₈.items
    obtain ⟨hmove, hledger⟩ := commit_moves howns₈ hlive hbuilt₈ hbefore₈ htransacted
    refine ⟨hmove, SafeOk.call fun w₁₀ h₁₀ ackNs w₁₁ hack => ?_⟩
    obtain rfl := answers_monotonicNow hack
    refine ⟨.same _, SafeOk.call fun w₁₂ h₁₂ ackWall w₁₃ hwall => ?_⟩
    obtain rfl := answers_wallNow hwall
    refine ⟨.same _, sync_spec ?_⟩
    rintro ⟨confirmed, journal₂⟩ hconfirm
    have hrel : (env i).rel (w₈.withItems items) w₁₃ := (env i).trans h₁₀ h₁₂
    obtain ⟨hsettled, -⟩ := howns₈.confirm hlive hbuilt₈ hput hkeys htransacted hconfirm
    cases hsettled with
    | stopped => exact SafeOk.throw
    | appended houtcome happlies hitems howns₉ =>
      refine SafeOk.pure fun w' h' => AfterCommit.env ?_ ((env i).trans hrel h')
      exact ⟨howns₉, coherent_stable i _ _ hmove hbefore₈.1.1, hledger houtcome⟩
    | notApplied hitems houtcome howns₉ =>
      subst hitems
      have howns₁₃ := howns₉.respects (env_respected i _ _ hrel)
      dsimp only
      split
      · exact hreplan _ _ howns₁₃ (hbefore₈.env hrel)
      · exact recordCommitFailure_spec howns₁₃

theorem attemptCommit_spec (replans : Nat)
    (howns : Owns i journal w) (hbefore : BeforeCommit i request.providerCallId w) :
    Abides i
      (fun attempt w' => AfterCommit i request.providerCallId attempt.plan attempt.journal w')
      (attemptCommit request replans journal kind) w := by
  induction replans generalizing journal kind w with
  | zero =>
    refine attemptCommitWith_spec howns hbefore ?_
    exact fun _ _ _ _ _ _ never => never.elim
  | succ replans ih =>
    exact attemptCommitWith_spec howns hbefore fun v journal₁ howns₁ hbefore₁ =>
      ih howns₁ hbefore₁

theorem executeCommit_spec (howns : Owns i journal w)
    (hbefore : BeforeCommit i request.providerCallId w) :
    Abides i (fun commit w' => AfterCommit i request.providerCallId commit.plan commit.journal w')
      (executeCommit journal request kind) w := by
  refine SafeOk.bind (attemptCommit_spec 1 howns hbefore) ?_
  intro attempt w₁ hafter
  have hstable : Stable fun v : World ι => Coherent v ∧
      InLedger request.providerCallId attempt.plan.identities.providerTransactionId v :=
    coherent_stable.and (inLedger_stable _ _)
  refine SafeOk.bind (append_inert trivial (fun _ _ hrel => hstable.env hrel)
    (fun _ _ hquiet => hstable i _ _ hquiet.1) hafter.owns ⟨hafter.coherent, hafter.ledger⟩) ?_
  rintro ⟨confirmed, journal₁⟩ w₂ ⟨happended, hcoherent, hledger⟩
  cases confirmed with
  | stopped reason => exact SafeOk.throw
  | appended event =>
    have hcommit : AfterCommit i request.providerCallId attempt.plan journal₁ w₂ :=
      ⟨happended.owns, hcoherent, hledger⟩
    exact SafeOk.pure fun w' h' => hcommit.env h'

theorem appendOrFault_spec {P : World ι → Prop} {body : EventBody}
    {phase : FaultPhase} {causation : List Uuid4} (hinert : Inert body)
    (hPR : ∀ v v', (env i).rel v v' → P v → P v')
    (hPG : ∀ v v', Quiet i v v' → P v → P v') (howns : Owns i journal w) (hP : P w) :
    Abides i (fun result w' => Owns i result.2 w' ∧ P w')
      (appendOrFault journal body phase causation) w := by
  refine SafeOk.bind (append_inert hinert hPR hPG howns hP) ?_
  rintro ⟨appended, journal₁⟩ w₁ ⟨happended, hP₁⟩
  cases appended with
  | stopped reason => exact SafeOk.throw
  | appended event =>
    exact SafeOk.pure fun w' h' =>
      ⟨happended.owns.respects (env_respected i _ _ h'), hPR _ _ h' hP₁⟩

variable {fuel : Nat}

theorem finish_spec {call : AcceptedCall} {commit : ConfirmedCommit}
    (hafter : AfterCommit i providerCallId commit.plan commit.journal w) :
    Abides i (fun _ w' => InLedger providerCallId commit.plan.identities.providerTransactionId w')
      (finish fuel providerCallId call commit) w := by
  have hstable := inLedger_stable (ι := ι) providerCallId
    commit.plan.identities.providerTransactionId
  unfold finish
  split
  · refine SafeOk.bind (appendOrFault_spec trivial (fun _ _ hrel => hstable.env hrel)
      (fun _ _ hquiet => hstable i _ _ hquiet.1) hafter.owns hafter.ledger) ?_
    rintro result w₁ ⟨-, hledger⟩
    exact SafeOk.pure fun w' h' => hstable.env h' hledger
  · refine SafeOk.bind (SafeOk.frame (awaitRelease_spec fuel hafter.owns hafter.coherent
      fun image hnone => by cases hnone) (fun _ _ hrel => hstable.env hrel)
      (fun _ _ hmove => hstable i _ _ hmove) hafter.ledger) ?_
    rintro outcome w₁ ⟨-, hledger⟩
    exact SafeOk.pure fun w' h' => hstable.env h' hledger

/-- What a response says about the ledger. -/
def Answered (i : ι) (response : ProviderRefundResponse) (w : World ι) : Prop :=
  match response with
  | .succeeded providerCallId _ _ providerTransactionId =>
    w.drawn providerCallId = some i ∧ InLedger providerCallId providerTransactionId w
  | _ => True

theorem answered_stable (response : ProviderRefundResponse) :
    Stable (Answered (ι := ι) i response) := by
  cases response with
  | succeeded providerCallId attemptId providerRequestId providerTransactionId =>
    exact (drawn_stable providerCallId).and (inLedger_stable _ _)
  | rejected | unattributed => exact fun _ _ _ _ h => h

theorem commitAccepted_spec {providerCallId receivedEventId : Uuid4} {config : ProviderConfigView}
    {treatment : Option TreatmentItem} {call : AcceptedCall}
    (howns : Owns i journal w) (hbefore : BeforeCommit i providerCallId w) :
    Abides i (Answered i)
      (commitAccepted fuel providerCallId config treatment journal receivedEventId call) w := by
  refine SafeOk.bind (appendOrFault_spec trivial
    (fun _ _ hrel h => BeforeCommit.env h hrel) (fun _ _ hquiet h => BeforeCommit.quiet h hquiet)
    howns hbefore) ?_
  rintro ⟨accepted, journal₁⟩ w₁ ⟨howns₁, hbefore₁⟩
  have hdrawn := drawn_stable (i := i) providerCallId
  refine SafeOk.bind (SafeOk.frame (executeCommit_spec howns₁ hbefore₁)
    (fun _ _ hrel => hdrawn.env hrel) (fun _ _ hmove => hdrawn i _ _ hmove) hbefore₁.2) ?_
  rintro commit w₂ ⟨hafter, hcall⟩
  refine SafeOk.bind (SafeOk.frame (finish_spec hafter) (fun _ _ hrel => hdrawn.env hrel)
    (fun _ _ hmove => hdrawn i _ _ hmove) hcall) ?_
  rintro _ w₃ ⟨hledger, hcall₃⟩
  exact SafeOk.pure fun w' h' => ⟨hdrawn.env h' hcall₃, (inLedger_stable _ _).env h' hledger⟩

theorem openJournal_spec {P : World ι → Prop} {writerOf : Uuid4 → JournalWriter}
    (hinstance : ∀ id, (writerOf id).instanceId = id)
    (hPR : ∀ v v', (env i).rel v v' → P v → P v')
    (hPdraw : ∀ v id, v.drawn id = none → P v → P (v.draw i id))
    (hsourced : ∀ v, P v → Sourced v) (hP : P w) :
    Abides i (fun journal w' => Owns i journal w' ∧ P w')
      (do let instanceId ← await .nextId
          pure (writerOf instanceId)) w := by
  refine SafeOk.call fun w₁ h₁ instanceId w₂ hid => ?_
  obtain ⟨hfresh, rfl⟩ := answers_nextId hid
  have hP₁ : P w₁ := hPR _ _ h₁ hP
  have howns : Owns i (writerOf instanceId) (w₁.draw i instanceId) := by
    have hfresh' : w₁.drawn (writerOf instanceId).instanceId = none := by
      rw [hinstance]
      exact hfresh
    have hopened := (hsourced w₁ hP₁).opened (i := i) hfresh'
    rw [hinstance] at hopened
    exact hopened
  exact ⟨.drew hfresh, SafeOk.pure fun w' h' =>
    ⟨howns.respects (env_respected i _ _ h'), hPR _ _ h' (hPdraw _ _ hfresh hP₁)⟩⟩

theorem handleCall_spec {received : ReceivedCall} (hbefore : Uncommitted i w) (hsourced : Sourced w) :
    Abides i (Answered i) (handleCall fuel received) w := by
  refine SafeOk.call fun w₁ h₁ providerCallId w₂ hid => ?_
  obtain ⟨hfresh, rfl⟩ := answers_nextId hid
  refine ⟨.drew hfresh, ?_⟩
  -- until the commit the call carries these three facts
  have hPR : ∀ v v', (env i).rel v v' → BeforeCommit i providerCallId v ∧ Sourced v →
      BeforeCommit i providerCallId v' ∧ Sourced v' := fun v v' hrel h =>
    ⟨h.1.env hrel, sourced_stable.env hrel h.2⟩
  have hPdraw : ∀ v id, v.drawn id = none → BeforeCommit i providerCallId v ∧ Sourced v →
      BeforeCommit i providerCallId (v.draw i id) ∧ Sourced (v.draw i id) := fun v id hfree h =>
    ⟨h.1.draw hfree, sourced_stable.draw hfree h.2⟩
  have hPG : ∀ v v', Quiet i v v' → BeforeCommit i providerCallId v ∧ Sourced v →
      BeforeCommit i providerCallId v' ∧ Sourced v' := fun v v' hquiet h =>
    ⟨h.1.quiet hquiet, sourced_stable i _ _ hquiet.1 h.2⟩
  have hP₂ : BeforeCommit i providerCallId (w₁.draw i providerCallId) ∧
      Sourced (w₁.draw i providerCallId) :=
    ⟨⟨(hbefore.env h₁).draw hfresh, World.draw_drawn_self _ _ _⟩,
      sourced_stable.draw hfresh (sourced_stable.env h₁ hsourced)⟩
  refine SafeOk.bind (readControl_spec hPR hP₂) ?_
  rintro configRead w₃ ⟨hP₃, -⟩
  refine sync_spec fun config _ => ?_
  cases config with
  | none => exact SafeOk.pure fun _ _ => trivial
  | some config =>
    refine SafeOk.bind (readControl_spec hPR hP₃) ?_
    rintro paymentRead w₄ ⟨hP₄, -⟩
    refine sync_spec fun payment _ => SafeOk.bind (readControl_spec hPR hP₄) ?_
    rintro treatmentRead w₅ ⟨hP₅, -⟩
    refine sync_spec fun treatment _ => SafeOk.bind
      (openJournal_spec (fun _ => rfl) hPR hPdraw (fun _ h => h.2) hP₅) ?_
    rintro journal w₆ ⟨howns₆, hP₆⟩
    refine SafeOk.bind (appendOrFault_spec trivial hPR hPG howns₆ hP₆) ?_
    rintro ⟨receivedEventId, journal₁⟩ w₇ ⟨howns₇, hP₇⟩
    dsimp only
    split
    · refine SafeOk.bind (appendOrFault_spec trivial hPR hPG howns₇ hP₇) ?_
      rintro result w₈ _
      exact SafeOk.pure fun _ _ => trivial
    · exact commitAccepted_spec howns₇ hP₇.1

/-! ## The controller -/

theorem decideSignal_signal
    {treatment : Option ControllerTreatment}
    (h : decideSignal event scenario treatment = .signal decision) :
    ∃ commit, treatment = some (.committedWaiting commit) ∧
      decision.refs.attemptId = commit.targetedAttemptId ∧
      decision.providerCommitId = commit.providerCommitId ∧
      decision.commitEventId = commit.commitEventId ∧
      decision.causation = sortedPair commit.commitEventId decision.refs.callerTimeoutEventId := by
  unfold decideSignal decideOnTreatment decideSignalled decideCommittedWait at h
  grind

theorem requiredId_ok {id : Option Uuid4} {value : Uuid4} (h : requiredId id = .ok value) :
    id = some value := by
  cases id with
  | none => cases h
  | some found => exact congrArg some (Except.ok.inj h)

theorem treatmentCommit_ok {item : TreatmentItem} {commit : TreatmentCommit}
    (h : treatmentCommit item = .ok commit) :
    item.targetedAttemptId = some commit.targetedAttemptId ∧
      item.providerCommitId = some commit.providerCommitId ∧
      item.commitEventId = some commit.commitEventId := by
  unfold treatmentCommit at h
  obtain ⟨attemptId, hattempt, h⟩ := exists_of_bind_eq_ok h
  obtain ⟨commitId, hcommit, h⟩ := exists_of_bind_eq_ok h
  obtain ⟨eventId, hevent, h⟩ := exists_of_bind_eq_ok h
  obtain rfl := Except.ok.inj h
  exact ⟨requiredId_ok hattempt, requiredId_ok hcommit, requiredId_ok hevent⟩

theorem decodeControllerTreatment_committedWaiting {item : TreatmentItem}
    {commit : TreatmentCommit}
    (h : decodeControllerTreatment item = .ok (.committedWaiting commit)) :
    item.state = .committedWaiting ∧ item.targetedAttemptId = some commit.targetedAttemptId ∧
      item.providerCommitId = some commit.providerCommitId ∧
      item.commitEventId = some commit.commitEventId := by
  have hsignalled : ∀ state, signalledTreatment state item ≠ .ok (.committedWaiting commit) := by
    intro state hstate
    unfold signalledTreatment at hstate
    obtain ⟨_, -, hstate⟩ := exists_of_bind_eq_ok hstate
    obtain ⟨_, -, hstate⟩ := exists_of_bind_eq_ok hstate
    cases hstate
  unfold decodeControllerTreatment at h
  split at h
  · split at h
    · cases h
    · cases h
    · rename_i hstate
      obtain ⟨found, hfound, hcommit⟩ := exists_of_bind_eq_ok h
      cases hcommit
      exact ⟨hstate, treatmentCommit_ok hfound⟩
    · exact absurd h (hsignalled _)
    · exact absurd h (hsignalled _)
    · exact absurd h (hsignalled _)
  · cases h

theorem appendOrFail_spec {decision : AppendedDecision}
    (howns : Owns i journal w) :
    Abides i (fun _ _ => True) (appendOrFail journal decision) w := by
  have hinert : Inert (decisionRecord decision).1 := by
    cases decision <;> trivial
  refine SafeOk.bind (append_inert (P := fun _ => True) hinert (fun _ _ _ _ => trivial)
    (fun _ _ _ _ => trivial) howns trivial) ?_
  rintro ⟨appended, journal₁⟩ w₁ _
  cases appended with
  | stopped reason => exact SafeOk.throw
  | appended event => exact SafeOk.pure fun _ _ => trivial

theorem redecide_spec
    {treatment : Option ControllerTreatment} (howns : Owns i journal w) :
    Abides i (fun _ _ => True) (redecide journal event scenario treatment) w := by
  unfold redecide
  split
  · exact SafeOk.throw
  · exact appendOrFail_spec howns

/-- The signal transaction: when it applies, the item is advanced by the signal
that the image was decided to get. -/
theorem signalActions_moves {put : JournalEntry}
    {image : TreatmentItem} (hputs : Puts i w put) (hseen : Seen image w)
    (hbody : put.event.body = .timeoutSignalRecorded (signalRecord decision))
    (hcausation : put.event.causationEventIds = causationIds decision.causation)
    (hpair : decision.causation =
      sortedPair decision.commitEventId decision.refs.callerTimeoutEventId)
    (hcommit : image.providerCommitId = some decision.providerCommitId)
    (hcommitEvent : image.commitEventId = some decision.commitEventId)
    (happlies : Applies (signalActions decision put) w.items) :
    Moves i w (w.withItems (applyAll (signalActions decision put) w.items)) := by
  have hcondition := happlies.condition (List.mem_cons_self ..)
  simp only [updateTreatment, allConditions, List.all_cons, List.all_nil, Bool.and_true,
    Bool.and_eq_true, attributeEquals_iff] at hcondition
  obtain ⟨⟨item, hitem, hstate⟩, item', hitem', hattempt⟩ := hcondition
  obtain rfl := Option.some.inj (hitem.symm.trans hitem')
  have hitems : applyAll (signalActions decision put) w.items =
      (w.items.insert .treatment (signalledItem item put.event.eventId
        decision.refs.callerTimeoutEventId)).insert (.journal put.key) put.event :=
    applyAll_update_put hitem
  rw [hitems]
  refine .advanced hputs hitem (.signalled hstate hbody ?_ hattempt
    (hseen.id hitem .providerCommitId hcommit) (hseen.id hitem .commitEventId hcommitEvent))
  rw [hcausation, hpair]
  rfl

theorem signal_spec
    {image : TreatmentItem} (howns : Owns i journal w) (hseen : Seen image w)
    (hpair : decision.causation =
      sortedPair decision.commitEventId decision.refs.callerTimeoutEventId)
    (hcommit : image.providerCommitId = some decision.providerCommitId)
    (hcommitEvent : image.commitEventId = some decision.commitEventId) :
    Abides i (fun _ _ => True) (signal journal decision event scenario) w := by
  have hstable := seen_stable (ι := ι) image
  refine SafeOk.bind (prepare_spec (P := Seen image) (env_respected i) .same
    (fun _ _ hfresh => .drew hfresh) (fun _ _ hrel => hstable.env hrel)
    (fun _ _ hfresh => hstable.draw hfresh) howns hseen) ?_
  rintro ⟨prepared, journal₁⟩ w₁ hprepared
  cases prepared with
  | stopped reason => exact SafeOk.throw
  | prepared put =>
    obtain ⟨hbuilt, howns₁, hseen₁, hlive, rfl⟩ := hprepared
    refine SafeOk.call fun w₂ h₂ token w₃ hid => ?_
    obtain ⟨hfresh, rfl⟩ := answers_nextId hid
    refine ⟨.drew hfresh, SafeOk.call fun w₄ h₄ outcome w₅ htransact => ?_⟩
    obtain ⟨items, htransacted, rfl⟩ := answers_transact htransact
    have hrespects : Respects i w₁ w₄ := (env_respected i _ _ h₂).trans
      ((Respects.draw hfresh).trans (env_respected i _ _ h₄))
    have howns₄ := howns₁.respects hrespects
    have hbuilt₄ := hbuilt.respects hrespects
    have hseen₄ : Seen image w₄ :=
      hstable.env h₄ (hstable.draw hfresh (hstable.env h₂ hseen₁))
    have hputs : Puts i w₄ put := by
      refine ⟨?_, hbuilt₄.drawn, hbuilt₄.absent howns₄ hlive⟩
      rw [hbuilt₄.instanceId_eq]
      exact howns₄.drawn
    have hguarantee : Moves i w₄ (w₄.withItems items) := by
      cases htransacted with
      | applied happlies | lostApplied _ happlies =>
        exact signalActions_moves hputs hseen₄ hbuilt₄.body_eq hbuilt₄.causation_eq hpair
          hcommit hcommitEvent happlies
      | conditionFailed | refused | lost => exact .same _
    refine ⟨hguarantee, sync_spec ?_⟩
    rintro ⟨confirmed, journal₂⟩ hconfirm
    obtain ⟨hsettled, -⟩ := howns₄.confirm hlive hbuilt₄ rfl
      (fun key hkey => applyAll_update_put_keys key hkey) htransacted hconfirm
    cases hsettled with
    | appended => exact SafeOk.pure fun _ _ => trivial
    | stopped => exact SafeOk.throw
    | notApplied hitems houtcome howns₅ =>
      dsimp only
      split
      · exact sync_spec fun treatment _ => redecide_spec howns₅
      · exact SafeOk.throw

/-- A committed wait the controller decides from is an image of the item. -/
def SignalledFrom (treatment : Option ControllerTreatment) (w : World ι) : Prop :=
  ∀ commit, treatment = some (.committedWaiting commit) → ∃ image : TreatmentItem,
    image.providerCommitId = some commit.providerCommitId ∧
    image.commitEventId = some commit.commitEventId ∧ Seen image w

theorem signalledFrom_stable (treatment : Option ControllerTreatment) :
    Stable (SignalledFrom (ι := ι) treatment) := by
  intro j v v' hmove h commit hcommit
  obtain ⟨image, hid, hevent, hseen⟩ := h commit hcommit
  exact ⟨image, hid, hevent, seen_stable image j _ _ hmove hseen⟩

theorem handle_spec {record : StreamRecord} (hcoherent : Coherent w) (hsourced : Sourced w) :
    Abides i (fun _ _ => True) (handle record) w := by
  have hstable : Stable fun v : World ι => Coherent v ∧ Sourced v :=
    coherent_stable.and sourced_stable
  refine SafeOk.bind (readControl_spec (fun _ _ hrel => hstable.env hrel)
    ⟨hcoherent, hsourced⟩) ?_
  rintro configRead w₁ ⟨hP₁, -⟩
  refine sync_spec fun configuration _ => ?_
  cases configuration with
  | none => exact SafeOk.pure fun _ _ => trivial
  | some configuration =>
    refine SafeOk.bind (readControl_spec (fun _ _ hrel => hstable.env hrel) hP₁) ?_
    rintro treatmentRead w₂ ⟨hP₂, hread⟩
    refine sync_spec fun treatment hrequired => ?_
    -- a committed wait that was read is an image of the item
    have himage : SignalledFrom treatment w₂ := by
      rintro commit rfl
      cases treatmentRead with
      | error code => cases hrequired
      | ok view =>
        obtain rfl : view = some (.committedWaiting commit) := Except.ok.inj hrequired
        obtain ⟨v, item, hrel, hPv, hlookup, hdecode⟩ := hread _ rfl
        obtain ⟨-, -, hcommit, hevent⟩ := decodeControllerTreatment_committedWaiting hdecode
        exact ⟨item, hcommit, hevent, (seen_stable item).env hrel (hPv.1.seen hlookup)⟩
    have hopen : Stable fun v : World ι => Sourced v ∧ SignalledFrom treatment v :=
      sourced_stable.and (signalledFrom_stable treatment)
    refine SafeOk.bind (openJournal_spec (fun _ => rfl) (fun _ _ hrel => hopen.env hrel)
      (fun _ _ hfresh => hopen.draw hfresh) (fun _ h => h.1) ⟨hP₂.2, himage⟩) ?_
    rintro journal w₃ ⟨howns, -, himage₃⟩
    split
    · exact appendOrFail_spec howns
    · rename_i decision hdecision
      obtain ⟨commit, rfl, hattempt, hcommit, hevent, hpair⟩ := decideSignal_signal hdecision
      obtain ⟨image, himageCommit, himageEvent, hseen⟩ := himage₃ commit rfl
      rw [← hcommit] at himageCommit
      rw [← hevent] at himageEvent hpair
      exact signal_spec howns hseen hpair himageCommit himageEvent

/-! ## Cleanup -/

theorem releaseAction_moves {fromState : TreatmentState} {version : Nat}
    (hwait : fromState ∈ nonterminalTreatmentStates)
    (happlies : Applies [releaseAction fromState version] w.items) :
    Moves i w (w.withItems (applyAll [releaseAction fromState version] w.items)) := by
  have hcondition := happlies.condition (List.mem_cons_self ..)
  simp only [releaseAction, updateTreatment, allConditions, List.all_cons, List.all_nil,
    Bool.and_true, Bool.and_eq_true, attributeEquals_iff] at hcondition
  obtain ⟨⟨item, hitem, hstate⟩, -⟩ := hcondition
  have hitems : applyAll [releaseAction fromState version] w.items =
      w.items.insert .treatment (safetyReleasedItem item .cleanupRequest) := by
    simp [WriteAction.apply, releaseAction, updateTreatment, hitem, safetyReleasedItem]
  rw [hitems]
  refine .cleaned hitem ?_
  rw [hstate]
  exact hwait

theorem decideRelease_spec :
    Abides i (fun decision _ => ∀ fromState version, decision = .release fromState version →
        fromState ∈ nonterminalTreatmentStates) decideRelease w := by
  refine SafeOk.call fun w₁ h₁ read w₂ hread => ?_
  obtain ⟨rfl, -⟩ := answers_getConsistent hread
  refine ⟨.same _, ?_⟩
  match read with
  | .error code => exact SafeOk.pure fun _ _ _ _ hdecision => by cases hdecision
  | .ok none => exact SafeOk.pure fun _ _ _ _ hdecision => by cases hdecision
  | .ok (some item) =>
    refine SafeOk.pure fun _ _ fromState version hdecision => ?_
    unfold decideFromItem at hdecision
    split at hdecision
    · split at hdecision
      · rename_i hwait
        cases hdecision
        exact hwait
      · cases hdecision
    · cases hdecision

theorem attemptRelease_spec (attempts : Nat) :
    Abides i (fun _ _ => True) (attemptRelease attempts) w := by
  induction attempts generalizing w with
  | zero => exact SafeOk.pure fun _ _ => trivial
  | succ attempts ih =>
    refine SafeOk.bind decideRelease_spec ?_
    intro decision w₁ hdecision
    cases decision with
    | done outcome => exact SafeOk.pure fun _ _ => trivial
    | release fromState version =>
      have hwait := hdecision fromState version rfl
      refine SafeOk.call fun w₂ h₂ written w₃ hwrite => ?_
      obtain ⟨items, htransacted, rfl⟩ := answers_write hwrite
      have hguarantee : Moves i w₂ (w₂.withItems items) := by
        cases htransacted with
        | applied happlies | lostApplied _ happlies => exact releaseAction_moves hwait happlies
        | conditionFailed | refused | lost => exact .same _
      refine ⟨hguarantee, ?_⟩
      cases written with
      | conditionFailed failed existing => exact ih
      | applied => exact SafeOk.pure fun _ _ => trivial
      | definitiveFailure code => exact SafeOk.pure fun _ _ => trivial
      | ambiguous code => exact SafeOk.pure fun _ _ => trivial

end RefundStudy.Treatment
