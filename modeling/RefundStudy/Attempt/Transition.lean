/-
  One durable transition: what its result says about the store.

  `applied` means `P₁`, a refusal or a failed condition means `P`, and `ambiguous` leaves both
  possible behind a stopped writer.
-/
import RefundStudy.Attempt.Client
import RefundStudy.Journal.Settlement

set_option autoImplicit false

namespace RefundStudy.Attempt

open Foundation Record RefundStudy.Runtime Journal

variable {ι : Type} {i : ι} {w : World ι} {R : Interference (World ι)}
  {G : World ι → World ι → Prop} {P : World ι → Prop} {P₁ : JournalEvent → World ι → Prop}
  {writer : JournalWriter} {body : EventBody} {causation : List Uuid4}
  {write : JournalEntry → List (WriteAction ItemOf)} {exclusive : Prop}

structure Transitions (i : ι) (R : Interference (World ι)) (G : World ι → World ι → Prop)
    (writer : JournalWriter) (body : EventBody) (causation : List Uuid4)
    (write : JournalEntry → List (WriteAction ItemOf)) (exclusive : Prop)
    (P : World ι → Prop) (P₁ : JournalEvent → World ι → Prop) : Prop where
  carries : Carries i R G P
  head : ∀ put, (write put)[0]? = some (journalPutAction put)
  applies : ∀ w put, P w → Built i writer body causation put w → Applies (write put) w.items →
    G w (w.withItems (applyAll (write put) w.items)) ∧
      P₁ put.event (w.withItems (applyAll (write put) w.items))
  clear : exclusive → ∀ w put, P w → ∀ action ∈ (write put).tail,
    action.condition (w.items.lookup action.key) = true
  stable : ∀ event w w', R.rel w w' → P₁ event w → P₁ event w'

def TransitionPost (writer : JournalWriter) (exclusive : Prop) (P : World ι → Prop)
    (P₁ : JournalEvent → World ι → Prop) (result : TransitionResult × JournalWriter)
    (w : World ι) : Prop :=
  SameInstance writer result.2 ∧
  match result.1 with
  | .applied event => P₁ event w
  | .notApplied .rejected => P w
  | .notApplied .conditionFailed => P w ∧ (exclusive → result.2.stopReason ≠ none)
  | .notApplied .ambiguous => (P w ∨ ∃ event, P₁ event w) ∧ result.2.stopReason ≠ none

theorem transitionResultOf_post {put : JournalEntry} {items : Items} {result : ConfirmResult}
    {writer₀ writer' : JournalWriter}
    (ht : Transitions i R G writer body causation write exclusive P P₁)
    (hsame : SameInstance writer writer₀) (hP : P w) (hbuilt : Built i writer body causation put w)
    (hconfirmed : Confirmed writer₀ put (write put) w.items items result writer') :
    (isDefinitiveFailure result = true → items = w.items ∧
      writer' = { writer₀ with reservation := none, retryable := some put }) ∧
    ∀ w', R.rel (w.withItems items) w' →
      TransitionPost writer exclusive P P₁ (transitionResultOf result, writer') w' := by
  have hc := ht.carries
  cases hconfirmed with
  | appended happlies =>
    obtain ⟨-, hpost⟩ := ht.applies w put hP hbuilt happlies
    refine ⟨nofun, fun w' h' => ?_⟩
    exact ⟨hsame.trans ⟨rfl, rfl, rfl⟩, ht.stable _ _ _ h' hpost⟩
  | ambiguous hitems =>
    rcases hitems with rfl | ⟨happlies, rfl⟩
    · refine ⟨nofun, fun w' h' => ?_⟩
      exact ⟨hsame.trans ⟨rfl, rfl, rfl⟩, .inl (hc.stable _ _ h' hP), Option.some_ne_none _⟩
    · obtain ⟨-, hpost⟩ := ht.applies w put hP hbuilt happlies
      refine ⟨nofun, fun w' h' => ?_⟩
      exact ⟨hsame.trans ⟨rfl, rfl, rfl⟩, .inr ⟨_, ht.stable _ _ _ h' hpost⟩,
        Option.some_ne_none _⟩
  | occupied =>
    refine ⟨nofun, fun w' h' => ?_⟩
    exact ⟨hsame.trans ⟨rfl, rfl, rfl⟩, hc.stable _ _ h' hP, fun _ => Option.some_ne_none _⟩
  | refused code =>
    refine ⟨fun _ => ⟨rfl, rfl⟩, fun w' h' => ?_⟩
    exact ⟨hsame.trans ⟨rfl, rfl, rfl⟩, hc.stable _ _ h' hP⟩
  | conditionFailed hfailing =>
    refine ⟨nofun, fun w' h' => ?_⟩
    refine ⟨hsame.trans ⟨rfl, rfl, rfl⟩, hc.stable _ _ h' hP, fun hexclusive => ?_⟩
    obtain ⟨action, hmem, hfalse⟩ := hfailing
    rw [ht.clear hexclusive w put hP action hmem] at hfalse
    cases hfalse

theorem Transitions.guarantee {put : JournalEntry} {items : Items} {outcome : WriteOutcome ItemOf}
    (ht : Transitions i R G writer body causation write exclusive P P₁) (hP : P w)
    (hbuilt : Built i writer body causation put w)
    (htransacted : Transacted (write put) w.items outcome items) : G w (w.withItems items) := by
  cases htransacted with
  | applied happlies => exact (ht.applies w put hP hbuilt happlies).1
  | lostApplied code happlies => exact (ht.applies w put hP hbuilt happlies).1
  | conditionFailed hfailing => exact ht.carries.same _
  | refused code => exact ht.carries.same _
  | lost code => exact ht.carries.same _

theorem prepareRetry_refused {writer₀ writer' : JournalWriter} {put : JournalEntry}
    {result : PrepareResult}
    (hretry : { writer₀ with reservation := none, retryable := some put }.prepareRetry put =
      .ok (result, writer')) :
    SameInstance writer₀ writer' ∧
    (result = .prepared put ∨ ∃ reason, result = .stopped reason ∧ writer'.stopReason ≠ none) := by
  unfold JournalWriter.prepareRetry at hretry
  cases hstop : writer₀.stopReason with
  | some reason =>
    simp only [hstop] at hretry
    obtain ⟨rfl, rfl⟩ := Prod.mk.inj (Except.ok.inj hretry)
    exact ⟨⟨rfl, rfl, rfl⟩, .inr ⟨_, rfl, Option.some_ne_none _⟩⟩
  | none =>
    simp only [hstop, and_self, if_true] at hretry
    obtain ⟨rfl, rfl⟩ := Prod.mk.inj (Except.ok.inj hretry)
    exact ⟨⟨rfl, rfl, rfl⟩, .inl rfl⟩

theorem transitionTries_spec {put : JournalEntry} {writer₀ : JournalWriter} (retries : Nat)
    (ht : Transitions i R G writer body causation write exclusive P P₁)
    (hsame : SameInstance writer writer₀) (hP : P w)
    (hdraft : Drafted i writer body causation put w) :
    SafeAt i R G (TransitionPost writer exclusive P P₁)
      (transitionTries write put retries writer₀) w := by
  have hc := ht.carries
  induction retries generalizing w writer₀ with
  | zero =>
    refine SafeOk.call fun w₁ h₁ outcome w₂ hwrite => ?_
    obtain ⟨items, htransacted, rfl⟩ := answers_transact hwrite
    have hP' := hc.stable _ _ h₁ hP
    have hdraft₁ := hdraft.foreign (hc.foreign _ _ h₁)
    refine ⟨ht.guarantee hP' hdraft₁.built htransacted, sync_spec fun confirmed hconfirm => ?_⟩
    obtain ⟨result, writer'⟩ := confirmed
    have hconfirmed := confirm_confirmed (ht.head put) hdraft₁.unstored htransacted hconfirm
    obtain ⟨-, hpost⟩ := transitionResultOf_post ht hsame hP' hdraft₁.built hconfirmed
    exact SafeOk.pure hpost
  | succ retries ih =>
    refine SafeOk.call fun w₁ h₁ outcome w₂ hwrite => ?_
    obtain ⟨items, htransacted, rfl⟩ := answers_transact hwrite
    have hP' := hc.stable _ _ h₁ hP
    have hdraft₁ := hdraft.foreign (hc.foreign _ _ h₁)
    refine ⟨ht.guarantee hP' hdraft₁.built htransacted, sync_spec fun confirmed hconfirm => ?_⟩
    obtain ⟨result, writer'⟩ := confirmed
    have hconfirmed := confirm_confirmed (ht.head put) hdraft₁.unstored htransacted hconfirm
    obtain ⟨hkept, hpost⟩ := transitionResultOf_post ht hsame hP' hdraft₁.built hconfirmed
    dsimp only
    split
    · -- refused: nothing changed, and the same put is reserved again
      rename_i hdefinitive
      obtain ⟨rfl, rfl⟩ := hkept hdefinitive
      refine sync_spec fun prepared hretry => ?_
      obtain ⟨prepared, writer₂⟩ := prepared
      obtain ⟨hinstance, rfl | ⟨reason, rfl, hstopped⟩⟩ := prepareRetry_refused hretry
      · exact ih (hsame.trans hinstance) hP' hdraft₁
      · exact SafeOk.pure fun w' h' =>
          ⟨hsame.trans hinstance, .inl (hc.stable _ _ h' hP'), hstopped⟩
    · exact SafeOk.pure hpost

theorem runDurableTransition_spec (retries : Nat)
    (ht : Transitions i R G writer body causation write exclusive P P₁) (hP : P w) :
    SafeAt i R G (TransitionPost writer exclusive P P₁)
      (runDurableTransition writer retries body causation write) w := by
  refine SafeOk.bind (prepare_settlement ht.carries hP) ?_
  rintro ⟨prepared, writer₁⟩ w₁ ⟨hP', hprepared⟩
  cases prepared with
  | stopped reason =>
    obtain ⟨rfl, hstopped⟩ := hprepared
    exact SafeOk.pure fun w' h' => ⟨.refl _, .inl (ht.carries.stable _ _ h' hP'), hstopped⟩
  | prepared put =>
    obtain ⟨hdraft, hlive, rfl⟩ := hprepared
    exact transitionTries_spec retries ht ⟨rfl, rfl, rfl⟩ hP' hdraft

end RefundStudy.Attempt
