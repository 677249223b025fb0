/-
  The targeted provider call at its barrier makes only moves of the protocol.
-/
import RefundStudy.Treatment.Interference

set_option autoImplicit false

namespace RefundStudy.Treatment

open Foundation Record RefundStudy.Runtime Journal
open Provider

variable {commit : BarrierCommit} {treatment : Option TreatmentItem} {cause : SafetyReleaseCause}
  {elapsed deadline : Int}

variable {ι : Type} {i : ι} {w w' : World ι}

/-! ## The treatment barrier -/

def transitionItem (target : BarrierTarget) (eventIdAttribute : Option EventIdAttribute)
    (eventId : Uuid4) (item : TreatmentItem) : TreatmentItem :=
  { transitionSet target eventIdAttribute eventId item with
    state := target.toTreatmentState, version := item.version + 1 }

def AfterTransition (i : ι) (target : BarrierTarget)
    (eventIdAttribute : Option EventIdAttribute) (P : World ι → Prop)
    (result : TransitionResult × TreatmentBarrier) (w : World ι) : Prop :=
  Owns i result.2.journal w ∧ P w ∧
  match result.1 with
  | .applied eventId => ∃ item, Seen (transitionItem target eventIdAttribute eventId item) w
  | .superseded current => Seen current w
  | .notApplied => True

theorem notAppliedResult_ne_applied (outcome : WriteOutcome ItemOf) (eventId : Uuid4) :
    notAppliedResult outcome ≠ .ok (.applied eventId) := by
  intro hresult
  unfold notAppliedResult at hresult
  split at hresult
  · cases hresult
  · split at hresult <;> cases hresult
  · cases hresult
  · cases hresult

variable {fromState : CommittedWaitState}

theorem notAppliedResult_seen {target : BarrierTarget} {eventIdAttribute : Option EventIdAttribute}
    {put : JournalEntry} {outcome : WriteOutcome ItemOf} {current : TreatmentItem}
    (hcoherent : Coherent w)
    (houtcome : (∃ code, outcome = .definitiveFailure code) ∨
      ∃ failed existing, outcome = .conditionFailed failed existing ∧
        failed ≠ transitionJournalActionIndex ∧
        firstFailing w.items 0 (transitionActions fromState target eventIdAttribute put) =
          some (failed, existing)) (hresult : notAppliedResult outcome = .ok (.superseded current)) :
    Seen current w := by
  rcases houtcome with ⟨code, rfl⟩ | ⟨failed, existing, rfl, hne, hfailing⟩
  · cases hresult
  · obtain ⟨rfl, rfl⟩ := failed_update_put hfailing hne
    cases hlookup : w.items.lookup .treatment with
    | none =>
      rw [hlookup] at hresult
      cases hresult
    | some item =>
      rw [hlookup] at hresult
      simp only [Option.map_some, notAppliedResult, decodeTreatmentItem] at hresult
      split at hresult
      · rename_i found hfound
        split at hfound
        · obtain rfl := Except.ok.inj hfound
          obtain rfl := TransitionResult.superseded.inj (Except.ok.inj hresult)
          exact hcoherent.seen hlookup
        · cases hfound
      · cases hresult

variable {barrier : TreatmentBarrier} {P : World ι → Prop}

theorem transition_spec {target : BarrierTarget} {eventIdAttribute : Option EventIdAttribute}
    {body : EventBody} {causation : List Uuid4} (hstable : Stable P)
    (hcoherent : ∀ v, P v → Coherent v)
    (hadvance : ∀ v item entry, P v → v.items.lookup .treatment = some item →
      item.state = fromState.toTreatmentState → Built i barrier.journal body causation entry v →
      Advance entry.event item (transitionItem target eventIdAttribute entry.event.eventId item))
    (howns : Owns i barrier.journal w) (hP : P w) :
    Abides i (AfterTransition i target eventIdAttribute P)
      (barrier.transition fromState target eventIdAttribute body causation) w := by
  refine SafeOk.bind (prepare_spec (P := P) (env_respected i) .same
    (fun _ _ hfresh => .drew hfresh) (fun _ _ hrel => hstable.env hrel)
    (fun _ _ hfresh => hstable.draw hfresh) howns hP) ?_
  rintro ⟨prepared, journal⟩ w₁ hprepared
  cases prepared with
  | stopped reason => exact SafeOk.throw
  | prepared put =>
    obtain ⟨hbuilt, howns₁, hP₁, hlive, rfl⟩ := hprepared
    refine SafeOk.call fun w₂ h₂ token w₃ hid => ?_
    obtain ⟨hfresh, rfl⟩ := answers_nextId hid
    refine ⟨.drew hfresh, SafeOk.call fun w₄ h₄ outcome w₅ htransact => ?_⟩
    obtain ⟨items, htransacted, rfl⟩ := answers_transact htransact
    have hrespects : Respects i w₁ w₄ := (env_respected i _ _ h₂).trans
      ((Respects.draw hfresh).trans (env_respected i _ _ h₄))
    have howns₄ := howns₁.respects hrespects
    have hbuilt₄ := hbuilt.respects hrespects
    have hP₄ : P w₄ := hstable.env h₄ (hstable.draw hfresh (hstable.env h₂ hP₁))
    -- an applicable transaction is an advance of the item it found
    have happlied : Applies (transitionActions fromState target eventIdAttribute put) w₄.items →
        ∃ item, w₄.items.lookup .treatment = some item ∧
          applyAll (transitionActions fromState target eventIdAttribute put) w₄.items =
            (w₄.items.insert .treatment (transitionItem target eventIdAttribute
              put.event.eventId item)).insert (.journal put.key) put.event ∧
          Moves i w₄ (w₄.withItems
            (applyAll (transitionActions fromState target eventIdAttribute put) w₄.items)) := by
      intro happlies
      have hcondition := happlies.condition (List.mem_cons_self ..)
      obtain ⟨item, hitem, hstate⟩ := (attributeEquals_iff _ _ _).mp hcondition
      have hitems : applyAll (transitionActions fromState target eventIdAttribute put)
          w₄.items = (w₄.items.insert .treatment (transitionItem target eventIdAttribute
            put.event.eventId item)).insert (.journal put.key) put.event :=
        applyAll_update_put hitem
      have hputs : Puts i w₄ put := by
        refine ⟨?_, hbuilt₄.drawn, hbuilt₄.absent howns₄ hlive⟩
        rw [hbuilt₄.instanceId_eq]
        exact howns₄.drawn
      refine ⟨item, hitem, hitems, ?_⟩
      have hmove := Moves.advanced hputs hitem (hadvance w₄ item put hP₄ hitem hstate hbuilt₄)
      exact hitems ▸ hmove
    have hguarantee : Moves i w₄ (w₄.withItems items) := by
      cases htransacted with
      | applied happlies | lostApplied _ happlies =>
        obtain ⟨item, -, -, hmove⟩ := happlied happlies
        exact hmove
      | conditionFailed | refused | lost => exact .same _
    refine ⟨hguarantee, sync_spec ?_⟩
    rintro ⟨confirmed, journal⟩ hconfirm
    have hkeys : ∀ key : JournalKey, key ≠ put.key →
        (applyAll (transitionActions fromState target eventIdAttribute put) w₄.items).lookup
          (.journal key) = w₄.items.lookup (.journal key) :=
      fun key hkey => applyAll_update_put_keys key hkey
    obtain ⟨hsettled, -⟩ := howns₄.confirm hlive hbuilt₄ rfl hkeys htransacted hconfirm
    have hP₅ : P (w₄.withItems items) := hstable i _ _ hguarantee hP₄
    cases hsettled with
    | stopped => exact SafeOk.throw
    | appended houtcome happlies hitems howns₅ =>
      refine SafeOk.pure fun w' h' => ⟨howns₅.respects (env_respected i _ _ h'),
        hstable.env h' hP₅, ?_⟩
      obtain ⟨item, hitem, hafter, -⟩ := happlied happlies
      refine ⟨item, (seen_stable _).env h' ((hcoherent _ hP₅).seen ?_)⟩
      rw [World.withItems_items, hitems, hafter, AList.lookup_insert_ne (by simp),
        AList.lookup_insert]
    | notApplied hitems houtcome howns₅ =>
      refine sync_spec fun result hresult => ?_
      refine SafeOk.pure fun w' h' => ⟨howns₅.respects (env_respected i _ _ h'),
        hstable.env h' hP₅, ?_⟩
      cases result with
      | applied eventId => exact absurd hresult (notAppliedResult_ne_applied outcome eventId)
      | notApplied => trivial
      | superseded current =>
        have hseen := notAppliedResult_seen (hcoherent w₄ hP₄) houtcome hresult
        subst hitems
        exact (seen_stable _).env h' hseen

def AfterTurn (i : ι) (result : Performed × TreatmentBarrier) (w : World ι) : Prop :=
  Owns i result.2.journal w ∧ Coherent w ∧
  match result.1 with
  | .decideFrom current => Seen current w
  | _ => True

theorem AfterTurn.env {result : Performed × TreatmentBarrier} (h : AfterTurn i result w)
    (hrel : (env i).rel w w') : AfterTurn i result w' := by
  obtain ⟨howns, hcoherent, himage⟩ := h
  refine ⟨howns.respects (env_respected i _ _ hrel), coherent_stable.env hrel hcoherent, ?_⟩
  obtain ⟨performed, barrier⟩ := result
  cases performed with
  | decideFrom current => exact (seen_stable current).env hrel himage
  | ended | read => trivial

theorem waitOnePoll_spec (hP : ∀ v v', (env i).rel v v' → P v → P v') (hPw : P w) :
    Abides i (fun performed w' => performed = .read ∧ P w') TreatmentBarrier.waitOnePoll w := by
  refine SafeOk.call fun w₁ h₁ _ w₂ hsleep => ?_
  obtain rfl := answers_sleep hsleep
  refine ⟨.same _, SafeOk.pure fun w' h' => ⟨rfl, ?_⟩⟩
  exact hP _ _ h' (hP _ _ h₁ hPw)

theorem pollAgain_spec (howns : Owns i barrier.journal w) (hcoherent : Coherent w) :
    Abides i (AfterTurn i)
      (do let next ← TreatmentBarrier.waitOnePoll
          pure (next, barrier)) w := by
  refine SafeOk.bind (waitOnePoll_spec (P := fun v => Owns i barrier.journal v ∧ Coherent v)
    ?_ ⟨howns, hcoherent⟩) ?_
  · exact fun v v' hrel h => ⟨h.1.respects (env_respected i _ _ hrel),
      coherent_stable.env hrel h.2⟩
  · rintro _ w₁ ⟨rfl, howns₁, hcoherent₁⟩
    have hafter : AfterTurn i (.read, barrier) w₁ := ⟨howns₁, hcoherent₁, trivial⟩
    exact SafeOk.pure fun w' h' => hafter.env h'

theorem continueAfter_spec {result : TransitionResult} {target : BarrierTarget}
    {eventIdAttribute : Option EventIdAttribute}
    (h : AfterTransition i target eventIdAttribute P (result, barrier) w) (hcoherent : Coherent w) :
    Abides i (AfterTurn i)
      (do let next ← TreatmentBarrier.continueAfter result
          pure (next, barrier)) w := by
  obtain ⟨howns, -, hresult⟩ := h
  cases result with
  | applied | notApplied => exact pollAgain_spec howns hcoherent
  | superseded current =>
    have hafter : AfterTurn i (.decideFrom current, barrier) w := ⟨howns, hcoherent, hresult⟩
    exact SafeOk.pure fun w' h' => hafter.env h'

variable {image : TreatmentItem}

theorem release_spec {observedEventId : Uuid4}
    (howns : Owns i barrier.journal w) (hseen : Seen image w)
    (hobserved : image.observedEventId = some observedEventId) :
    Abides i (AfterTurn i) (barrier.release commit observedEventId) w := by
  refine SafeOk.bind (transition_spec (P := Seen image) (seen_stable image)
    (fun _ h => h.coherent) ?_ howns hseen) ?_
  · intro v item entry hv hlookup hstate hbuilt
    exact .released hstate hbuilt.body_eq hbuilt.causation_eq
      (hv.id hlookup .observedEventId hobserved)
  · rintro ⟨result, barrier₁⟩ w₁ hafter
    have hcoherent := hafter.2.1.coherent
    cases result with
    | applied eventId =>
      have hended : AfterTurn i (.ended .released, barrier₁) w₁ := ⟨hafter.1, hcoherent, trivial⟩
      exact SafeOk.pure fun w' h' => hended.env h'
    | superseded | notApplied => exact continueAfter_spec hafter hcoherent

/-- The observation: the signal it names is the item's, and the release follows
from the observation itself. -/
theorem observe_spec {signalEventId : Uuid4}
    (howns : Owns i barrier.journal w) (hseen : Seen image w)
    (hsignal : image.signalEventId = some signalEventId) :
    Abides i (AfterTurn i) (barrier.observe commit signalEventId) w := by
  refine SafeOk.bind (transition_spec (P := Seen image) (seen_stable image)
    (fun _ h => h.coherent) ?_ howns hseen) ?_
  · intro v item entry hv hlookup hstate hbuilt
    exact .observed hstate hbuilt.body_eq hbuilt.causation_eq
      (hv.id hlookup .signalEventId hsignal)
  · rintro ⟨result, barrier₁⟩ w₁ hafter
    cases result with
    | applied eventId =>
      obtain ⟨howns₁, -, item, hitem⟩ := hafter
      exact release_spec howns₁ hitem rfl
    | superseded | notApplied => exact continueAfter_spec hafter hafter.2.1.coherent

theorem safetyReleaseBody_spec
    (hP : ∀ v v', (env i).rel v v' → P v → P v') (hPw : P w) :
    Abides i (fun body w' => (∃ elapsed,
        body = .treatmentSafetyReleased cause fromState commit.refs elapsed) ∧ P w')
      (TreatmentBarrier.safetyReleaseBody commit cause fromState) w := by
  refine SafeOk.call fun w₁ h₁ now w₂ hnow => ?_
  obtain rfl := answers_monotonicNow hnow
  refine ⟨.same _, sync_spec fun elapsed _ => SafeOk.pure fun w' h' => ⟨⟨elapsed, rfl⟩, ?_⟩⟩
  exact hP _ _ h' (hP _ _ h₁ hPw)

theorem safetyRelease_spec (howns : Owns i barrier.journal w)
    (hcoherent : Coherent w) :
    Abides i (AfterTurn i) (barrier.safetyRelease commit fromState) w := by
  refine SafeOk.bind (safetyReleaseBody_spec
    (P := fun v => Owns i barrier.journal v ∧ Coherent v) ?_ ⟨howns, hcoherent⟩) ?_
  · exact fun v v' hrel h => ⟨h.1.respects (env_respected i _ _ hrel),
      coherent_stable.env hrel h.2⟩
  rintro body w₁ ⟨⟨elapsed, rfl⟩, howns₁, hcoherent₁⟩
  refine SafeOk.bind (transition_spec (P := Coherent) coherent_stable (fun _ h => h) ?_
    howns₁ hcoherent₁) ?_
  · intro v item entry _ _ hstate hbuilt
    exact .safetyReleased hstate hbuilt.body_eq
  · rintro ⟨result, barrier₁⟩ w₂ hafter
    cases result with
    | applied eventId =>
      have hended : AfterTurn i (.ended .safetyReleased, barrier₁) w₂ :=
        ⟨hafter.1, hafter.2.1, trivial⟩
      exact SafeOk.pure fun w' h' => hended.env h'
    | superseded | notApplied => exact continueAfter_spec hafter hafter.2.1

/-- Recording somebody else's safety release: the item still is safety-released. -/
theorem recordExternalRelease_spec
    (howns : Owns i barrier.journal w) (hseen : Seen image w)
    (hstate : image.state = .safetyReleased) :
    Abides i (AfterTurn i) (barrier.recordExternalRelease commit cause) w := by
  refine SafeOk.bind (safetyReleaseBody_spec
    (P := fun v => Owns i barrier.journal v ∧ Seen image v) ?_ ⟨howns, hseen⟩) ?_
  · exact fun v v' hrel h => ⟨h.1.respects (env_respected i _ _ hrel),
      (seen_stable image).env hrel h.2⟩
  rintro body w₁ ⟨⟨elapsed, rfl⟩, howns₁, hseen₁⟩
  have happend : Abides i (Appended i barrier.journal
        (.treatmentSafetyReleased cause barrier.waitState commit.refs elapsed)
        [commit.commitEventId])
      (barrier.journal.append
        (.treatmentSafetyReleased cause barrier.waitState commit.refs elapsed)
        [commit.commitEventId]) w₁ := by
    refine append_spec (P := Seen image) (env_respected i) .same (fun _ _ hfresh => .drew hfresh)
      (fun _ _ hrel => (seen_stable image).env hrel)
      (fun _ _ hfresh => (seen_stable image).draw hfresh) ?_ howns₁ hseen₁
    rintro v entry ⟨item, hitem, hlater⟩ hbuilt habsent hinstance
    obtain rfl := hlater.eq_of_terminal (.inr hstate)
    refine .noted ⟨?_, hbuilt.drawn, habsent⟩ hbuilt.body_eq hitem.treatment hstate
    rw [hbuilt.instanceId_eq]
    exact hinstance
  refine SafeOk.bind (SafeOk.frame happend (fun _ _ hrel => (seen_stable image).env hrel)
    (fun _ _ hmove => seen_stable image i _ _ hmove) hseen₁) ?_
  rintro ⟨appended, journal⟩ w₂ ⟨happended, hseen₂⟩
  cases appended with
  | stopped reason => exact SafeOk.throw
  | appended event =>
    have hafter : AfterTurn i (.ended (.externallyReleased cause),
        ⟨journal, barrier.waitState⟩) w₂ := ⟨happended.owns, hseen₂.coherent, trivial⟩
    exact SafeOk.pure fun w' h' => hafter.env h'

variable {ownCommitId : Uuid4}

theorem decideBarrierStep_observe
    {signalEventId : Uuid4}
    (h : decideBarrierStep treatment ownCommitId elapsed deadline = .observe signalEventId) :
    ∃ image, treatment = some image ∧ image.signalEventId = some signalEventId := by
  unfold decideBarrierStep signalledStep observedStep at h
  grind

theorem decideBarrierStep_release
    {observedEventId : Uuid4}
    (h : decideBarrierStep treatment ownCommitId elapsed deadline = .release observedEventId) :
    ∃ image, treatment = some image ∧ image.observedEventId = some observedEventId := by
  unfold decideBarrierStep signalledStep observedStep at h
  grind

theorem decideBarrierStep_externallyReleased
    (h : decideBarrierStep treatment ownCommitId elapsed deadline = .externallyReleased cause) :
    ∃ image, treatment = some image ∧ image.state = .safetyReleased := by
  unfold decideBarrierStep signalledStep observedStep at h
  grind

theorem perform_spec {elapsed : Int}
    (howns : Owns i barrier.journal w) (hcoherent : Coherent w)
    (himage : ∀ image, treatment = some image → Seen image w) :
    Abides i (AfterTurn i) (barrier.perform commit
        (decideBarrierStep treatment commit.providerCommitId elapsed safetyReleaseNs)) w := by
  generalize hstep :
    decideBarrierStep treatment commit.providerCommitId elapsed safetyReleaseNs = step
  cases step with
  | keepWaiting => exact pollAgain_spec howns hcoherent
  | observe signalEventId =>
    obtain ⟨image, rfl, hsignal⟩ := decideBarrierStep_observe hstep
    exact observe_spec howns (himage image rfl) hsignal
  | release observedEventId =>
    obtain ⟨image, rfl, hobserved⟩ := decideBarrierStep_release hstep
    exact release_spec howns (himage image rfl) hobserved
  | safetyRelease fromState => exact safetyRelease_spec howns hcoherent
  | externallyReleased cause =>
    obtain ⟨image, rfl, hstate⟩ := decideBarrierStep_externallyReleased hstep
    exact recordExternalRelease_spec howns (himage image rfl) hstate
  | unexpectedState => exact SafeOk.throw

theorem turnImage_spec {known : Option TreatmentItem} (hPR : ∀ v v', (env i).rel v v' → P v → P v')
    (hcoherent : ∀ v, P v → Coherent v) (hP : P w)
    (hknown : ∀ image, known = some image → Seen image w) :
    Abides i (fun treatment w' => P w' ∧ ∀ image, treatment = some image → Seen image w')
      (TreatmentBarrier.turnImage known) w := by
  cases known with
  | some image =>
    refine SafeOk.pure fun w' h' => ⟨hPR _ _ h' hP, fun other hother => ?_⟩
    exact (seen_stable other).env h' (hknown other hother)
  | none =>
    refine SafeOk.bind (loadTreatment_spec hPR hcoherent hP) ?_
    rintro read w₁ ⟨hP₁, hread⟩
    cases read with
    | error code =>
      exact SafeOk.pure fun w' h' => ⟨hPR _ _ h' hP₁, fun image himage => by cases himage⟩
    | ok treatment =>
      refine SafeOk.pure fun w' h' => ⟨hPR _ _ h' hP₁, fun image himage => ?_⟩
      exact (seen_stable image).env h' (hread image (congrArg Except.ok himage))

theorem awaitRelease_spec (fuel : Nat) {known : Option TreatmentItem}
    (howns : Owns i barrier.journal w) (hcoherent : Coherent w)
    (hknown : ∀ image, known = some image → Seen image w) :
    Abides i (fun _ w' => Coherent w')
      (TreatmentBarrier.awaitRelease commit fuel barrier known) w := by
  induction fuel generalizing barrier known w with
  | zero => exact fun _ _ never => never.elim
  | succ fuel ih =>
    have hPR : ∀ v v', (env i).rel v v' → Owns i barrier.journal v ∧ Coherent v →
        Owns i barrier.journal v' ∧ Coherent v' := fun v v' hrel h =>
      ⟨h.1.respects (env_respected i _ _ hrel), coherent_stable.env hrel h.2⟩
    refine SafeOk.bind (turnImage_spec hPR (fun _ h => h.2) ⟨howns, hcoherent⟩ hknown) ?_
    rintro treatment w₁ ⟨⟨howns₁, hcoherent₁⟩, himage⟩
    refine SafeOk.call fun w₂ h₂ now w₃ hnow => ?_
    obtain rfl := answers_monotonicNow hnow
    refine ⟨.same _, SafeOk.bind (perform_spec (howns₁.respects (env_respected i _ _ h₂))
      (coherent_stable.env h₂ hcoherent₁)
      fun image hsome => (seen_stable image).env h₂ (himage image hsome)) ?_⟩
    rintro ⟨performed, barrier₁⟩ w₄ ⟨howns₄, hcoherent₄, himage₄⟩
    cases performed with
    | ended outcome => exact SafeOk.pure fun w' h' => coherent_stable.env h' hcoherent₄
    | read => exact ih howns₄ hcoherent₄ fun image hnone => by cases hnone
    | decideFrom current =>
      refine ih howns₄ hcoherent₄ fun image hsome => ?_
      obtain rfl := Option.some.inj hsome
      exact himage₄

end RefundStudy.Treatment
