/-
  What a session that allows publication has been told by its store.
-/
import Mathlib.Data.List.Induction
import RefundStudy.Foundation.Trace
import RefundStudy.Lease.Session

set_option autoImplicit false

namespace RefundStudy.Lease

open Foundation Record

variable {session : Session} {closure : LeaseClosure} {at_ : UtcMillis} {outcome : LeaseOutcome}
  {phase : SessionPhase}

/-! ## Histories -/

/-- The exchanges of a session so far. -/
abbrev LeaseHistory : Type := List (Exchange LeaseCall LeaseReply)

def assignedPhase : Exchange LeaseCall LeaseReply → Option SessionPhase
  | ⟨.setPhase phase, _⟩ => some phase
  | _ => none

def settledPhases (history : LeaseHistory) : List SessionPhase := history.filterMap assignedPhase

def phaseAfter (history : LeaseHistory) : SessionPhase := (settledPhases history).getLast?.getD .idle

def monotonicReadings (history : LeaseHistory) : List Nat :=
  history.filterMap fun exchange =>
    match exchange with
    | ⟨.monotonicNow, reading⟩ => some reading
    | _ => none

/-- The store confirmed a write: it answered that the write applied, or it answered nothing certain
and its next consistent read shows that the write landed. -/
inductive ConfirmedWrite (landed : LeaseItem → Bool) (action : LeaseWrite) : LeaseHistory → Prop where
  | applied : ConfirmedWrite landed action [⟨.write action, .applied⟩]
  | shown (code : String) (item : LeaseItem) (hlanded : landed item = true) :
      ConfirmedWrite landed action
        [⟨.write action, .ambiguous code⟩, ⟨.getConsistent, .ok (some item)⟩]

/-- The exchanges by which the store confirmed a write of this owner that was issued at a reading of
the clock: a heartbeat, or the acquisition, which may replace a released item. -/
inductive Confirms (own : LeaseOwner) (issuedNs : Nat) : LeaseHistory → Prop where
  | heartbeat {version : Nat} {at_ : UtcMillis} {exchanges : LeaseHistory}
      (written : ConfirmedWrite
        (fun item => heartbeatLanded item ⟨own, version, issuedNs, at_⟩)
        (heartbeatWrite own version at_) exchanges) :
      Confirms own issuedNs (⟨.monotonicNow, issuedNs⟩ :: ⟨.wallNow, at_⟩ :: exchanges)
  | acquired {at_ : UtcMillis} {exchanges : LeaseHistory}
      (written : ConfirmedWrite (fun item => acquisitionLanded item own at_)
        (acquisitionPut own at_ itemAbsent) exchanges) :
      Confirms own issuedNs (⟨.monotonicNow, issuedNs⟩ :: ⟨.wallNow, at_⟩ :: exchanges)
  | replaced {at_ : UtcMillis} {first : LeaseOutcome} {released : LeaseItem}
      {exchanges : LeaseHistory}
      (written : ConfirmedWrite (fun item => acquisitionLanded item own at_)
        (acquisitionPut own at_ (sameReleasedItem released)) exchanges) :
      Confirms own issuedNs (⟨.monotonicNow, issuedNs⟩ :: ⟨.wallNow, at_⟩ ::
        ⟨.write (acquisitionPut own at_ itemAbsent), first⟩ :: exchanges)

/-- A health stands on a confirmed write: after it the session settled nothing but that health. -/
structure Backed (own : LeaseOwner) (state : LeaseHealthState)
    (confirmation after : LeaseHistory) : Prop where
  confirms : Confirms own state.lastConfirmedNs confirmation
  settled : settledPhases after = [.held state]

def IsHeartbeat (own : LeaseOwner) (action : LeaseWrite) : Prop :=
  ∃ version at_, action = heartbeatWrite own version at_

def LostPhase : SessionPhase → Prop
  | .held state => isLost state.health = true
  | .finalized _ => True
  | .idle | .refused | .unresolved => False

structure Faithful (own : LeaseOwner) (history : LeaseHistory) : Prop where
  backed : ∀ state, phaseAfter history = .held state → state.health = .confirmed →
    ∃ before confirmation after, history = before ++ confirmation ++ after ∧
      Backed own state confirmation after
  lost : ∀ state, .held state ∈ settledPhases history → isLost state.health = true →
    LostPhase (phaseAfter history)
  silent : ∀ before after state, isLost state.health = true →
    history = before ++ ⟨.setPhase (.held state), ()⟩ :: after →
    ∀ action outcome, (⟨.write action, outcome⟩ : Exchange LeaseCall LeaseReply) ∈ after →
      ¬ IsHeartbeat own action

/-! ## One more exchange -/

section Exchange

variable {own : LeaseOwner} {history : LeaseHistory} {exchange : Exchange LeaseCall LeaseReply}

@[simp] theorem settledPhases_append (front back : LeaseHistory) :
    settledPhases (front ++ back) = settledPhases front ++ settledPhases back :=
  List.filterMap_append

theorem settledPhases_concat_none (h : assignedPhase exchange = none) :
    settledPhases (history ++ [exchange]) = settledPhases history := by
  simp [settledPhases, h]

theorem phaseAfter_concat_none (h : assignedPhase exchange = none) :
    phaseAfter (history ++ [exchange]) = phaseAfter history := by
  unfold phaseAfter
  rw [settledPhases_concat_none h]

theorem phaseAfter_setPhase :
    phaseAfter (history ++ [⟨.setPhase phase, ()⟩]) = phase := by
  simp [phaseAfter, settledPhases, assignedPhase]

theorem concat_split {last : Exchange LeaseCall LeaseReply} {before after : LeaseHistory}
    (h : history ++ [last] = before ++ exchange :: after) :
    (exchange = last ∧ after = []) ∨
      ∃ after', after = after' ++ [last] ∧ history = before ++ exchange :: after' := by
  induction after using List.reverseRecOn with
  | nil =>
    have hlast := List.append_inj' h rfl
    exact Or.inl ⟨(List.cons.inj hlast.2).1.symm, rfl⟩
  | append_singleton after' final _ =>
    rw [← List.cons_append, ← List.append_assoc] at h
    obtain ⟨hhistory, hfinal⟩ := List.append_inj' h rfl
    rw [(List.cons.inj hfinal).1]
    exact Or.inr ⟨after', rfl, hhistory⟩

/-- Whatever is said about a session's last phase survives an exchange that assigns none. -/
theorem Faithful.exchanged (hfaithful : Faithful own history)
    (hnone : assignedPhase exchange = none)
    (hquiet : ∀ action outcome, exchange = ⟨.write action, outcome⟩ → IsHeartbeat own action →
      ¬ LostPhase (phaseAfter history)) :
    Faithful own (history ++ [exchange]) := by
  constructor
  · intro state hphase hhealth
    rw [phaseAfter_concat_none hnone] at hphase
    obtain ⟨before, confirmation, after, rfl, hbacked⟩ := hfaithful.backed state hphase hhealth
    refine ⟨before, confirmation, after ++ [exchange], by simp, hbacked.confirms, ?_⟩
    rw [settledPhases_concat_none hnone]
    exact hbacked.settled
  · intro state hmem hlost
    rw [settledPhases_concat_none hnone] at hmem
    rw [phaseAfter_concat_none hnone]
    exact hfaithful.lost state hmem hlost
  · intro before after state hlost hsplit action outcome hmem hheartbeat
    rcases concat_split hsplit with ⟨hexchange, -⟩ | ⟨after', rfl, hhistory⟩
    · rw [← hexchange] at hnone
      cases hnone
    · rcases List.mem_append.mp hmem with hold | hnew
      · exact hfaithful.silent before after' state hlost hhistory action outcome hold hheartbeat
      · have hmember : SessionPhase.held state ∈ settledPhases history := by
          rw [hhistory]
          simp [settledPhases, assignedPhase]
        exact hquiet action outcome (List.mem_singleton.mp hnew).symm hheartbeat
          (hfaithful.lost state hmember hlost)

theorem Faithful.assigned (hfaithful : Faithful own history)
    (hbacked : ∀ state, phase = .held state → state.health = .confirmed →
      ∃ before confirmation after, history = before ++ confirmation ++ after ∧
        Confirms own state.lastConfirmedNs confirmation ∧ settledPhases after = [])
    (hlost : LostPhase (phaseAfter history) → LostPhase phase) :
    Faithful own (history ++ [⟨.setPhase phase, ()⟩]) := by
  constructor
  · intro state hphase hhealth
    rw [phaseAfter_setPhase] at hphase
    obtain ⟨before, confirmation, after, rfl, hconfirms, hnone⟩ := hbacked state hphase hhealth
    refine ⟨before, confirmation, after ++ [⟨.setPhase phase, ()⟩], by simp, hconfirms, ?_⟩
    rw [settledPhases_append, hnone, hphase]
    rfl
  · intro state hmem hstate
    rw [phaseAfter_setPhase]
    rw [settledPhases_append] at hmem
    rcases List.mem_append.mp hmem with hold | hnew
    · exact hlost (hfaithful.lost state hold hstate)
    · have hphase : SessionPhase.held state = phase := by
        simpa [settledPhases, assignedPhase] using hnew
      rw [← hphase]
      exact hstate
  · intro before after state hstate hsplit action outcome hmem
    rcases concat_split hsplit with ⟨-, rfl⟩ | ⟨after', rfl, hhistory⟩
    · cases hmem
    · rcases List.mem_append.mp hmem with hold | hnew
      · exact hfaithful.silent before after' state hstate hhistory action outcome hold
      · cases List.mem_singleton.mp hnew

end Exchange

/-! ## The operations -/

section Operations

variable {own : LeaseOwner} {history : LeaseHistory}

theorem Faithful.quiet (hfaithful : Faithful own history) {exchange : Exchange LeaseCall LeaseReply}
    (hnone : assignedPhase exchange = none)
    (hother : ∀ action outcome, exchange = ⟨.write action, outcome⟩ → ¬ IsHeartbeat own action) :
    Faithful own (history ++ [exchange]) :=
  hfaithful.exchanged hnone fun action outcome heq hheartbeat =>
    absurd hheartbeat (hother action outcome heq)

theorem Faithful.observed (hfaithful : Faithful own history) {request : LeaseCall}
    {reply : LeaseReply request} (hnone : assignedPhase ⟨request, reply⟩ = none)
    (hread : ∀ action, request ≠ .write action) :
    Faithful own (history ++ [⟨request, reply⟩]) := by
  refine hfaithful.quiet hnone ?_
  intro action outcome heq
  exact absurd (congrArg Sigma.fst heq) (hread action)

theorem readLease_keeps (hfaithful : Faithful own history) :
    KeepsHistory (Faithful own) (fun read after => ∃ reply,
      after = history ++ [⟨.getConsistent, reply⟩] ∧
        ∀ item, read = Except.ok (some item) → reply = .ok (some item)) readLease history := by
  refine Follows.call hfaithful fun reply => ?_
  have hafter : Faithful own (history ++ [⟨.getConsistent, reply⟩]) :=
    hfaithful.observed rfl (fun action => LeaseCall.noConfusion)
  cases reply with
  | error code =>
    refine ⟨hafter, _, rfl, ?_⟩
    intro item hitem
    cases hitem
  | ok found =>
    cases found with
    | none =>
      refine ⟨hafter, _, rfl, ?_⟩
      intro item hitem
      cases hitem
    | some stored =>
      dsimp only
      split
      · rename_i decoded hdecoded
        refine ⟨hafter, _, rfl, ?_⟩
        intro item hitem
        unfold decodeLeaseItem at hdecoded
        split at hdecoded
        · cases hdecoded
          cases hitem
          rfl
        · cases hdecoded
      · refine ⟨hafter, _, rfl, ?_⟩
        intro item hitem
        cases hitem

/-- What a judgement says about the exchanges it stands on. -/
structure Judges (landed : LeaseItem → Bool) (action : LeaseWrite) (issuedNs : Nat)
    (judged : HeartbeatJudgement) (written rest : LeaseHistory) : Prop where
  unsettled : settledPhases (written ++ rest) = []
  confirmed : ∀ issued observedNs at_ version,
    judged.observation = .confirmed issued observedNs at_ version →
      issued = issuedNs ∧ ConfirmedWrite landed action written
  judged : ∀ observedNs, judged.observation ≠ .clock observedNs

theorem judges_unconfirmed {landed : LeaseItem → Bool} {action : LeaseWrite} {issuedNs : Nat}
    {judged : HeartbeatJudgement} {written rest : LeaseHistory}
    (hunsettled : settledPhases (written ++ rest) = [])
    (hkind : (∃ observedNs adopted, judged.observation = .failed observedNs adopted) ∨
      ∃ observedNs code, judged.observation = .mismatch observedNs code) :
    Judges landed action issuedNs judged written rest := by
  refine ⟨hunsettled, ?_, ?_⟩
  · intro issued observedNs at_ version hconfirmed
    rcases hkind with ⟨_, _, h⟩ | ⟨_, _, h⟩ <;> rw [h] at hconfirmed <;> cases hconfirmed
  · intro observedNs hclock
    rcases hkind with ⟨_, _, h⟩ | ⟨_, _, h⟩ <;> rw [h] at hclock <;> cases hclock

/-- The postcondition of a judgement over the exchanges since `history`. -/
abbrev JudgedSince (landed : LeaseItem → Bool) (action : LeaseWrite) (issuedNs : Nat)
    (history : LeaseHistory) (judged : HeartbeatJudgement) (after : LeaseHistory) : Prop :=
  ∃ written rest, after = history ++ written ++ rest ∧
    Judges landed action issuedNs judged written rest

variable {landed : LeaseItem → Bool} {action : LeaseWrite} {attempt : HeartbeatAttempt}
  {written : LeaseHistory}

theorem monotonicNow_keeps {judge : Nat → HeartbeatJudgement}
    (hfaithful : Faithful own (history ++ written))
    (hjudges : ∀ observedNs, Judges landed action attempt.issuedNs (judge observedNs) written
      [⟨.monotonicNow, observedNs⟩]) :
    KeepsHistory (Faithful own) (JudgedSince landed action attempt.issuedNs history)
      (do
        let observedNs ← leaseAwait .monotonicNow
        pure (judge observedNs)) (history ++ written) := by
  refine Follows.call hfaithful fun observedNs => ⟨?_, written, _, rfl, hjudges observedNs⟩
  exact hfaithful.observed rfl (fun action => LeaseCall.noConfusion)

theorem settledPhases_observed {request : LeaseCall} {reply : LeaseReply request}
    (hunsettled : settledPhases written = []) (hnone : assignedPhase ⟨request, reply⟩ = none) :
    settledPhases (written ++ [⟨request, reply⟩]) = [] := by
  rw [settledPhases_concat_none hnone]
  exact hunsettled

theorem judgedConfirmed_keeps (hfaithful : Faithful own (history ++ written))
    (hunsettled : settledPhases written = [])
    (hwritten : ConfirmedWrite landed action written) :
    KeepsHistory (Faithful own) (JudgedSince landed action attempt.issuedNs history)
      (judgedConfirmed attempt) (history ++ written) := by
  refine monotonicNow_keeps hfaithful fun observedNs => ?_
  refine ⟨settledPhases_observed hunsettled rfl, ?_, ?_⟩
  · intro issued observed at_ version hconfirmed
    cases hconfirmed
    exact ⟨rfl, hwritten⟩
  · intro observed hclock
    cases hclock

theorem judgedFailed_keeps (hfaithful : Faithful own (history ++ written))
    (hunsettled : settledPhases written = []) :
    KeepsHistory (Faithful own) (JudgedSince landed action attempt.issuedNs history)
      judgedFailed (history ++ written) :=
  monotonicNow_keeps hfaithful fun observedNs =>
    judges_unconfirmed (settledPhases_observed hunsettled rfl) (Or.inl ⟨observedNs, none, rfl⟩)

theorem judgedMismatch_keeps {code : LeaseReasonCode} (hfaithful : Faithful own (history ++ written))
    (hunsettled : settledPhases written = []) :
    KeepsHistory (Faithful own) (JudgedSince landed action attempt.issuedNs history)
      (judgedMismatch code) (history ++ written) :=
  monotonicNow_keeps hfaithful fun observedNs =>
    judges_unconfirmed (settledPhases_observed hunsettled rfl) (Or.inr ⟨observedNs, code, rfl⟩)

theorem judgeItem_keeps {item : LeaseItem} (hfaithful : Faithful own (history ++ written))
    (hunsettled : settledPhases written = []) :
    KeepsHistory (Faithful own) (JudgedSince landed action attempt.issuedNs history)
      (judgeItem item attempt) (history ++ written) := by
  refine Follows.call hfaithful fun observedNs => ?_
  have hafter : Faithful own (history ++ written ++ [⟨.monotonicNow, observedNs⟩]) :=
    hfaithful.observed rfl (fun action => LeaseCall.noConfusion)
  split
  · exact ⟨hafter, written, _, rfl, judges_unconfirmed (settledPhases_observed hunsettled rfl)
      (Or.inl ⟨observedNs, some item.leaseVersion, rfl⟩)⟩
  · exact ⟨hafter, written, _, rfl, judges_unconfirmed (settledPhases_observed hunsettled rfl)
      (Or.inr ⟨observedNs, .ownershipMismatch, rfl⟩)⟩

theorem judgeRead_keeps {read : LeaseRead} (hfaithful : Faithful own (history ++ written))
    (hunsettled : settledPhases written = []) :
    KeepsHistory (Faithful own) (JudgedSince landed action attempt.issuedNs history)
      (judgeRead read attempt) (history ++ written) := by
  unfold judgeRead
  split
  · exact judgedMismatch_keeps hfaithful hunsettled
  · exact judgedFailed_keeps hfaithful hunsettled
  · exact judgedMismatch_keeps hfaithful hunsettled
  · exact judgeItem_keeps hfaithful hunsettled

/-- Behind a write, `judgeHeartbeat` reads at most once before it judges. -/
theorem judgeHeartbeat_keeps
    (hfaithful : Faithful own (history ++ [⟨.write action, outcome⟩])) :
    KeepsHistory (Faithful own)
      (JudgedSince (fun item => heartbeatLanded item attempt) action attempt.issuedNs history)
      (judgeHeartbeat outcome attempt) (history ++ [⟨.write action, outcome⟩]) := by
  have hunsettled : settledPhases [⟨.write action, outcome⟩] = [] := rfl
  cases outcome with
  | applied => exact judgedConfirmed_keeps hfaithful hunsettled .applied
  | definitiveFailure code => exact judgedFailed_keeps hfaithful hunsettled
  | ambiguous code =>
    refine Follows.bind (readLease_keeps hfaithful) ?_
    intro read after hread
    obtain ⟨hafter, reply, rfl, hshown⟩ := hread
    have hsettled : settledPhases
        ([⟨.write action, .ambiguous code⟩] ++ [⟨.getConsistent, reply⟩]) = [] := rfl
    rw [List.append_assoc] at hafter ⊢
    split
    · rename_i item
      split
      · rename_i hlanded
        refine judgedConfirmed_keeps hafter hsettled ?_
        rw [hshown item rfl]
        exact .shown code item hlanded
      · exact judgeRead_keeps hafter hsettled
    · exact judgeRead_keeps hafter hsettled
  | conditionFailed index existing =>
    cases existing with
    | none =>
      refine Follows.bind (readLease_keeps hfaithful) ?_
      intro read after hread
      obtain ⟨hafter, reply, rfl, -⟩ := hread
      have hsettled : settledPhases
          ([⟨.write action, .conditionFailed index none⟩] ++ [⟨.getConsistent, reply⟩]) = [] :=
        rfl
      rw [List.append_assoc] at hafter ⊢
      exact judgeRead_keeps hafter hsettled
    | some stored =>
      obtain ⟨key, item⟩ := stored
      dsimp only [judgeHeartbeat]
      split
      · exact judgedMismatch_keeps hfaithful hunsettled
      · exact judgeItem_keeps hfaithful hunsettled

structure InStep (own : LeaseOwner) (session : Session) (history : LeaseHistory) : Prop where
  faithful : Faithful own history
  phase : phaseAfter history = session.phase

abbrev KeepsStep {α : Type} (own : LeaseOwner) (p : LeaseAsync (α × Session))
    (history : LeaseHistory) : Prop :=
  KeepsHistory (Faithful own) (fun result after => InStep own result.2 after) p history

theorem enter_record_keeps {α : Type}
    {event : LeaseEvent} {state : Option LeaseHealthState} {observed : Option LeaseItem}
    {result : α} (hfaithful : Faithful own history)
    (hassigned : Faithful own (history ++ [⟨.setPhase phase, ()⟩])) :
    KeepsStep own (do
      let session ← session.enter phase
      let session ← session.record event state observed
      pure (result, session)) history := by
  have hrecorded : Faithful own
      (history ++ [⟨.setPhase phase, ()⟩] ++ [⟨.journal event state observed, ()⟩]) :=
    hassigned.observed rfl (fun action => LeaseCall.noConfusion)
  refine ⟨hfaithful, fun _ => ⟨hassigned, fun _ => ⟨hrecorded, hrecorded, ?_⟩⟩⟩
  have hphase : phaseAfter
      (history ++ [⟨.setPhase phase, ()⟩] ++ [⟨.journal event state observed, ()⟩]) = phase := by
    rw [phaseAfter_concat_none rfl, phaseAfter_setPhase]
  exact hphase

theorem nextLeaseHealth_confirmed {state : LeaseHealthState} {observation : LeaseObservation}
    (hlive : isLost state.health = false) (hjudged : ∀ observedNs, observation ≠ .clock observedNs)
    (h : (nextLeaseHealth state observation).health = .confirmed) :
    ∃ issuedNs observedNs at_ version,
      observation = .confirmed issuedNs observedNs at_ version ∧
        (nextLeaseHealth state observation).lastConfirmedNs = issuedNs := by
  unfold nextLeaseHealth at h ⊢
  rw [hlive] at h ⊢
  split at h
  · rename_i hfalse
    cases hfalse
  · split at h
    · cases h
    · rename_i hfresh
      cases observation with
      | confirmed issuedNs observedNs at_ version =>
        refine ⟨issuedNs, observedNs, at_, version, rfl, ?_⟩
        rw [if_neg Bool.false_ne_true, if_neg hfresh]
      | failed observedNs adopted => cases h
      | mismatch observedNs code => cases h
      | clock observedNs => exact absurd rfl (hjudged observedNs)

theorem heartbeatOnce_keeps (hstep : InStep own session history) :
    KeepsStep own (session.heartbeatOnce own) history := by
  have hfaithful := hstep.faithful
  unfold Session.heartbeatOnce
  split
  · rename_i state hheld
    have hphase : phaseAfter history = .held state := hstep.phase.trans hheld
    split
    · exact ⟨hfaithful, hstep⟩
    · rename_i hnotLost
      have hlive : isLost state.health = false := by simpa using hnotLost
      refine Follows.call hfaithful fun issuedNs => ?_
      have hissued : Faithful own (history ++ [⟨.monotonicNow, issuedNs⟩]) :=
        hfaithful.observed rfl (fun action => LeaseCall.noConfusion)
      have hissuedPhase : phaseAfter (history ++ [⟨.monotonicNow, issuedNs⟩]) = .held state := by
        rw [phaseAfter_concat_none rfl]
        exact hphase
      dsimp only
      split
      · rename_i hstale
        refine enter_record_keeps hissued (hissued.assigned ?_ ?_)
        · intro next hnext hhealth
          cases hnext
          rw [hstale] at hhealth
          cases hhealth
        · intro hended
          rw [hissuedPhase] at hended
          exact absurd hended hnotLost
      · refine Follows.call hissued fun at_ => ?_
        have htimed : Faithful own
            (history ++ [⟨.monotonicNow, issuedNs⟩] ++ [⟨.wallNow, at_⟩]) :=
          hissued.observed rfl (fun action => LeaseCall.noConfusion)
        have htimedPhase : phaseAfter
            (history ++ [⟨.monotonicNow, issuedNs⟩] ++ [⟨.wallNow, at_⟩]) = .held state := by
          rw [phaseAfter_concat_none rfl]
          exact hissuedPhase
        refine Follows.call htimed fun outcome => ?_
        have hwritten : Faithful own (history ++ [⟨.monotonicNow, issuedNs⟩] ++ [⟨.wallNow, at_⟩] ++
            [⟨.write (heartbeatWrite own state.leaseVersion at_), outcome⟩]) := by
          refine htimed.exchanged rfl ?_
          intro _ _ _ _ hended
          rw [htimedPhase] at hended
          exact hnotLost hended
        refine Follows.bind (judgeHeartbeat_keeps hwritten) ?_
        intro judged after hjudged
        obtain ⟨hafter, written, rest, rfl, hjudges⟩ := hjudged
        have hafterPhase : phaseAfter (history ++ [⟨.monotonicNow, issuedNs⟩] ++ [⟨.wallNow, at_⟩] ++
            written ++ rest) = .held state := by
          unfold phaseAfter at htimedPhase ⊢
          rw [List.append_assoc _ written rest, settledPhases_append, hjudges.unsettled,
            List.append_nil]
          exact htimedPhase
        refine enter_record_keeps hafter (hafter.assigned ?_ ?_)
        · intro next hnext hhealth
          cases hnext
          obtain ⟨issued, observedNs, confirmedAt, version, hobservation, hlast⟩ :=
            nextLeaseHealth_confirmed hlive hjudges.judged hhealth
          obtain ⟨rfl, hconfirmed⟩ := hjudges.confirmed issued observedNs confirmedAt version
            hobservation
          have hunsettled := hjudges.unsettled
          rw [settledPhases_append, List.append_eq_nil_iff] at hunsettled
          rw [hlast]
          exact ⟨history, _, rest, by simp, .heartbeat hconfirmed, hunsettled.2⟩
        · intro hended
          rw [hafterPhase] at hended
          exact absurd hended hnotLost
  · exact ⟨hfaithful, hstep⟩

/-! Only heartbeats are heartbeats: each other write changes a member a heartbeat leaves alone. -/

theorem acquisitionPut_not_heartbeat {condition : Option LeaseItem → Bool} :
    ¬ IsHeartbeat own (acquisitionPut own at_ condition) := by
  rintro ⟨version, beatAt, heq⟩
  have heffect := congrArg (fun action : LeaseWrite =>
    (action.effect (some (acquiredLeaseItem own (at_ + 1)))).acquiredAt) heq
  simp [acquisitionPut, heartbeatWrite, updateOwnedLease, acquiredLeaseItem] at heffect

theorem releaseWrite_not_heartbeat {version : Nat} :
    ¬ IsHeartbeat own (releaseWrite own version at_) := by
  rintro ⟨beatVersion, beatAt, heq⟩
  have heffect := congrArg (fun action : LeaseWrite =>
    (action.effect (some (acquiredLeaseItem own at_))).leaseStatus) heq
  simp [releaseWrite, heartbeatWrite, updateOwnedLease, acquiredLeaseItem] at heffect

theorem recoveryWrite_not_heartbeat {version : Nat} :
    ¬ IsHeartbeat own (recoveryWrite own version at_) := by
  rintro ⟨beatVersion, beatAt, heq⟩
  have heffect := congrArg (fun action : LeaseWrite =>
    (action.effect (some (acquiredLeaseItem own at_))).leaseStatus) heq
  simp [recoveryWrite, heartbeatWrite, updateOwnedLease, acquiredLeaseItem] at heffect

theorem Faithful.wrote (hfaithful : Faithful own history) {action : LeaseWrite}
    (hother : ¬ IsHeartbeat own action) :
    Faithful own (history ++ [⟨.write action, outcome⟩]) := by
  refine hfaithful.quiet rfl ?_
  intro other result heq hheartbeat
  cases heq
  exact hother hheartbeat

/-- The acquisition's last write confirms a write of this owner once it is confirmed itself. -/
theorem acquireLease_keeps (hfaithful : Faithful own history) :
    KeepsHistory (Faithful own) (fun outcome after => ∃ front action,
      after = history ++ front ++ [⟨.write action, outcome⟩] ∧ settledPhases front = [] ∧
        ∀ issuedNs written,
          ConfirmedWrite (fun item => acquisitionLanded item own at_) action written →
          Confirms own issuedNs (⟨.monotonicNow, issuedNs⟩ :: ⟨.wallNow, at_⟩ :: (front ++ written)))
      (acquireLease own at_) history := by
  refine Follows.call hfaithful fun first => ?_
  have hfirst : Faithful own (history ++ [⟨.write (acquisitionPut own at_ itemAbsent), first⟩]) :=
    hfaithful.wrote acquisitionPut_not_heartbeat
  split
  · exact ⟨hfirst, [], _, by simp, rfl, fun issuedNs written hwritten => .acquired hwritten⟩
  · rename_i released _
    exact ⟨hfirst, fun outcome => ⟨hfirst.wrote acquisitionPut_not_heartbeat,
      [⟨.write (acquisitionPut own at_ itemAbsent), first⟩], _, rfl, rfl,
      fun issuedNs written hwritten => .replaced hwritten⟩⟩

theorem resolveAcquisition_keeps
    (hfaithful : Faithful own (history ++ [⟨.write action, outcome⟩])) :
    KeepsHistory (Faithful own) (fun resolution after => ∃ written,
      after = history ++ written ∧ settledPhases written = [] ∧
        (resolution = .acquired →
          ConfirmedWrite (fun item => acquisitionLanded item own at_) action written))
      (resolveAcquisition own at_ outcome) (history ++ [⟨.write action, outcome⟩]) := by
  cases outcome with
  | applied => exact ⟨hfaithful, _, rfl, rfl, fun _ => .applied⟩
  | definitiveFailure code =>
    refine ⟨hfaithful, _, rfl, rfl, ?_⟩
    intro hacquired
    cases hacquired
  | conditionFailed index existing =>
    refine ⟨hfaithful, _, rfl, rfl, ?_⟩
    intro hacquired
    unfold refusedByExisting at hacquired
    split at hacquired
    · cases hacquired
    · split at hacquired <;> cases hacquired
  | ambiguous code =>
    refine Follows.bind (readLease_keeps hfaithful) ?_
    intro read after hread
    obtain ⟨hafter, reply, rfl, hshown⟩ := hread
    rw [List.append_assoc] at hafter ⊢
    split
    · refine ⟨hafter, _, rfl, rfl, ?_⟩
      intro hacquired
      cases hacquired
    · refine ⟨hafter, _, rfl, rfl, ?_⟩
      intro hacquired
      cases hacquired
    · rename_i item
      split
      · rename_i hlanded
        refine ⟨hafter, _, rfl, rfl, ?_⟩
        intro _
        rw [hshown item rfl]
        exact .shown code item hlanded
      · refine ⟨hafter, _, rfl, rfl, ?_⟩
        intro hacquired
        cases hacquired

theorem acquire_keeps (hstep : InStep own session history) :
    KeepsStep own (session.acquire own) history := by
  have hfaithful := hstep.faithful
  unfold Session.acquire
  split
  · rename_i hidle
    have hphase : phaseAfter history = .idle := hstep.phase.trans hidle
    refine Follows.call hfaithful fun issuedNs => ?_
    have hissued : Faithful own (history ++ [⟨.monotonicNow, issuedNs⟩]) :=
      hfaithful.observed rfl (fun action => LeaseCall.noConfusion)
    refine Follows.call hissued fun at_ => ?_
    have htimed : Faithful own (history ++ [⟨.monotonicNow, issuedNs⟩] ++ [⟨.wallNow, at_⟩]) :=
      hissued.observed rfl (fun action => LeaseCall.noConfusion)
    refine Follows.bind (acquireLease_keeps htimed) ?_
    intro outcome reached hreached
    obtain ⟨hfaithful', front, action, rfl, hfront, hconfirms⟩ := hreached
    refine Follows.bind (resolveAcquisition_keeps hfaithful') ?_
    intro resolution after hafter
    obtain ⟨hkept, written, rfl, hwritten, hacquired⟩ := hafter
    have hnotLost : ¬ LostPhase (phaseAfter (history ++ [⟨.monotonicNow, issuedNs⟩] ++
        [⟨.wallNow, at_⟩] ++ front ++ written)) := by
      unfold phaseAfter at hphase ⊢
      rw [settledPhases_append, hwritten, List.append_nil, settledPhases_append, hfront,
        List.append_nil, settledPhases_concat_none rfl, settledPhases_concat_none rfl, hphase]
      exact fun hlost => hlost
    cases resolution with
    | acquired =>
      refine enter_record_keeps hkept (hkept.assigned ?_ fun hlost => absurd hlost hnotLost)
      intro state hstate _
      cases hstate
      exact ⟨history, _, [], by simp, hconfirms issuedNs written (hacquired rfl), rfl⟩
    | refused holder code =>
      refine enter_record_keeps hkept (hkept.assigned ?_ fun hlost => absurd hlost hnotLost)
      intro state hstate
      cases hstate
    | unresolved code =>
      refine enter_record_keeps hkept (hkept.assigned ?_ fun hlost => absurd hlost hnotLost)
      intro state hstate
      cases hstate
  · exact ⟨hfaithful, hstep⟩

/-- A finalization writes no heartbeat and assigns no phase before its last step. -/
abbrev KeepsPhase {α : Type} (own : LeaseOwner) (p : LeaseAsync α) (history : LeaseHistory) : Prop :=
  KeepsHistory (Faithful own) (fun _ after => phaseAfter after = phaseAfter history) p history

theorem readLease_keepsPhase (hfaithful : Faithful own history) :
    KeepsPhase own readLease history := by
  refine (readLease_keeps hfaithful).weaken ?_
  intro read after hread
  obtain ⟨hafter, reply, rfl, -⟩ := hread
  exact ⟨hafter, phaseAfter_concat_none rfl⟩

theorem resolveAmbiguousFinal_keeps {request : FinalizationRequest}
    (hfaithful : Faithful own history) :
    KeepsPhase own (resolveAmbiguousFinal request) history := by
  refine Follows.bind (readLease_keepsPhase hfaithful) ?_
  intro read after hafter
  split
  · exact hafter
  · exact hafter
  · split <;> exact hafter

theorem writeFinal_keeps {knownVersion version : Nat} {held : Bool}
    (hfaithful : Faithful own history) :
    KeepsPhase own (writeFinal ⟨own, closure, knownVersion, held⟩ version) history := by
  refine Follows.call hfaithful fun at_ => ?_
  have htimed : Faithful own (history ++ [⟨.wallNow, at_⟩]) :=
    hfaithful.observed rfl (fun action => LeaseCall.noConfusion)
  have htimedPhase : phaseAfter (history ++ [⟨.wallNow, at_⟩]) = phaseAfter history :=
    phaseAfter_concat_none rfl
  -- behind its one write a finalization reads at most once
  have hfinal : ∀ action outcome, ¬ IsHeartbeat own action →
      Faithful own (history ++ [⟨.wallNow, at_⟩] ++ [⟨.write action, outcome⟩]) ∧
      phaseAfter (history ++ [⟨.wallNow, at_⟩] ++ [⟨.write action, outcome⟩]) =
        phaseAfter history := by
    intro action outcome hother
    exact ⟨htimed.wrote hother, (phaseAfter_concat_none rfl).trans htimedPhase⟩
  cases closure with
  | clean =>
    refine Follows.call htimed fun outcome => ?_
    have hwritten := hfinal (releaseWrite own version at_) outcome releaseWrite_not_heartbeat
    cases outcome with
    | ambiguous code =>
      refine (resolveAmbiguousFinal_keeps hwritten.1).weaken ?_
      intro verdict after hafter
      exact ⟨hafter.1, hafter.2.trans hwritten.2⟩
    | applied => exact hwritten
    | definitiveFailure code => exact hwritten
    | conditionFailed index existing => exact hwritten
  | unclean =>
    refine Follows.call htimed fun outcome => ?_
    have hwritten := hfinal (recoveryWrite own version at_) outcome recoveryWrite_not_heartbeat
    cases outcome with
    | ambiguous code =>
      refine (resolveAmbiguousFinal_keeps hwritten.1).weaken ?_
      intro verdict after hafter
      exact ⟨hafter.1, hafter.2.trans hwritten.2⟩
    | applied => exact hwritten
    | definitiveFailure code => exact hwritten
    | conditionFailed index existing => exact hwritten

theorem finalizeLease_keeps {knownVersion : Nat} {held : Bool}
    (hfaithful : Faithful own history) :
    KeepsPhase own (finalizeLease ⟨own, closure, knownVersion, held⟩) history := by
  refine Follows.bind (readLease_keepsPhase hfaithful) ?_
  intro read after hafter
  have hwrite : ∀ version, KeepsHistory (Faithful own)
      (fun _ later => phaseAfter later = phaseAfter history)
      (writeFinal ⟨own, closure, knownVersion, held⟩ version) after := by
    intro version
    refine (writeFinal_keeps hafter.1).weaken ?_
    intro verdict later hlater
    exact ⟨hlater.1, hlater.2.trans hafter.2⟩
  split
  · exact hwrite _
  · exact hafter
  · split
    · split
      · exact hafter
      · split
        · exact hafter
        · exact hwrite _
    · exact hafter

theorem settleFinal_keeps (hfaithful : Faithful own history) :
    KeepsStep own session.settleFinal history := by
  have hassigned : Faithful own
      (history ++ [⟨.setPhase (.finalized (deriveFinalLeaseStatus session.events)), ()⟩]) := by
    refine hfaithful.assigned ?_ fun _ => trivial
    intro state hstate
    cases hstate
  exact ⟨hfaithful, fun _ => ⟨hassigned, hassigned, phaseAfter_setPhase⟩⟩

theorem finalizeOwned_keeps
    {state : Option LeaseHealthState} (hfaithful : Faithful own history) :
    KeepsHistory (Faithful own) (fun _ _ => True) (session.finalizeOwned own closure state)
      history := by
  refine Follows.bind (finalizeLease_keeps hfaithful) ?_
  intro verdict after hafter
  refine ⟨hafter.1, fun _ => ⟨?_, trivial⟩⟩
  exact hafter.1.observed rfl (fun action => LeaseCall.noConfusion)

theorem finalize_keeps
    (hstep : InStep own session history) :
    KeepsStep own (session.finalize own closure) history := by
  have hfaithful := hstep.faithful
  unfold Session.finalize
  split
  · exact ⟨hfaithful, hstep⟩
  · exact ⟨hfaithful, hstep⟩
  · refine ⟨hfaithful, fun _ => settleFinal_keeps ?_⟩
    exact hfaithful.observed rfl (fun action => LeaseCall.noConfusion)
  · refine Follows.bind (finalizeOwned_keeps hfaithful) ?_
    intro recorded after hafter
    exact settleFinal_keeps hafter.1
  · refine Follows.bind (finalizeOwned_keeps hfaithful) ?_
    intro recorded after hafter
    exact settleFinal_keeps hafter.1

theorem runSession_keeps {operations : List LeaseOperation}
    (hstep : InStep own session history) :
    KeepsHistory (Faithful own) (fun _ _ => True) (runSession own operations session) history := by
  induction operations generalizing session history with
  | nil => exact ⟨hstep.faithful, trivial⟩
  | cons operation rest ih =>
    cases operation with
    | acquire =>
      refine Follows.bind (acquire_keeps hstep) ?_
      intro result after hafter
      exact ih hafter.2
    | heartbeatOnce =>
      refine Follows.bind (heartbeatOnce_keeps hstep) ?_
      intro result after hafter
      exact ih hafter.2
    | finalize closure =>
      refine Follows.bind (finalize_keeps hstep) ?_
      intro result after hafter
      exact ih hafter.2

theorem inStep_idle : InStep own {} [] := by
  refine ⟨⟨?_, ?_, ?_⟩, rfl⟩
  · intro state hphase
    cases hphase
  · intro state hmem
    cases hmem
  · intro before after state _ hsplit
    exact absurd hsplit (by simp)

end Operations

/-! ## At every moment of every run -/

abbrev SessionHistory (own : LeaseOwner) (operations : List LeaseOperation)
    (history : LeaseHistory) : Prop :=
  TracedUpTo (runSession own operations {}) history

theorem sessionHistory_faithful {own : LeaseOwner} {operations : List LeaseOperation}
    {history : LeaseHistory} (hrun : SessionHistory own operations history) :
    Faithful own history := by
  have hkept := (runSession_keeps inStep_idle).upTo hrun
  rwa [List.nil_append] at hkept

theorem Confirms.issued_read {own : LeaseOwner} {issuedNs : Nat} {exchanges : LeaseHistory}
    (h : Confirms own issuedNs exchanges) : issuedNs ∈ monotonicReadings exchanges := by
  cases h <;> simp [monotonicReadings]

/-- At every moment of every run of a session, whatever its store answers: publication is allowed
only on a write of this owner that the store confirmed, issued within the stale boundary and behind
which no heartbeat has completed but the one it belongs to; and once a health is lost, publication is
never allowed again and no heartbeat writes. -/
theorem publication_stands_on_confirmation (own : LeaseOwner) (operations : List LeaseOperation)
    (history : LeaseHistory) (hrun : SessionHistory own operations history) :
    (∀ nowNs, (∀ reading ∈ monotonicReadings history, reading ≤ nowNs) →
      publicationAllowed (phaseAfter history) nowNs = true →
      ∃ before confirmation after issuedNs state, history = before ++ confirmation ++ after ∧
        Confirms own issuedNs confirmation ∧ issuedNs ≤ nowNs ∧
        nowNs < issuedNs + leaseStaleBoundaryNs ∧ state.health = .confirmed ∧
        settledPhases after = [.held state]) ∧
    (∀ before state after, isLost state.health = true →
      history = before ++ ⟨.setPhase (.held state), ()⟩ :: after →
      (∀ nowNs, publicationAllowed (phaseAfter history) nowNs = false) ∧
      ∀ action outcome, (⟨.write action, outcome⟩ : Exchange LeaseCall LeaseReply) ∈ after →
        ∀ version at_, action ≠ heartbeatWrite own version at_) := by
  have hfaithful := sessionHistory_faithful hrun
  constructor
  · intro nowNs hclock hallowed
    cases hphase : phaseAfter history with
    | held state =>
      rw [hphase] at hallowed
      obtain ⟨hhealth, hyoung⟩ := of_decide_eq_true hallowed
      obtain ⟨before, confirmation, after, rfl, hbacked⟩ := hfaithful.backed state hphase hhealth
      refine ⟨before, confirmation, after, state.lastConfirmedNs, state, rfl, hbacked.confirms,
        hclock _ ?_, hyoung, hhealth, hbacked.settled⟩
      have hread := hbacked.confirms.issued_read
      unfold monotonicReadings at hread ⊢
      rw [List.filterMap_append, List.filterMap_append]
      exact List.mem_append_left _ (List.mem_append_right _ hread)
    | idle => rw [hphase] at hallowed; cases hallowed
    | refused => rw [hphase] at hallowed; cases hallowed
    | unresolved => rw [hphase] at hallowed; cases hallowed
    | finalized status => rw [hphase] at hallowed; cases hallowed
  · intro before state after hlost hsplit
    have hmember : SessionPhase.held state ∈ settledPhases history := by
      rw [hsplit]
      simp [settledPhases, assignedPhase]
    have hended := hfaithful.lost state hmember hlost
    constructor
    · intro nowNs
      cases hphase : phaseAfter history with
      | held current =>
        rw [hphase] at hended
        apply decide_eq_false
        rintro ⟨hhealth, -⟩
        change isLost current.health = true at hended
        rw [hhealth] at hended
        cases hended
      | idle => rfl
      | refused => rfl
      | unresolved => rfl
      | finalized status => rfl
    · intro action outcome hmem version at_ heq
      exact hfaithful.silent before after state hlost hsplit action outcome hmem
        ⟨version, at_, heq⟩

def acquiredHistory : LeaseHistory :=
  let own : LeaseOwner := ⟨.run, 1, "manifest"⟩
  [⟨.monotonicNow, (0 : Nat)⟩, ⟨.wallNow, (0 : Nat)⟩,
    ⟨.write (acquisitionPut own 0 itemAbsent), .applied⟩,
    ⟨.setPhase (.held ⟨.confirmed, 1, 0, 0⟩), ()⟩,
    ⟨.journal .acquired (some ⟨.confirmed, 1, 0, 0⟩) none, ()⟩,
    ⟨.monotonicNow, (3 : Nat)⟩, ⟨.wallNow, (0 : Nat)⟩,
    ⟨.write (heartbeatWrite own 1 0), .applied⟩, ⟨.monotonicNow, (4 : Nat)⟩,
    ⟨.setPhase (.held ⟨.confirmed, 2, 3, 0⟩), ()⟩]

theorem acquired_publication_stands :
    publicationAllowed (phaseAfter acquiredHistory) 5 = true ∧
    ∃ before confirmation after issuedNs state,
      acquiredHistory = before ++ confirmation ++ after ∧
        Confirms ⟨.run, 1, "manifest"⟩ issuedNs confirmation ∧ issuedNs ≤ 5 ∧
        5 < issuedNs + leaseStaleBoundaryNs ∧ state.health = .confirmed ∧
        settledPhases after = [.held state] := by
  have hallowed : publicationAllowed (phaseAfter acquiredHistory) 5 = true := by decide
  have hrun : SessionHistory ⟨.run, 1, "manifest"⟩ [.acquire, .heartbeatOnce] acquiredHistory :=
    .call (.call (.call (.call (.call (.call (.call (.call (.call (.call .here)))))))))
  exact ⟨hallowed, (publication_stands_on_confirmation _ _ _ hrun).1 5 (by decide) hallowed⟩

end RefundStudy.Lease
