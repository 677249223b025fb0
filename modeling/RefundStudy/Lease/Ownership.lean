/-
  How the stored lease item may change hands.
-/
import RefundStudy.Lease.Exclusion

set_option autoImplicit false

namespace RefundStudy.Lease

open Foundation Record

variable {session : Session} {action : LeaseWrite} {attempt : HeartbeatAttempt} {own : LeaseOwner}
  {item : LeaseItem}

/-! ## The writes of a session -/

/-- A put of `acquireLease`. -/
def AcquireWrite (own : LeaseOwner) (action : LeaseWrite) : Prop :=
  ∃ at_ condition, action = acquisitionPut own at_ condition ∧
    (condition = itemAbsent ∨ ∃ released, condition = sameReleasedItem released)

/-- A heartbeat, a release or a recovery mark of this owner. -/
inductive UpdateWrite (own : LeaseOwner) : LeaseWrite → Prop where
  | heartbeat (version : Nat) (at_ : UtcMillis) : UpdateWrite own (heartbeatWrite own version at_)
  | release (version : Nat) (at_ : UtcMillis) : UpdateWrite own (releaseWrite own version at_)
  | recovery (version : Nat) (at_ : UtcMillis) : UpdateWrite own (recoveryWrite own version at_)

/-- What a session may call: acquisitions while it has written nothing, updates afterwards. -/
def Permits (own : LeaseOwner) (fresh : Bool) : LeaseCall → Prop
  | .write action => (fresh = true ∧ AcquireWrite own action) ∨
      (fresh = false ∧ UpdateWrite own action)
  | .getConsistent | .monotonicNow | .wallNow | .journal _ _ _ | .setPhase _ => True

/-- The write certainly changed nothing, and the item it met is known. -/
def isConditionFailed : LeaseOutcome → Bool
  | .conditionFailed _ _ => true
  | .applied | .definitiveFailure _ | .ambiguous _ => false

/-- Only a failed condition leaves a session as fresh as it was. -/
def freshAfter (fresh : Bool) : (request : LeaseCall) → LeaseReply request → Bool
  | .write _, reply => fresh && isConditionFailed reply
  | .getConsistent, _ | .monotonicNow, _ | .wallNow, _ | .journal _ _ _, _ | .setPhase _, _ => fresh

section Programs

variable {α : Type} {own : LeaseOwner} {fresh : Bool} {Q : α → Bool → Prop}

/-- The writes of a program of this owner's session. -/
abbrev WritesAs (own : LeaseOwner) (Q : α → Bool → Prop) (p : LeaseAsync α) (fresh : Bool) : Prop :=
  Follows (Permits own) freshAfter Q p fresh

/-- The result says nothing, the session is as fresh as before. -/
abbrev Unwritten (fresh : Bool) : α → Bool → Prop := fun _ after => after = fresh

theorem readLease_writes : WritesAs own (Unwritten fresh) readLease fresh := by
  refine Follows.call trivial fun read => ?_
  cases read with
  | error code => exact rfl
  | ok found =>
    cases found with
    | none => exact rfl
    | some item =>
      dsimp only
      split <;> exact rfl

theorem acquireLease_writes (at_ : UtcMillis) :
    WritesAs own (fun outcome after => after = isConditionFailed outcome) (acquireLease own at_)
      true := by
  refine Follows.call (.inl ⟨rfl, at_, itemAbsent, rfl, .inl rfl⟩) fun first => ?_
  cases hholder : releasedHolder first with
  | none => exact Bool.true_and _
  | some released =>
    have hfirst : isConditionFailed first = true := by
      unfold releasedHolder at hholder
      split at hholder
      · rfl
      · cases hholder
    refine ⟨.inl ⟨?_, at_, sameReleasedItem released, rfl, .inr ⟨released, rfl⟩⟩, fun second => ?_⟩
    · simp [freshAfter, hfirst]
    · change ((true && isConditionFailed first) && isConditionFailed second) =
        isConditionFailed second
      rw [hfirst, Bool.true_and, Bool.true_and]

theorem resolveAcquisition_writes {at_ : UtcMillis} {outcome : LeaseOutcome}
    (hfresh : fresh = isConditionFailed outcome) :
    WritesAs own (fun resolution after =>
      (∃ holder code, resolution = .refused holder code) ∨ after = false)
      (resolveAcquisition own at_ outcome) fresh := by
  cases outcome with
  | applied => exact .inr hfresh
  | definitiveFailure code => exact .inl ⟨none, .writeRejected, rfl⟩
  | conditionFailed index existing =>
    left
    unfold refusedByExisting
    split
    · exact ⟨_, _, rfl⟩
    · split <;> exact ⟨_, _, rfl⟩
  | ambiguous code =>
    refine Follows.bind readLease_writes fun read after hafter => ?_
    subst hafter
    split
    · exact .inr hfresh
    · exact .inr hfresh
    · split <;> exact .inr hfresh

theorem enter_writes {phase : SessionPhase} :
    WritesAs own (fun next after => after = fresh ∧ next.phase = phase)
      (session.enter phase) fresh :=
  Follows.call trivial fun _ => ⟨rfl, rfl⟩

theorem record_writes {event : LeaseEvent} {state : Option LeaseHealthState}
    {observed : Option LeaseItem} :
    WritesAs own (fun next after => after = fresh ∧ next.phase = session.phase)
      (session.record event state observed) fresh :=
  Follows.call trivial fun _ => ⟨rfl, rfl⟩

def PhaseFits (phase : SessionPhase) (fresh : Bool) : Prop :=
  match phase with
  | .idle => fresh = true
  | .unresolved | .held _ => fresh = false
  | .refused | .finalized _ => True

theorem enter_record_writes {β : Type} {phase : SessionPhase}
    {event : LeaseEvent} {state : Option LeaseHealthState} {observed : Option LeaseItem}
    {result : β} (hfits : PhaseFits phase fresh) :
    WritesAs own (fun (value : β × Session) after => PhaseFits value.2.phase after)
      (do
        let session ← session.enter phase
        let session ← session.record event state observed
        pure (result, session)) fresh := by
  refine Follows.bind enter_writes ?_
  rintro entered after ⟨rfl, hphase⟩
  refine Follows.bind record_writes ?_
  rintro recorded after ⟨rfl, hsame⟩
  change PhaseFits recorded.phase _
  rw [hsame, hphase]
  exact hfits

theorem acquire_writes (hfits : PhaseFits session.phase fresh) :
    WritesAs own (fun value after => PhaseFits value.2.phase after) (session.acquire own)
      fresh := by
  unfold Session.acquire
  split
  · rename_i hidle
    rw [hidle] at hfits
    obtain rfl : fresh = true := hfits
    refine Follows.call trivial fun issuedNs => Follows.call trivial fun at_ => ?_
    refine Follows.bind (acquireLease_writes at_) fun outcome after hafter => ?_
    refine Follows.bind (resolveAcquisition_writes hafter) fun resolution after' hresolved => ?_
    cases resolution with
    | acquired =>
      refine enter_record_writes ?_
      rcases hresolved with ⟨_, _, h⟩ | h
      · cases h
      · exact h
    | refused holder code => exact enter_record_writes trivial
    | unresolved code =>
      refine enter_record_writes ?_
      rcases hresolved with ⟨_, _, h⟩ | h
      · cases h
      · exact h
  · exact hfits

theorem judgeItem_writes :
    WritesAs own (Unwritten fresh) (judgeItem item attempt) fresh := by
  refine Follows.call trivial fun _ => ?_
  split <;> exact rfl

theorem judgedMismatch_writes {code : LeaseReasonCode} :
    WritesAs own (Unwritten fresh) (judgedMismatch code) fresh :=
  Follows.call trivial fun _ => rfl

theorem judgeRead_writes {read : LeaseRead} :
    WritesAs own (Unwritten fresh) (judgeRead read attempt) fresh := by
  unfold judgeRead
  split
  · exact judgedMismatch_writes
  · exact Follows.call trivial fun _ => rfl
  · exact judgedMismatch_writes
  · exact judgeItem_writes

theorem judgeHeartbeat_writes {outcome : LeaseOutcome} :
    WritesAs own (Unwritten fresh) (judgeHeartbeat outcome attempt) fresh := by
  cases outcome with
  | applied => exact Follows.call trivial fun _ => rfl
  | definitiveFailure code => exact Follows.call trivial fun _ => rfl
  | ambiguous code =>
    refine Follows.bind readLease_writes fun read after hafter => ?_
    subst hafter
    split
    · split
      · exact Follows.call trivial fun _ => rfl
      · exact judgeRead_writes
    · exact judgeRead_writes
  | conditionFailed index existing =>
    cases existing with
    | none =>
      refine Follows.bind readLease_writes fun read after hafter => ?_
      subst hafter
      exact judgeRead_writes
    | some found =>
      unfold judgeHeartbeat
      dsimp only
      split
      · exact judgedMismatch_writes
      · exact judgeItem_writes

theorem heartbeatOnce_writes (hfits : PhaseFits session.phase fresh) :
    WritesAs own (fun value after => PhaseFits value.2.phase after) (session.heartbeatOnce own)
      fresh := by
  unfold Session.heartbeatOnce
  split
  · rename_i state hheld
    have hwritten : fresh = false := by
      rw [hheld] at hfits
      exact hfits
    split
    · exact hfits
    · refine Follows.call trivial fun issuedNs => ?_
      dsimp only
      split
      · exact enter_record_writes hwritten
      · refine Follows.call trivial fun at_ => ?_
        refine Follows.call (.inr ⟨hwritten, .heartbeat _ _⟩) fun outcome => ?_
        refine Follows.bind judgeHeartbeat_writes fun judged after hafter => ?_
        refine enter_record_writes ?_
        change after = false
        rw [hafter, hwritten]
        exact Bool.false_and (isConditionFailed outcome)
  · exact hfits

theorem writeFinal_writes {request : FinalizationRequest} (hown : request.owner = own)
    (hwritten : fresh = false) (version : Nat) :
    WritesAs own (Unwritten false) (writeFinal request version) fresh := by
  obtain ⟨requester, closure, knownVersion, held⟩ := request
  obtain rfl : requester = own := hown
  subst hwritten
  refine Follows.call trivial fun at_ => ?_
  have hread : ∀ closure, WritesAs requester (Unwritten false)
      (resolveAmbiguousFinal ⟨requester, closure, knownVersion, held⟩) false := by
    intro closure
    refine Follows.bind readLease_writes fun read after hafter => ?_
    subst hafter
    split
    · exact rfl
    · exact rfl
    · split <;> exact rfl
  cases closure with
  | clean =>
    refine Follows.call (.inr ⟨rfl, .release _ _⟩) fun outcome => ?_
    cases outcome with
    | applied | conditionFailed index existing | definitiveFailure code => exact rfl
    | ambiguous code => exact hread .clean
  | unclean =>
    refine Follows.call (.inr ⟨rfl, .recovery _ _⟩) fun outcome => ?_
    cases outcome with
    | applied | conditionFailed index existing | definitiveFailure code => exact rfl
    | ambiguous code => exact hread .unclean

theorem finalizeLease_writes {request : FinalizationRequest} (hown : request.owner = own) :
    WritesAs own (Unwritten false) (finalizeLease request) false := by
  refine Follows.bind readLease_writes fun read after hafter => ?_
  subst hafter
  split
  · exact writeFinal_writes hown rfl _
  · exact rfl
  · split
    · split
      · exact rfl
      · split
        · exact rfl
        · exact writeFinal_writes hown rfl _
    · exact rfl

theorem settleFinal_writes :
    WritesAs own (fun value after => PhaseFits value.2.phase after) session.settleFinal fresh := by
  refine Follows.bind enter_writes ?_
  rintro entered after ⟨rfl, hphase⟩
  change PhaseFits entered.phase _
  rw [hphase]
  trivial

theorem finalize_writes {closure : LeaseClosure}
    (hfits : PhaseFits session.phase fresh) :
    WritesAs own (fun value after => PhaseFits value.2.phase after)
      (session.finalize own closure) fresh := by
  have howned : ∀ state, fresh = false → WritesAs own
      (fun value after => PhaseFits value.2.phase after)
      (session.finalizeOwned own closure state >>= Session.settleFinal) fresh := by
    rintro state rfl
    refine Follows.bind (Q := fun _ _ => True) ?_ fun _ _ _ => settleFinal_writes
    refine Follows.bind (finalizeLease_writes rfl) fun _ _ _ => ?_
    exact record_writes.weaken fun _ _ _ => trivial
  unfold Session.finalize
  split
  · exact hfits
  · exact hfits
  · exact Follows.bind record_writes fun _ _ _ => settleFinal_writes
  · rename_i hunresolved
    rw [hunresolved] at hfits
    exact howned _ hfits
  · rename_i state hheld
    rw [hheld] at hfits
    exact howned _ hfits

theorem runSession_writes (operations : List LeaseOperation)
    (hfits : PhaseFits session.phase fresh) :
    WritesAs own (fun _ _ => True) (runSession own operations session) fresh := by
  induction operations generalizing session fresh with
  | nil => trivial
  | cons operation rest ih =>
    cases operation with
    | acquire => exact Follows.bind (acquire_writes hfits) fun _ _ hnext => ih hnext
    | heartbeatOnce => exact Follows.bind (heartbeatOnce_writes hfits) fun _ _ hnext => ih hnext
    | finalize closure => exact Follows.bind (finalize_writes hfits) fun _ _ hnext => ih hnext

end Programs

/-! ## What a write does to the item -/

section Item

variable {ι : Type} [DecidableEq ι] {owner : ι → LeaseOwner} {i : ι} {w w' : LeaseWorld ι}

/-- The write met its condition and replaced the item. -/
def TookEffect (action : LeaseWrite) (w w' : LeaseWorld ι) : Prop :=
  action.condition w.item = true ∧ w' = w.withItem (action.effect w.item)

theorem AcquireWrite.replaces
    (hacquire : AcquireWrite own action) (hcondition : action.condition (some item) = true) :
    item.leaseStatus = .released := by
  obtain ⟨at_, condition, rfl, rfl | ⟨released, rfl⟩⟩ := hacquire
  · cases hcondition
  · change sameReleasedItem released (some item) = true at hcondition
    simp only [sameReleasedItem, allConditions, List.all_cons, Bool.and_eq_true,
      attributeEquals_iff, Option.some.injEq, exists_eq_left'] at hcondition
    exact hcondition.1

theorem AcquireWrite.leaves
    (hacquire : AcquireWrite own action) (found : Option LeaseItem) :
    (action.effect found).owner = own ∧ (action.effect found).leaseStatus = .held := by
  obtain ⟨at_, condition, rfl, -⟩ := hacquire
  exact ⟨rfl, rfl⟩

omit [DecidableEq ι] in
theorem UpdateWrite.effect
    (hupdate : UpdateWrite own action) (heffect : TookEffect action w w') :
    ∃ item next, w.item = some item ∧ w' = w.withItem next ∧ item.owner = own ∧
      next.owner = own ∧ item.leaseVersion < next.leaseVersion ∧
      (next.leaseStatus = .released → ∃ version at_, action = releaseWrite own version at_) := by
  obtain ⟨hcondition, rfl⟩ := heffect
  cases hupdate with
  | heartbeat version at_ =>
    obtain ⟨item, hitem, hmine, hstatus, hversion⟩ := ownedAt_found hcondition
    rw [List.mem_singleton] at hstatus
    rw [hitem]
    refine ⟨item, _, rfl, rfl, hmine, hmine, ?_, ?_⟩
    · change item.leaseVersion < version + 1
      omega
    · intro hreleased
      change item.leaseStatus = .released at hreleased
      rw [hstatus] at hreleased
      cases hreleased
  | release version at_ =>
    obtain ⟨item, hitem, hmine, hstatus, hversion⟩ := ownedAt_found hcondition
    rw [hitem]
    refine ⟨item, _, rfl, rfl, hmine, hmine, ?_, fun _ => ⟨version, at_, rfl⟩⟩
    change item.leaseVersion < version + 1
    omega
  | recovery version at_ =>
    obtain ⟨item, hitem, hmine, hstatus, hversion⟩ := ownedAt_found hcondition
    rw [hitem]
    refine ⟨item, _, rfl, rfl, hmine, hmine, ?_, nofun⟩
    change item.leaseVersion < version + 1
    omega

/-- A session that has written nothing finds no item of its own. -/
def FreshAbsent (owner : ι → LeaseOwner) (states : ι → Bool) (w : LeaseWorld ι) : Prop :=
  ∀ i, states i = true → ∀ item, w.item = some item → item.owner ≠ owner i

/-- The calls of a session change nothing but its own phase, apart from its writes. -/
theorem item_unchanged {request : LeaseCall} {reply : LeaseReply request}
    (hother : ∀ action, request ≠ .write action)
    (hanswer : (leaseMachine ι).answers i request w reply w') : w'.item = w.item := by
  cases request with
  | write action => exact absurd rfl (hother action)
  | setPhase phase =>
    rw [setPhase_entered hanswer]
    rfl
  | getConsistent | monotonicNow | wallNow | journal event state observed =>
    rw [quiet_same rfl hanswer]

theorem conditionFailed_same {reply : LeaseOutcome}
    (hanswer : (leaseMachine ι).answers i (.write action) w reply w')
    (hfailed : isConditionFailed reply = true) : w' = w := by
  obtain ⟨choice, hexec⟩ := hanswer
  cases choice with
  | fate fate =>
    obtain ⟨rfl, rfl⟩ := Prod.mk.inj (Option.some.inj hexec)
    have htransacted : Transacted [action] w.store (transact w.store [action] fate).1
        (transact w.store [action] fate).2 := transact_transacted rfl
    generalize (transact w.store [action] fate).1 = outcome at htransacted hfailed ⊢
    generalize (transact w.store [action] fate).2 = store at htransacted ⊢
    cases htransacted with
    | conditionFailed => rfl
    | applied | lostApplied | refused | lost => cases hfailed
  | readOk | readFails code | reading value | done => cases hexec

theorem Permits.writes_own {reply : LeaseOutcome} {fresh : Bool}
    (hpermits : Permits (owner i) fresh (.write action))
    (hanswer : (leaseMachine ι).answers i (.write action) w reply w') :
    w' = w ∨ ∃ next, w' = w.withItem next ∧ next.owner = owner i := by
  rcases write_cases hanswer with heffect | ⟨rfl, -⟩
  · right
    rcases hpermits with ⟨-, hacquire⟩ | ⟨-, hupdate⟩
    · exact ⟨_, heffect.2, (hacquire.leaves _).1⟩
    · obtain ⟨_, next, -, hnext, -, hown, -⟩ := hupdate.effect heffect
      exact ⟨next, hnext, hown⟩
  · exact .inl rfl

theorem FreshAbsent.step (hinj : Function.Injective owner) {states : ι → Bool}
    {request : LeaseCall} {reply : LeaseReply request}
    (hpermits : Permits (owner i) (states i) request)
    (hanswer : (leaseMachine ι).answers i request w reply w') (h : FreshAbsent owner states w) :
    FreshAbsent owner (Function.update states i (freshAfter (states i) request reply)) w' := by
  intro j hfresh item hitem
  by_cases hwrite : ∃ action, request = .write action
  · obtain ⟨action, rfl⟩ := hwrite
    by_cases hji : j = i
    · subst hji
      -- still fresh, so the write failed on its condition and nothing changed
      have hboth : states j = true ∧ isConditionFailed reply = true := by
        simpa [freshAfter] using hfresh
      rw [conditionFailed_same hanswer hboth.2] at hitem
      exact h j hboth.1 item hitem
    · rw [Function.update_of_ne hji] at hfresh
      rcases hpermits.writes_own hanswer with rfl | ⟨next, rfl, hnext⟩
      · exact h j hfresh item hitem
      · obtain rfl := Option.some.inj ((w.withItem_item next).symm.trans hitem)
        intro heq
        exact hji (hinj (heq.symm.trans hnext))
  · rw [item_unchanged (fun action heq => hwrite ⟨action, heq⟩) hanswer] at hitem
    refine h j ?_ item hitem
    by_cases hji : j = i
    · subst hji
      cases request with
      | write action => exact absurd ⟨action, rfl⟩ hwrite
      | getConsistent | monotonicNow | wallNow | journal event state observed | setPhase phase =>
        simpa [freshAfter] using hfresh
    · simpa [Function.update_of_ne hji] using hfresh

end Item

/-! ## Runs -/

section Runs

variable {ι : Type} [DecidableEq ι] {owner : ι → LeaseOwner}
  {operations : ι → List LeaseOperation}
  {cfg : Config ι LeaseCall LeaseReply (LeaseWorld ι) Session}

/-- The next call of a session in a reachable configuration is permitted, and a session that
may still acquire finds no item of its own. -/
theorem reachable_permits (hinj : Function.Injective owner)
    (hreach : Reachable (leaseMachine ι).answers (sessionsStart owner operations ∅) cfg) :
    ∃ states, FreshAbsent owner states cfg.world ∧ ∀ i request next,
      cfg.programs i = .call request next → Permits (owner i) (states i) request := by
  have hinit : ∀ i, WritesAs (owner i) (fun _ _ => True)
      ((sessionsStart owner operations ∅).programs i) true :=
    fun i => runSession_writes (operations i) rfl
  have hnone : FreshAbsent owner (fun _ => true) (sessionsStart owner operations ∅).world :=
    fun _ _ item hitem => by cases hitem
  obtain ⟨states, hfollows, hfresh⟩ := Reachable.follows hreach hinit hnone
    (fun _ _ _ _ _ _ hpermits hanswer h => h.step hinj hpermits hanswer)
  refine ⟨states, hfresh, fun i request next hprogram => ?_⟩
  have hself := hfollows i
  rw [hprogram] at hself
  exact hself.1

/-- The owner of this item released it in a step of the run that led here. -/
def ReleasedByOwner (owner : ι → LeaseOwner)
    (init cfg : Config ι LeaseCall LeaseReply (LeaseWorld ι) Session) (item : LeaseItem) : Prop :=
  ∃ i version at_ next before after, owner i = item.owner ∧
    Reachable (leaseMachine ι).answers init before ∧
    before.programs i = .call (.write (releaseWrite (owner i) version at_)) next ∧
    Step (leaseMachine ι).answers before after ∧
    TookEffect (releaseWrite (owner i) version at_) before.world after.world ∧
    after.world.item = some item ∧ Reachable (leaseMachine ι).answers after cfg

theorem releasedByOwner_of_released (hinj : Function.Injective owner)
    (hreach : Reachable (leaseMachine ι).answers (sessionsStart owner operations ∅) cfg)
    (hitem : cfg.world.item = some item)
    (hreleased : item.leaseStatus = .released) :
    ReleasedByOwner owner (sessionsStart owner operations ∅) cfg item := by
  induction hreach with
  | refl => cases hitem
  | @tail middle last hpre hlast ih =>
    by_cases hsame : middle.world.item = some item
    · obtain ⟨i, version, at_, next, before, after, howner, hbefore, hprogram, hstep, heffect,
        hafter, hrest⟩ := ih hsame
      exact ⟨i, version, at_, next, before, after, howner, hbefore, hprogram, hstep, heffect,
        hafter, hrest.tail hlast⟩
    · obtain ⟨states, hfresh, hpermits⟩ := reachable_permits hinj hpre
      have hstep := hlast
      cases hlast with
      | @mk i request next reply w' hprogram hanswer =>
        have hpermitted := hpermits i request next hprogram
        by_cases hwrite : ∃ action, request = .write action
        · obtain ⟨action, rfl⟩ := hwrite
          rcases write_cases hanswer with heffect | ⟨rfl, -⟩
          · rcases hpermitted with ⟨-, hacquire⟩ | ⟨-, hupdate⟩
            · -- an acquisition leaves a held item
              obtain ⟨-, rfl⟩ := heffect
              obtain rfl := Option.some.inj ((middle.world.withItem_item _).symm.trans hitem)
              rw [(hacquire.leaves _).2] at hreleased
              cases hreleased
            · obtain ⟨_, written, -, hwritten, -, hnext, -, hrelease⟩ := hupdate.effect heffect
              obtain rfl : written = item := by
                change w'.item = some item at hitem
                rw [hwritten, LeaseWorld.withItem_item] at hitem
                exact Option.some.inj hitem
              obtain ⟨version, at_, rfl⟩ := hrelease hreleased
              exact ⟨i, version, at_, next, middle, _, hnext.symm, hpre, hprogram, hstep,
                heffect, hitem, .refl⟩
          · exact absurd hitem hsame
        · rw [item_unchanged (fun action heq => hwrite ⟨action, heq⟩) hanswer] at hitem
          exact absurd hitem hsame

/-- In every run of any number of sessions with distinct owners over one lease item: when a
step changes the stored owner, the item was RELEASED and its owner had released it; a write
that takes effect and keeps the owner raises the version; and no acquisition replaces an item
that is HELD or RECOVERY_REQUIRED. -/
theorem lease_changes_hands_after_release (hinj : Function.Injective owner)
    (hreach : Reachable (leaseMachine ι).answers (sessionsStart owner operations ∅) cfg)
    {i : ι} {request : LeaseCall} {next : LeaseReply request → LeaseAsync Session}
    {reply : LeaseReply request} {w' : LeaseWorld ι}
    (hprogram : cfg.programs i = .call request next)
    (hanswer : (leaseMachine ι).answers i request cfg.world reply w')
    {item stored : LeaseItem} (hitem : cfg.world.item = some item)
    (hstored : w'.item = some stored) :
    (stored.owner ≠ item.owner → item.leaseStatus = .released ∧
      ReleasedByOwner owner (sessionsStart owner operations ∅) cfg item) ∧
    (∀ action, request = .write action → TookEffect action cfg.world w' →
      stored.owner = item.owner → item.leaseVersion < stored.leaseVersion) ∧
    (∀ action, request = .write action → AcquireWrite (owner i) action →
      item.leaseStatus = .held ∨ item.leaseStatus = .recoveryRequired → stored = item) := by
  obtain ⟨states, hfresh, hpermits⟩ := reachable_permits hinj hreach
  have hpermitted := hpermits i request next hprogram
  refine ⟨?_, ?_, ?_⟩
  · intro hchanged
    have hreleased : item.leaseStatus = .released := by
      by_cases hwrite : ∃ action, request = .write action
      · obtain ⟨action, rfl⟩ := hwrite
        rcases write_cases hanswer with heffect | ⟨rfl, -⟩
        · rcases hpermitted with ⟨-, hacquire⟩ | ⟨-, hupdate⟩
          · rw [hitem] at heffect
            exact hacquire.replaces heffect.1
          · obtain ⟨found, written, hfound, rfl, hmine, hnext, -⟩ := hupdate.effect heffect
            obtain rfl := Option.some.inj (hitem.symm.trans hfound)
            obtain rfl := Option.some.inj ((cfg.world.withItem_item written).symm.trans hstored)
            exact absurd (hnext.trans hmine.symm) hchanged
        · obtain rfl := Option.some.inj (hitem.symm.trans hstored)
          exact absurd rfl hchanged
      · rw [item_unchanged (fun action heq => hwrite ⟨action, heq⟩) hanswer, hitem] at hstored
        obtain rfl := Option.some.inj hstored
        exact absurd rfl hchanged
    exact ⟨hreleased, releasedByOwner_of_released hinj hreach hitem hreleased⟩
  · rintro action rfl heffect hsame
    rcases hpermitted with ⟨hfreshI, hacquire⟩ | ⟨-, hupdate⟩
    · -- a session that may acquire finds no item of its own, so the owner changes
      have hmine : stored.owner = owner i := by
        rw [heffect.2, LeaseWorld.withItem_item] at hstored
        rw [← Option.some.inj hstored]
        exact (hacquire.leaves _).1
      exact absurd (hsame.symm.trans hmine) (hfresh i hfreshI item hitem)
    · obtain ⟨found, written, hfound, hwritten, -, -, hlt, -⟩ := hupdate.effect heffect
      obtain rfl := Option.some.inj (hitem.symm.trans hfound)
      rw [hwritten, LeaseWorld.withItem_item] at hstored
      obtain rfl := Option.some.inj hstored
      exact hlt
  · rintro action rfl hacquire hstatus
    rcases write_cases hanswer with ⟨hcondition, -⟩ | ⟨rfl, -⟩
    · rw [hitem] at hcondition
      rw [hacquire.replaces hcondition] at hstatus
      rcases hstatus with h | h <;> cases h
    · exact Option.some.inj (hstored.symm.trans hitem)

end Runs

def handoverItems : Option (Option LeaseItem × Option LeaseItem) :=
  ((sessionsStart twoOwners handover ∅).play (leaseMachine Bool) (twoPublishers.take 11)).bind
    fun cfg => (cfg.advance (leaseMachine Bool) true (.fate .answered)).map fun next =>
      (cfg.world.item, next.world.item)

theorem lease_changes_hands_after_release_taken :
    ∃ cfg item stored, handoverItems = some (some item, some stored) ∧
      stored.owner ≠ item.owner ∧ item.leaseStatus = .released ∧
      ReleasedByOwner twoOwners (sessionsStart twoOwners handover ∅) cfg item := by
  obtain ⟨item, stored, hitems, hchanged⟩ : ∃ item stored,
      handoverItems = some (some item, some stored) ∧ stored.owner ≠ item.owner :=
    ⟨_, _, rfl, by decide⟩
  obtain ⟨cfg, hplay, hrest⟩ := Option.bind_eq_some_iff.mp hitems
  obtain ⟨after, hadvance, hpair⟩ := Option.map_eq_some_iff.mp hrest
  obtain ⟨hitem, hstored⟩ := Prod.mk.inj hpair
  unfold Config.advance at hadvance
  split at hadvance
  · cases hadvance
  · rename_i request next hprogram
    obtain ⟨answer, hexec, rfl⟩ := Option.map_eq_some_iff.mp hadvance
    obtain ⟨hreleased, hby⟩ := (lease_changes_hands_after_release twoOwners_injective
      (Config.play_reachable hplay) hprogram ⟨_, hexec⟩ hitem hstored).1 hchanged
    exact ⟨cfg, item, stored, hitems, hchanged, hreleased, hby⟩

end RefundStudy.Lease
