/-
  When at most one session of a study may publish.

  A clean finalization writes RELEASED before the phase leaves `held`; `HandoverClear` rules out
  exactly the writes that take the item in that stretch.
-/
import RefundStudy.Lease.Session

set_option autoImplicit false

namespace RefundStudy.Lease

open Foundation Record

variable {attempt : HeartbeatAttempt} {statuses : List LeaseItemStatus} {session : Session}
  {expectedVersion : Nat} {reply : LeaseOutcome} {phase : SessionPhase}

variable {ι : Type} {w w' : LeaseWorld ι}

/-! ## What a step of a session may do -/

/-- The session may publish while its last confirmation is young enough. -/
def Publishing : SessionPhase → Prop
  | .held state => state.health = .confirmed
  | .idle | .refused | .unresolved | .finalized _ => False

theorem publishing_of_publicationAllowed {nowNs : Nat}
    (h : publicationAllowed phase nowNs = true) : Publishing phase := by
  cases phase with
  | held state =>
    have hboth : state.health = .confirmed ∧
        nowNs < state.lastConfirmedNs + leaseStaleBoundaryNs := of_decide_eq_true h
    exact hboth.1
  | idle | refused | unresolved | finalized status => cases h

/-- The stored item belongs to this owner and is not released. -/
def HeldBy (owner : LeaseOwner) (w : LeaseWorld ι) : Prop :=
  ∃ item, w.item = some item ∧ item.owner = owner ∧ item.leaseStatus ≠ .released

variable (owner : ι → LeaseOwner)

/-- No session of this item's owner may still publish. -/
def NoPublisher (item : LeaseItem) (w : LeaseWorld ι) : Prop :=
  ∀ j, owner j = item.owner → ¬ Publishing (w.phases j)

/-- The step condition: no write is made over a RELEASED item that meets its condition while
the session of the owner that released it is still held and confirmed. -/
def HandoverClear (_ : ι) (request : LeaseCall) (w : LeaseWorld ι) : Prop :=
  match request with
  | .write action => ∀ item, w.item = some item → item.leaseStatus = .released →
      action.condition (some item) = true → NoPublisher owner item w
  | .getConsistent | .monotonicNow | .wallNow | .journal _ _ _ | .setPhase _ => True

def LeaseWorld.withItem (w : LeaseWorld ι) (item : LeaseItem) : LeaseWorld ι :=
  { w with store := w.store.insert () item }

@[simp] theorem LeaseWorld.withItem_item (w : LeaseWorld ι) (item : LeaseItem) :
    (w.withItem item).item = some item :=
  AList.lookup_insert w.store

variable [DecidableEq ι] {owner : ι → LeaseOwner} {i : ι}

/-- Everything one step of session `i` can do to the world. -/
inductive LeaseMove (owner : ι → LeaseOwner) (i : ι) (w : LeaseWorld ι) : LeaseWorld ι → Prop where
  | same : LeaseMove owner i w w
  | entered {phase : SessionPhase} (hheld : Publishing phase → HeldBy (owner i) w) :
      LeaseMove owner i w { w with phases := Function.update w.phases i phase }
  | updated {item next : LeaseItem} (hitem : w.item = some item)
      (hmine : item.owner = owner i) (hkept : next.owner = owner i) :
      LeaseMove owner i w (w.withItem next)
  | acquired {next : LeaseItem}
      (hfree : ∀ item, w.item = some item →
        item.leaseStatus = .released ∧ NoPublisher owner item w)
      (hmine : next.owner = owner i) : LeaseMove owner i w (w.withItem next)

theorem LeaseMove.heldBy {j : ι} (hinj : Function.Injective owner) (hne : j ≠ i)
    (hmove : LeaseMove owner j w w') (hheld : HeldBy (owner i) w) : HeldBy (owner i) w' := by
  obtain ⟨item, hitem, howner, hstatus⟩ := hheld
  cases hmove with
  | same => exact ⟨item, hitem, howner, hstatus⟩
  | entered => exact ⟨item, hitem, howner, hstatus⟩
  | updated hfound hmine =>
    obtain rfl := Option.some.inj (hfound.symm.trans hitem)
    exact absurd (hinj (hmine.symm.trans howner)) hne
  | acquired hfree => exact absurd (hfree item hitem).1 hstatus

/-- The sessions that may publish own the stored item. -/
def PublishersOwn (owner : ι → LeaseOwner) (w : LeaseWorld ι) : Prop :=
  ∀ i, Publishing (w.phases i) → ∃ item, w.item = some item ∧ item.owner = owner i

theorem LeaseMove.publishersOwn (hinj : Function.Injective owner)
    (hmove : LeaseMove owner i w w') (hown : PublishersOwn owner w) : PublishersOwn owner w' := by
  intro j hpublishing
  cases hmove with
  | same => exact hown j hpublishing
  | entered hheld =>
    by_cases hji : j = i
    · subst hji
      obtain ⟨item, hitem, howner, -⟩ := hheld (by simpa using hpublishing)
      exact ⟨item, hitem, howner⟩
    · exact hown j (by simpa [Function.update_of_ne hji] using hpublishing)
  | updated hitem hmine hkept =>
    obtain ⟨found, hfound, howner⟩ := hown j hpublishing
    obtain rfl := Option.some.inj (hfound.symm.trans hitem)
    obtain rfl := hinj (hmine.symm.trans howner)
    exact ⟨_, w.withItem_item _, hkept⟩
  | acquired hfree hmine =>
    obtain ⟨item, hitem, howner⟩ := hown j hpublishing
    exact absurd hpublishing ((hfree item hitem).2 j howner.symm)

/-! ## The calls -/

abbrev clearAnswers (owner : ι → LeaseOwner) (i : ι) : Answers LeaseCall LeaseReply (LeaseWorld ι) :=
  (leaseMachine ι).restrict (HandoverClear owner) i

/-- A write either took effect, and then its condition held, or left the world alone. -/
theorem write_cases {action : LeaseWrite}
    (h : (leaseMachine ι).answers i (.write action) w reply w') :
    (action.condition w.item = true ∧ w' = w.withItem (action.effect w.item)) ∨
      (w' = w ∧ reply ≠ .applied) := by
  obtain ⟨choice, hexec⟩ := h
  cases choice with
  | fate fate =>
    obtain ⟨rfl, rfl⟩ := Prod.mk.inj (Option.some.inj hexec)
    have htransacted : Transacted [action] w.store (transact w.store [action] fate).1
        (transact w.store [action] fate).2 := transact_transacted rfl
    generalize (transact w.store [action] fate).1 = outcome at htransacted ⊢
    generalize (transact w.store [action] fate).2 = store at htransacted ⊢
    cases htransacted with
    | applied happlies | lostApplied _ happlies =>
      exact .inl ⟨happlies.condition (List.mem_singleton.mpr rfl), rfl⟩
    | conditionFailed | refused | lost => exact .inr ⟨rfl, nofun⟩
  | readOk | readFails code | reading value | done => cases hexec

theorem read_cases {reply : Except String (Option LeaseItem)}
    (h : (leaseMachine ι).answers i .getConsistent w reply w') :
    w' = w ∧ ∀ found, reply = .ok found → found = w.item := by
  obtain ⟨choice, hexec⟩ := h
  cases choice with
  | readOk =>
    obtain ⟨rfl, rfl⟩ := Prod.mk.inj (Option.some.inj hexec)
    exact ⟨rfl, fun found hfound => (Except.ok.inj hfound).symm⟩
  | readFails code =>
    obtain ⟨rfl, rfl⟩ := Prod.mk.inj (Option.some.inj hexec)
    exact ⟨rfl, fun found hfound => by cases hfound⟩
  | fate fate | reading value | done => cases hexec

def LeaseCall.quiet : LeaseCall → Bool
  | .monotonicNow | .wallNow | .journal _ _ _ | .getConsistent => true
  | .write _ | .setPhase _ => false

theorem quiet_same {request : LeaseCall} {reply : LeaseReply request}
    (hquiet : request.quiet = true) (h : (leaseMachine ι).answers i request w reply w') :
    w' = w := by
  obtain ⟨choice, hexec⟩ := h
  cases request with
  | write action | setPhase phase => cases hquiet
  | getConsistent | monotonicNow | wallNow | journal event state observed =>
    cases choice <;> cases hexec <;> rfl

theorem setPhase_entered {reply : Unit}
    (h : (leaseMachine ι).answers i (.setPhase phase) w reply w') :
    w' = { w with phases := Function.update w.phases i phase } := by
  obtain ⟨choice, hexec⟩ := h
  cases choice with
  | done => exact (Prod.mk.inj (Option.some.inj hexec)).2.symm
  | fate fate | readOk | readFails code | reading value => cases hexec

/-! ## The operations of one session -/

section Operations

/-- A program of session `i` that moves the world as a session may. -/
abbrev SessionSafe {α : Type} (owner : ι → LeaseOwner) (i : ι) (Q : α → LeaseWorld ι → Prop)
    (p : LeaseAsync α) (w : LeaseWorld ι) : Prop :=
  Safe (clearAnswers owner i) (others (LeaseMove owner) i) (LeaseMove owner i) Q p w

theorem HeldBy.env (hinj : Function.Injective owner)
    (hrel : (others (LeaseMove owner) i).rel w w') (hheld : HeldBy (owner i) w) :
    HeldBy (owner i) w' :=
  others_stable (G := LeaseMove owner) (P := HeldBy (owner i))
    (fun _ _ _ hne hmove hbefore => hmove.heldBy hinj hne hbefore) hrel hheld

variable {α : Type} {Q : α → LeaseWorld ι → Prop}

theorem SessionSafe.quiet {request : LeaseCall} {next : LeaseReply request → LeaseAsync α}
    (hquiet : request.quiet = true)
    (hnext : ∀ reply w', (others (LeaseMove owner) i).rel w w' →
      SessionSafe owner i Q (next reply) w') :
    SessionSafe owner i Q (leaseAwait request >>= next) w := by
  intro w₁ hrel reply w₂ hanswer
  obtain rfl := quiet_same hquiet hanswer.2
  exact ⟨.same, hnext reply w₂ hrel⟩

/-- A result of this kind establishes that the item is held. -/
def HeldWhen (own : LeaseOwner) (C : α → Prop) (value : α) (w : LeaseWorld ι) : Prop :=
  C value → HeldBy own w

theorem SessionSafe.returns (hinj : Function.Injective owner) {C : α → Prop} {value : α}
    (hheld : C value → HeldBy (owner i) w) :
    SessionSafe owner i (HeldWhen (owner i) C) (.ret value) w :=
  fun _ hrel hC => (hheld hC).env hinj hrel

theorem ownedAt_found {own : LeaseOwner}
    {found : Option LeaseItem}
    (h : ownedAt own expectedVersion statuses found = true) :
    ∃ item, found = some item ∧ item.owner = own ∧ item.leaseStatus ∈ statuses ∧
      item.leaseVersion = expectedVersion := by
  cases found with
  | none => simp [ownedAt, allConditions] at h
  | some item =>
    obtain ⟨hkind, hid, hmanifest, hversion, hstatus⟩ :
        item.owner.ownerKind = own.ownerKind ∧ item.owner.ownerId = own.ownerId ∧
          item.owner.ownerManifestSha256 = own.ownerManifestSha256 ∧
          item.leaseVersion = expectedVersion ∧ item.leaseStatus ∈ statuses := by
      simpa [ownedAt, allConditions] using h
    refine ⟨item, rfl, ?_, hstatus, hversion⟩
    cases hown : item.owner
    simp_all

/-- An update under the owner's condition found the owner's item, or changed nothing. -/
theorem update_cases {own : LeaseOwner}
    {set : LeaseItem → LeaseItem}
    (h : (leaseMachine ι).answers i
      (.write (updateOwnedLease own expectedVersion statuses set)) w reply w') :
    (∃ item, w.item = some item ∧ item.owner = own ∧ item.leaseStatus ∈ statuses ∧
      w' = w.withItem { set item with leaseVersion := expectedVersion + 1 }) ∨
    (w' = w ∧ reply ≠ .applied) := by
  rcases write_cases h with ⟨hcondition, rfl⟩ | hsame
  · left
    obtain ⟨item, hitem, hown, hstatus, -⟩ := ownedAt_found hcondition
    refine ⟨item, hitem, hown, hstatus, ?_⟩
    rw [hitem]
    rfl
  · exact .inr hsame

theorem SessionSafe.update
    {set : LeaseItem → LeaseItem} {next : LeaseOutcome → LeaseAsync α}
    (hset : ∀ item, (set item).owner = item.owner)
    (hnext : ∀ outcome w',
      (outcome = .applied → (∀ item, item.leaseStatus ∈ statuses →
        (set item).leaseStatus ≠ .released) → HeldBy (owner i) w') →
      SessionSafe owner i Q (next outcome) w') :
    SessionSafe owner i Q
      (leaseAwait (.write (updateOwnedLease (owner i) expectedVersion statuses set)) >>= next)
      w := by
  intro w₁ _ outcome w₂ hanswer
  rcases update_cases hanswer.2 with ⟨item, hitem, hmine, hstatus, rfl⟩ | ⟨rfl, hnot⟩
  · have howner : (set item).owner = owner i := (hset item).trans hmine
    refine ⟨.updated hitem hmine howner, hnext outcome _ ?_⟩
    intro _ hkeeps
    exact ⟨_, w₁.withItem_item _, howner, hkeeps item hstatus⟩
  · exact ⟨.same, hnext outcome w₂ fun happlied => absurd happlied hnot⟩

/-- A put under an acquiring condition found no item or a released one, or changed nothing. -/
theorem acquisition_cases {at_ : UtcMillis} {condition : Option LeaseItem → Bool}
    (hcondition : ∀ item, condition (some item) = true → item.leaseStatus = .released)
    (h : clearAnswers owner i (.write (acquisitionPut (owner i) at_ condition)) w reply w') :
    LeaseMove owner i w w' ∧ (reply = .applied → HeldBy (owner i) w') := by
  obtain ⟨hclear, hanswer⟩ := h
  rcases write_cases hanswer with ⟨htrue, rfl⟩ | ⟨rfl, hreply⟩
  · constructor
    · refine .acquired ?_ rfl
      intro item hitem
      rw [hitem] at htrue
      have hreleased := hcondition item htrue
      exact ⟨hreleased, hclear item hitem hreleased htrue⟩
    · intro _
      exact ⟨_, w.withItem_item _, rfl, nofun⟩
  · exact ⟨.same, fun happlied => absurd happlied hreply⟩

/-! ### Acquisition -/

theorem acquireLease_spec (hinj : Function.Injective owner) (at_ : UtcMillis)
    (w : LeaseWorld ι) : SessionSafe owner i (HeldWhen (owner i) (· = .applied))
      (acquireLease (owner i) at_) w := by
  intro w₁ _ first w₂ hfirst
  obtain ⟨hmove, hheld⟩ := acquisition_cases (fun _ h => by cases h) hfirst
  refine ⟨hmove, ?_⟩
  dsimp only [Program.bind]
  cases hholder : releasedHolder first with
  | none => exact SessionSafe.returns hinj hheld
  | some released =>
    intro w₃ _ second w₄ hsecond
    have hcondition : ∀ item, sameReleasedItem released (some item) = true →
        item.leaseStatus = .released := by
      intro item hsame
      simp only [sameReleasedItem, allConditions, List.all_cons, Bool.and_eq_true,
        attributeEquals_iff, Option.some.injEq, exists_eq_left'] at hsame
      exact hsame.1
    obtain ⟨hmove', hheld'⟩ := acquisition_cases hcondition hsecond
    exact ⟨hmove', SessionSafe.returns hinj hheld'⟩

def NamesHolder (own : LeaseOwner) (read : LeaseRead) : Prop :=
  ∃ item, read = .ok (some item) ∧ item.owner = own ∧ item.leaseStatus = .held

theorem decodeLeaseItem_eq {item decoded : LeaseItem}
    (h : decodeLeaseItem item = some decoded) : decoded = item := by
  unfold decodeLeaseItem at h
  split at h
  · exact (Option.some.inj h).symm
  · cases h

theorem readLease_spec (hinj : Function.Injective owner) (w : LeaseWorld ι) :
    SessionSafe owner i (HeldWhen (owner i) (NamesHolder (owner i))) readLease w := by
  intro w₁ _ reply w₂ hanswer
  obtain ⟨rfl, hread⟩ := read_cases hanswer.2
  refine ⟨.same, ?_⟩
  cases reply with
  | error code => exact SessionSafe.returns hinj fun ⟨_, hitem, _⟩ => by cases hitem
  | ok found =>
    cases found with
    | none => exact SessionSafe.returns hinj fun ⟨_, hitem, _⟩ => by cases hitem
    | some stored =>
      dsimp only [Program.bind]
      cases hdecoded : decodeLeaseItem stored with
      | none => exact SessionSafe.returns hinj fun ⟨_, hitem, _⟩ => by cases hitem
      | some decoded =>
        obtain rfl := decodeLeaseItem_eq hdecoded
        refine SessionSafe.returns hinj ?_
        rintro ⟨item, hitem, howner, hstatus⟩
        obtain rfl : decoded = item := Option.some.inj (Except.ok.inj hitem)
        exact ⟨decoded, (hread _ rfl).symm, howner, by rw [hstatus]; exact nofun⟩

theorem resolveAcquisition_spec (hinj : Function.Injective owner) {at_ : UtcMillis}
    {outcome : LeaseOutcome} (happlied : outcome = .applied → HeldBy (owner i) w) :
    SessionSafe owner i (HeldWhen (owner i) (· = .acquired))
      (resolveAcquisition (owner i) at_ outcome) w := by
  cases outcome with
  | applied => exact SessionSafe.returns hinj fun _ => happlied rfl
  | definitiveFailure code => exact SessionSafe.returns hinj nofun
  | conditionFailed index existing =>
    refine SessionSafe.returns hinj fun hacquired => ?_
    unfold refusedByExisting at hacquired
    split at hacquired
    · cases hacquired
    · split at hacquired <;> cases hacquired
  | ambiguous code =>
    refine Safe.bind (readLease_spec hinj w) fun read w₁ hpost => ?_
    cases read with
    | error code => exact SessionSafe.returns hinj nofun
    | ok found =>
      cases found with
      | none => exact SessionSafe.returns hinj nofun
      | some item =>
        dsimp only
        split
        · rename_i hlanded
          simp only [acquisitionLanded, isOwnedBy, Bool.and_eq_true,
            decide_eq_true_eq] at hlanded
          exact SessionSafe.returns hinj fun _ =>
            hpost ⟨item, rfl, hlanded.1, hlanded.2.1⟩
        · exact SessionSafe.returns hinj nofun

/-! ### Phases and the journal -/

theorem enter_spec
    (hheld : ∀ w', (others (LeaseMove owner) i).rel w w' → Publishing phase →
      HeldBy (owner i) w') :
    SessionSafe owner i (fun _ _ => True) (session.enter phase) w := by
  intro w₁ hrel reply w₂ hanswer
  obtain rfl := setPhase_entered hanswer.2
  exact ⟨.entered (hheld w₁ hrel), fun _ _ => trivial⟩

theorem record_spec {event : LeaseEvent} {state : Option LeaseHealthState}
    {observed : Option LeaseItem} :
    SessionSafe owner i (fun _ _ => True) (session.record event state observed) w :=
  SessionSafe.quiet rfl fun _ _ _ _ _ => trivial

theorem acquire_spec (hinj : Function.Injective owner) (session : Session) (w : LeaseWorld ι) :
    SessionSafe owner i (fun _ _ => True) (session.acquire (owner i)) w := by
  unfold Session.acquire
  split
  · refine SessionSafe.quiet rfl fun issuedNs w₁ _ => ?_
    refine SessionSafe.quiet rfl fun at_ w₂ _ => ?_
    refine Safe.bind (acquireLease_spec hinj at_ w₂) fun outcome w₃ houtcome => ?_
    refine Safe.bind (resolveAcquisition_spec hinj houtcome) fun resolution w₄ hresolution => ?_
    cases resolution with
    | acquired =>
      refine Safe.bind (enter_spec fun w' hrel _ => (hresolution rfl).env hinj hrel)
        fun _ _ _ => ?_
      exact Safe.bind record_spec fun _ _ _ _ _ => trivial
    | refused holder code | unresolved code =>
      refine Safe.bind (enter_spec fun _ _ hpublishing => hpublishing.elim) fun _ _ _ => ?_
      exact Safe.bind record_spec fun _ _ _ _ _ => trivial
  · exact fun _ _ => trivial

/-! ### Heartbeats -/

/-- The observation can leave the health confirmed. -/
def Upholds : LeaseObservation → Prop
  | .confirmed _ _ _ _ | .clock _ => True
  | .failed _ _ | .mismatch _ _ => False

theorem upholds_of_nextLeaseHealth {state : LeaseHealthState} {observation : LeaseObservation}
    (h : (nextLeaseHealth state observation).health = .confirmed) : Upholds observation := by
  unfold nextLeaseHealth at h
  split at h
  · rename_i hlost
    simp [isLost, h] at hlost
  · split at h
    · cases h
    · cases observation with
      | confirmed issuedNs observedNs at_ leaseVersion => trivial
      | clock observedNs => trivial
      | failed observedNs adoptedVersion | mismatch observedNs code => cases h

/-- A judgement that upholds the lease is only made of an item held by this owner. -/
abbrev JudgePost (own : LeaseOwner) : HeartbeatJudgement → LeaseWorld ι → Prop :=
  HeldWhen own fun judged => Upholds judged.observation

theorem judgedConfirmed_spec (hinj : Function.Injective owner)
    (hheld : HeldBy (owner i) w) :
    SessionSafe owner i (JudgePost (owner i)) (judgedConfirmed attempt) w :=
  SessionSafe.quiet rfl fun _ _ hrel => SessionSafe.returns hinj fun _ => hheld.env hinj hrel

theorem judgedFailed_spec (hinj : Function.Injective owner) :
    SessionSafe owner i (JudgePost (owner i)) judgedFailed w :=
  SessionSafe.quiet rfl fun _ _ _ => SessionSafe.returns hinj fun hupholds => hupholds.elim

theorem judgedMismatch_spec (hinj : Function.Injective owner) {code : LeaseReasonCode} :
    SessionSafe owner i (JudgePost (owner i)) (judgedMismatch code) w :=
  SessionSafe.quiet rfl fun _ _ _ => SessionSafe.returns hinj fun hupholds => hupholds.elim

theorem judgeItem_spec (hinj : Function.Injective owner) {item : LeaseItem}
    :
    SessionSafe owner i (JudgePost (owner i)) (judgeItem item attempt) w := by
  refine SessionSafe.quiet rfl fun _ _ _ => ?_
  split
  · exact SessionSafe.returns hinj fun hupholds => hupholds.elim
  · exact SessionSafe.returns hinj fun hupholds => hupholds.elim

theorem judgeRead_spec (hinj : Function.Injective owner) {read : LeaseRead}
    :
    SessionSafe owner i (JudgePost (owner i)) (judgeRead read attempt) w := by
  unfold judgeRead
  split
  · exact judgedMismatch_spec hinj
  · exact judgedFailed_spec hinj
  · exact judgedMismatch_spec hinj
  · exact judgeItem_spec hinj

theorem judgeHeartbeat_spec (hinj : Function.Injective owner) {outcome : LeaseOutcome}
    (hattempt : attempt.owner = owner i)
    (happlied : outcome = .applied → HeldBy (owner i) w) :
    SessionSafe owner i (JudgePost (owner i)) (judgeHeartbeat outcome attempt) w := by
  cases outcome with
  | applied => exact judgedConfirmed_spec hinj (happlied rfl)
  | definitiveFailure code => exact judgedFailed_spec hinj
  | ambiguous code =>
    refine Safe.bind (readLease_spec hinj w) fun read w₁ hread => ?_
    split
    · rename_i item
      split
      · rename_i hlanded
        simp only [heartbeatLanded, isOwnedBy, Bool.and_eq_true, decide_eq_true_eq] at hlanded
        exact judgedConfirmed_spec hinj
          (hread ⟨item, rfl, hlanded.1.trans hattempt, hlanded.2.1⟩)
      · exact judgeRead_spec hinj
    · exact judgeRead_spec hinj
  | conditionFailed index existing =>
    cases existing with
    | none => exact Safe.bind (readLease_spec hinj w) fun _ _ _ => judgeRead_spec hinj
    | some found =>
      unfold judgeHeartbeat
      dsimp only
      split
      · exact judgedMismatch_spec hinj
      · exact judgeItem_spec hinj

theorem settleBeat_spec {previous next : LeaseHealthState}
    {observed : Option LeaseItem}
    (hheld : ∀ w', (others (LeaseMove owner) i).rel w w' → next.health = .confirmed →
      HeldBy (owner i) w') :
    SessionSafe owner i (fun _ _ => True) (session.settleBeat previous next observed) w := by
  refine Safe.bind (enter_spec hheld) fun _ _ _ => ?_
  exact Safe.bind record_spec fun _ _ _ _ _ => trivial

theorem heartbeatOnce_spec (hinj : Function.Injective owner) (session : Session)
    (w : LeaseWorld ι) :
    SessionSafe owner i (fun _ _ => True) (session.heartbeatOnce (owner i)) w := by
  unfold Session.heartbeatOnce
  split
  · split
    · exact fun _ _ => trivial
    · refine SessionSafe.quiet rfl fun issuedNs w₁ _ => ?_
      dsimp only
      split
      · rename_i hstale
        exact settleBeat_spec fun _ _ hconfirmed => by rw [hstale] at hconfirmed; cases hconfirmed
      · refine SessionSafe.quiet rfl fun at_ w₂ _ => ?_
        refine SessionSafe.update (fun _ => rfl) fun outcome w₃ hheld => ?_
        have happlied : outcome = .applied → HeldBy (owner i) w₃ := by
          intro houtcome
          refine hheld houtcome fun item hstatus => ?_
          rw [List.mem_singleton.mp hstatus]
          exact nofun
        refine Safe.bind (judgeHeartbeat_spec hinj rfl happlied) fun judged w₄ hjudged => ?_
        exact settleBeat_spec fun w' hrel hconfirmed =>
          (hjudged (upholds_of_nextLeaseHealth hconfirmed)).env hinj hrel
  · exact fun _ _ => trivial

/-! ### Finalization -/

variable {request : FinalizationRequest}

theorem resolveAmbiguousFinal_spec (hinj : Function.Injective owner) :
    SessionSafe owner i (fun _ _ => True) (resolveAmbiguousFinal request) w := by
  refine Safe.bind (readLease_spec hinj w) fun read _ _ => ?_
  split
  · exact fun _ _ => trivial
  · exact fun _ _ => trivial
  · split <;> exact fun _ _ => trivial

theorem writeFinal_spec (hinj : Function.Injective owner) (hrequest : request.owner = owner i)
    (version : Nat) : SessionSafe owner i (fun _ _ => True) (writeFinal request version) w := by
  obtain ⟨own, closure, knownVersion, held⟩ := request
  obtain rfl : own = owner i := hrequest
  refine SessionSafe.quiet rfl fun at_ w₁ _ => ?_
  cases closure with
  | clean | unclean =>
    refine SessionSafe.update (fun _ => rfl) fun outcome v _ => ?_
    cases outcome with
    | applied | conditionFailed index existing | definitiveFailure code =>
      exact fun _ _ => trivial
    | ambiguous code => exact resolveAmbiguousFinal_spec hinj

theorem finalizeLease_spec (hinj : Function.Injective owner) (hrequest : request.owner = owner i) :
    SessionSafe owner i (fun _ _ => True) (finalizeLease request) w := by
  refine Safe.bind (readLease_spec hinj w) fun read w₁ _ => ?_
  split
  · exact writeFinal_spec hinj hrequest _
  · exact fun _ _ => trivial
  · split
    · split
      · exact fun _ _ => trivial
      · split
        · exact fun _ _ => trivial
        · exact writeFinal_spec hinj hrequest _
    · exact fun _ _ => trivial

theorem settleFinal_spec :
    SessionSafe owner i (fun _ _ => True) session.settleFinal w :=
  Safe.bind (enter_spec fun _ _ hpublishing => hpublishing.elim) fun _ _ _ _ _ => trivial

theorem finalize_spec (hinj : Function.Injective owner) (session : Session)
    (closure : LeaseClosure) (w : LeaseWorld ι) :
    SessionSafe owner i (fun _ _ => True) (session.finalize (owner i) closure) w := by
  have howned : ∀ state (v : LeaseWorld ι), SessionSafe owner i (fun _ _ => True)
      (session.finalizeOwned (owner i) closure state) v := by
    intro state v
    exact Safe.bind (finalizeLease_spec hinj rfl) fun _ _ _ => record_spec
  unfold Session.finalize
  split
  · exact fun _ _ => trivial
  · exact fun _ _ => trivial
  · exact Safe.bind record_spec fun _ _ _ => settleFinal_spec
  · exact Safe.bind (howned _ w) fun _ _ _ => settleFinal_spec
  · exact Safe.bind (howned _ w) fun _ _ _ => settleFinal_spec

theorem runSession_spec (hinj : Function.Injective owner) (operations : List LeaseOperation)
    (session : Session) (w : LeaseWorld ι) :
    SessionSafe owner i (fun _ _ => True) (runSession (owner i) operations session) w := by
  induction operations generalizing session w with
  | nil => exact fun _ _ => trivial
  | cons operation rest ih =>
    cases operation with
    | acquire => exact Safe.bind (acquire_spec hinj session w) fun _ _ _ => ih _ _
    | heartbeatOnce => exact Safe.bind (heartbeatOnce_spec hinj session w) fun _ _ _ => ih _ _
    | finalize closure =>
      exact Safe.bind (finalize_spec hinj session closure w) fun _ _ _ => ih _ _

end Operations

/-! ## Exclusive publication -/

def sessionsStart (owner : ι → LeaseOwner) (operations : ι → List LeaseOperation)
    (store : LeaseStore) : Config ι LeaseCall LeaseReply (LeaseWorld ι) Session :=
  ⟨⟨store, fun _ => .idle⟩, fun i => runSession (owner i) (operations i) {}⟩

/-- In every run of any number of sessions with distinct owners whose handovers are clear, no
two sessions allow publication at the same point, whatever their clocks read. -/
theorem publication_exclusive (hinj : Function.Injective owner)
    {operations : ι → List LeaseOperation} {store : LeaseStore}
    {cfg : Config ι LeaseCall LeaseReply (LeaseWorld ι) Session}
    (hreach : Reachable ((leaseMachine ι).restrict (HandoverClear owner))
      (sessionsStart owner operations store) cfg)
    {i j : ι} (hne : i ≠ j) (nowI nowJ : Nat) :
    ¬ (publicationAllowed (cfg.world.phases i) nowI = true ∧
      publicationAllowed (cfg.world.phases j) nowJ = true) := by
  rintro ⟨hi, hj⟩
  have hsafe : AllSafe (clearAnswers owner) (LeaseMove owner) (fun _ _ _ => True)
      (sessionsStart owner operations store) :=
    fun k => runSession_spec hinj (operations k) {} _
  have hown : PublishersOwn owner cfg.world :=
    Reachable.invariant hreach hsafe (fun _ _ _ hmove => hmove.publishersOwn hinj)
      fun _ hpublishing => hpublishing.elim
  obtain ⟨item, hitem, howner⟩ := hown i (publishing_of_publicationAllowed hi)
  obtain ⟨item', hitem', howner'⟩ := hown j (publishing_of_publicationAllowed hj)
  obtain rfl := Option.some.inj (hitem.symm.trans hitem')
  exact hne (hinj (howner.symm.trans howner'))

/-! ## Two sessions -/

def twoOwners (second : Bool) : LeaseOwner := ⟨.run, if second then 2 else 1, "manifest"⟩

theorem twoOwners_injective : Function.Injective twoOwners := by
  intro first second h
  cases first <;> cases second <;> first | rfl | cases h

def handover : Bool → List LeaseOperation
  | false => [.acquire, .finalize .clean]
  | true => [.acquire]

def acquisitionSchedule : List (Bool × LeaseChoice) :=
  [(false, .reading 0), (false, .reading 0), (false, .fate .answered), (false, .done)]

def twoPublishers : List (Bool × LeaseChoice) :=
  acquisitionSchedule ++
    [(false, .done), (false, .readOk), (false, .reading 1), (false, .fate .answered),
      (true, .reading 1), (true, .reading 1), (true, .fate .answered), (true, .fate .answered),
      (true, .done)]

def phasesAfter (schedule : List (Bool × LeaseChoice)) : Option (SessionPhase × SessionPhase) :=
  ((sessionsStart twoOwners handover ∅).play (leaseMachine Bool) schedule).map fun cfg =>
    (cfg.world.phases false, cfg.world.phases true)

theorem publication_exclusive_acquired : ∃ cfg, Reachable
    ((leaseMachine Bool).restrict (HandoverClear twoOwners))
      (sessionsStart twoOwners handover ∅) cfg ∧
    publicationAllowed (cfg.world.phases false) 0 = true ∧
    ¬ (publicationAllowed (cfg.world.phases false) 0 = true ∧
      publicationAllowed (cfg.world.phases true) 0 = true) := by
  have hphases : phasesAfter acquisitionSchedule =
      some (.held ⟨.confirmed, 1, 0, 0⟩, .idle) := by rfl
  obtain ⟨cfg, hplay, hcfg⟩ := Option.map_eq_some_iff.mp hphases
  have hwithin : (sessionsStart twoOwners handover ∅).PlaysWithin (leaseMachine Bool)
      (HandoverClear twoOwners) acquisitionSchedule :=
    And.intro trivial (And.intro trivial (And.intro (fun item hitem => by cases hitem)
      (And.intro trivial trivial)))
  have hreach := Config.play_restrict hplay hwithin
  obtain ⟨hfirst, -⟩ := Prod.mk.inj hcfg
  refine ⟨cfg, hreach, by rw [hfirst]; rfl, ?_⟩
  exact publication_exclusive twoOwners_injective hreach (by decide) 0 0

theorem publication_not_exclusive : Function.Injective twoOwners ∧
    ∃ cfg, Reachable (leaseMachine Bool).answers (sessionsStart twoOwners handover ∅) cfg ∧
      publicationAllowed (cfg.world.phases false) 1 = true ∧
      publicationAllowed (cfg.world.phases true) 1 = true := by
  have hphases : phasesAfter twoPublishers =
      some (.held ⟨.confirmed, 1, 0, 0⟩, .held ⟨.confirmed, 1, 1, 1⟩) := by rfl
  obtain ⟨cfg, hplay, hcfg⟩ := Option.map_eq_some_iff.mp hphases
  obtain ⟨hfirst, hsecond⟩ := Prod.mk.inj hcfg
  refine ⟨twoOwners_injective, cfg, Config.play_reachable hplay, ?_, ?_⟩
  · rw [hfirst]
    rfl
  · rw [hsecond]
    rfl

end RefundStudy.Lease
