/-
  The lease over a store whose ambiguous writes may land later.

  A write that was reported ambiguous may still be on its way: it stays pending until it lands,
  and it meets its condition against the item stored then.
-/
import RefundStudy.Lease.Ownership

set_option autoImplicit false

namespace RefundStudy.Lease

open Foundation Record

variable {session : Session} {event : LeaseEvent} {attempt : HeartbeatAttempt}

/-! ## Pending writes -/

/-- A write that was reported ambiguous and has not landed yet, and whether its session has
since read the item without finding it its own. -/
structure PendingWrite where
  action : LeaseWrite
  seen : Bool

/-- The lease world and the pending writes of every session, in the order they were issued. -/
structure DelayedWorld (ι : Type) where
  lease : LeaseWorld ι
  pending : ι → List PendingWrite

/-- What the world leaves open for one step: a write may be answered now or be left pending. -/
inductive DelayedChoice where
  | now (choice : LeaseChoice)
  | later (code : String)

def ownsItem (own : LeaseOwner) (found : Option LeaseItem) : Bool :=
  found.any fun item => isOwnedBy item own

/-- The pending writes after a read of their session. -/
def seenAfter (own : LeaseOwner) (read : Except String (Option LeaseItem))
    (pending : List PendingWrite) : List PendingWrite :=
  match read with
  | .ok found =>
    if ownsItem own found then pending else pending.map fun write => { write with seen := true }
  | .error _ => pending

section Machine

variable {ι : Type} [DecidableEq ι]

/-- The write of one session is left pending. -/
def DelayedWorld.defer (w : DelayedWorld ι) (i : ι) (action : LeaseWrite) : DelayedWorld ι :=
  { w with pending := Function.update w.pending i (w.pending i ++ [⟨action, false⟩]) }

def DelayedWorld.read (w : DelayedWorld ι) (i : ι) (own : LeaseOwner)
    (read : Except String (Option LeaseItem)) : DelayedWorld ι :=
  { w with pending := Function.update w.pending i (seenAfter own read (w.pending i)) }

/-- A pending write lands: it takes effect when it meets its condition, and is gone. -/
def DelayedWorld.land (w : DelayedWorld ι) (i : ι) (index : Nat) (action : LeaseWrite) :
    DelayedWorld ι where
  lease := if action.condition w.lease.item then w.lease.withItem (action.effect w.lease.item)
    else w.lease
  pending := Function.update w.pending i ((w.pending i).eraseIdx index)

/-- The world answers one step of one session. -/
def delayedExec (owner : ι → LeaseOwner) (i : ι) : (request : LeaseCall) → DelayedChoice →
    DelayedWorld ι → Option (LeaseReply request × DelayedWorld ι)
  | .write action, .later code, w => some (.ambiguous code, w.defer i action)
  | .getConsistent, .now choice, w =>
    (leaseExec i .getConsistent choice w.lease).map fun answer =>
      (answer.1, w.read i (owner i) answer.1)
  | request, .now choice, w =>
    (leaseExec i request choice w.lease).map fun answer => (answer.1, { w with lease := answer.2 })
  | _, .later _, _ => none

def delayedMachine (owner : ι → LeaseOwner) :
    Machine ι LeaseCall LeaseReply (DelayedWorld ι) DelayedChoice := ⟨delayedExec owner⟩

/-- A session makes its next call, or a pending write of a session lands. -/
inductive DelayedStep (owner : ι → LeaseOwner) (lands : ι → PendingWrite → Prop)
    (cfg : Config ι LeaseCall LeaseReply (DelayedWorld ι) Session) :
    Config ι LeaseCall LeaseReply (DelayedWorld ι) Session → Prop where
  | call {next : Config ι LeaseCall LeaseReply (DelayedWorld ι) Session}
      (hstep : Step (delayedMachine owner).answers cfg next) : DelayedStep owner lands cfg next
  | land (i : ι) (index : Nat) {write : PendingWrite}
      (hpending : (cfg.world.pending i)[index]? = some write) (hlands : lands i write) :
      DelayedStep owner lands cfg ⟨cfg.world.land i index write.action, cfg.programs⟩

/-- Every session idle and nothing pending. -/
def delayedStart (owner : ι → LeaseOwner) (operations : ι → List LeaseOperation)
    (store : LeaseStore) : Config ι LeaseCall LeaseReply (DelayedWorld ι) Session :=
  ⟨⟨⟨store, fun _ => .idle⟩, fun _ => []⟩, fun i => runSession (owner i) (operations i) {}⟩

/-- The landing condition: no put of an acquisition lands after its session has read the item
and found it not its own. -/
def LandsUnseen (owner : ι → LeaseOwner) (i : ι) (write : PendingWrite) : Prop :=
  AcquireWrite (owner i) write.action → write.seen = false

end Machine

/-! ## The stages of a session -/

/-- What a session may still do, and what it knows of the item. -/
inductive LeaseStage where
  /-- no write of the session has taken or can take effect -/
  | fresh
  /-- one put may have landed or be pending -/
  | tried (at_ : UtcMillis)
  /-- as before, and an update may have landed or be pending -/
  | unsure
  /-- the put is not pending -/
  | mine
  /-- the item is not actively the session's, and a put still pending is known to be missing -/
  | clear
  /-- finalized as released -/
  | closed
  /-- finalized otherwise -/
  | ended

/-- A session that may update the item it may hold. -/
def LeaseStage.updating : LeaseStage → Bool
  | .tried _ | .unsure | .mine | .clear => true
  | .fresh | .closed | .ended => false

def StagePermits (own : LeaseOwner) (stage : LeaseStage) : LeaseCall → Prop
  | .write action => (stage = .fresh ∧ AcquireWrite own action) ∨
      (stage.updating = true ∧ UpdateWrite own action)
  | .setPhase phase => stage ≠ .closed ∧ stage ≠ .ended ∧
      (phase = .finalized .released → stage = .fresh ∨ stage = .clear)
  | .getConsistent | .monotonicNow | .wallNow | .journal _ _ _ => True

def releases (action : LeaseWrite) : Bool :=
  decide ((action.effect none).leaseStatus = .released)

def LeaseStage.afterWrite (stage : LeaseStage) (action : LeaseWrite) (outcome : LeaseOutcome) :
    LeaseStage :=
  match stage, outcome with
  | .fresh, .applied => .mine
  | .fresh, .ambiguous _ => .tried (action.effect none).acquiredAt
  | .tried _, .applied | .unsure, .applied | .mine, .applied =>
    if releases action then .clear else .mine
  | .tried _, _ => .unsure
  | stage, _ => stage

def LeaseStage.afterRead (own : LeaseOwner) (stage : LeaseStage) (found : Option LeaseItem) :
    LeaseStage :=
  match stage with
  | .tried at_ => if found = some (acquiredLeaseItem own at_) then .mine else .clear
  | .unsure =>
    if found.any fun item => isOwnedBy item own && decide (item.leaseStatus ≠ .released) then
      .mine
    else .clear
  | .mine =>
    if found.any fun item => isOwnedBy item own && decide (item.leaseStatus = .released) then
      .clear
    else .mine
  | stage => stage

def LeaseStage.afterPhase (stage : LeaseStage) : SessionPhase → LeaseStage
  | .finalized .released => .closed
  | .finalized _ => .ended
  | .idle | .refused | .unresolved | .held _ => stage

def stageAfter (own : LeaseOwner) (stage : LeaseStage) : (request : LeaseCall) →
    LeaseReply request → LeaseStage
  | .write action, outcome => stage.afterWrite action outcome
  | .getConsistent, .ok found => stage.afterRead own found
  | .getConsistent, .error _ => stage
  | .setPhase phase, _ => stage.afterPhase phase
  | .monotonicNow, _ | .wallNow, _ | .journal _ _ _, _ => stage

section Programs

variable {α : Type} {own : LeaseOwner} {stage : LeaseStage} {Q : α → LeaseStage → Prop}

/-- A program of this owner's session that keeps to its stages. -/
abbrev StagedAs (own : LeaseOwner) (Q : α → LeaseStage → Prop) (p : LeaseAsync α)
    (stage : LeaseStage) : Prop :=
  Follows (StagePermits own) (stageAfter own) Q p stage

def ReadStage (own : LeaseOwner) (stage : LeaseStage) (read : LeaseRead) (after : LeaseStage) :
    Prop :=
  match read with
  | .ok found => after = stage.afterRead own found
  | .error _ => after = stage ∨
      ∃ item, decodeLeaseItem item = none ∧ after = stage.afterRead own (some item)

theorem readLease_staged : StagedAs own (ReadStage own stage) readLease stage := by
  refine Follows.call trivial fun read => ?_
  cases read with
  | error code => exact Or.inl rfl
  | ok found =>
    cases found with
    | none => exact rfl
    | some item =>
      dsimp only
      cases hdecoded : decodeLeaseItem item with
      | none => exact Or.inr ⟨item, hdecoded, rfl⟩
      | some decoded =>
        obtain rfl := decodeLeaseItem_eq hdecoded
        exact rfl

def putStage (at_ : UtcMillis) : LeaseOutcome → LeaseStage
  | .applied => .mine
  | .ambiguous _ => .tried at_
  | .conditionFailed _ _ | .definitiveFailure _ => .fresh

theorem afterWrite_put {at_ : UtcMillis} {condition : Option LeaseItem → Bool}
    (outcome : LeaseOutcome) :
    LeaseStage.fresh.afterWrite (acquisitionPut own at_ condition) outcome =
      putStage at_ outcome := by
  cases outcome <;> rfl

theorem acquireLease_staged (at_ : UtcMillis) :
    StagedAs own (fun outcome after => after = putStage at_ outcome) (acquireLease own at_)
      .fresh := by
  refine Follows.call (.inl ⟨rfl, at_, itemAbsent, rfl, .inl rfl⟩) fun first => ?_
  have hfirst : stageAfter own .fresh (.write (acquisitionPut own at_ itemAbsent)) first =
      putStage at_ first := afterWrite_put first
  rw [hfirst]
  cases hholder : releasedHolder first with
  | none => exact rfl
  | some released =>
    -- only a failed condition names a released holder, and it leaves the session fresh
    obtain ⟨index, existing, rfl⟩ : ∃ index existing,
        first = .conditionFailed index existing := by
      unfold releasedHolder at hholder
      split at hholder
      · exact ⟨_, _, rfl⟩
      · cases hholder
    refine ⟨.inl ⟨rfl, at_, sameReleasedItem released, rfl, .inr ⟨released, rfl⟩⟩,
      fun second => ?_⟩
    exact afterWrite_put second

/-- A held session owns the item or has seen it released. -/
def Settled (stage : LeaseStage) : Prop := stage = .mine ∨ stage = .clear

/-- What an acquisition that resolved so leaves of the session. -/
def ResolutionFits (stage : LeaseStage) : AcquisitionResolution → Prop
  | .acquired => Settled stage
  | .refused _ _ => stage = .fresh ∨ stage = .clear
  | .unresolved _ => (∃ at_, stage = .tried at_) ∨ stage = .clear

theorem acquiredLeaseItem_decodes (own : LeaseOwner) (at_ : UtcMillis) :
    decodeLeaseItem (acquiredLeaseItem own at_) = some (acquiredLeaseItem own at_) := rfl

theorem acquiredLeaseItem_landed (own : LeaseOwner) (at_ : UtcMillis) :
    acquisitionLanded (acquiredLeaseItem own at_) own at_ = true := by
  simp [acquisitionLanded, isOwnedBy, acquiredLeaseItem]

theorem resolveAcquisition_staged {at_ : UtcMillis} (outcome : LeaseOutcome) :
    StagedAs own (fun resolution after => ResolutionFits after resolution)
      (resolveAcquisition own at_ outcome) (putStage at_ outcome) := by
  cases outcome with
  | applied => exact Or.inl rfl
  | definitiveFailure code => exact Or.inl rfl
  | conditionFailed index existing =>
    change ResolutionFits _ (refusedByExisting existing)
    unfold refusedByExisting
    split
    · exact Or.inl rfl
    · split <;> exact Or.inl rfl
  | ambiguous code =>
    refine Follows.bind readLease_staged fun read after hread => ?_
    cases read with
    | error failure =>
      rcases hread with rfl | ⟨item, hdecodes, rfl⟩
      · exact Or.inl ⟨at_, rfl⟩
      · right
        refine if_neg fun heq => ?_
        rw [Option.some.inj heq, acquiredLeaseItem_decodes] at hdecodes
        cases hdecodes
    | ok found =>
      cases found with
      | none =>
        obtain rfl : after = .clear := hread
        exact Or.inr rfl
      | some item =>
        change after = if some item = some (acquiredLeaseItem own at_) then LeaseStage.mine
          else .clear at hread
        by_cases hitem : some item = some (acquiredLeaseItem own at_)
        · rw [if_pos hitem] at hread
          obtain rfl := Option.some.inj hitem
          change StagedAs own _ (if acquisitionLanded (acquiredLeaseItem own at_) own at_
            then _ else _) after
          rw [if_pos (acquiredLeaseItem_landed own at_)]
          exact Or.inl hread
        · rw [if_neg hitem] at hread
          dsimp only
          split
          · exact Or.inr hread
          · exact Or.inr hread

def PhaseStage (phase : SessionPhase) (stage : LeaseStage) : Prop :=
  match phase with
  | .idle => stage = .fresh
  | .refused => stage = .fresh ∨ stage = .clear
  | .unresolved => (∃ at_, stage = .tried at_) ∨ stage = .clear
  | .held _ => Settled stage
  | .finalized _ => stage = .closed ∨ stage = .ended

theorem record_staged {state : Option LeaseHealthState}
    {observed : Option LeaseItem} :
    StagedAs own (fun next after => after = stage ∧ next.phase = session.phase ∧
      next.events = session.events ++ [event]) (session.record event state observed) stage :=
  Follows.call trivial fun _ => ⟨rfl, rfl, rfl⟩

theorem enter_record_staged {β : Type} {phase : SessionPhase}
    {state : Option LeaseHealthState} {observed : Option LeaseItem}
    {result : β} (hopen : ∀ status, phase ≠ .finalized status) (hfits : PhaseStage phase stage) :
    StagedAs own (fun (value : β × Session) after => PhaseStage value.2.phase after)
      (do
        let session ← session.enter phase
        let session ← session.record event state observed
        pure (result, session)) stage := by
  have hafter : stage.afterPhase phase = stage := by
    cases phase with
    | finalized status => exact absurd rfl (hopen status)
    | idle | refused | unresolved | held state => rfl
  have hrunning : stage ≠ .closed ∧ stage ≠ .ended := by
    cases phase with
    | finalized status => exact absurd rfl (hopen status)
    | idle =>
      obtain rfl : stage = .fresh := hfits
      exact ⟨nofun, nofun⟩
    | refused => rcases hfits with rfl | rfl <;> exact ⟨nofun, nofun⟩
    | unresolved => rcases hfits with ⟨at_, rfl⟩ | rfl <;> exact ⟨nofun, nofun⟩
    | held state => rcases hfits with rfl | rfl <;> exact ⟨nofun, nofun⟩
  refine ⟨⟨hrunning.1, hrunning.2, fun heq => absurd heq (hopen _)⟩, fun _ => ?_⟩
  refine ⟨trivial, fun _ => ?_⟩
  change PhaseStage phase (stage.afterPhase phase)
  rw [hafter]
  exact hfits

theorem acquire_staged (hfits : PhaseStage session.phase stage) :
    StagedAs own (fun value after => PhaseStage value.2.phase after) (session.acquire own)
      stage := by
  unfold Session.acquire
  split
  · rename_i hidle
    rw [hidle] at hfits
    obtain rfl : stage = .fresh := hfits
    refine Follows.call trivial fun issuedNs => Follows.call trivial fun at_ => ?_
    refine Follows.bind (acquireLease_staged at_) fun outcome after hafter => ?_
    subst hafter
    refine Follows.bind (resolveAcquisition_staged outcome) fun resolution after hresolved => ?_
    cases resolution with
    | acquired => exact enter_record_staged (fun _ => nofun) hresolved
    | refused holder code => exact enter_record_staged (fun _ => nofun) hresolved
    | unresolved code => exact enter_record_staged (fun _ => nofun) hresolved
  · exact hfits

/-! ### Heartbeats -/

theorem Settled.updating (h : Settled stage) : stage.updating = true := by
  rcases h with rfl | rfl <;> rfl

theorem Settled.afterRead (h : Settled stage) (found : Option LeaseItem) :
    Settled (stage.afterRead own found) := by
  rcases h with rfl | rfl
  · change Settled (if _ then _ else _)
    split
    · exact Or.inr rfl
    · exact Or.inl rfl
  · exact Or.inr rfl

theorem Settled.afterWrite (h : Settled stage) (action : LeaseWrite) (outcome : LeaseOutcome) :
    Settled (stage.afterWrite action outcome) := by
  rcases h with rfl | rfl
  · cases outcome with
    | applied =>
      change Settled (if _ then _ else _)
      split
      · exact Or.inr rfl
      · exact Or.inl rfl
    | conditionFailed index existing | definitiveFailure code | ambiguous code =>
      exact Or.inl rfl
  · cases outcome <;> exact Or.inr rfl

theorem readLease_settled (h : Settled stage) :
    StagedAs own (fun _ after => Settled after) readLease stage := by
  refine readLease_staged.weaken fun read after hread => ?_
  cases read with
  | error code =>
    rcases hread with rfl | ⟨item, -, rfl⟩
    · exact h
    · exact h.afterRead _
  | ok found =>
    obtain rfl : after = stage.afterRead own found := hread
    exact h.afterRead _

theorem judgeItem_settled {item : LeaseItem} (h : Settled stage) :
    StagedAs own (fun _ after => Settled after) (judgeItem item attempt) stage := by
  refine Follows.call trivial fun _ => ?_
  split <;> exact h

theorem judgeRead_settled {read : LeaseRead} (h : Settled stage) :
    StagedAs own (fun _ after => Settled after) (judgeRead read attempt) stage := by
  unfold judgeRead
  split
  · exact Follows.call trivial fun _ => h
  · exact Follows.call trivial fun _ => h
  · exact Follows.call trivial fun _ => h
  · exact judgeItem_settled h

theorem judgeHeartbeat_settled {outcome : LeaseOutcome}
    (h : Settled stage) :
    StagedAs own (fun _ after => Settled after) (judgeHeartbeat outcome attempt) stage := by
  cases outcome with
  | applied => exact Follows.call trivial fun _ => h
  | definitiveFailure code => exact Follows.call trivial fun _ => h
  | ambiguous code =>
    refine Follows.bind (readLease_settled h) fun read after hafter => ?_
    split
    · split
      · exact Follows.call trivial fun _ => hafter
      · exact judgeRead_settled hafter
    · exact judgeRead_settled hafter
  | conditionFailed index existing =>
    cases existing with
    | none => exact Follows.bind (readLease_settled h) fun _ _ hafter => judgeRead_settled hafter
    | some found =>
      unfold judgeHeartbeat
      dsimp only
      split
      · exact Follows.call trivial fun _ => h
      · exact judgeItem_settled h

theorem heartbeatOnce_staged (hfits : PhaseStage session.phase stage) :
    StagedAs own (fun value after => PhaseStage value.2.phase after) (session.heartbeatOnce own)
      stage := by
  unfold Session.heartbeatOnce
  split
  · rename_i state hheld
    have hsettled : Settled stage := by
      rw [hheld] at hfits
      exact hfits
    split
    · exact hfits
    · refine Follows.call trivial fun issuedNs => ?_
      dsimp only
      split
      · exact enter_record_staged (fun _ => nofun) hsettled
      · refine Follows.call trivial fun at_ => ?_
        refine Follows.call (.inr ⟨hsettled.updating, .heartbeat _ _⟩) fun outcome => ?_
        refine Follows.bind (judgeHeartbeat_settled (hsettled.afterWrite _ outcome))
          fun judged after hafter => ?_
        exact enter_record_staged (fun _ => nofun) hafter
  · exact hfits

/-! ### Finalization -/

/-- The verdict is final, and one that says released comes from a session that is clear. -/
def VerdictFits (verdict : FinalizationVerdict) (stage : LeaseStage) : Prop :=
  stage.updating = true ∧ (finalStatusOfEvent verdict.leaseEvent).isSome = true ∧
    (verdict.leaseEvent = .released → stage = .clear)

theorem updating_afterRead (h : stage.updating = true) (found : Option LeaseItem) :
    (stage.afterRead own found).updating = true := by
  cases stage with
  | tried at_ | unsure | mine =>
    change LeaseStage.updating (if _ then _ else _) = true
    split <;> rfl
  | clear => rfl
  | fresh | closed | ended => cases h

theorem afterWrite_update (h : stage.updating = true) (action : LeaseWrite)
    (outcome : LeaseOutcome) :
    stage.afterWrite action outcome = .unsure ∨ Settled (stage.afterWrite action outcome) := by
  cases stage with
  | fresh | closed | ended => cases h
  | mine => exact Or.inr (Settled.afterWrite (Or.inl rfl) action outcome)
  | clear => exact Or.inr (Settled.afterWrite (Or.inr rfl) action outcome)
  | tried at_ | unsure =>
    cases outcome with
    | applied => exact Or.inr (Settled.afterWrite (Or.inl rfl) action .applied)
    | conditionFailed index existing | definitiveFailure code | ambiguous code =>
      exact Or.inl rfl

theorem afterRead_ownReleased {item : LeaseItem} (h : stage.updating = true)
    (hmine : isOwnedBy item own = true) (hreleased : item.leaseStatus = .released) :
    stage.afterRead own (some item) = .clear := by
  cases stage with
  | fresh | closed | ended => cases h
  | tried at_ =>
    refine if_neg fun heq => ?_
    rw [Option.some.inj heq] at hreleased
    cases hreleased
  | unsure => exact if_neg (by simp [hreleased])
  | mine => exact if_pos (by simp [hmine, hreleased])
  | clear => rfl

variable {request : FinalizationRequest}

theorem resolveAmbiguousFinal_staged (hown : request.owner = own) (h : stage.updating = true) :
    StagedAs own (fun verdict after => VerdictFits verdict after)
      (resolveAmbiguousFinal request) stage := by
  refine Follows.bind readLease_staged fun read after hread => ?_
  cases read with
  | error code =>
    have hafter : after.updating = true := by
      rcases hread with rfl | ⟨item, -, rfl⟩
      · exact h
      · exact updating_afterRead h _
    exact ⟨hafter, rfl, nofun⟩
  | ok found =>
    obtain rfl : after = stage.afterRead own found := hread
    have hafter : (stage.afterRead own found).updating = true := updating_afterRead h found
    cases found with
    | none => exact ⟨hafter, rfl, nofun⟩
    | some item =>
      dsimp only
      split
      · rename_i hlanded
        rw [Bool.and_eq_true, hown] at hlanded
        refine ⟨hafter, ?_, fun hreleased => ?_⟩
        · cases request.closure <;> rfl
        · have hclean : request.closure = .clean := by
            cases hclosure : request.closure with
            | clean => rfl
            | unclean =>
              rw [hclosure] at hreleased
              cases hreleased
          rw [hclean] at hlanded
          exact afterRead_ownReleased h hlanded.1 (of_decide_eq_true hlanded.2)
      · exact ⟨hafter, rfl, nofun⟩

theorem writeFinal_staged (hown : request.owner = own) (h : stage.updating = true) (version : Nat) :
    StagedAs own (fun verdict after => VerdictFits verdict after) (writeFinal request version)
      stage := by
  obtain ⟨requester, closure, knownVersion, held⟩ := request
  obtain rfl : requester = own := hown
  have hupdating : ∀ action outcome, (stage.afterWrite action outcome).updating = true := by
    intro action outcome
    rcases afterWrite_update h action outcome with hstage | hsettled
    · rw [hstage]
      rfl
    · exact hsettled.updating
  refine Follows.call trivial fun at_ => ?_
  cases closure with
  | clean =>
    refine Follows.call (.inr ⟨h, .release _ _⟩) fun outcome => ?_
    cases outcome with
    | applied =>
      refine ⟨hupdating _ _, rfl, fun _ => ?_⟩
      cases stage with
      | fresh | closed | ended => cases h
      | tried at_ | unsure | mine | clear => rfl
    | conditionFailed index existing | definitiveFailure code =>
      exact ⟨hupdating _ _, rfl, nofun⟩
    | ambiguous code => exact resolveAmbiguousFinal_staged rfl (hupdating _ _)
  | unclean =>
    refine Follows.call (.inr ⟨h, .recovery _ _⟩) fun outcome => ?_
    cases outcome with
    | applied | conditionFailed index existing | definitiveFailure code =>
      exact ⟨hupdating _ _, rfl, nofun⟩
    | ambiguous code => exact resolveAmbiguousFinal_staged rfl (hupdating _ _)

theorem afterRead_notOwn {found : Option LeaseItem} (h : stage.updating = true)
    (hnever : stage ≠ .mine) (hnot : ownsItem own found = false) :
    stage.afterRead own found = .clear := by
  cases stage with
  | fresh | closed | ended => cases h
  | mine => exact absurd rfl hnever
  | clear => rfl
  | tried at_ =>
    refine if_neg ?_
    rintro rfl
    simp [ownsItem, isOwnedBy, acquiredLeaseItem] at hnot
  | unsure =>
    cases found with
    | none => rfl
    | some item =>
      have hitem : isOwnedBy item own = false := hnot
      exact if_neg (by simp [hitem])

theorem notOwned_fits {found : Option LeaseItem} (h : stage.updating = true)
    (hnever : request.held = false → stage ≠ .mine) (hnot : ownsItem own found = false) :
    VerdictFits (notOwned request found) (stage.afterRead own found) := by
  unfold notOwned
  split
  · exact ⟨updating_afterRead h found, rfl, nofun⟩
  · rename_i hheld
    rw [Bool.not_eq_true] at hheld
    exact ⟨updating_afterRead h found, rfl, fun _ => afterRead_notOwn h (hnever hheld) hnot⟩

theorem finalizeLease_staged (hown : request.owner = own) (h : stage.updating = true)
    (hnever : request.held = false → stage ≠ .mine) :
    StagedAs own (fun verdict after => VerdictFits verdict after) (finalizeLease request)
      stage := by
  refine Follows.bind readLease_staged fun read after hread => ?_
  cases read with
  | error code =>
    refine writeFinal_staged hown ?_ _
    rcases hread with rfl | ⟨item, -, rfl⟩
    · exact h
    · exact updating_afterRead h _
  | ok found =>
    obtain rfl : after = stage.afterRead own found := hread
    have hafter : (stage.afterRead own found).updating = true := updating_afterRead h found
    cases found with
    | none => exact notOwned_fits h hnever rfl
    | some item =>
      dsimp only
      split
      · rename_i hmine
        split
        · rename_i hreleased
          rw [hown] at hmine
          exact ⟨hafter, rfl, fun _ => afterRead_ownReleased h hmine hreleased⟩
        · split
          · exact ⟨hafter, rfl, nofun⟩
          · exact writeFinal_staged hown hafter _
      · rename_i hnot
        rw [hown, Bool.not_eq_true] at hnot
        exact notOwned_fits h hnever hnot

theorem deriveFinalLeaseStatus_append {events : List LeaseEvent}
    {status : LeaseStatus} (h : finalStatusOfEvent event = some status) :
    deriveFinalLeaseStatus (events ++ [event]) = status := by
  simp [deriveFinalLeaseStatus, h]

theorem finalStatus_released
    (h : finalStatusOfEvent event = some .released) : event = .released := by
  cases event <;> first | rfl | cases h

theorem settleFinal_staged {events : List LeaseEvent}
    (hrunning : stage ≠ .closed ∧ stage ≠ .ended)
    (hevents : session.events = events ++ [event])
    (hfinal : (finalStatusOfEvent event).isSome = true)
    (hreleased : event = .released → stage = .fresh ∨ stage = .clear) :
    StagedAs own (fun value after => PhaseStage value.2.phase after) session.settleFinal stage := by
  obtain ⟨status, hstatus⟩ := Option.isSome_iff_exists.mp hfinal
  have hderived : deriveFinalLeaseStatus session.events = status := by
    rw [hevents]
    exact deriveFinalLeaseStatus_append hstatus
  refine ⟨⟨hrunning.1, hrunning.2, fun heq => ?_⟩, fun _ => ?_⟩
  · rw [hderived] at heq
    obtain rfl := SessionPhase.finalized.inj heq
    exact hreleased (finalStatus_released hstatus)
  · change PhaseStage (.finalized (deriveFinalLeaseStatus session.events))
      (stage.afterPhase (.finalized (deriveFinalLeaseStatus session.events)))
    generalize deriveFinalLeaseStatus session.events = derived
    cases derived with
    | released => exact Or.inl rfl
    | recoveryRequired | unverified => exact Or.inr rfl

theorem finalize_staged {closure : LeaseClosure}
    (hfits : PhaseStage session.phase stage) :
    StagedAs own (fun value after => PhaseStage value.2.phase after)
      (session.finalize own closure) stage := by
  have howned : ∀ state : Option LeaseHealthState, stage.updating = true →
      (state.isSome = false → stage ≠ .mine) → StagedAs own
        (fun value after => PhaseStage value.2.phase after)
        (session.finalizeOwned own closure state >>= Session.settleFinal) stage := by
    intro state hupdating hnever
    have hrecorded : StagedAs own (fun next after => ∃ verdict, VerdictFits verdict after ∧
        next.events = session.events ++ [verdict.leaseEvent])
        (session.finalizeOwned own closure state) stage := by
      refine Follows.bind (finalizeLease_staged rfl hupdating hnever) fun verdict after hverdict => ?_
      refine record_staged.weaken ?_
      rintro next last ⟨rfl, -, hevents⟩
      exact ⟨verdict, hverdict, hevents⟩
    refine Follows.bind hrecorded ?_
    rintro next after ⟨verdict, ⟨hafter, hfinal, hreleased⟩, hevents⟩
    refine settleFinal_staged ?_ hevents hfinal fun heq => .inr (hreleased heq)
    cases after with
    | closed | ended => cases hafter
    | fresh | tried at_ | unsure | mine | clear => exact ⟨nofun, nofun⟩
  unfold Session.finalize
  split
  · exact hfits
  · exact hfits
  · rename_i hrefused
    rw [hrefused] at hfits
    refine Follows.bind record_staged ?_
    rintro next after ⟨rfl, -, hevents⟩
    refine settleFinal_staged ?_ hevents rfl fun _ => hfits
    rcases hfits with rfl | rfl <;> exact ⟨nofun, nofun⟩
  · rename_i hunresolved
    rw [hunresolved] at hfits
    refine howned none ?_ fun _ => ?_
    · rcases hfits with ⟨at_, rfl⟩ | rfl <;> rfl
    · rcases hfits with ⟨at_, rfl⟩ | rfl <;> exact nofun
  · rename_i state hheld
    rw [hheld] at hfits
    exact howned (some state) (Settled.updating hfits) nofun

theorem runSession_staged (operations : List LeaseOperation)
    (hfits : PhaseStage session.phase stage) :
    StagedAs own (fun _ _ => True) (runSession own operations session) stage := by
  induction operations generalizing session stage with
  | nil => trivial
  | cons operation rest ih =>
    cases operation with
    | acquire => exact Follows.bind (acquire_staged hfits) fun _ _ hnext => ih hnext
    | heartbeatOnce => exact Follows.bind (heartbeatOnce_staged hfits) fun _ _ hnext => ih hnext
    | finalize closure => exact Follows.bind (finalize_staged hfits) fun _ _ hnext => ih hnext

end Programs

end RefundStudy.Lease
