/-
  One owner's coordination lease (`coordination-lease/`, BR-RUA-045).

  An append to the coordination journal is one step without an outcome; the free texts of reasons
  and `loss()` are left out.
-/
import RefundStudy.Foundation.ItemStore
import RefundStudy.Foundation.System
import RefundStudy.Record.Vocabulary

set_option autoImplicit false

namespace RefundStudy.Lease

open Foundation Record

/-! ## The lease item (`lease-item.ts`) -/

inductive LeaseItemStatus where
  | held
  | released
  | recoveryRequired
  deriving DecidableEq

structure LeaseOwner where
  ownerKind : ExecutionKind
  ownerId : Uuid4
  ownerManifestSha256 : String
  deriving DecidableEq

structure LeaseItem where
  owner : LeaseOwner
  leaseStatus : LeaseItemStatus
  leaseVersion : Nat
  acquiredAt : UtcMillis
  heartbeatAt : UtcMillis
  expiresAt : UtcMillis
  updatedAt : UtcMillis
  deriving DecidableEq

/-- `LEASE_STALE_BOUNDARY_MS`. -/
def leaseStaleBoundaryMs : Nat := 300000

/-- `LEASE_REASON_CODES`. -/
inductive LeaseReasonCode where
  | conflict
  | itemAbsent
  | itemUndecodable
  | readFailed
  | writeRejected
  | writeAmbiguous
  | ownershipMismatch
  | stale

/-- The members are typed here, so only the version can be out of range. -/
def decodeLeaseItem (item : LeaseItem) : Option LeaseItem :=
  if isPositiveSafeInteger item.leaseVersion then some item else none

def isOwnedBy (item : LeaseItem) (owner : LeaseOwner) : Bool := decide (item.owner = owner)

def leaseExpiry (at_ : UtcMillis) : UtcMillis := at_ + leaseStaleBoundaryMs

variable (owner : LeaseOwner)

def acquiredLeaseItem (at_ : UtcMillis) : LeaseItem where
  owner := owner
  leaseStatus := .held
  leaseVersion := 1
  acquiredAt := at_
  heartbeatAt := at_
  expiresAt := leaseExpiry at_
  updatedAt := at_

/-! ## Health (`lease-health.ts`) -/

/-- `LEASE_STALE_BOUNDARY_NS`. -/
def leaseStaleBoundaryNs : Nat := leaseStaleBoundaryMs * 1000000

structure LeaseHealthState where
  health : LeaseHealth
  leaseVersion : Nat
  lastConfirmedNs : Nat
  lastConfirmedAt : UtcMillis

inductive LeaseObservation where
  | confirmed (issuedNs observedNs : Nat) (at_ : UtcMillis) (leaseVersion : Nat)
  | failed (observedNs : Nat) (adoptedVersion : Option Nat)
  | mismatch (observedNs : Nat) (code : LeaseReasonCode)
  | clock (observedNs : Nat)

/-- The `observed_ns` of an observation. -/
def LeaseObservation.observedNs : LeaseObservation → Nat
  | .confirmed _ observedNs _ _ => observedNs
  | .failed observedNs _ => observedNs
  | .mismatch observedNs _ => observedNs
  | .clock observedNs => observedNs

def isLost (health : LeaseHealth) : Bool :=
  decide (health = .lostOwnershipMismatch ∨ health = .lostStale)

/-- Losses are absorbing and staleness is judged first. -/
def nextLeaseHealth (state : LeaseHealthState) (observation : LeaseObservation) :
    LeaseHealthState :=
  if isLost state.health then state
  else if state.lastConfirmedNs + leaseStaleBoundaryNs ≤ observation.observedNs then
    { state with health := .lostStale }
  else
    match observation with
    | .confirmed issuedNs _ at_ leaseVersion => ⟨.confirmed, leaseVersion, issuedNs, at_⟩
    | .failed _ adoptedVersion =>
      { state with health := .uncertain, leaseVersion := adoptedVersion.getD state.leaseVersion }
    | .mismatch _ _ => { state with health := .lostOwnershipMismatch }
    | .clock _ => state

def isPublicationAllowed (state : LeaseHealthState) (nowNs : Nat) : Bool :=
  decide (state.health = .confirmed ∧ nowNs < state.lastConfirmedNs + leaseStaleBoundaryNs)

def finalStatusOfEvent : LeaseEvent → Option LeaseStatus
  | .released => some .released
  | .recoveryRequired => some .recoveryRequired
  | .releaseFailed => some .unverified
  | .stateUnverified => some .unverified
  | _ => none

def deriveFinalLeaseStatus (events : List LeaseEvent) : LeaseStatus :=
  ((events.filterMap finalStatusOfEvent).getLast?).getD .unverified

/-! ## Sessions and their world -/

inductive SessionPhase where
  | idle
  | refused
  | unresolved
  | held (state : LeaseHealthState)
  | finalized (status : LeaseStatus)

/-- `publicationAllowed` of a session in this phase, at this reading of its clock. -/
def publicationAllowed (phase : SessionPhase) (nowNs : Nat) : Bool :=
  match phase with
  | .held state => isPublicationAllowed state nowNs
  | .idle | .refused | .unresolved | .finalized _ => false

abbrev LeaseStore : Type := AList fun _ : Unit => LeaseItem

abbrev LeaseWrite : Type := WriteAction fun _ : Unit => LeaseItem

abbrev LeaseOutcome : Type := WriteOutcome fun _ : Unit => LeaseItem

/-- The steps of a session: store calls, clock readings, journal appends, and the
assignment of its phase. -/
inductive LeaseCall where
  | write (action : LeaseWrite)
  | getConsistent
  | monotonicNow
  | wallNow
  | journal (event : LeaseEvent) (state : Option LeaseHealthState) (observed : Option LeaseItem)
  | setPhase (phase : SessionPhase)

@[reducible] def LeaseReply : LeaseCall → Type
  | .write _ => LeaseOutcome
  | .getConsistent => Except String (Option LeaseItem)
  | .monotonicNow => Nat
  | .wallNow => UtcMillis
  | .journal _ _ _ => Unit
  | .setPhase _ => Unit

/-- What the world leaves open for one step. -/
inductive LeaseChoice where
  | fate (fate : Fate)
  | readOk
  | readFails (code : String)
  | reading (value : Nat)
  | done

/-- The stored item and the phase of every session. -/
structure LeaseWorld (ι : Type) where
  store : LeaseStore
  phases : ι → SessionPhase

def LeaseWorld.item {ι : Type} (w : LeaseWorld ι) : Option LeaseItem := w.store.lookup ()

section Machine

variable {ι : Type} [DecidableEq ι]

/-- The world answers one step of one session. -/
def leaseExec (i : ι) : (request : LeaseCall) → LeaseChoice → LeaseWorld ι →
    Option (LeaseReply request × LeaseWorld ι)
  | .write action, .fate fate, w =>
    let answer := transact w.store [action] fate
    some (answer.1, { w with store := answer.2 })
  | .getConsistent, .readOk, w => some (.ok w.item, w)
  | .getConsistent, .readFails code, w => some (.error code, w)
  | .monotonicNow, .reading value, w => some (value, w)
  | .wallNow, .reading value, w => some (value, w)
  | .journal _ _ _, .done, w => some ((), w)
  | .setPhase phase, .done, w =>
    some ((), { w with phases := Function.update w.phases i phase })
  | _, _, _ => none

def leaseMachine (ι : Type) [DecidableEq ι] :
    Machine ι LeaseCall LeaseReply (LeaseWorld ι) LeaseChoice := ⟨leaseExec⟩

end Machine

/-! ## The store port (`durable-lease-store.ts`) -/

abbrev LeaseAsync (α : Type) : Type := Program LeaseCall LeaseReply α

abbrev leaseAwait (request : LeaseCall) : LeaseAsync (LeaseReply request) := Program.perform request

/-- The put of a fresh held item under a condition. -/
def acquisitionPut (at_ : UtcMillis) (condition : Option LeaseItem → Bool) : LeaseWrite where
  key := ()
  condition := condition
  effect := fun _ => acquiredLeaseItem owner at_

def sameReleasedItem (released : LeaseItem) : Option LeaseItem → Bool :=
  allConditions
    [attributeEquals LeaseItem.leaseStatus .released,
      attributeEquals LeaseItem.leaseVersion released.leaseVersion,
      attributeEquals (fun item : LeaseItem => item.owner.ownerId) released.owner.ownerId]

/-- The released item a failed `item_absent` put returned. -/
def releasedHolder : LeaseOutcome → Option LeaseItem
  | .conditionFailed _ (some ⟨_, existing⟩) =>
    match decodeLeaseItem existing with
    | some item => if item.leaseStatus = .released then some item else none
    | none => none
  | _ => none

def acquireLease (at_ : UtcMillis) : LeaseAsync LeaseOutcome := do
  let first ← leaseAwait (.write (acquisitionPut owner at_ itemAbsent))
  match releasedHolder first with
  | none => pure first
  | some released => leaseAwait (.write (acquisitionPut owner at_ (sameReleasedItem released)))

def ownedAt (version : Nat) (statuses : List LeaseItemStatus) : Option LeaseItem → Bool :=
  allConditions
    [attributeEquals (fun item : LeaseItem => item.owner.ownerKind) owner.ownerKind,
      attributeEquals (fun item : LeaseItem => item.owner.ownerId) owner.ownerId,
      attributeEquals (fun item : LeaseItem => item.owner.ownerManifestSha256)
        owner.ownerManifestSha256,
      attributeEquals LeaseItem.leaseVersion version,
      attributeIn LeaseItem.leaseStatus statuses]

/-- The condition finds an item, so the update creates none. -/
def updateOwnedLease (expectedVersion : Nat)
    (statuses : List LeaseItemStatus) (set : LeaseItem → LeaseItem) : LeaseWrite where
  key := ()
  condition := ownedAt owner expectedVersion statuses
  effect := fun item =>
    { set (item.getD (acquiredLeaseItem owner 0)) with leaseVersion := expectedVersion + 1 }

def heartbeatWrite (expectedVersion : Nat) (at_ : UtcMillis) : LeaseWrite :=
  updateOwnedLease owner expectedVersion [.held] fun item =>
    { item with heartbeatAt := at_, expiresAt := leaseExpiry at_, updatedAt := at_ }

def releaseWrite (expectedVersion : Nat) (at_ : UtcMillis) : LeaseWrite :=
  updateOwnedLease owner expectedVersion [.held, .recoveryRequired] fun item =>
    { item with leaseStatus := .released, updatedAt := at_ }

/-- `markRecoveryRequired`. -/
def recoveryWrite (expectedVersion : Nat) (at_ : UtcMillis) : LeaseWrite :=
  updateOwnedLease owner expectedVersion [.held] fun item =>
    { item with leaseStatus := .recoveryRequired, updatedAt := at_ }

/-- `LeaseReadFailure`, by its code. -/
abbrev LeaseRead : Type := Except LeaseReasonCode (Option LeaseItem)

def readLease : LeaseAsync LeaseRead := do
  let read ← leaseAwait .getConsistent
  match read with
  | .error _ => pure (.error .readFailed)
  | .ok none => pure (.ok none)
  | .ok (some item) =>
    match decodeLeaseItem item with
    | some decoded => pure (.ok (some decoded))
    | none => pure (.error .itemUndecodable)

/-! ## Acquisition (`lease-acquisition.ts`) -/

inductive AcquisitionResolution where
  | acquired
  | refused (holder : Option LeaseItem) (code : LeaseReasonCode)
  | unresolved (code : LeaseReasonCode)

def acquisitionLanded (item : LeaseItem) (owner : LeaseOwner) (at_ : UtcMillis) : Bool :=
  isOwnedBy item owner &&
    decide (item.leaseStatus = .held ∧ item.leaseVersion = 1 ∧ item.acquiredAt = at_)

def refusedByExisting (existing : Option (Sigma fun _ : Unit => LeaseItem)) :
    AcquisitionResolution :=
  match existing with
  | none => .refused none .conflict
  | some ⟨_, item⟩ =>
    match decodeLeaseItem item with
    | some holder => .refused (some holder) .conflict
    | none => .refused none .itemUndecodable

def resolveAcquisition (at_ : UtcMillis) (outcome : LeaseOutcome) :
    LeaseAsync AcquisitionResolution :=
  match outcome with
  | .applied => pure .acquired
  | .definitiveFailure _ => pure (.refused none .writeRejected)
  | .conditionFailed _ existing => pure (refusedByExisting existing)
  | .ambiguous _ => do
    let read ← readLease
    match read with
    | .error _ => pure (.unresolved .writeAmbiguous)
    | .ok none => pure (.refused none .writeAmbiguous)
    | .ok (some item) =>
      if acquisitionLanded item owner at_ then pure .acquired
      else pure (.refused (some item) .conflict)

/-! ## Heartbeats (`heartbeat-judgement.ts`) -/

structure HeartbeatAttempt where
  owner : LeaseOwner
  expectedVersion : Nat
  issuedNs : Nat
  at_ : UtcMillis

structure HeartbeatJudgement where
  observation : LeaseObservation
  observed : Option LeaseItem := none

def heartbeatLanded (item : LeaseItem) (attempt : HeartbeatAttempt) : Bool :=
  isOwnedBy item attempt.owner &&
    decide (item.leaseStatus = .held ∧ item.leaseVersion = attempt.expectedVersion + 1 ∧
      item.heartbeatAt = attempt.at_)

def judgedConfirmed (attempt : HeartbeatAttempt) : LeaseAsync HeartbeatJudgement := do
  let observedNs ← leaseAwait .monotonicNow
  pure ⟨.confirmed attempt.issuedNs observedNs attempt.at_ (attempt.expectedVersion + 1), none⟩

def judgedFailed : LeaseAsync HeartbeatJudgement := do
  let observedNs ← leaseAwait .monotonicNow
  pure ⟨.failed observedNs none, none⟩

def judgedMismatch (code : LeaseReasonCode) : LeaseAsync HeartbeatJudgement := do
  let observedNs ← leaseAwait .monotonicNow
  pure ⟨.mismatch observedNs code, none⟩

def judgeItem (item : LeaseItem) (attempt : HeartbeatAttempt) : LeaseAsync HeartbeatJudgement := do
  let observedNs ← leaseAwait .monotonicNow
  if isOwnedBy item attempt.owner && decide (item.leaseStatus = .held) then
    pure ⟨.failed observedNs (some item.leaseVersion), some item⟩
  else pure ⟨.mismatch observedNs .ownershipMismatch, some item⟩

def judgeRead (read : LeaseRead) (attempt : HeartbeatAttempt) : LeaseAsync HeartbeatJudgement :=
  match read with
  | .error .itemUndecodable => judgedMismatch .itemUndecodable
  | .error _ => judgedFailed
  | .ok none => judgedMismatch .itemAbsent
  | .ok (some item) => judgeItem item attempt

def judgeHeartbeat (outcome : LeaseOutcome) (attempt : HeartbeatAttempt) :
    LeaseAsync HeartbeatJudgement :=
  match outcome with
  | .applied => judgedConfirmed attempt
  | .definitiveFailure _ => judgedFailed
  | .ambiguous _ => do
    let read ← readLease
    match read with
    | .ok (some item) =>
      if heartbeatLanded item attempt then judgedConfirmed attempt else judgeRead read attempt
    | read => judgeRead read attempt
  | .conditionFailed _ existing =>
    match existing with
    | none => do
      let read ← readLease
      judgeRead read attempt
    | some ⟨_, item⟩ =>
      match decodeLeaseItem item with
      | none => judgedMismatch .itemUndecodable
      | some decoded => judgeItem decoded attempt

/-! ## Finalization (`lease-finalization.ts`) -/

inductive LeaseClosure where
  | clean
  | unclean
  deriving DecidableEq

structure FinalizationRequest where
  owner : LeaseOwner
  closure : LeaseClosure
  knownVersion : Nat
  held : Bool

structure FinalizationVerdict where
  leaseEvent : LeaseEvent
  leaseVersion : Option Nat := none
  observed : Option LeaseItem := none

/-- `FinalItemStatus` of a closure. -/
def targetOf : LeaseClosure → LeaseItemStatus
  | .clean => .released
  | .unclean => .recoveryRequired

def targetEventOf : LeaseClosure → LeaseEvent
  | .clean => .released
  | .unclean => .recoveryRequired

variable (request : FinalizationRequest)

def notOwned (item : Option LeaseItem) : FinalizationVerdict :=
  if request.held then ⟨.stateUnverified, none, item⟩ else ⟨.released, none, item⟩

/-- `resolveAmbiguous` of a final write. -/
def resolveAmbiguousFinal : LeaseAsync FinalizationVerdict := do
  let read ← readLease
  match read with
  | .error _ => pure ⟨.stateUnverified, none, none⟩
  | .ok none => pure ⟨.stateUnverified, none, none⟩
  | .ok (some item) =>
    if isOwnedBy item request.owner && decide (item.leaseStatus = targetOf request.closure) then
      pure ⟨targetEventOf request.closure, some item.leaseVersion, some item⟩
    else pure ⟨.stateUnverified, none, some item⟩

def observedOf : LeaseOutcome → Option LeaseItem
  | .conditionFailed _ (some ⟨_, existing⟩) => decodeLeaseItem existing
  | _ => none

/-- `writeFailure` with the item a failed condition returned. -/
def writeFailure (closure : LeaseClosure) (observed : Option LeaseItem) : FinalizationVerdict :=
  match closure with
  | .clean => ⟨.releaseFailed, none, observed⟩
  | .unclean => ⟨.stateUnverified, none, observed⟩

def writeFinal (version : Nat) : LeaseAsync FinalizationVerdict := do
  let at_ ← leaseAwait .wallNow
  let outcome ← leaseAwait (.write (match request.closure with
    | .clean => releaseWrite request.owner version at_
    | .unclean => recoveryWrite request.owner version at_))
  match outcome with
  | .applied => pure ⟨targetEventOf request.closure, some (version + 1), none⟩
  | .ambiguous _ => resolveAmbiguousFinal request
  | outcome => pure (writeFailure request.closure (observedOf outcome))

def finalizeLease : LeaseAsync FinalizationVerdict := do
  let read ← readLease
  match read with
  | .error _ => writeFinal request request.knownVersion
  | .ok none => pure (notOwned request none)
  | .ok (some item) =>
    if isOwnedBy item request.owner then
      if item.leaseStatus = .released then
        pure ⟨.released, some item.leaseVersion, some item⟩
      else if item.leaseStatus = .recoveryRequired ∧ request.closure = .unclean then
        pure ⟨.recoveryRequired, some item.leaseVersion, some item⟩
      else writeFinal request item.leaseVersion
    else pure (notOwned request (some item))

/-! ## The session (`lease-session.ts`) -/

structure Session where
  phase : SessionPhase := .idle
  events : List LeaseEvent := []

inductive LeaseAcquisition where
  | acquired
  | notAcquired (holder : Option LeaseItem) (code : LeaseReasonCode)

/-- The `Error` of an operation in the wrong phase. -/
inductive OutOfPhase where
  | outOfPhase

variable (session : Session)

/-- Assigning `#phase`. -/
def Session.enter (phase : SessionPhase) : LeaseAsync Session := do
  leaseAwait (.setPhase phase)
  pure { session with phase := phase }

def Session.record (event : LeaseEvent) (state : Option LeaseHealthState)
    (observed : Option LeaseItem) : LeaseAsync Session := do
  leaseAwait (.journal event state observed)
  pure { session with events := session.events ++ [event] }

def Session.acquire (owner : LeaseOwner) :
    LeaseAsync (Except OutOfPhase LeaseAcquisition × Session) :=
  match session.phase with
  | .idle => do
    let issuedNs ← leaseAwait .monotonicNow
    let at_ ← leaseAwait .wallNow
    let outcome ← acquireLease owner at_
    let resolution ← resolveAcquisition owner at_ outcome
    match resolution with
    | .acquired => do
      let state : LeaseHealthState := ⟨.confirmed, 1, issuedNs, at_⟩
      let session ← session.enter (.held state)
      let session ← session.record .acquired (some state) none
      pure (.ok .acquired, session)
    | .refused holder code => do
      let session ← session.enter .refused
      let session ← session.record .acquisitionFailed none holder
      pure (.ok (.notAcquired holder code), session)
    | .unresolved code => do
      let session ← session.enter .unresolved
      let session ← session.record .acquisitionFailed none none
      pure (.ok (.notAcquired none code), session)
  | _ => pure (.error .outOfPhase, session)

def beatEvent (previous next : LeaseHealth) : LeaseEvent :=
  match next with
  | .confirmed => if previous = .uncertain then .recovered else .heartbeatConfirmed
  | .uncertain => .heartbeatFailed
  | .lostOwnershipMismatch => .lostOwnershipMismatch
  | .lostStale => .lostStale

def Session.settleBeat (previous next : LeaseHealthState)
    (observed : Option LeaseItem) : LeaseAsync (Except OutOfPhase LeaseHealth × Session) := do
  let session ← session.enter (.held next)
  let session ← session.record (beatEvent previous.health next.health) (some next) observed
  pure (.ok next.health, session)

def Session.heartbeatOnce (owner : LeaseOwner) :
    LeaseAsync (Except OutOfPhase LeaseHealth × Session) :=
  match session.phase with
  | .held state =>
    if isLost state.health then pure (.ok state.health, session)
    else do
      let issuedNs ← leaseAwait .monotonicNow
      let beforeWrite := nextLeaseHealth state (.clock issuedNs)
      if beforeWrite.health = .lostStale then session.settleBeat state beforeWrite none
      else do
        let at_ ← leaseAwait .wallNow
        let outcome ← leaseAwait (.write (heartbeatWrite owner state.leaseVersion at_))
        let judged ← judgeHeartbeat outcome ⟨owner, state.leaseVersion, issuedNs, at_⟩
        session.settleBeat state (nextLeaseHealth state judged.observation) judged.observed
  | _ => pure (.error .outOfPhase, session)

def Session.settleFinal : LeaseAsync (Except OutOfPhase LeaseStatus × Session) := do
  let status := deriveFinalLeaseStatus session.events
  let session ← session.enter (.finalized status)
  pure (.ok status, session)

def Session.finalizeOwned (owner : LeaseOwner) (closure : LeaseClosure)
    (state : Option LeaseHealthState) : LeaseAsync Session := do
  let verdict ← finalizeLease
    ⟨owner, closure, (state.map LeaseHealthState.leaseVersion).getD 1, state.isSome⟩
  let after := state.map fun known =>
    { known with leaseVersion := verdict.leaseVersion.getD known.leaseVersion }
  session.record verdict.leaseEvent after verdict.observed

def Session.finalize (owner : LeaseOwner) (closure : LeaseClosure) :
    LeaseAsync (Except OutOfPhase LeaseStatus × Session) :=
  match session.phase with
  | .finalized status => pure (.ok status, session)
  | .idle => pure (.error .outOfPhase, session)
  | .refused => do
    let session ← session.record .released none none
    session.settleFinal
  | .unresolved => do
    let session ← session.finalizeOwned owner closure none
    session.settleFinal
  | .held state => do
    let session ← session.finalizeOwned owner closure (some state)
    session.settleFinal

inductive LeaseOperation where
  | acquire
  | heartbeatOnce
  | finalize (closure : LeaseClosure)

def runSession (owner : LeaseOwner) : List LeaseOperation → Session → LeaseAsync Session
  | [], session => pure session
  | .acquire :: rest, session => do
    let (_, session) ← session.acquire owner
    runSession owner rest session
  | .heartbeatOnce :: rest, session => do
    let (_, session) ← session.heartbeatOnce owner
    runSession owner rest session
  | .finalize closure :: rest, session => do
    let (_, session) ← session.finalize owner closure
    runSession owner rest session

end RefundStudy.Lease
