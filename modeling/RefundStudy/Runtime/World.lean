/-
  The ports every component runs on, as calls answered by one shared world.

  `halt` has no reply: it stands where a loop of the source has no bound and the model's fuel is
  spent. A store call is atomic and its outcome is truthful; a read may fail; an id is always
  fresh; a clock may show anything.
-/
import RefundStudy.Record.Item
import RefundStudy.Foundation.System

set_option autoImplicit false

namespace RefundStudy.Runtime

open Foundation Record

/-! ## What a component may throw -/

/-- `PROVIDER_FAULT_CODES` used on the modelled paths. -/
inductive ProviderFaultCode where
  | stateUnreadable
  | journalStopped
  | commitFailed
  | commitAmbiguous
  | transitionAmbiguous
  | treatmentUnexpected

/-- What a provider fault says about the commit. -/
inductive FaultPhase where
  | beforeCommit
  | commitUnknown
  | afterCommit

inductive ControllerFaultCode where
  | stateUnreadable
  | journalStopped
  | signalAmbiguous
  | signalFailed
  | signalRedecidedToSignal

/-- Why the pre-dispatch registration did not apply. -/
inductive RegistrationFailure where
  | rejected
  | conditionFailed
  | ambiguous

inductive CallerFaultCode where
  | registryUnreadable
  | noActiveTrial
  | registrationMismatch
  | journalStopped
  | attemptNotRegistered
  | stateNotRecorded

inductive Thrown where
  /-- a `RangeError` of a bound the code asserts -/
  | rangeError
  /-- the `Error` of a journal writer used out of order -/
  | writerMisuse
  | providerFault (code : ProviderFaultCode) (phase : FaultPhase)
  | controllerFault (code : ControllerFaultCode)
  | attemptNotRegistered (attemptId : Uuid4) (registration : RegistrationFailure)
  /-- the `Error` of `toAttemptReport` for a forbidden pair of outcome and dispatch -/
  | resolvedInconsistently (attemptId : Uuid4)
  | callerFault (code : CallerFaultCode)
  | stepAttemptFailed (attemptId : Uuid4) (outcomeClass : OutcomeClass)

/-! ## The transport -/

/-- The request one attempt sends. The execution and trial identities of the partition are constant
and not repeated here. -/
structure ProviderRefundCall where
  callerId : ProviderCallerId
  attemptId : Uuid4
  providerRequestId : Uuid4
  refundRequestId : String
  paymentId : String
  amountMinor : Nat
  currency : String

inductive ProviderTransportResult where
  | response (statusCode : Nat) (executedVersion functionError : Option String)
      (payload : List UInt8)
  | transportError (errorName message : String) (httpStatus : Option Nat)
  deriving DecidableEq

/-- The next thing that happens while a transport call is raced against a timer. -/
inductive RaceEvent where
  | timerFires
  | settles (result : ProviderTransportResult)

/-- One entry of the transport trace: an invocation with the items stored at that
moment, a settlement, and the arbiter's decision. -/
inductive TraceEntry where
  | invoked (call : ProviderRefundCall) (items : Items)
  | settled (result : ProviderTransportResult)
  | claimed (winner : ArbiterWinner)

/-! ## Calls and replies -/

inductive Call where
  | transact (actions : List (WriteAction ItemOf)) (clientRequestToken : Uuid4)
  | write (action : WriteAction ItemOf)
  | getConsistent (key : ItemKey)
  | queryPartitionPage (cursor : Option (List Nat))
  | nextId
  | monotonicNow
  | wallNow
  | sleep (ms : Nat)
  | invoke (call : ProviderRefundCall)
  | awaitRace
  | claim (winner : ArbiterWinner)
  | halt

/-- One page of the caller journal: the items and the cursor to continue from. -/
structure QueryPage where
  items : List (Sigma ItemOf)
  nextCursor : Option (List Nat)

/-- The reply of each call; a failed read names its code. -/
@[reducible] def Reply : Call → Type
  | .transact _ _ => WriteOutcome ItemOf
  | .write _ => WriteOutcome ItemOf
  | .getConsistent key => Except String (Option (ItemOf key))
  | .queryPartitionPage _ => Except String QueryPage
  | .nextId => Uuid4
  | .monotonicNow => Nat
  | .wallNow => UtcMillis
  | .sleep _ => Unit
  | .invoke _ => Unit
  | .awaitRace => RaceEvent
  | .claim _ => Unit
  | .halt => Empty

/-- What the world leaves open, resolved for one call. -/
inductive Choice where
  | fate (fate : Fate)
  | readOk
  | readFails (code : String)
  | page (size : Nat) (trailingCursor : Bool)
  | id (value : Uuid4)
  | reading (value : Nat)
  | happens (event : RaceEvent)
  | done

/-! ## The world -/

/-- The shared world of the processes `ι`. -/
structure World (ι : Type) where
  items : Items
  /-- the process that drew an id -/
  drawn : Uuid4 → Option ι
  trace : List (ι × TraceEntry)

namespace World

variable {ι : Type}

def withItems (w : World ι) (items : Items) : World ι := { w with items := items }

/-- The world after a process drew an id. -/
def draw (w : World ι) (i : ι) (id : Uuid4) : World ι :=
  { w with drawn := Function.update w.drawn id (some i) }

/-- The world after one entry of transport activity. -/
def traced (w : World ι) (i : ι) (entry : TraceEntry) : World ι :=
  { w with trace := w.trace ++ [(i, entry)] }

@[simp] theorem withItems_items (w : World ι) (items : Items) :
    (w.withItems items).items = items := rfl

@[simp] theorem draw_items (w : World ι) (i : ι) (id : Uuid4) :
    (w.draw i id).items = w.items := rfl

@[simp] theorem draw_drawn_self (w : World ι) (i : ι) (id : Uuid4) :
    (w.draw i id).drawn id = some i := by
  simp [draw]

theorem draw_drawn_of_some {w : World ι} {i j : ι} {id other : Uuid4}
    (hfresh : w.drawn id = none) (hother : w.drawn other = some j) :
    (w.draw i id).drawn other = some j := by
  have hne : other ≠ id := by
    rintro rfl
    rw [hfresh] at hother
    cases hother
  simpa [draw, Function.update_of_ne hne] using hother

end World

/-- The caller-journal entries after a cursor, ascending by sort key. -/
def entriesAfter (items : Items) (cursor : Option (List Nat)) : List (List Nat × Sigma ItemOf) :=
  let keyed := items.entries.filterMap fun item =>
    item.1.callerSortKey.map fun sortKey => (sortKey, item)
  let after := keyed.filter fun entry =>
    match cursor with
    | none => true
    | some position => decide (position < entry.1)
  after.insertionSort fun left right => left.1 ≤ right.1

/-- One page of at least one entry when any is left.  A page that reaches the end
may still carry a cursor. -/
def pageAfter (items : Items) (cursor : Option (List Nat)) (size : Nat)
    (trailingCursor : Bool) : QueryPage :=
  let entries := entriesAfter items cursor
  let page := entries.take (size + 1)
  let more := trailingCursor || decide (size + 1 < entries.length)
  { items := page.map Prod.snd
    nextCursor := if more then page.getLast?.map Prod.fst else none }

variable {ι : Type}

/-- The world answers one call of one process. -/
def exec (i : ι) : (request : Call) → Choice → World ι → Option (Reply request × World ι)
  | .transact actions _, .fate fate, w =>
    let answer := transact w.items actions fate
    some (answer.1, w.withItems answer.2)
  | .write action, .fate fate, w =>
    let answer := transact w.items [action] fate
    some (answer.1, w.withItems answer.2)
  | .getConsistent key, .readOk, w => some (.ok (w.items.lookup key), w)
  | .getConsistent _, .readFails code, w => some (.error code, w)
  | .queryPartitionPage cursor, .page size trailingCursor, w =>
    some (.ok (pageAfter w.items cursor size trailingCursor), w)
  | .queryPartitionPage _, .readFails code, w => some (.error code, w)
  | .nextId, .id value, w =>
    match w.drawn value with
    | none => some (value, w.draw i value)
    | some _ => none
  | .monotonicNow, .reading value, w => some (value, w)
  | .wallNow, .reading value, w => some (value, w)
  | .sleep _, .done, w => some ((), w)
  | .invoke call, .done, w =>
    some ((), w.traced i (.invoked call w.items))
  | .awaitRace, .happens .timerFires, w => some (.timerFires, w)
  | .awaitRace, .happens (.settles result), w =>
    some (.settles result, w.traced i (.settled result))
  | .claim winner, .done, w =>
    some ((), w.traced i (.claimed winner))
  | _, _, _ => none

def machine (ι : Type) : Machine ι Call Reply (World ι) Choice := ⟨exec⟩

/-! ## What each call can answer -/

section Answers

variable {i : ι} {w w' : World ι}

theorem answers_transact {actions : List (WriteAction ItemOf)} {token : Uuid4}
    {outcome : WriteOutcome ItemOf}
    (h : (machine ι).answers i (.transact actions token) w outcome w') :
    ∃ items, Transacted actions w.items outcome items ∧ w' = w.withItems items := by
  obtain ⟨choice, hexec⟩ := h
  cases choice with
  | fate fate =>
    obtain ⟨rfl, rfl⟩ := Prod.mk.inj (Option.some.inj hexec)
    exact ⟨_, transact_transacted rfl, rfl⟩
  | _ => cases hexec

theorem answers_write {action : WriteAction ItemOf} {outcome : WriteOutcome ItemOf}
    (h : (machine ι).answers i (.write action) w outcome w') :
    ∃ items, Transacted [action] w.items outcome items ∧ w' = w.withItems items := by
  obtain ⟨choice, hexec⟩ := h
  cases choice with
  | fate fate =>
    obtain ⟨rfl, rfl⟩ := Prod.mk.inj (Option.some.inj hexec)
    exact ⟨_, transact_transacted rfl, rfl⟩
  | _ => cases hexec

theorem answers_getConsistent {key : ItemKey} {read : Except String (Option (ItemOf key))}
    (h : (machine ι).answers i (.getConsistent key) w read w') :
    w' = w ∧ ∀ item, read = .ok item → item = w.items.lookup key := by
  obtain ⟨choice, hexec⟩ := h
  cases choice with
  | readOk =>
    obtain ⟨rfl, rfl⟩ := Prod.mk.inj (Option.some.inj hexec)
    exact ⟨rfl, fun item hitem => (Except.ok.inj hitem).symm⟩
  | readFails code =>
    obtain ⟨rfl, rfl⟩ := Prod.mk.inj (Option.some.inj hexec)
    exact ⟨rfl, fun item hitem => by cases hitem⟩
  | _ => cases hexec

theorem answers_nextId {id : Uuid4} (h : (machine ι).answers i .nextId w id w') :
    w.drawn id = none ∧ w' = w.draw i id := by
  obtain ⟨choice, hexec⟩ := h
  cases choice with
  | id value =>
    change (match w.drawn value with
      | none => some (value, w.draw i value)
      | some _ => none) = some (id, w') at hexec
    split at hexec
    · rename_i hfree
      obtain ⟨rfl, rfl⟩ := Prod.mk.inj (Option.some.inj hexec)
      exact ⟨hfree, rfl⟩
    · cases hexec
  | _ => cases hexec

theorem answers_monotonicNow {now : Nat}
    (h : (machine ι).answers i .monotonicNow w now w') : w' = w := by
  obtain ⟨choice, hexec⟩ := h
  cases choice with
  | reading value =>
    exact (Prod.mk.inj (Option.some.inj hexec)).2.symm
  | _ => cases hexec

theorem answers_wallNow {now : UtcMillis}
    (h : (machine ι).answers i .wallNow w now w') : w' = w := by
  obtain ⟨choice, hexec⟩ := h
  cases choice with
  | reading value =>
    exact (Prod.mk.inj (Option.some.inj hexec)).2.symm
  | _ => cases hexec

theorem answers_sleep {ms : Nat} {reply : Unit}
    (h : (machine ι).answers i (.sleep ms) w reply w') : w' = w := by
  obtain ⟨choice, hexec⟩ := h
  cases choice with
  | done =>
    exact (Prod.mk.inj (Option.some.inj hexec)).2.symm
  | _ => cases hexec

theorem answers_invoke {call : ProviderRefundCall} {reply : Unit}
    (h : (machine ι).answers i (.invoke call) w reply w') :
    w' = w.traced i (.invoked call w.items) := by
  obtain ⟨choice, hexec⟩ := h
  cases choice with
  | done =>
    exact (Prod.mk.inj (Option.some.inj hexec)).2.symm
  | _ => cases hexec

theorem answers_awaitRace {event : RaceEvent}
    (h : (machine ι).answers i .awaitRace w event w') :
    (event = .timerFires ∧ w' = w) ∨
    ∃ result, event = .settles result ∧ w' = w.traced i (.settled result) := by
  obtain ⟨choice, hexec⟩ := h
  cases choice with
  | happens happening =>
    cases happening with
    | timerFires =>
      obtain ⟨rfl, rfl⟩ := Prod.mk.inj (Option.some.inj hexec)
      exact .inl ⟨rfl, rfl⟩
    | settles result =>
      obtain ⟨rfl, rfl⟩ := Prod.mk.inj (Option.some.inj hexec)
      exact .inr ⟨_, rfl, rfl⟩
  | _ => cases hexec

theorem answers_claim {winner : ArbiterWinner} {reply : Unit}
    (h : (machine ι).answers i (.claim winner) w reply w') :
    w' = w.traced i (.claimed winner) := by
  obtain ⟨choice, hexec⟩ := h
  cases choice with
  | done =>
    exact (Prod.mk.inj (Option.some.inj hexec)).2.symm
  | _ => cases hexec

end Answers

/-! ## Asynchronous functions -/

/-- An asynchronous function of the source: it calls the ports and may throw. -/
abbrev Async (α : Type) : Type := ExceptT Thrown (Program Call Reply) α

/-- `SafeOk` for the process `i`. -/
abbrev SafeAt {ι α : Type} (i : ι) (R : Interference (World ι)) (G : World ι → World ι → Prop)
    (Q : α → World ι → Prop) (p : Async α) (w : World ι) : Prop :=
  SafeOk ((machine ι).answers i) R G Q p w

abbrev await (request : Call) : Async (Reply request) :=
  ExceptT.lift (Program.perform request)

/-- A loop out of fuel makes no further step. -/
def outOfFuel {α : Type} : Async α := do
  let never ← await .halt
  nomatch never

end RefundStudy.Runtime
