/-
  The calls a process may make on request states, and that the recorder makes no others.
-/
import RefundStudy.Caller.RequestState

set_option autoImplicit false

namespace RefundStudy.Caller

open Foundation Record RefundStudy.Runtime Journal Attempt

/-! ## The protocol -/

/-- The request whose state an event records. -/
def requestOf (event : JournalEvent) : Option String :=
  match event.body with
  | .requestStateRecorded state => state.refundRequestId
  | _ => none

/-- What a process last read of a request's state. -/
structure KnownState where
  refundRequestId : String
  current : Option RequestStateSnapshot

def learn (known : Option KnownState) : (call : Call) → Reply call → Option KnownState
  | .getConsistent (.requestState request), .ok current => some ⟨request, current⟩
  | _, _ => known

/-- A journal put of another event, with writes under keys of neither kind. -/
def Unrelated (actions : List (WriteAction ItemOf)) : Prop :=
  ∃ put rest, actions = journalPutAction put :: rest ∧ requestOf put.event = none ∧
    ∀ action ∈ rest, (∀ key, action.key ≠ .journal key) ∧
      ∀ request, action.key ≠ .requestState request

/-- The call neither reads nor writes a request's state. -/
def Silent : Call → Prop
  | .transact actions _ => Unrelated actions
  | .write action => Unrelated [action]
  | .getConsistent _ => False
  | _ => True

theorem learn_silent {known : Option KnownState} {call : Call} (h : Silent call)
    (reply : Reply call) : learn known call reply = known := by
  cases call with
  | getConsistent key => exact h.elim
  | _ => rfl

/-- The next state of a request over a current one that parsed. -/
structure PlannedOver (request : String) (current : Option RequestStateSnapshot)
    (next : PlannedState) : Prop where
  parsed : ∀ state, current = some state → parseRequestStateItem state = some state
  plan : ∃ attempts processing, next = planState current attempts processing (some request)

theorem PlannedOver.requestOf_eq {request : String} {current : Option RequestStateSnapshot}
    {next : PlannedState} {event : JournalEvent} (h : PlannedOver request current next)
    (hbody : event.body = .requestStateRecorded next.body) : requestOf event = some request := by
  obtain ⟨attempts, processing, rfl⟩ := h.plan
  rw [requestOf, hbody]
  rfl

/-- A request's state is written over the state that was read last. -/
inductive Permitted (known : Option KnownState) : Call → Prop where
  | silent {call : Call} (hsilent : Silent call) : Permitted known call
  | read (key : ItemKey) : Permitted known (.getConsistent key)
  | record {request : String} {current : Option RequestStateSnapshot} {next : PlannedState}
      {put : JournalEntry} {token : Uuid4} (hknown : known = some ⟨request, current⟩)
      (hplanned : PlannedOver request current next)
      (hbody : put.event.body = .requestStateRecorded next.body) :
      Permitted known
        (.transact (stateActions (.request request) current next.snapshot put) token)

section Rules

variable {α β : Type} {known : Option KnownState} {Q : α → Option KnownState → Prop}
  {Q₂ : β → Option KnownState → Prop} {p : Async α}

abbrev Conforms (Q : α → Option KnownState → Prop) (p : Async α) (known : Option KnownState) :
    Prop :=
  Follows Permitted learn (OnOk Q) p.run known

/-- The program keeps to the protocol, whatever the process knows. -/
def Proper (p : Async α) : Prop := ∀ known, Conforms (fun _ _ => True) p known

namespace Conforms

theorem pure {value : α} (h : Q value known) : Conforms Q (Pure.pure value : Async α) known := by
  intro value' hvalue
  obtain rfl : value = value' := Except.ok.inj hvalue
  exact h

theorem throw {error : Thrown} : Conforms Q (throwThe Thrown error : Async α) known := by
  intro value hvalue
  cases hvalue

theorem bind {rest : α → Async β} (hfirst : Conforms Q p known)
    (hrest : ∀ value known, Q value known → Conforms Q₂ (rest value) known) :
    Conforms Q₂ (p >>= rest) known := by
  refine Follows.bind hfirst ?_
  intro result known₁ hresult
  cases result with
  | ok value => exact hrest value known₁ (hresult value rfl)
  | error e => exact throw

theorem call {request : Call} {rest : Reply request → Async α} (h : Permitted known request)
    (hrest : ∀ reply, Conforms Q (rest reply) (learn known request reply)) :
    Conforms Q (await request >>= rest) known := ⟨h, hrest⟩

theorem sync {result : Except Thrown α} {rest : α → Async β}
    (h : ∀ value, result = .ok value → Conforms Q₂ (rest value) known) :
    Conforms Q₂ (Journal.sync result >>= rest) known := by
  cases result with
  | ok value => exact h value rfl
  | error thrown => exact throw

end Conforms

theorem Proper.pure {value : α} : Proper (Pure.pure value : Async α) := fun _ => .pure trivial

theorem Proper.bind {rest : α → Async β} (hfirst : Proper p)
    (hrest : ∀ value, Proper (rest value)) : Proper (p >>= rest) := fun known =>
  .bind (hfirst known) fun value known _ => hrest value known

end Rules

/-! ## The recorder -/

section Recorder

variable {recorder : RequestStateRecorder} {writer : JournalWriter} {request : String}
  {body : EventBody} {causation : List Uuid4} {known : Option KnownState}

theorem prepare_conforms : Conforms (fun result after => after = known ∧
    ∀ put, result.1 = .prepared put → put.event.body = body) (writer.prepare body causation)
      known := by
  unfold JournalWriter.prepare
  cases writer.stopReason with
  | some reason => exact .pure ⟨rfl, fun put hput => by cases hput⟩
  | none =>
    cases writer.reservation with
    | some put => exact .throw
    | none =>
      refine .call (.silent trivial) fun eventId => .call (.silent trivial) fun now => ?_
      split
      · refine .pure ⟨rfl, fun put hput => ?_⟩
        obtain rfl := PrepareResult.prepared.inj hput
        rfl
      · exact .throw

theorem prepareRetry_put {put put' : JournalEntry} {writer' : JournalWriter}
    (h : writer.prepareRetry put = .ok (.prepared put', writer')) : put' = put := by
  unfold JournalWriter.prepareRetry at h
  split at h
  · cases h
  · split_ifs at h
    exact (PrepareResult.prepared.inj (congrArg Prod.fst (Except.ok.inj h))).symm

theorem parseRequestStateItem_eq {item state : RequestStateSnapshot}
    (h : parseRequestStateItem item = some state) : state = item ∧ item.attemptIds.Nodup := by
  unfold parseRequestStateItem at h
  split_ifs at h with hvalid
  exact ⟨(Option.some.inj h).symm, hvalid.2⟩

theorem read_conforms : Conforms (fun result after => ∀ current, result = some current →
    after = some ⟨request, current⟩ ∧
      ∀ state, current = some state → parseRequestStateItem state = some state)
      (RequestStateRecorder.read (.request request)) known := by
  refine .call (.read _) fun found => ?_
  cases found with
  | error code => exact .pure fun current h => by cases h
  | ok item =>
    cases item with
    | none =>
      refine .pure fun current h => ?_
      obtain rfl := Option.some.inj h
      exact ⟨rfl, fun _ hnone => by cases hnone⟩
    | some item =>
      refine .pure fun current h => ?_
      obtain ⟨state, hstate, rfl⟩ := Option.map_eq_some_iff.mp h
      obtain ⟨rfl, -⟩ := parseRequestStateItem_eq hstate
      refine ⟨rfl, fun other hother => ?_⟩
      obtain rfl := Option.some.inj hother
      exact hstate

theorem partitionItems_conforms (fuel : Nat) (cursor : Option (List Nat)) :
    Conforms (fun _ after => after = known) (RequestStateRecorder.partitionItems fuel cursor)
      known := by
  induction fuel generalizing cursor with
  | zero => exact .call (.silent trivial) fun never => never.elim
  | succ fuel ih =>
    refine .call (.silent trivial) fun page => ?_
    cases page with
    | error code => exact .pure rfl
    | ok page =>
      dsimp only
      split
      · exact .pure rfl
      · exact .bind (ih _) fun _ _ hknown => .pure hknown

/-- A refused transaction is tried again as it is. -/
theorem recordTries_conforms {key : StateKey} {current : Option RequestStateSnapshot}
    {next : RequestStateSnapshot} {put : JournalEntry} (retries : Nat)
    (h : Permitted known (.transact (stateActions key current next put) put.event.eventId)) :
    Conforms (fun _ _ => True) (recordTries key current next put retries writer) known := by
  induction retries generalizing writer with
  | zero => exact .call h fun _ => .sync fun _ _ => .pure trivial
  | succ retries ih =>
    refine .call h fun outcome => .sync fun confirmed _ => ?_
    dsimp only
    split
    · refine .sync fun prepared hretry => ?_
      obtain ⟨prepared, writer₁⟩ := prepared
      cases prepared with
      | prepared put' =>
        obtain rfl := prepareRetry_put hretry
        exact ih
      | stopped reason => exact .pure trivial
    · exact .pure trivial

theorem record_conforms {key : StateKey} {current : Option RequestStateSnapshot}
    {planned : PlannedState} (h : ∀ put : JournalEntry,
      put.event.body = .requestStateRecorded planned.body → Permitted known
        (.transact (stateActions key current planned.snapshot put) put.event.eventId)) :
    Conforms (fun _ _ => True) (recorder.record writer key current planned causation) known := by
  refine .bind prepare_conforms ?_
  rintro ⟨prepared, writer₁⟩ _ ⟨rfl, hprepared⟩
  cases prepared with
  | prepared put => exact recordTries_conforms _ (h put (hprepared put rfl))
  | stopped reason => exact .pure trivial

theorem recordAttemptResult_proper {attempt : AccountedAttempt} {processing : ProcessingUpdate} :
    Proper (recorder.recordAttemptResult writer request attempt processing causation) := by
  intro known
  refine .bind read_conforms fun result known₁ hread => ?_
  cases result with
  | none => exact .pure trivial
  | some current =>
    obtain ⟨rfl, hparsed⟩ := hread current rfl
    exact record_conforms fun _ hbody => .record rfl ⟨hparsed, _, _, rfl⟩ hbody

theorem reconcileOrphans_proper :
    Proper (recorder.reconcileOrphans writer request causation) := by
  intro known
  refine .bind read_conforms fun result known₁ hread => ?_
  cases result with
  | none => exact .pure trivial
  | some current =>
    obtain ⟨rfl, hparsed⟩ := hread current rfl
    refine .bind (partitionItems_conforms _ _) ?_
    rintro items _ rfl
    cases items with
    | none => exact .pure trivial
    | some items =>
      dsimp only
      split
      · exact .pure trivial
      · exact record_conforms fun _ hbody => .record rfl ⟨hparsed, _, _, rfl⟩ hbody

theorem recordMessageRejected_proper {named : Option String} {messageId : String} :
    Proper (recorder.recordMessageRejected writer named messageId causation) := by
  intro known
  cases named with
  | some request =>
    refine .bind read_conforms fun result known₁ hread => ?_
    cases result with
    | none => exact .pure trivial
    | some current =>
      obtain ⟨rfl, hparsed⟩ := hread current rfl
      exact record_conforms fun _ hbody => .record rfl ⟨hparsed, _, _, rfl⟩ hbody
  | none =>
    -- the state of a message that names no request is no request's state
    have hread : Conforms (fun _ _ => True)
        (RequestStateRecorder.read (.rejectedMessage messageId)) known := by
      refine .call (.read _) fun found => ?_
      cases found with
      | error code => exact .pure trivial
      | ok item => cases item <;> exact .pure trivial
    refine .bind hread fun result known₁ _ => ?_
    cases result with
    | none => exact .pure trivial
    | some current =>
      refine record_conforms fun put hbody => .silent ⟨put, [_], rfl, ?_, fun action haction => ?_⟩
      · rw [requestOf, hbody]
        rfl
      · obtain rfl := List.mem_singleton.mp haction
        simp [StateKey.put]

/-- One call of the recorder. -/
inductive Recording where
  | attemptResult (request : String) (attempt : AccountedAttempt) (processing : ProcessingUpdate)
      (causation : List Uuid4)
  | orphans (request : String) (causation : List Uuid4)
  | messageRejected (request : Option String) (messageId : String) (causation : List Uuid4)

def Recording.run (recorder : RequestStateRecorder) (writer : JournalWriter) :
    Recording → Async (RequestStateRecordResult × JournalWriter)
  | .attemptResult request attempt processing causation =>
    recorder.recordAttemptResult writer request attempt processing causation
  | .orphans request causation => recorder.reconcileOrphans writer request causation
  | .messageRejected request messageId causation =>
    recorder.recordMessageRejected writer request messageId causation

def recordAll (recorder : RequestStateRecorder) : List Recording → JournalWriter → Async Unit
  | [], _ => pure ()
  | recording :: rest, writer => do
    let (_, writer) ← recording.run recorder writer
    recordAll recorder rest writer

theorem recordAll_proper (recordings : List Recording) :
    Proper (recordAll recorder recordings writer) := by
  induction recordings generalizing writer with
  | nil => exact .pure
  | cons recording rest ih =>
    refine .bind ?_ fun _ => ih
    cases recording with
    | attemptResult => exact recordAttemptResult_proper
    | orphans => exact reconcileOrphans_proper
    | messageRejected => exact recordMessageRejected_proper

end Recorder

end RefundStudy.Caller
