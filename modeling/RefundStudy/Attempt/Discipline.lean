/-
  What one attempt may do to the world, what others may do meanwhile, and what the attempt
  knows of its own state.
-/
import RefundStudy.Attempt.Transition

set_option autoImplicit false

namespace RefundStudy.Attempt

open Foundation Record RefundStudy.Runtime Journal

variable {entry : JournalEntry} {event : JournalEvent} {items : Items} {attemptId : Uuid4}
  {key : JournalKey}

variable {ι : Type}

/-! ## Attempts in the store -/

def attemptOf : EventBody → Option Uuid4
  | .attemptRegistered correlation .. => some correlation.attemptId
  | .attemptNotDispatched correlation _ => some correlation.attemptId
  | .dispatchStarted correlation .. => some correlation.attemptId
  | .callerTimeoutRecorded correlation _ => some correlation.attemptId
  | .transportSettledAfterTimeout correlation .. => some correlation.attemptId
  | .attemptOutcomeRecorded correlation _ => some correlation.attemptId
  | _ => none

def TransitionBody (correlation : AttemptCorrelation) : AttemptPhase → EventBody → Prop
  | .dispatched, .dispatchStarted other _ _ _ => other = correlation
  | .notDispatched, .attemptNotDispatched other _ => other = correlation
  | _, _ => False

/-- The phase that fits a resolution's dispatch state. -/
def phaseFor : DispatchState → AttemptPhase
  | .notDispatched => .notDispatched
  | .dispatched => .dispatched
  | .unknown => .preDispatch

/-- The attempt has no outcome yet and no request state accounts for it. -/
structure Pending (attemptId : Uuid4) (w : World ι) : Prop where
  unresolved : ∀ key event correlation resolution, StoredAt w.items key event →
    event.body = .attemptOutcomeRecorded correlation resolution →
    correlation.attemptId ≠ attemptId
  unaccounted : ∀ request state, w.items.lookup (.requestState request) = some state →
    attemptId ∉ state.attemptIds

/-- Every attempt that an event or a request state names has an id somebody drew. -/
structure AttemptsDrawn (w : World ι) : Prop where
  events : ∀ key event attemptId, StoredAt w.items key event →
    attemptOf event.body = some attemptId → ∃ process, w.drawn attemptId = some process
  accounted : ∀ request state attemptId, w.items.lookup (.requestState request) = some state →
    attemptId ∈ state.attemptIds → ∃ process, w.drawn attemptId = some process

theorem AttemptsDrawn.pending {w : World ι} (h : AttemptsDrawn w) {i : ι}
    (hfresh : w.drawn attemptId = none) : Pending attemptId (w.draw i attemptId) where
  unresolved := fun key event correlation resolution hstored hbody => by
    rintro rfl
    obtain ⟨process, hprocess⟩ := h.events key event correlation.attemptId hstored
      (by rw [hbody, attemptOf])
    rw [hfresh] at hprocess
    cases hprocess
  unaccounted := fun request state hstate hmem => by
    obtain ⟨process, hprocess⟩ := h.accounted request state attemptId hstate hmem
    rw [hfresh] at hprocess
    cases hprocess

/-! ## Interference -/

/-- A step leaves the attempt's item, its events and its accounting alone. -/
structure AttemptKept (attemptId : Uuid4) (w w' : World ι) : Prop where
  item : w'.items.lookup (.attemptState attemptId) = w.items.lookup (.attemptState attemptId)
  events : ∀ key event, attemptOf event.body = some attemptId →
    StoredAt w'.items key event → StoredAt w.items key event
  accounted : ∀ request state, w'.items.lookup (.requestState request) = some state →
    attemptId ∈ state.attemptIds → ∃ before, w.items.lookup (.requestState request) = some before ∧
      attemptId ∈ before.attemptIds

theorem AttemptKept.pending {w w' : World ι} (h : AttemptKept attemptId w w')
    (hpending : Pending attemptId w) : Pending attemptId w' where
  unresolved := fun key event correlation resolution hstored hbody => by
    rintro rfl
    have hold := h.events key event (by rw [hbody, attemptOf]) hstored
    exact hpending.unresolved key event correlation resolution hold hbody rfl
  unaccounted := fun request state hstate hmem => by
    obtain ⟨before, hbefore, hmember⟩ := h.accounted request state hstate hmem
    exact hpending.unaccounted request before hbefore hmember

section Moves

variable [DecidableEq ι]

def activity (i : ι) (w : World ι) : List TraceEntry :=
  (w.trace.filter fun entry => decide (entry.1 = i)).map Prod.snd

@[simp] theorem activity_draw (i j : ι) (w : World ι) (id : Uuid4) :
    activity i (w.draw j id) = activity i w := rfl

@[simp] theorem activity_traced (i : ι) (w : World ι) (entry : TraceEntry) :
    activity i (w.traced i entry) = activity i w ++ [entry] := by
  simp [activity, World.traced]

/-- What others may do while an attempt of `i` runs. -/
structure AttemptEnv (i : ι) (exclusive : Prop) (w w' : World ι) : Prop where
  foreign : Foreign i w w'
  settled : ∀ attemptId item, w.items.lookup (.attemptState attemptId) = some item →
    item.phase ≠ .preDispatch → w'.items.lookup (.attemptState attemptId) = some item
  silent : activity i w' = activity i w
  own : exclusive → ∀ attemptId, w.drawn attemptId = some i → AttemptKept attemptId w w'

/-- The interference an attempt of `i` is written for. -/
def attemptEnv (i : ι) (exclusive : Prop) : Interference (World ι) where
  rel := AttemptEnv i exclusive
  refl := fun w => ⟨(foreign i).refl w, fun _ _ h _ => h, rfl, fun _ _ _ =>
    ⟨rfl, fun _ _ _ h => h, fun _ state hstate hmem => ⟨state, hstate, hmem⟩⟩⟩
  trans := fun {w₁ w₂ w₃} h₁ h₂ => by
    refine ⟨(foreign i).trans h₁.foreign h₂.foreign, ?_, h₂.silent.trans h₁.silent, ?_⟩
    · intro attemptId item hitem hphase
      exact h₂.settled attemptId item (h₁.settled attemptId item hitem hphase) hphase
    · intro hexclusive attemptId hdrawn
      have hkept₁ := h₁.own hexclusive attemptId hdrawn
      have hkept₂ := h₂.own hexclusive attemptId (h₁.foreign.drawn _ _ hdrawn)
      refine ⟨hkept₂.item.trans hkept₁.item, ?_, ?_⟩
      · intro key event habout hstored
        exact hkept₁.events key event habout (hkept₂.events key event habout hstored)
      · intro request state hstate hmem
        obtain ⟨middle, hmiddle, hmember⟩ := hkept₂.accounted request state hstate hmem
        exact hkept₁.accounted request middle hmiddle hmember

/-! ## Moves -/

/-- The entry is a caller event of `i`, about to be put under an absent key. -/
structure CallerPut (i : ι) (entry : JournalEntry) (w : World ι) : Prop where
  table : entry.key.table = .callerJournal
  source : entry.event.source ∈ callerEventSources
  absent : w.items.lookup (.journal entry.key) = none
  drawn : w.drawn entry.event.eventId = some i

/-- The items hold phase `DISPATCHED` and the `dispatch_started` event of this call. -/
def DurablyDispatched (items : Items) (call : ProviderRefundCall) : Prop :=
  (∃ item, items.lookup (.attemptState call.attemptId) = some item ∧ item.phase = .dispatched) ∧
  ∃ key event, StoredAt items key event ∧
    TransitionBody ⟨call.attemptId, call.providerRequestId, call.refundRequestId⟩ .dispatched
      event.body

/-- The body records what an attempt observed after its timeout. -/
def ObservationOf (attemptId : Uuid4) : EventBody → Prop
  | .callerTimeoutRecorded correlation _ => correlation.attemptId = attemptId
  | .transportSettledAfterTimeout correlation .. => correlation.attemptId = attemptId
  | _ => False

/-- One step of an attempt of `i`, whose transport activity was `base` before it; the attempt
is registered only when `guard` allows it. -/
inductive AttemptMove (i : ι) (exclusive : Prop) (guard : AttemptCorrelation → World ι → Prop)
    (base : List TraceEntry) : World ι → World ι → Prop where
  | same (w : World ι) : AttemptMove i exclusive guard base w w
  | drew {w : World ι} {id : Uuid4} (hfresh : w.drawn id = none) :
      AttemptMove i exclusive guard base w (w.draw i id)
  | invoked {w : World ι} {call : ProviderRefundCall} (hfirst : activity i w = base)
      (hdispatched : DurablyDispatched w.items call) :
      AttemptMove i exclusive guard base w (w.traced i (.invoked call w.items))
  | settled {w : World ι} (result : ProviderTransportResult) :
      AttemptMove i exclusive guard base w (w.traced i (.settled result))
  | claimed {w : World ι} (winner : ArbiterWinner) :
      AttemptMove i exclusive guard base w (w.traced i (.claimed winner))
  | observed {w : World ι} {entry : JournalEntry} {attemptId : Uuid4} (hput : CallerPut i entry w)
      (hbody : ObservationOf attemptId entry.event.body) (hown : w.drawn attemptId = some i)
      (hpending : exclusive → Pending attemptId w)
      (hitem : exclusive → ∃ item, w.items.lookup (.attemptState attemptId) = some item) :
      AttemptMove i exclusive guard base w
        (w.withItems (w.items.insert (.journal entry.key) entry.event))
  | resolved {w : World ι} {entry : JournalEntry} {correlation : AttemptCorrelation}
      {resolution : AttemptResolution} (hput : CallerPut i entry w)
      (hbody : entry.event.body = .attemptOutcomeRecorded correlation resolution)
      (hown : w.drawn correlation.attemptId = some i)
      (hpending : exclusive → Pending correlation.attemptId w)
      (hitem : exclusive → ∃ item, w.items.lookup (.attemptState correlation.attemptId) =
        some item ∧ item.phase = phaseFor resolution.dispatchState) :
      AttemptMove i exclusive guard base w
        (w.withItems (w.items.insert (.journal entry.key) entry.event))
  | registered {w : World ι} {entry : JournalEntry} {correlation : AttemptCorrelation}
      {paymentId : String} {amountMinor : Nat} {currency providerQualifier : String}
      (hput : CallerPut i entry w)
      (hbody : entry.event.body =
        .attemptRegistered correlation paymentId amountMinor currency providerQualifier)
      (hown : w.drawn correlation.attemptId = some i)
      (hpending : exclusive → Pending correlation.attemptId w)
      (habsent : w.items.lookup (.attemptState correlation.attemptId) = none)
      (hguard : guard correlation w) :
      AttemptMove i exclusive guard base w
        (w.withItems ((w.items.insert (.journal entry.key) entry.event).insert
          (.attemptState correlation.attemptId)
          ⟨correlation.attemptId, correlation.providerRequestId, correlation.refundRequestId,
            .preDispatch⟩))
  | transitioned {w : World ι} {entry : JournalEntry} {correlation : AttemptCorrelation}
      {target : AttemptPhase} {item : AttemptStateItem} (hput : CallerPut i entry w)
      (hbody : TransitionBody correlation target entry.event.body)
      (hown : w.drawn correlation.attemptId = some i)
      (hpending : exclusive → Pending correlation.attemptId w)
      (hitem : w.items.lookup (.attemptState correlation.attemptId) = some item)
      (hphase : item.phase = .preDispatch) :
      AttemptMove i exclusive guard base w
        (w.withItems ((w.items.insert (.journal entry.key) entry.event).insert
          (.attemptState correlation.attemptId) { item with phase := target }))

end Moves

/-! ## What an attempt knows -/

/-- The attempt's id is this process's, and nothing was concluded about it yet. -/
structure Begun (i : ι) (exclusive : Prop) (correlation : AttemptCorrelation) (w : World ι) :
    Prop where
  identified : Identified w
  drawn : w.drawn correlation.attemptId = some i
  pending : exclusive → Pending correlation.attemptId w

/-- The attempt of `correlation` is in this phase, as far as others allow to know. -/
structure Held (i : ι) (exclusive : Prop) (correlation : AttemptCorrelation)
    (phase : AttemptPhase) (w : World ι) : Prop extends Begun i exclusive correlation w where
  item : phase ≠ .preDispatch ∨ exclusive →
    ∃ item, w.items.lookup (.attemptState correlation.attemptId) = some item ∧
      item.phase = phase ∧ (exclusive → item.refundRequestId = correlation.refundRequestId)
  evidence : phase ≠ .preDispatch → ∃ key event, StoredAt w.items key event ∧
    TransitionBody correlation phase event.body

variable {i : ι} {exclusive : Prop} {correlation : AttemptCorrelation} {phase : AttemptPhase}
  {w w' : World ι}

theorem Begun.env [DecidableEq ι] (h : Begun i exclusive correlation w)
    (henv : AttemptEnv i exclusive w w') : Begun i exclusive correlation w' where
  identified := h.identified.foreign henv.foreign
  drawn := henv.foreign.drawn _ _ h.drawn
  pending := fun hexclusive => (henv.own hexclusive _ h.drawn).pending (h.pending hexclusive)

theorem Held.env [DecidableEq ι] (h : Held i exclusive correlation phase w)
    (henv : AttemptEnv i exclusive w w') : Held i exclusive correlation phase w' where
  toBegun := h.toBegun.env henv
  item := fun hknown => by
    obtain ⟨item, hitem, hphase, hrequest⟩ := h.item hknown
    refine ⟨item, ?_, hphase, hrequest⟩
    rcases hknown with hmoved | hexclusive
    · exact henv.settled _ item hitem (by rw [hphase]; exact hmoved)
    · rw [(henv.own hexclusive _ h.drawn).item]
      exact hitem
  evidence := fun hmoved => by
    obtain ⟨key, event, hstored, hbody⟩ := h.evidence hmoved
    exact ⟨key, event, henv.foreign.kept key event hstored, hbody⟩

theorem Begun.draw (h : Begun i exclusive correlation w) {id : Uuid4}
    (hfresh : w.drawn id = none) : Begun i exclusive correlation (w.draw i id) where
  identified := h.identified.draw hfresh
  drawn := World.draw_drawn_of_some hfresh h.drawn
  pending := fun hexclusive =>
    ⟨(h.pending hexclusive).unresolved, (h.pending hexclusive).unaccounted⟩

theorem Held.draw (h : Held i exclusive correlation phase w) {id : Uuid4}
    (hfresh : w.drawn id = none) : Held i exclusive correlation phase (w.draw i id) :=
  ⟨h.toBegun.draw hfresh, h.item, h.evidence⟩

theorem Held.traced (h : Held i exclusive correlation phase w) (entry : TraceEntry) :
    Held i exclusive correlation phase (w.traced i entry) :=
  ⟨⟨h.identified, h.drawn, fun hexclusive =>
    ⟨(h.pending hexclusive).unresolved, (h.pending hexclusive).unaccounted⟩⟩, h.item, h.evidence⟩

/-- Putting one's own event that is no outcome, and writing one's own attempt-state item
beside it or not, keeps a begun attempt. -/
theorem Begun.put (h : Begun i exclusive correlation w)
    (hdrawn : w.drawn entry.event.eventId = some i)
    (hother : ∀ correlation resolution,
      entry.event.body ≠ .attemptOutcomeRecorded correlation resolution)
    (hevents : ∀ key event, StoredAt items key event →
      event = entry.event ∨ StoredAt w.items key event)
    (hstates : ∀ request, items.lookup (.requestState request) =
      w.items.lookup (.requestState request)) :
    Begun i exclusive correlation (w.withItems items) := by
  refine ⟨?_, h.drawn, fun hexclusive => ⟨?_, ?_⟩⟩
  · intro key event hstored
    rcases hevents key event hstored with rfl | hold
    · exact ⟨i, hdrawn⟩
    · exact h.identified key event hold
  · intro key event correlation' resolution hstored hbody
    rcases hevents key event hstored with rfl | hold
    · exact absurd hbody (hother _ _)
    · exact (h.pending hexclusive).unresolved key event correlation' resolution hold hbody
  · intro request state hstate
    rw [World.withItems_items, hstates] at hstate
    exact (h.pending hexclusive).unaccounted request state hstate

theorem storedAt_insert_absent
    (habsent : items.lookup (.journal entry.key) = none)
    (hstored : StoredAt items key event) :
    StoredAt (items.insert (.journal entry.key) entry.event) key event := by
  have hne : key ≠ entry.key := by
    rintro rfl
    rw [StoredAt, habsent] at hstored
    cases hstored
  unfold StoredAt
  rw [AList.lookup_insert_ne (by simpa using hne)]
  exact hstored

theorem storedAt_insert_cases
    (hstored : StoredAt (items.insert (.journal entry.key) entry.event) key event) :
    event = entry.event ∨ StoredAt items key event := by
  rcases storedAt_apply_put hstored with ⟨-, hevent⟩ | ⟨-, hold⟩
  · exact .inl hevent
  · exact .inr hold

/-- Putting one's own event that is no outcome keeps what the attempt knows. -/
theorem Held.put (h : Held i exclusive correlation phase w)
    (habsent : w.items.lookup (.journal entry.key) = none)
    (hdrawn : w.drawn entry.event.eventId = some i)
    (hother : ∀ correlation resolution,
      entry.event.body ≠ .attemptOutcomeRecorded correlation resolution) :
    Held i exclusive correlation phase
      (w.withItems (w.items.insert (.journal entry.key) entry.event)) := by
  refine ⟨h.toBegun.put hdrawn hother (fun key event => storedAt_insert_cases)
    (fun request => AList.lookup_insert_ne (by simp)), ?_, ?_⟩
  · intro hknown
    rw [World.withItems_items, AList.lookup_insert_ne (by simp)]
    exact h.item hknown
  · intro hmoved
    obtain ⟨key, event, hstored, hbody⟩ := h.evidence hmoved
    exact ⟨key, event, storedAt_insert_absent habsent hstored, hbody⟩

theorem storedAt_insert_state {item : AttemptStateItem}
    :
    StoredAt (items.insert (.attemptState attemptId) item) key event ↔
      StoredAt items key event := by
  unfold StoredAt
  rw [AList.lookup_insert_ne (by simp)]

/-- After a transaction of the attempt: its event is put and its item has a new phase. -/
theorem Begun.write (h : Begun i exclusive correlation w) {entry : JournalEntry}
    {item : AttemptStateItem} (hdrawn : w.drawn entry.event.eventId = some i)
    (hother : ∀ correlation resolution,
      entry.event.body ≠ .attemptOutcomeRecorded correlation resolution)
    (hevidence : item.phase ≠ .preDispatch →
      TransitionBody correlation item.phase entry.event.body)
    (hrequest : exclusive → item.refundRequestId = correlation.refundRequestId) :
    Held i exclusive correlation item.phase
      (w.withItems ((w.items.insert (.journal entry.key) entry.event).insert
        (.attemptState correlation.attemptId) item)) := by
  refine ⟨h.put hdrawn hother ?_ ?_, ?_, ?_⟩
  · intro key event hstored
    exact storedAt_insert_cases (storedAt_insert_state.mp hstored)
  · intro request
    rw [AList.lookup_insert_ne (by simp), AList.lookup_insert_ne (by simp)]
  · intro _
    exact ⟨item, AList.lookup_insert _, rfl, hrequest⟩
  · intro hmoved
    refine ⟨entry.key, entry.event, ?_, hevidence hmoved⟩
    refine storedAt_insert_state.mpr ?_
    exact AList.lookup_insert _

end RefundStudy.Attempt
