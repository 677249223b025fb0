/-
  Who may write which journal key, and what one writer operation does to the world.

  A source instance id is drawn by one process, and that process alone writes the keys of the
  instance. `Respects i` says this of a step of anybody else.
-/
import RefundStudy.Journal.Writer

set_option autoImplicit false

namespace RefundStudy.Journal

open Foundation Record RefundStudy.Runtime

variable {writer : JournalWriter} {outcome : WriteOutcome ItemOf}

variable {ι : Type}

/-! ## Respect and ownership -/

/-- A step keeps every drawn id and every journal key of the instances of `i`. -/
structure Respects (i : ι) (w w' : World ι) : Prop where
  drawn : ∀ id process, w.drawn id = some process → w'.drawn id = some process
  keys : ∀ key : JournalKey, w.drawn key.instanceId = some i →
    w'.items.lookup (.journal key) = w.items.lookup (.journal key)

namespace Respects

variable {i : ι} {w w₁ w₂ : World ι}

protected theorem refl (w : World ι) : Respects i w w := ⟨fun _ _ h => h, fun _ _ => rfl⟩

protected theorem trans (h₁ : Respects i w w₁) (h₂ : Respects i w₁ w₂) :
    Respects i w w₂ where
  drawn := fun id process h => h₂.drawn id process (h₁.drawn id process h)
  keys := fun key h => (h₂.keys key (h₁.drawn _ _ h)).trans (h₁.keys key h)

theorem draw {j : ι} {id : Uuid4} (hfresh : w.drawn id = none) :
    Respects i w (w.draw j id) where
  drawn := fun _ _ h => World.draw_drawn_of_some hfresh h
  keys := fun _ _ => rfl

theorem storedAt {key : JournalKey} {event : JournalEvent} (h : Respects i w w₁)
    (hinstance : w.drawn key.instanceId = some i) (hstored : StoredAt w.items key event) :
    StoredAt w₁.items key event := by
  unfold StoredAt at hstored ⊢
  rw [h.keys key hinstance]
  exact hstored

end Respects

/-- An interference that respects the instances of `i`. -/
def RespectedBy (i : ι) (R : Interference (World ι)) : Prop :=
  ∀ w w', R.rel w w' → Respects i w w'

/-- The instance is the process's own, and while it has not stopped every key
from the next sequence on is absent. -/
structure Owns (i : ι) (writer : JournalWriter) (w : World ι) : Prop where
  drawn : w.drawn writer.instanceId = some i
  absent : writer.stopReason = none → ∀ sequence, writer.nextSequence ≤ sequence →
    w.items.lookup (.journal (writer.keyAt sequence)) = none

theorem Owns.respects {i : ι} {w w' : World ι}
    (howns : Owns i writer w) (h : Respects i w w') : Owns i writer w' where
  drawn := h.drawn _ _ howns.drawn
  absent := fun hlive sequence hle => by
    rw [h.keys (writer.keyAt sequence) howns.drawn]
    exact howns.absent hlive sequence hle

theorem Owns.withReservation {i : ι} {w : World ι}
    (howns : Owns i writer w) (reservation retryable : Option JournalEntry) :
    Owns i { writer with reservation := reservation, retryable := retryable } w :=
  ⟨howns.drawn, howns.absent⟩

theorem Owns.stopped {i : ι} {w : World ι} {reason : JournalStopReason}
    (hdrawn : w.drawn writer.instanceId = some i) (hstop : writer.stopReason = some reason) :
    Owns i writer w :=
  ⟨hdrawn, fun hlive => by rw [hstop] at hlive; cases hlive⟩

/-- Two writer values of one source instance. -/
structure SameInstance (writer writer' : JournalWriter) : Prop where
  table : writer'.table = writer.table
  source : writer'.source = writer.source
  instanceId : writer'.instanceId = writer.instanceId

@[refl] protected theorem SameInstance.refl (writer : JournalWriter) :
    SameInstance writer writer := ⟨rfl, rfl, rfl⟩

protected theorem SameInstance.trans {a b c : JournalWriter} (h₁ : SameInstance a b)
    (h₂ : SameInstance b c) : SameInstance a c :=
  ⟨h₂.table.trans h₁.table, h₂.source.trans h₁.source, h₂.instanceId.trans h₁.instanceId⟩

theorem SameInstance.keyAt {writer writer' : JournalWriter} (h : SameInstance writer writer')
    (sequence : Nat) : writer'.keyAt sequence = writer.keyAt sequence := by
  simp [JournalWriter.keyAt, h.table, h.source, h.instanceId]

/-! ## Built entries -/

/-- The entry the writer builds for its next sequence, with an id of process `i`. -/
structure Built (i : ι) (writer : JournalWriter) (body : EventBody) (causation : List Uuid4)
    (entry : JournalEntry) (w : World ι) : Prop where
  key : entry.key = writer.keyAt writer.nextSequence
  event : ∃ eventId occurredAt, entry.event = writer.eventWith body causation eventId occurredAt
  drawn : w.drawn entry.event.eventId = some i

namespace Built

variable {i : ι} {writer : JournalWriter} {body : EventBody} {causation : List Uuid4}
  {entry : JournalEntry} {w w' : World ι}

theorem respects (h : Built i writer body causation entry w) (hr : Respects i w w') :
    Built i writer body causation entry w' :=
  ⟨h.key, h.event, hr.drawn _ _ h.drawn⟩

theorem body_eq (h : Built i writer body causation entry w) : entry.event.body = body := by
  obtain ⟨eventId, occurredAt, hevent⟩ := h.event
  rw [hevent]
  rfl

theorem causation_eq (h : Built i writer body causation entry w) :
    entry.event.causationEventIds = causationIds causation := by
  obtain ⟨eventId, occurredAt, hevent⟩ := h.event
  rw [hevent]
  rfl

theorem instanceId_eq (h : Built i writer body causation entry w) :
    entry.key.instanceId = writer.instanceId := by
  rw [h.key]
  rfl

theorem absent (h : Built i writer body causation entry w) (howns : Owns i writer w)
    (hlive : writer.stopReason = none) : w.items.lookup (.journal entry.key) = none := by
  rw [h.key]
  exact howns.absent hlive _ (Nat.le_refl _)

end Built

/-- Putting the built entry moves the writer's ownership to the next sequence. -/
theorem Owns.put {i : ι} {body : EventBody} {causation : List Uuid4}
    {entry : JournalEntry} {w : World ι} {items : Items}
    (howns : Owns i writer w) (hlive : writer.stopReason = none)
    (hbuilt : Built i writer body causation entry w)
    (hsame : ∀ key : JournalKey, key ≠ entry.key →
      items.lookup (.journal key) = w.items.lookup (.journal key)) :
    Owns i { writer with nextSequence := writer.nextSequence + 1 } (w.withItems items) where
  drawn := howns.drawn
  absent := fun _ sequence hle => by
    have hne : writer.keyAt sequence ≠ entry.key := by
      rw [hbuilt.key]
      intro heq
      have hseq : sequence = writer.nextSequence := congrArg JournalKey.sequence heq
      simp only at hle
      omega
    change items.lookup (.journal (writer.keyAt sequence)) = none
    rw [hsame _ hne]
    exact howns.absent hlive sequence (Nat.le_of_succ_le hle)

/-! ## One operation of the writer -/

section Operations

variable {i : ι} {R : Interference (World ι)} {G : World ι → World ι → Prop}
  {P : World ι → Prop} {writer : JournalWriter} {body : EventBody} {causation : List Uuid4}
  {entry : JournalEntry} {w : World ι}

theorem sync_spec {α β : Type} {Q : β → World ι → Prop} {result : Except Thrown α}
    {rest : α → Async β}
    (h : ∀ value, result = .ok value → SafeAt i R G Q (rest value) w) :
    SafeAt i R G Q (sync result >>= rest) w := by
  cases result with
  | ok value => exact h value rfl
  | error thrown => exact SafeOk.throw

/-- Drawing the envelope of the next entry changes nothing but the drawn ids. -/
theorem nextEntry_rule {Q : JournalEntry × JournalWriter → World ι → Prop} (hsame : ∀ w, G w w)
    (hdraw : ∀ w id, w.drawn id = none → G w (w.draw i id))
    (h : ∀ w₁ w' eventId occurredAt, R.rel w w₁ → w₁.drawn eventId = none →
      R.rel (w₁.draw i eventId) w' → isSourceSequence writer.nextSequence = true →
      Q (⟨writer.keyAt writer.nextSequence, writer.eventWith body causation eventId occurredAt⟩,
        { writer with retryable := none }) w') :
    SafeAt i R G Q (writer.nextEntry body causation) w := by
  refine SafeOk.call fun w₁ h₁ eventId w₂ hid => ?_
  obtain ⟨hfresh, rfl⟩ := answers_nextId hid
  refine ⟨hdraw _ _ hfresh, SafeOk.call fun w₃ h₃ occurredAt w₄ hnow => ?_⟩
  obtain rfl := answers_wallNow hnow
  refine ⟨hsame _, ?_⟩
  split
  · rename_i hsequence
    exact SafeOk.pure fun w' h' => h w₁ w' eventId occurredAt h₁ hfresh (R.trans h₃ h') hsequence
  · exact SafeOk.throw

/-- The tries of one append: `I` carries them from one refusal to the next, and what `Q` says of a
verdict outlasts the moves of others. -/
theorem writeEntry_rule {I : World ι → Prop} {Q : JournalOutcomeClass → World ι → Prop}
    (hI : ∀ w w', R.rel w w' → I w → I w')
    (hQ : ∀ verdict w w', R.rel w w' → Q verdict w → Q verdict w')
    (htry : ∀ w outcome items, I w → Transacted [journalPutAction entry] w.items outcome items →
      G w (w.withItems items) ∧ Q (classifyJournalOutcome outcome entry 0) (w.withItems items) ∧
        (classifyJournalOutcome outcome entry 0 = .notApplied → I (w.withItems items)))
    (retries : Nat) (hstart : I w) :
    SafeAt i R G Q (JournalWriter.writeEntry entry retries) w := by
  induction retries generalizing w with
  | zero =>
    refine SafeOk.call fun w₁ h₁ outcome w₂ hwrite => ?_
    obtain ⟨items, htransacted, rfl⟩ := answers_write hwrite
    obtain ⟨hguar, hpost, -⟩ := htry w₁ outcome items (hI _ _ h₁ hstart) htransacted
    exact ⟨hguar, SafeOk.pure fun w' h' => hQ _ _ _ h' hpost⟩
  | succ retries ih =>
    refine SafeOk.call fun w₁ h₁ outcome w₂ hwrite => ?_
    obtain ⟨items, htransacted, rfl⟩ := answers_write hwrite
    obtain ⟨hguar, hpost, hagain⟩ := htry w₁ outcome items (hI _ _ h₁ hstart) htransacted
    refine ⟨hguar, ?_⟩
    split
    · rename_i hclass
      exact ih (hagain hclass)
    · exact SafeOk.pure fun w' h' => hQ _ _ _ h' hpost

theorem nextEntry_spec (hR : RespectedBy i R) (hsame : ∀ w, G w w)
    (hdraw : ∀ w id, w.drawn id = none → G w (w.draw i id))
    (hPR : ∀ w w', R.rel w w' → P w → P w')
    (hPdraw : ∀ w id, w.drawn id = none → P w → P (w.draw i id))
    (howns : Owns i writer w) (hP : P w) :
    SafeAt i R G (fun result w' => Built i writer body causation result.1 w' ∧
        result.2 = { writer with retryable := none } ∧ Owns i writer w' ∧ P w')
      (writer.nextEntry body causation) w := by
  refine nextEntry_rule hsame hdraw fun w₁ w' eventId occurredAt h₁ hfresh h' _ => ?_
  have howns₁ : Owns i writer (w₁.draw i eventId) :=
    (howns.respects (hR _ _ h₁)).respects (Respects.draw hfresh)
  have hP₁ : P (w₁.draw i eventId) := hPdraw _ _ hfresh (hPR _ _ h₁ hP)
  have hdrawn := (hR _ _ h').drawn _ _ (World.draw_drawn_self w₁ i eventId)
  exact ⟨⟨rfl, ⟨eventId, occurredAt, rfl⟩, hdrawn⟩, rfl, howns₁.respects (hR _ _ h'), hPR _ _ h' hP₁⟩

theorem classify_standalone {items : Items}
    (habsent : w.items.lookup (.journal entry.key) = none)
    (h : Transacted [journalPutAction entry] w.items outcome items) :
    (items = w.items ∧ classifyJournalOutcome outcome entry 0 = .notApplied) ∨
    (classifyJournalOutcome outcome entry 0 = .ambiguous ∧
      (items = w.items ∨ items = w.items.insert (.journal entry.key) entry.event)) ∨
    (classifyJournalOutcome outcome entry 0 = .applied ∧
      items = w.items.insert (.journal entry.key) entry.event) := by
  cases h with
  | applied => exact .inr (.inr ⟨rfl, rfl⟩)
  | refused => exact .inl ⟨rfl, rfl⟩
  | lost => exact .inr (.inl ⟨rfl, .inl rfl⟩)
  | lostApplied => exact .inr (.inl ⟨rfl, .inr rfl⟩)
  | conditionFailed hfailing =>
    rcases firstFailing_cons_eq_some.mp hfailing with ⟨hfalse, -, -⟩ | ⟨-, hrest⟩
    · simp [journalPutAction, habsent, itemAbsent] at hfalse
    · cases hrest

/-- The tries of one standalone append: nothing is written but the entry, and
an `applied` verdict means that it is stored. -/
theorem writeEntry_spec (hR : RespectedBy i R) (hsame : ∀ w, G w w)
    (hPR : ∀ w w', R.rel w w' → P w → P w')
    (hput : ∀ w, P w → Built i writer body causation entry w →
      w.items.lookup (.journal entry.key) = none →
      G w (w.withItems (w.items.insert (.journal entry.key) entry.event)))
    (hlive : writer.stopReason = none) (retries : Nat) (howns : Owns i writer w) (hP : P w)
    (hbuilt : Built i writer body causation entry w) :
    SafeAt i R G (fun verdict w' => w'.drawn writer.instanceId = some i ∧
        verdict ≠ .sequenceConflict ∧
        (verdict = .applied → StoredAt w'.items entry.key entry.event ∧
          w'.drawn entry.event.eventId = some i ∧
          Owns i { writer with nextSequence := writer.nextSequence + 1 } w'))
      (JournalWriter.writeEntry entry retries) w := by
  refine writeEntry_rule (I := fun w => Owns i writer w ∧ P w ∧ Built i writer body causation entry w)
    ?_ ?_ ?_ retries ⟨howns, hP, hbuilt⟩
  · rintro w w' h ⟨howns, hP, hbuilt⟩
    exact ⟨howns.respects (hR _ _ h), hPR _ _ h hP, hbuilt.respects (hR _ _ h)⟩
  · rintro verdict w w' h ⟨hdrawn, hconflict, hstored⟩
    refine ⟨(hR _ _ h).drawn _ _ hdrawn, hconflict, fun happlied => ?_⟩
    obtain ⟨hat, hid, hnext⟩ := hstored happlied
    have hown : w.drawn entry.key.instanceId = some i := by
      rw [hbuilt.instanceId_eq]
      exact hdrawn
    exact ⟨(hR _ _ h).storedAt hown hat, (hR _ _ h).drawn _ _ hid, hnext.respects (hR _ _ h)⟩
  · rintro w outcome items ⟨howns, hP, hbuilt⟩ htransacted
    have habsent := hbuilt.absent howns hlive
    rcases classify_standalone habsent htransacted with
      ⟨rfl, hclass⟩ | ⟨hclass, rfl | rfl⟩ | ⟨hclass, rfl⟩
    · exact ⟨hsame _, ⟨howns.drawn, by simp [hclass], by simp [hclass]⟩, fun _ => ⟨howns, hP, hbuilt⟩⟩
    · exact ⟨hsame _, ⟨howns.drawn, by simp [hclass], by simp [hclass]⟩, by simp [hclass]⟩
    · exact ⟨hput w hP hbuilt habsent, ⟨howns.drawn, by simp [hclass], by simp [hclass]⟩,
        by simp [hclass]⟩
    · refine ⟨hput w hP hbuilt habsent, ⟨howns.drawn, by simp [hclass], fun _ => ?_⟩, by simp [hclass]⟩
      refine ⟨by simp [StoredAt], hbuilt.drawn, howns.put hlive hbuilt fun key hne => ?_⟩
      exact AList.lookup_insert_ne (by simpa using hne)

/-- What is known after an append: the writer is idle and owns its instance, and
an `appended` event is the one asked for and is stored under the old sequence. -/
structure Appended (i : ι) (writer : JournalWriter) (body : EventBody)
    (causation : List Uuid4) (result : AppendResult × JournalWriter) (w : World ι) : Prop where
  owns : Owns i result.2 w
  same : SameInstance writer result.2
  idle : writer.reservation = none → result.2.reservation = none
  stored : ∀ event, result.1 = .appended event →
    StoredAt w.items (writer.keyAt writer.nextSequence) event ∧
    w.drawn event.eventId = some i ∧ event.body = body ∧
    event.causationEventIds = causationIds causation

theorem append_spec (hR : RespectedBy i R) (hsame : ∀ w, G w w)
    (hdraw : ∀ w id, w.drawn id = none → G w (w.draw i id))
    (hPR : ∀ w w', R.rel w w' → P w → P w')
    (hPdraw : ∀ w id, w.drawn id = none → P w → P (w.draw i id))
    (hput : ∀ w entry, P w → Built i writer body causation entry w →
      w.items.lookup (.journal entry.key) = none → w.drawn writer.instanceId = some i →
      G w (w.withItems (w.items.insert (.journal entry.key) entry.event)))
    (howns : Owns i writer w) (hP : P w) :
    SafeAt i R G (Appended i writer body causation) (writer.append body causation) w := by
  unfold JournalWriter.append
  cases hstop : writer.stopReason with
  | some reason =>
    refine SafeOk.pure fun w' h' => ⟨howns.respects (hR _ _ h'), .refl _, id, ?_⟩
    intro event hevent
    cases hevent
  | none =>
    cases hreserved : writer.reservation with
    | some put => exact SafeOk.throw
    | none =>
      refine SafeOk.bind (nextEntry_spec hR hsame hdraw hPR hPdraw howns hP) ?_
      rintro ⟨entry, writer₁⟩ w₁ ⟨hbuilt, rfl, howns₁, hP₁⟩
      -- the put's context: the instance stays drawn by this process
      have hput₁ : ∀ w, P w ∧ w.drawn writer.instanceId = some i →
          Built i writer body causation entry w →
          w.items.lookup (.journal entry.key) = none →
          G w (w.withItems (w.items.insert (.journal entry.key) entry.event)) :=
        fun w hctx hb habsent => hput w entry hctx.1 hb habsent hctx.2
      have hPR₁ : ∀ w w', R.rel w w' → P w ∧ w.drawn writer.instanceId = some i →
          P w' ∧ w'.drawn writer.instanceId = some i :=
        fun w w' h hctx => ⟨hPR _ _ h hctx.1, (hR _ _ h).drawn _ _ hctx.2⟩
      refine SafeOk.bind (writeEntry_spec hR hsame hPR₁ hput₁ hstop _ howns₁
        ⟨hP₁, howns₁.drawn⟩ hbuilt) ?_
      rintro verdict w₂ ⟨hdrawn, hconflict, hstored⟩
      have hstopped : ∀ reason w', R.rel w₂ w' →
          Owns i { writer with retryable := none, stopReason := some reason } w' :=
        fun reason w' h' => Owns.stopped ((hR _ _ h').drawn _ _ hdrawn) rfl
      cases verdict with
      | notApplied =>
        refine SafeOk.pure fun w' h' =>
          ⟨hstopped _ w' h', ⟨rfl, rfl, rfl⟩, fun _ => hreserved, ?_⟩
        intro event hevent
        cases hevent
      | ambiguous =>
        refine SafeOk.pure fun w' h' =>
          ⟨hstopped _ w' h', ⟨rfl, rfl, rfl⟩, fun _ => hreserved, ?_⟩
        intro event hevent
        cases hevent
      | sequenceConflict => exact absurd rfl hconflict
      | applied =>
        obtain ⟨hat, hid, hnext⟩ := hstored rfl
        refine SafeOk.pure fun w' h' => ⟨?_, ⟨rfl, rfl, rfl⟩, fun _ => hreserved, ?_⟩
        · exact (hnext.withReservation writer.reservation none).respects (hR _ _ h')
        · intro event hevent
          obtain rfl : entry.event = event := AppendResult.appended.inj hevent
          have hinstance : w₂.drawn entry.key.instanceId = some i := by
            rw [hbuilt.instanceId_eq]
            exact hdrawn
          refine ⟨?_, (hR _ _ h').drawn _ _ hid, hbuilt.body_eq, hbuilt.causation_eq⟩
          rw [← hbuilt.key]
          exact (hR _ _ h').storedAt hinstance hat

/-- What is known after `prepare`: either the instance has stopped, or the next
sequence is reserved for a freshly built entry. -/
def Prepared (i : ι) (writer : JournalWriter) (body : EventBody) (causation : List Uuid4)
    (P : World ι → Prop) (result : PrepareResult × JournalWriter) (w : World ι) : Prop :=
  match result.1 with
  | .stopped _ => Owns i result.2 w ∧ P w
  | .prepared put => Built i writer body causation put w ∧ Owns i writer w ∧ P w ∧
      writer.stopReason = none ∧
      result.2 = { writer with reservation := some put, retryable := none }

/-- `prepare` writes nothing. -/
theorem prepare_spec (hR : RespectedBy i R) (hsame : ∀ w, G w w)
    (hdraw : ∀ w id, w.drawn id = none → G w (w.draw i id))
    (hPR : ∀ w w', R.rel w w' → P w → P w')
    (hPdraw : ∀ w id, w.drawn id = none → P w → P (w.draw i id))
    (howns : Owns i writer w) (hP : P w) :
    SafeAt i R G (Prepared i writer body causation P) (writer.prepare body causation) w := by
  unfold JournalWriter.prepare
  cases hstop : writer.stopReason with
  | some reason =>
    exact SafeOk.pure fun w' h' => ⟨howns.respects (hR _ _ h'), hPR _ _ h' hP⟩
  | none =>
    cases hreserved : writer.reservation with
    | some put => exact SafeOk.throw
    | none =>
      refine SafeOk.bind (nextEntry_spec hR hsame hdraw hPR hPdraw howns hP) ?_
      rintro ⟨entry, writer₁⟩ w₁ ⟨hbuilt, rfl, howns₁, hP₁⟩
      exact SafeOk.pure fun w' h' => ⟨hbuilt.respects (hR _ _ h'),
        howns₁.respects (hR _ _ h'), hPR _ _ h' hP₁, hstop, rfl⟩

end Operations

/-! ## Settling a caller-owned transaction -/

/-- The three ways a transaction that carried an absent key's put settles. -/
theorem confirm_cases {writer writer' : JournalWriter} {put : JournalEntry}
    {actions : List (WriteAction ItemOf)} {store items : Items}
    {index : Nat} {result : ConfirmResult}
    (hput : actions[index]? = some (journalPutAction put))
    (habsent : store.lookup (.journal put.key) = none)
    (htransacted : Transacted actions store outcome items)
    (hconfirm : writer.confirm put outcome index = .ok (result, writer')) :
    (outcome = .applied ∧ result = .appended put.event ∧ Applies actions store ∧
      items = applyAll actions store ∧
      writer' = { writer with reservation := none, nextSequence := writer.nextSequence + 1 }) ∨
    (result = .stopped .ambiguousAppend ∧
      (items = store ∨ (Applies actions store ∧ items = applyAll actions store)) ∧
      writer' = { writer with reservation := none, stopReason := some .ambiguousAppend }) ∨
    (result = .notApplied put.event outcome ∧ items = store ∧
      ((∃ code, outcome = .definitiveFailure code) ∨
        ∃ failed existing, outcome = .conditionFailed failed existing ∧ failed ≠ index ∧
          firstFailing store 0 actions = some (failed, existing)) ∧
      writer' = { writer with reservation := none, retryable := some put }) := by
  unfold JournalWriter.confirm at hconfirm
  split at hconfirm
  case isFalse => cases hconfirm
  case isTrue =>
    cases htransacted with
    | applied happlies =>
      obtain ⟨rfl, rfl⟩ := Prod.mk.inj (Except.ok.inj hconfirm)
      exact .inl ⟨rfl, rfl, happlies, rfl, rfl⟩
    | refused code =>
      obtain ⟨rfl, rfl⟩ := Prod.mk.inj (Except.ok.inj hconfirm)
      exact .inr (.inr ⟨rfl, rfl, .inl ⟨code, rfl⟩, rfl⟩)
    | lost code =>
      obtain ⟨rfl, rfl⟩ := Prod.mk.inj (Except.ok.inj hconfirm)
      exact .inr (.inl ⟨rfl, .inl rfl, rfl⟩)
    | lostApplied code happlies =>
      obtain ⟨rfl, rfl⟩ := Prod.mk.inj (Except.ok.inj hconfirm)
      exact .inr (.inl ⟨rfl, .inr ⟨happlies, rfl⟩, rfl⟩)
    | @conditionFailed failed existing hfailing =>
      -- the put itself cannot be the failing action: its key is absent
      have hne : failed ≠ index := by
        obtain ⟨offset, action, hfound, hget, hfalse, -⟩ := firstFailing_get hfailing
        rintro rfl
        obtain rfl : offset = failed := by omega
        obtain rfl := Option.some.inj (hput.symm.trans hget)
        simp [journalPutAction, habsent, itemAbsent] at hfalse
      have hclass : classifyJournalOutcome (.conditionFailed failed existing) put index =
          .notApplied := by
        simp [classifyJournalOutcome, hne]
      rw [hclass] at hconfirm
      obtain ⟨rfl, rfl⟩ := Prod.mk.inj (Except.ok.inj hconfirm)
      exact .inr (.inr ⟨rfl, rfl, .inr ⟨failed, existing, rfl, hne, hfailing⟩, rfl⟩)

/-- How a reserved put settles, with what the process owns afterwards. -/
inductive Settled {ι : Type} (i : ι) (writer : JournalWriter) (put : JournalEntry)
    (actions : List (WriteAction ItemOf)) (index : Nat) (w : World ι) (items : Items)
    (outcome : WriteOutcome ItemOf) (writer' : JournalWriter) : ConfirmResult → Prop where
  | appended (houtcome : outcome = .applied) (happlies : Applies actions w.items)
      (hitems : items = applyAll actions w.items) (howns : Owns i writer' (w.withItems items))
      (hidle : writer'.reservation = none) :
      Settled i writer put actions index w items outcome writer' (.appended put.event)
  | stopped (hitems : items = w.items ∨
        (Applies actions w.items ∧ items = applyAll actions w.items))
      (howns : Owns i writer' (w.withItems items)) (hidle : writer'.reservation = none)
      (hstopped : writer'.stopReason = some .ambiguousAppend) :
      Settled i writer put actions index w items outcome writer' (.stopped .ambiguousAppend)
  | notApplied (hitems : items = w.items)
      (houtcome : (∃ code, outcome = .definitiveFailure code) ∨
        ∃ failed existing, outcome = .conditionFailed failed existing ∧ failed ≠ index ∧
          firstFailing w.items 0 actions = some (failed, existing))
      (howns : Owns i writer' (w.withItems items)) (hidle : writer'.reservation = none)
      (hlive : writer'.stopReason = none) (hsequence : writer'.nextSequence = writer.nextSequence)
      (hretryable : writer'.retryable = some put) :
      Settled i writer put actions index w items outcome writer' (.notApplied put.event outcome)

theorem Owns.confirm {ι : Type} {i : ι} {writer writer' : JournalWriter} {put : JournalEntry}
    {body : EventBody} {causation : List Uuid4} {actions : List (WriteAction ItemOf)}
    {w : World ι} {items : Items} {index : Nat}
    {result : ConfirmResult} (howns : Owns i writer w) (hlive : writer.stopReason = none)
    (hbuilt : Built i writer body causation put w)
    (hput : actions[index]? = some (journalPutAction put))
    (hkeys : ∀ key : JournalKey, key ≠ put.key →
      (applyAll actions w.items).lookup (.journal key) = w.items.lookup (.journal key))
    (htransacted : Transacted actions w.items outcome items)
    (hconfirm : { writer with reservation := some put, retryable := none }.confirm put
      outcome index = .ok (result, writer')) :
    Settled i writer put actions index w items outcome writer' result ∧
      SameInstance writer writer' := by
  rcases confirm_cases hput (hbuilt.absent howns hlive) htransacted hconfirm with
    ⟨houtcome, rfl, happlies, rfl, rfl⟩ | ⟨rfl, hitems, rfl⟩ | ⟨rfl, rfl, houtcome, rfl⟩
  · have hnext := (howns.put hlive hbuilt hkeys).withReservation none none
    exact ⟨.appended houtcome happlies rfl hnext rfl, ⟨rfl, rfl, rfl⟩⟩
  · exact ⟨.stopped hitems (Owns.stopped howns.drawn rfl) rfl rfl, ⟨rfl, rfl, rfl⟩⟩
  · exact ⟨.notApplied rfl houtcome (howns.withReservation none (some put)) rfl hlive rfl rfl,
      ⟨rfl, rfl, rfl⟩⟩

end RefundStudy.Journal
