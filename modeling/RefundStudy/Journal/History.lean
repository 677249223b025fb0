/-
  Whole histories of one journal writer.

  While the writer lives, its own events stand under the sequences `1 .. k`, where `k` is the
  number of `appended` results (`Dense`).
-/
import RefundStudy.Journal.Discipline

set_option autoImplicit false

namespace RefundStudy.Journal

open Foundation Record RefundStudy.Runtime

variable {actions : List (WriteAction ItemOf)} {items : Items} {put : JournalEntry}
  {causation : List Uuid4} {verdict : JournalOutcomeClass} {outcome : WriteOutcome ItemOf}
  {body : EventBody} {event : JournalEvent} {key : JournalKey}

variable {ι : Type} {i : ι} {w w' : World ι}

/-! ## What others may do -/

/-- Everybody else keeps the stored events, draws ids of their own, and puts
events with such ids at absent keys. -/
structure Foreign (i : ι) (w w' : World ι) : Prop where
  drawn : ∀ id process, w.drawn id = some process → w'.drawn id = some process
  mine : ∀ id, w'.drawn id = some i → w.drawn id = some i
  kept : ∀ key event, StoredAt w.items key event → StoredAt w'.items key event
  added : ∀ key event, StoredAt w'.items key event →
    StoredAt w.items key event ∨ ∃ j, j ≠ i ∧ w'.drawn event.eventId = some j

def foreign (i : ι) : Interference (World ι) where
  rel := Foreign i
  refl := fun _ => ⟨fun _ _ h => h, fun _ h => h, fun _ _ h => h, fun _ _ h => .inl h⟩
  trans := fun {w₁ w₂ w₃} h₁ h₂ => by
    refine ⟨fun id process h => h₂.drawn id process (h₁.drawn id process h),
      fun id h => h₁.mine id (h₂.mine id h), fun key event h => h₂.kept key event
        (h₁.kept key event h), fun key event h => ?_⟩
    rcases h₂.added key event h with hmiddle | hnew
    · rcases h₁.added key event hmiddle with hold | ⟨j, hne, hdrawn⟩
      · exact .inl hold
      · exact .inr ⟨j, hne, h₂.drawn _ _ hdrawn⟩
    · exact .inr hnew

/-- A stored event of this process: its id is one the process drew. -/
def OwnEventAt (i : ι) (w : World ι) (key : JournalKey) (event : JournalEvent) : Prop :=
  StoredAt w.items key event ∧ w.drawn event.eventId = some i

theorem Foreign.ownEventAt_iff (h : Foreign i w w') (key : JournalKey) (event : JournalEvent) :
    OwnEventAt i w' key event ↔ OwnEventAt i w key event := by
  constructor
  · rintro ⟨hstored, hdrawn⟩
    refine ⟨?_, h.mine _ hdrawn⟩
    rcases h.added key event hstored with hold | ⟨j, hne, hother⟩
    · exact hold
    · exact absurd (Option.some.inj (hother.symm.trans hdrawn)) hne
  · rintro ⟨hstored, hdrawn⟩
    exact ⟨h.kept key event hstored, h.drawn _ _ hdrawn⟩

/-! ## Dense sequences -/

/-- The events of this process stand under the sequences `1 .. k`, and every
stored event has an id that somebody drew. -/
structure Dense (i : ι) (writer : JournalWriter) (k : Nat) (w : World ι) : Prop where
  identified : ∀ key event, StoredAt w.items key event →
    ∃ process, w.drawn event.eventId = some process
  within : ∀ key event, OwnEventAt i w key event →
    ∃ sequence, 1 ≤ sequence ∧ sequence ≤ k ∧ key = writer.keyAt sequence
  filled : ∀ sequence, 1 ≤ sequence → sequence ≤ k →
    ∃ event, OwnEventAt i w (writer.keyAt sequence) event

variable {writer : JournalWriter} {k : Nat}

theorem Dense.foreign (h : Dense i writer k w) (hforeign : Foreign i w w') :
    Dense i writer k w' where
  identified := fun key event hstored => by
    rcases hforeign.added key event hstored with hold | ⟨j, -, hdrawn⟩
    · obtain ⟨process, hprocess⟩ := h.identified key event hold
      exact ⟨process, hforeign.drawn _ _ hprocess⟩
    · exact ⟨j, hdrawn⟩
  within := fun key event hown => h.within key event ((hforeign.ownEventAt_iff key event).mp hown)
  filled := fun sequence hle hge => by
    obtain ⟨event, hown⟩ := h.filled sequence hle hge
    exact ⟨event, (hforeign.ownEventAt_iff _ event).mpr hown⟩

theorem Dense.draw (h : Dense i writer k w) {id : Uuid4} (hfresh : w.drawn id = none) :
    Dense i writer k (w.draw i id) where
  identified := fun key event hstored => by
    obtain ⟨process, hprocess⟩ := h.identified key event hstored
    exact ⟨process, World.draw_drawn_of_some hfresh hprocess⟩
  within := fun key event hown => by
    obtain ⟨process, hprocess⟩ := h.identified key event hown.1
    have hkept := World.draw_drawn_of_some (i := i) hfresh hprocess
    obtain rfl := Option.some.inj (hkept.symm.trans hown.2)
    exact h.within key event ⟨hown.1, hprocess⟩
  filled := fun sequence hle hge => by
    obtain ⟨event, hstored, hdrawn⟩ := h.filled sequence hle hge
    exact ⟨event, hstored, World.draw_drawn_of_some hfresh hdrawn⟩

variable {writer' : JournalWriter}

/-- `Dense` reads only the instance of the writer. -/
theorem Dense.sameInstance (h : Dense i writer k w) (hsame : SameInstance writer writer') :
    Dense i writer' k w where
  identified := h.identified
  within := fun key event hown => by
    obtain ⟨sequence, hle, hge, hkey⟩ := h.within key event hown
    exact ⟨sequence, hle, hge, by rw [hsame.keyAt, hkey]⟩
  filled := fun sequence hle hge => by
    rw [hsame.keyAt]
    exact h.filled sequence hle hge

/-! ## A transaction that carries a put -/

/-- The transaction has the put at this index; its other actions write no journal
key, or put an event of somebody else under another key. -/
structure CarriesPut (i : ι) (w : World ι) (put : JournalEntry)
    (actions : List (WriteAction ItemOf)) (index : Nat) : Prop where
  get : actions[index]? = some (journalPutAction put)
  others : ∀ action ∈ actions, (∀ key, action.key ≠ .journal key) ∨
    ∃ entry, action = journalPutAction entry ∧ (entry = put ∨ (entry.key ≠ put.key ∧
      ∃ j, j ≠ i ∧ w.drawn entry.event.eventId = some j))

/-- An action on another kind of key leaves the journal alone. -/
theorem storedAt_apply_other {action : WriteAction ItemOf}
    (hother : ∀ key, action.key ≠ .journal key) :
    StoredAt (action.apply items) key event ↔ StoredAt items key event := by
  unfold StoredAt WriteAction.apply
  rw [AList.lookup_insert_ne (hother key).symm]

theorem storedAt_apply_put {entry : JournalEntry}
    (h : StoredAt ((journalPutAction entry).apply items) key event) :
    (key = entry.key ∧ event = entry.event) ∨ (key ≠ entry.key ∧ StoredAt items key event) := by
  unfold StoredAt WriteAction.apply journalPutAction at h
  by_cases hkey : key = entry.key
  · subst hkey
    rw [AList.lookup_insert] at h
    exact .inl ⟨rfl, (Option.some.inj h).symm⟩
  · rw [AList.lookup_insert_ne (by simpa using hkey)] at h
    exact .inr ⟨hkey, h⟩

theorem storedAt_applyAll {allowed : JournalEntry → Prop}
    (hshape : ∀ action ∈ actions, (∀ key, action.key ≠ .journal key) ∨
      ∃ entry, action = journalPutAction entry ∧ allowed entry)
    (h : StoredAt (applyAll actions items) key event) :
    StoredAt items key event ∨ ∃ entry, allowed entry ∧ key = entry.key ∧ event = entry.event := by
  induction actions generalizing items with
  | nil => exact .inl h
  | cons head rest ih =>
    have hrest := ih (fun action hmem => hshape action (List.mem_cons_of_mem head hmem)) h
    rcases hrest with hstored | hput
    · rcases hshape head (List.mem_cons_self ..) with hother | ⟨entry, rfl, hallowed⟩
      · exact .inl ((storedAt_apply_other hother).mp hstored)
      · rcases storedAt_apply_put hstored with ⟨hkey, hevent⟩ | ⟨-, hold⟩
        · exact .inr ⟨entry, hallowed, hkey, hevent⟩
        · exact .inl hold
    · exact .inr hput

theorem storedAt_applyAll_put {actions : List (WriteAction ItemOf)} {items : Items}
    {put : JournalEntry}
    (hshape : ∀ action ∈ actions, (∀ key, action.key ≠ .journal key) ∨
      ∃ entry, action = journalPutAction entry ∧ (entry = put ∨ entry.key ≠ put.key))
    (h : journalPutAction put ∈ actions ∨ StoredAt items put.key put.event) :
    StoredAt (applyAll actions items) put.key put.event := by
  induction actions generalizing items with
  | nil =>
    rcases h with hmem | hstored
    · cases hmem
    · exact hstored
  | cons head rest ih =>
    refine ih (fun action hmem => hshape action (List.mem_cons_of_mem head hmem)) ?_
    have hself : StoredAt ((journalPutAction put).apply items) put.key put.event := by
      simp [StoredAt, WriteAction.apply, journalPutAction]
    rcases h with hmem | hstored
    · rcases List.mem_cons.mp hmem with rfl | hrest
      · exact .inr hself
      · exact .inl hrest
    · right
      rcases hshape head (List.mem_cons_self ..) with hother | ⟨entry, rfl, rfl | hne⟩
      · exact (storedAt_apply_other hother).mpr hstored
      · exact hself
      · unfold StoredAt WriteAction.apply journalPutAction
        rw [AList.lookup_insert_ne (by simpa using hne.symm)]
        exact hstored

section Carried

variable {put : JournalEntry} {actions : List (WriteAction ItemOf)} {index : Nat}

/-- An applicable transaction that carries the next put stores it and changes no
other event of this process. -/
theorem Dense.carried (h : Dense i writer k w) (hkey : put.key = writer.keyAt (k + 1))
    (hdrawn : w.drawn put.event.eventId = some i) (hcarries : CarriesPut i w put actions index)
    (happlies : Applies actions w.items) :
    Dense i writer (k + 1) (w.withItems (applyAll actions w.items)) ∧
    OwnEventAt i (w.withItems (applyAll actions w.items)) put.key put.event ∧
    ∀ key event, OwnEventAt i w key event →
      OwnEventAt i (w.withItems (applyAll actions w.items)) key event := by
  have hnew : OwnEventAt i (w.withItems (applyAll actions w.items)) put.key put.event := by
    refine ⟨storedAt_applyAll_put (fun action hmem => ?_) (.inl ?_), hdrawn⟩
    · rcases hcarries.others action hmem with hother | ⟨entry, hentry, rfl | ⟨hne, -⟩⟩
      · exact .inl hother
      · exact .inr ⟨entry, hentry, .inl rfl⟩
      · exact .inr ⟨entry, hentry, .inr hne⟩
    · exact List.mem_of_getElem? hcarries.get
  -- every put of the transaction found its key absent, so nothing stored is overwritten
  have hkept : ∀ key event, StoredAt w.items key event →
      StoredAt (applyAll actions w.items) key event := by
    intro key event hstored
    refine @storedAt_applyAll_put actions w.items ⟨key, event⟩ (fun action hmem => ?_)
      (.inr hstored)
    rcases hcarries.others action hmem with hother | ⟨entry, rfl, -⟩
    · exact .inl hother
    · refine .inr ⟨entry, rfl, .inr ?_⟩
      rintro rfl
      have habsent := (itemAbsent_iff _).mp (happlies.condition hmem)
      rw [StoredAt] at hstored
      exact absurd (hstored.symm.trans habsent) (by simp)
  have hcases : ∀ key event, StoredAt (applyAll actions w.items) key event →
      StoredAt w.items key event ∨ (key = put.key ∧ event = put.event) ∨
        ∃ j, j ≠ i ∧ w.drawn event.eventId = some j := by
    intro key event hstored
    rcases storedAt_applyAll hcarries.others hstored with
      hold | ⟨entry, rfl | ⟨-, j, hne, hother⟩, rfl, rfl⟩
    · exact .inl hold
    · exact .inr (.inl ⟨rfl, rfl⟩)
    · exact .inr (.inr ⟨j, hne, hother⟩)
  refine ⟨⟨?_, ?_, ?_⟩, hnew, fun key event hown => ⟨hkept key event hown.1, hown.2⟩⟩
  · intro key event hstored
    rcases hcases key event hstored with hold | ⟨-, rfl⟩ | ⟨j, -, hother⟩
    · exact h.identified key event hold
    · exact ⟨i, hdrawn⟩
    · exact ⟨j, hother⟩
  · rintro key event ⟨hstored, hmine⟩
    rcases hcases key event hstored with hold | ⟨rfl, -⟩ | ⟨j, hne, hother⟩
    · obtain ⟨sequence, hle, hge, hat⟩ := h.within key event ⟨hold, hmine⟩
      exact ⟨sequence, hle, by omega, hat⟩
    · exact ⟨k + 1, by omega, Nat.le_refl _, hkey⟩
    · exact absurd (Option.some.inj (hother.symm.trans hmine)) hne
  · intro sequence hle hge
    by_cases hlast : sequence = k + 1
    · subst hlast
      rw [← hkey]
      exact ⟨put.event, hnew⟩
    · obtain ⟨event, hstored, hmine⟩ := h.filled sequence hle (by omega)
      exact ⟨event, hkept _ event hstored, hmine⟩

/-- The key of the next put holds no event of this process, so what occupies it is
somebody else's and never equals the put. -/
theorem Dense.not_same (h : Dense i writer k w) (hkey : put.key = writer.keyAt (k + 1))
    (hdrawn : w.drawn put.event.eventId = some i) {existing : Sigma ItemOf}
    (hexisting : (w.items.lookup (.journal put.key)).map
      (fun item => (⟨.journal put.key, item⟩ : Sigma ItemOf)) = some existing) :
    isSameStoredEntry existing put = false := by
  obtain ⟨event, hstored, rfl⟩ := Option.map_eq_some_iff.mp hexisting
  have hne : event ≠ put.event := by
    rintro rfl
    obtain ⟨sequence, -, hge, hat⟩ := h.within put.key put.event ⟨hstored, hdrawn⟩
    rw [hkey] at hat
    have hseq : k + 1 = sequence := congrArg JournalKey.sequence hat
    omega
  simp [isSameStoredEntry, hne]

/-- What a verdict on the next put says about the store. -/
def Settles (i : ι) (writer : JournalWriter) (k : Nat) (put : JournalEntry) (w : World ι) :
    JournalOutcomeClass → Prop
  | .applied => Dense i writer (k + 1) w ∧ OwnEventAt i w put.key put.event
  | .notApplied => Dense i writer k w
  | .sequenceConflict => Dense i writer k w
  | .ambiguous => Dense i writer k w ∨ Dense i writer (k + 1) w

theorem Settles.foreign (h : Settles i writer k put w verdict)
    (hforeign : Foreign i w w') : Settles i writer k put w' verdict := by
  cases verdict with
  | applied => exact ⟨h.1.foreign hforeign, (hforeign.ownEventAt_iff _ _).mpr h.2⟩
  | notApplied => exact Dense.foreign h hforeign
  | sequenceConflict => exact Dense.foreign h hforeign
  | ambiguous =>
    rcases h with hdense | hdense
    · exact .inl (hdense.foreign hforeign)
    · exact .inr (hdense.foreign hforeign)

theorem Settles.sameInstance {writer' : JournalWriter}
    (h : Settles i writer k put w verdict) (hsame : SameInstance writer writer') :
    Settles i writer' k put w verdict := by
  cases verdict with
  | applied => exact ⟨h.1.sameInstance hsame, h.2⟩
  | notApplied => exact Dense.sameInstance h hsame
  | sequenceConflict => exact Dense.sameInstance h hsame
  | ambiguous =>
    rcases h with hdense | hdense
    · exact .inl (hdense.sameInstance hsame)
    · exact .inr (hdense.sameInstance hsame)

/-- What a truthful outcome of a transaction that carries the next put means: no
event of this process disappears, and the verdict says what was stored. -/
theorem Dense.settles (h : Dense i writer k w)
    (hkey : put.key = writer.keyAt (k + 1)) (hdrawn : w.drawn put.event.eventId = some i)
    (hcarries : CarriesPut i w put actions index)
    (htransacted : Transacted actions w.items outcome items) :
    (∀ key event, OwnEventAt i w key event → OwnEventAt i (w.withItems items) key event) ∧
    Settles i writer k put (w.withItems items) (classifyJournalOutcome outcome put index) := by
  cases htransacted with
  | applied happlies =>
    obtain ⟨hdense, hown, hkept⟩ := h.carried hkey hdrawn hcarries happlies
    exact ⟨hkept, hdense, hown⟩
  | lostApplied code happlies =>
    obtain ⟨hdense, -, hkept⟩ := h.carried hkey hdrawn hcarries happlies
    exact ⟨hkept, .inr hdense⟩
  | lost code => exact ⟨fun _ _ hown => hown, .inl h⟩
  | refused code => exact ⟨fun _ _ hown => hown, h⟩
  | @conditionFailed failed existing hfailing =>
    refine ⟨fun _ _ hown => hown, ?_⟩
    have hclass : classifyJournalOutcome (.conditionFailed failed existing) put index =
        .notApplied ∨ classifyJournalOutcome (.conditionFailed failed existing) put index =
        .sequenceConflict := by
      by_cases hindex : failed = index
      · -- the put itself failed: its key is occupied by somebody else's event
        subst hindex
        obtain ⟨offset, action, hfound, hget, hfalse, hexisting⟩ := firstFailing_get hfailing
        obtain rfl : offset = failed := by omega
        obtain rfl := Option.some.inj (hcarries.get.symm.trans hget)
        cases existing with
        | none => simp [classifyJournalOutcome]
        | some item =>
          have hsame := h.not_same hkey hdrawn hexisting.symm
          simp [classifyJournalOutcome, hsame]
      · exact .inl (by simp [classifyJournalOutcome, hindex])
    rcases hclass with hclass | hclass
    · rw [hclass]
      exact h
    · rw [hclass]
      exact h

end Carried

/-! ## Sessions -/

/-- A writer in its world, with the events its calls reported `appended`. -/
structure Session (ι : Type) where
  writer : JournalWriter
  world : World ι
  appended : List JournalEvent

/-- The events reported appended after an `append`. -/
def AppendResult.record (log : List JournalEvent) : AppendResult → List JournalEvent
  | .appended event => log ++ [event]
  | .stopped _ => log

/-- The events reported appended after a `confirm`. -/
def ConfirmResult.record (log : List JournalEvent) : ConfirmResult → List JournalEvent
  | .appended event => log ++ [event]
  | .stopped _ => log
  | .notApplied _ _ => log

/-- One call that the writer does not refuse, with everybody else in between.  A
`confirm` comes with the transaction that carried its put. -/
inductive WriterCall (i : ι) : Session ι → Session ι → Prop where
  | append {writer writer' : JournalWriter} {w w' : World ι} {log : List JournalEvent}
      {body : EventBody} {causation : List Uuid4} {result : AppendResult}
      (hrun : RunsTo ((machine ι).answers i) (foreign i) (writer.append body causation).run w
        (.ok (result, writer')) w') :
      WriterCall i ⟨writer, w, log⟩ ⟨writer', w', result.record log⟩
  | prepare {writer writer' : JournalWriter} {w w' : World ι} {log : List JournalEvent}
      {body : EventBody} {causation : List Uuid4} {result : PrepareResult}
      (hrun : RunsTo ((machine ι).answers i) (foreign i) (writer.prepare body causation).run w
        (.ok (result, writer')) w') :
      WriterCall i ⟨writer, w, log⟩ ⟨writer', w', log⟩
  | prepareRetry {writer writer' : JournalWriter} {w w' : World ι} {log : List JournalEvent}
      {put : JournalEntry} {result : PrepareResult} (hforeign : Foreign i w w')
      (hretry : writer.prepareRetry put = .ok (result, writer')) :
      WriterCall i ⟨writer, w, log⟩ ⟨writer', w', log⟩
  | confirm {writer writer' : JournalWriter} {w w₁ w₂ w' : World ι} {log : List JournalEvent}
      {put : JournalEntry} {actions : List (WriteAction ItemOf)} {token : Uuid4} {index : Nat}
      {outcome : WriteOutcome ItemOf} {result : ConfirmResult} (hbefore : Foreign i w w₁)
      (hcarries : CarriesPut i w₁ put actions index)
      (htransact : (machine ι).answers i (.transact actions token) w₁ outcome w₂)
      (hafter : Foreign i w₂ w')
      (hconfirm : writer.confirm put outcome index = .ok (result, writer')) :
      WriterCall i ⟨writer, w, log⟩ ⟨writer', w', result.record log⟩

structure Consistent (i : ι) (s : Session ι) : Prop where
  count : s.writer.nextSequence = s.appended.length + 1
  dense : Dense i s.writer s.appended.length s.world ∨
    (s.writer.stopReason = some .ambiguousAppend ∧
      Dense i s.writer (s.appended.length + 1) s.world)
  stored : ∀ event ∈ s.appended, ∃ key, OwnEventAt i s.world key event
  built : ∀ put, s.writer.reservation = some put ∨ s.writer.retryable = some put →
    put.key = s.writer.keyAt s.writer.nextSequence ∧
      s.world.drawn put.event.eventId = some i
  exclusive : s.writer.reservation = none ∨ s.writer.retryable = none
  stopped : s.writer.stopReason ≠ none → s.writer.reservation = none

variable {log : List JournalEvent}

theorem Consistent.foreign (h : Consistent i ⟨writer, w, log⟩) (hforeign : Foreign i w w') :
    Consistent i ⟨writer, w', log⟩ where
  count := h.count
  dense := by
    rcases h.dense with hdense | ⟨hstop, hdense⟩
    · exact .inl (hdense.foreign hforeign)
    · exact .inr ⟨hstop, hdense.foreign hforeign⟩
  stored := fun event hmem => by
    obtain ⟨key, hown⟩ := h.stored event hmem
    exact ⟨key, (hforeign.ownEventAt_iff key event).mpr hown⟩
  built := fun put hput => ⟨(h.built put hput).1, hforeign.drawn _ _ (h.built put hput).2⟩
  exclusive := h.exclusive
  stopped := h.stopped

/-- While the writer lives the sequences are dense up to the last appended one. -/
theorem Consistent.live {s : Session ι} (h : Consistent i s) (hlive : s.writer.stopReason = none) :
    Dense i s.writer s.appended.length s.world := by
  rcases h.dense with hdense | ⟨hstop, -⟩
  · exact hdense
  · rw [hlive] at hstop
    cases hstop

theorem Consistent.draw (h : Consistent i ⟨writer, w, log⟩) {id : Uuid4}
    (hfresh : w.drawn id = none) : Consistent i ⟨writer, w.draw i id, log⟩ where
  count := h.count
  dense := by
    rcases h.dense with hdense | ⟨hstop, hdense⟩
    · exact .inl (hdense.draw hfresh)
    · exact .inr ⟨hstop, hdense.draw hfresh⟩
  stored := fun event hmem => by
    obtain ⟨key, hstored, hdrawn⟩ := h.stored event hmem
    exact ⟨key, hstored, World.draw_drawn_of_some hfresh hdrawn⟩
  built := fun put hput =>
    ⟨(h.built put hput).1, World.draw_drawn_of_some hfresh (h.built put hput).2⟩
  exclusive := h.exclusive
  stopped := h.stopped

theorem Consistent.settle
    (hcount : writer.nextSequence = log.length + 1) (hlive : writer.stopReason = none)
    (hreservation : writer.reservation = none) (hretryable : writer.retryable = none)
    (hstored : ∀ event ∈ log, ∃ key, OwnEventAt i w key event)
    (hsettles : Settles i writer log.length put w verdict) (hverdict : verdict ≠ .notApplied) :
    Consistent i ⟨(writer.settle verdict put).2, w, (writer.settle verdict put).1.record log⟩ := by
  have hnone : ∀ entry, ¬ (writer.reservation = some entry ∨ writer.retryable = some entry) := by
    intro entry hentry
    rw [hreservation, hretryable] at hentry
    rcases hentry with hentry | hentry <;> cases hentry
  cases verdict with
  | notApplied => exact absurd rfl hverdict
  | applied =>
    refine ⟨?_, .inl ?_, ?_, fun entry hentry => absurd hentry (hnone entry),
      .inl hreservation, ?_⟩
    · simp [JournalWriter.settle, AppendResult.record, hcount]
    · have hdense : Dense i { writer with nextSequence := writer.nextSequence + 1 }
          (log.length + 1) w := hsettles.1.sameInstance ⟨rfl, rfl, rfl⟩
      simpa [JournalWriter.settle, AppendResult.record] using hdense
    · intro event hmem
      rcases List.mem_append.mp hmem with hold | hnew
      · exact hstored event hold
      · obtain rfl := List.mem_singleton.mp hnew
        exact ⟨put.key, hsettles.2⟩
    · exact fun hstop => absurd hlive hstop
  | sequenceConflict =>
    refine ⟨hcount, .inl (hsettles.sameInstance ⟨rfl, rfl, rfl⟩), hstored,
      fun entry hentry => absurd hentry (hnone entry), .inl hreservation, fun _ => hreservation⟩
  | ambiguous =>
    refine ⟨hcount, ?_, hstored, fun entry hentry => absurd hentry (hnone entry),
      .inl hreservation, fun _ => hreservation⟩
    rcases hsettles with hdense | hdense
    · exact .inl (hdense.sameInstance ⟨rfl, rfl, rfl⟩)
    · exact .inr ⟨rfl, hdense.sameInstance ⟨rfl, rfl, rfl⟩⟩

theorem Consistent.forget (h : Consistent i ⟨writer, w, log⟩) :
    Consistent i ⟨{ writer with retryable := none }, w, log⟩ where
  count := h.count
  dense := by
    rcases h.dense with hdense | ⟨hstop, hdense⟩
    · exact .inl (hdense.sameInstance ⟨rfl, rfl, rfl⟩)
    · exact .inr ⟨hstop, hdense.sameInstance ⟨rfl, rfl, rfl⟩⟩
  stored := h.stored
  built := fun put hput => by
    rcases hput with hput | hput
    · exact h.built put (.inl hput)
    · cases hput
  exclusive := .inr rfl
  stopped := h.stopped

theorem nextEntry_consistent
    (h : Consistent i ⟨writer, w, log⟩) :
    SafeAt i (foreign i) (fun _ _ => True)
      (fun result w' => result.2 = { writer with retryable := none } ∧
        result.1.key = writer.keyAt writer.nextSequence ∧
        w'.drawn result.1.event.eventId = some i ∧ Consistent i ⟨result.2, w', log⟩)
      (writer.nextEntry body causation) w := by
  refine nextEntry_rule (fun _ => trivial) (fun _ _ _ => trivial)
    fun w₁ w' eventId occurredAt h₁ hfresh h' _ => ⟨rfl, rfl, ?_, ?_⟩
  · exact h'.drawn _ _ (World.draw_drawn_self _ _ _)
  · exact (((h.foreign h₁).draw hfresh).foreign h').forget

theorem carriesPut_standalone (entry : JournalEntry) :
    CarriesPut i w entry [journalPutAction entry] 0 := by
  refine ⟨rfl, fun action hmem => .inr ⟨entry, ?_, .inl rfl⟩⟩
  exact List.mem_singleton.mp hmem

theorem Consistent.carried {index : Nat}
    (h : Consistent i ⟨writer, w, log⟩)
    (hlive : writer.stopReason = none) (hkey : put.key = writer.keyAt writer.nextSequence)
    (hdrawn : w.drawn put.event.eventId = some i) (hcarries : CarriesPut i w put actions index)
    (htransacted : Transacted actions w.items outcome items) :
    Settles i writer log.length put (w.withItems items)
      (classifyJournalOutcome outcome put index) ∧
    ∀ event ∈ log, ∃ key, OwnEventAt i (w.withItems items) key event := by
  have hcount : writer.nextSequence = log.length + 1 := h.count
  rw [hcount] at hkey
  obtain ⟨hkept, hsettles⟩ := (h.live hlive).settles hkey hdrawn hcarries htransacted
  refine ⟨hsettles, fun event hmem => ?_⟩
  obtain ⟨key, hown⟩ := h.stored event hmem
  exact ⟨key, hkept key event hown⟩

theorem Consistent.unapplied (h : Consistent i ⟨writer, w, log⟩)
    (hdense : Dense i writer log.length (w.withItems items))
    (hstored : ∀ event ∈ log, ∃ key, OwnEventAt i (w.withItems items) key event) :
    Consistent i ⟨writer, w.withItems items, log⟩ :=
  ⟨h.count, .inl hdense, hstored, h.built, h.exclusive, h.stopped⟩

theorem writeEntry_settles {entry : JournalEntry} (hlive : writer.stopReason = none)
    (hkey : entry.key = writer.keyAt writer.nextSequence) (retries : Nat)
    (h : Consistent i ⟨writer, w, log⟩) (hdrawn : w.drawn entry.event.eventId = some i) :
    SafeAt i (foreign i) (fun _ _ => True)
      (fun verdict w' => Settles i writer log.length entry w' verdict ∧
        ∀ event ∈ log, ∃ key, OwnEventAt i w' key event)
      (JournalWriter.writeEntry entry retries) w := by
  refine writeEntry_rule (I := fun w => Consistent i ⟨writer, w, log⟩ ∧
    w.drawn entry.event.eventId = some i) ?_ ?_ ?_ retries ⟨h, hdrawn⟩
  · exact fun w w' hforeign hw => ⟨hw.1.foreign hforeign, hforeign.drawn _ _ hw.2⟩
  · rintro verdict w w' hforeign ⟨hsettles, hstored⟩
    refine ⟨hsettles.foreign hforeign, fun event hmem => ?_⟩
    obtain ⟨key, hown⟩ := hstored event hmem
    exact ⟨key, (hforeign.ownEventAt_iff key event).mpr hown⟩
  · rintro w outcome items ⟨h, hdrawn⟩ htransacted
    obtain ⟨hsettles, hstored⟩ := h.carried hlive hkey hdrawn (carriesPut_standalone entry) htransacted
    refine ⟨trivial, ⟨hsettles, hstored⟩, fun hclass => ?_⟩
    rw [hclass] at hsettles
    exact ⟨h.unapplied hsettles hstored, hdrawn⟩

theorem append_consistent
    (h : Consistent i ⟨writer, w, log⟩) :
    SafeAt i (foreign i) (fun _ _ => True)
      (fun result w' => Consistent i ⟨result.2, w', result.1.record log⟩)
      (writer.append body causation) w := by
  unfold JournalWriter.append
  cases hstop : writer.stopReason with
  | some reason => exact SafeOk.pure fun w' h' => h.foreign h'
  | none =>
    cases hreserved : writer.reservation with
    | some put => exact SafeOk.throw
    | none =>
      refine SafeOk.bind (nextEntry_consistent h) ?_
      rintro ⟨entry, writer₁⟩ w₁ ⟨rfl, hkey, hdrawn, h₁⟩
      have hlive : ({ writer with retryable := none } : JournalWriter).stopReason = none := hstop
      refine SafeOk.bind (writeEntry_settles hlive hkey _ h₁ hdrawn) ?_
      rintro verdict w₂ ⟨hsettles, hstored⟩
      have hsettled : verdict ≠ .notApplied → _ :=
        Consistent.settle h₁.count hlive hreserved rfl hstored hsettles
      cases verdict with
      | applied => exact SafeOk.pure fun w' h' => (hsettled (by simp)).foreign h'
      | ambiguous => exact SafeOk.pure fun w' h' => (hsettled (by simp)).foreign h'
      | sequenceConflict => exact SafeOk.pure fun w' h' => (hsettled (by simp)).foreign h'
      | notApplied =>
        -- the retries are exhausted and nothing was stored
        have hstopped : Consistent i ⟨{ writer with
            retryable := none, stopReason := some .definitiveRetriesExhausted }, w₂, log⟩ := by
          refine ⟨h₁.count, .inl (Dense.sameInstance hsettles ⟨rfl, rfl, rfl⟩), hstored, ?_,
            .inl hreserved, fun _ => hreserved⟩
          rintro put (hput | hput)
          · exact absurd (hreserved.symm.trans hput) (by simp)
          · cases hput
        exact SafeOk.pure fun w' h' => hstopped.foreign h'

theorem Consistent.reserve (h : Consistent i ⟨writer, w, log⟩)
    (hlive : writer.stopReason = none) (hkey : put.key = writer.keyAt writer.nextSequence)
    (hdrawn : w.drawn put.event.eventId = some i) :
    Consistent i ⟨(writer.reserve put).2, w, log⟩ where
  count := h.count
  dense := .inl ((h.live hlive).sameInstance ⟨rfl, rfl, rfl⟩)
  stored := h.stored
  built := fun other hother => by
    rcases hother with hother | hother
    · obtain rfl := Option.some.inj hother
      exact ⟨hkey, hdrawn⟩
    · cases hother
  exclusive := .inr rfl
  stopped := fun hstop => absurd hlive hstop

/-- One `prepare` keeps the session consistent. -/
theorem prepare_consistent
    (h : Consistent i ⟨writer, w, log⟩) :
    SafeAt i (foreign i) (fun _ _ => True)
      (fun result w' => Consistent i ⟨result.2, w', log⟩) (writer.prepare body causation) w := by
  unfold JournalWriter.prepare
  cases hstop : writer.stopReason with
  | some reason => exact SafeOk.pure fun w' h' => h.foreign h'
  | none =>
    cases hreserved : writer.reservation with
    | some put => exact SafeOk.throw
    | none =>
      refine SafeOk.bind (nextEntry_consistent h) ?_
      rintro ⟨entry, writer₁⟩ w₁ ⟨rfl, hkey, hdrawn, h₁⟩
      have hreserve := h₁.reserve hstop hkey hdrawn
      exact SafeOk.pure fun w' h' => hreserve.foreign h'

/-- One `prepareRetry` keeps the session consistent. -/
theorem prepareRetry_consistent {result : PrepareResult}
    (h : Consistent i ⟨writer, w, log⟩) (hretry : writer.prepareRetry put = .ok (result, writer')) :
    Consistent i ⟨writer', w, log⟩ := by
  unfold JournalWriter.prepareRetry at hretry
  cases hstop : writer.stopReason with
  | some reason =>
    rw [hstop] at hretry
    obtain ⟨-, rfl⟩ := Prod.mk.inj (Except.ok.inj hretry)
    exact h
  | none =>
    rw [hstop] at hretry
    dsimp only at hretry
    split at hretry
    · rename_i hidle
      obtain ⟨-, rfl⟩ := Prod.mk.inj (Except.ok.inj hretry)
      obtain ⟨hkey, hdrawn⟩ := h.built put (.inr hidle.2)
      exact h.reserve hstop hkey hdrawn
    · cases hretry

/-- One `confirm`, with the outcome of the transaction that carried the put, keeps
the session consistent. -/
theorem confirm_consistent {index : Nat}
    {result : ConfirmResult}
    (h : Consistent i ⟨writer, w, log⟩) (hcarries : CarriesPut i w put actions index)
    (htransacted : Transacted actions w.items outcome items)
    (hconfirm : writer.confirm put outcome index = .ok (result, writer')) :
    Consistent i ⟨writer', w.withItems items, result.record log⟩ := by
  unfold JournalWriter.confirm at hconfirm
  split at hconfirm
  · rename_i hreserved
    have hlive : writer.stopReason = none := by
      by_contra hstop
      have hnone : writer.reservation = none := h.stopped hstop
      rw [hreserved] at hnone
      cases hnone
    have hretryable : writer.retryable = none := by
      rcases h.exclusive with hnone | hnone
      · exact absurd (hreserved.symm.trans hnone) (by simp)
      · exact hnone
    obtain ⟨hkey, hdrawn⟩ := h.built put (.inl hreserved)
    obtain ⟨hsettles, hstored⟩ := h.carried hlive hkey hdrawn hcarries htransacted
    have hidle : Settles i { writer with reservation := none } log.length put (w.withItems items)
        (classifyJournalOutcome outcome put index) := hsettles.sameInstance ⟨rfl, rfl, rfl⟩
    have hcount : ({ writer with reservation := none } : JournalWriter).nextSequence =
        log.length + 1 := h.count
    have hsettled : classifyJournalOutcome outcome put index ≠ .notApplied → _ :=
      Consistent.settle hcount hlive rfl hretryable hstored hidle
    generalize classifyJournalOutcome outcome put index = verdict at *
    cases verdict with
    | applied =>
      obtain ⟨rfl, rfl⟩ := Prod.mk.inj (Except.ok.inj hconfirm)
      exact hsettled (by simp)
    | ambiguous =>
      obtain ⟨rfl, rfl⟩ := Prod.mk.inj (Except.ok.inj hconfirm)
      exact hsettled (by simp)
    | sequenceConflict =>
      obtain ⟨rfl, rfl⟩ := Prod.mk.inj (Except.ok.inj hconfirm)
      exact hsettled (by simp)
    | notApplied =>
      -- the sequence is free again and the put may be resubmitted
      obtain ⟨rfl, rfl⟩ := Prod.mk.inj (Except.ok.inj hconfirm)
      refine ⟨h.count, .inl (Dense.sameInstance hsettles ⟨rfl, rfl, rfl⟩), hstored, ?_,
        .inl rfl, fun hstop => absurd hlive hstop⟩
      rintro other (hother | hother)
      · cases hother
      · obtain rfl := Option.some.inj hother
        exact ⟨hkey, hdrawn⟩
  · cases hconfirm

/-! ## Histories -/

variable {s' : Session ι}

theorem WriterCall.consistent {s : Session ι} (hcall : WriterCall i s s') (h : Consistent i s) :
    Consistent i s' := by
  cases hcall with
  | append hrun => exact hrun.result (append_consistent h) _ rfl
  | prepare hrun => exact hrun.result (prepare_consistent h) _ rfl
  | prepareRetry hforeign hretry => exact prepareRetry_consistent (h.foreign hforeign) hretry
  | confirm hbefore hcarries htransact hafter hconfirm =>
    obtain ⟨items, htransacted, rfl⟩ := answers_transact htransact
    exact (confirm_consistent (h.foreign hbefore) hcarries htransacted hconfirm).foreign hafter

theorem WriterCall.stopped {s : Session ι} (hcall : WriterCall i s s') (h : Consistent i s)
    (hstop : s.writer.stopReason ≠ none) :
    s'.writer = s.writer ∧ s'.appended = s.appended ∧ Foreign i s.world s'.world := by
  obtain ⟨reason, hreason⟩ := Option.ne_none_iff_exists'.mp hstop
  cases hcall with
  | append hrun =>
    simp only [JournalWriter.append] at hrun hreason
    rw [hreason] at hrun
    cases hrun with
    | ret hforeign => exact ⟨rfl, rfl, hforeign⟩
  | prepare hrun =>
    simp only [JournalWriter.prepare] at hrun hreason
    rw [hreason] at hrun
    cases hrun with
    | ret hforeign => exact ⟨rfl, rfl, hforeign⟩
  | prepareRetry hforeign hretry =>
    simp only [JournalWriter.prepareRetry] at hretry hreason
    rw [hreason] at hretry
    obtain ⟨-, rfl⟩ := Prod.mk.inj (Except.ok.inj hretry)
    exact ⟨rfl, rfl, hforeign⟩
  | confirm hbefore hcarries htransact hafter hconfirm =>
    -- a stopped writer has nothing reserved, so it refuses to confirm
    have hnone := h.stopped hstop
    simp only [JournalWriter.confirm] at hconfirm hnone
    rw [hnone] at hconfirm
    simp at hconfirm

abbrev WriterHistory (i : ι) : Session ι → Session ι → Prop :=
  Relation.ReflTransGen (WriterCall i)

theorem WriterHistory.consistent {s : Session ι} (hhistory : WriterHistory i s s')
    (h : Consistent i s) : Consistent i s' := by
  induction hhistory with
  | refl => exact h
  | tail _ hcall ih => exact hcall.consistent ih

theorem WriterHistory.stopped {s : Session ι} (hhistory : WriterHistory i s s') (h : Consistent i s)
    (hstop : s.writer.stopReason ≠ none) :
    s'.writer = s.writer ∧ s'.appended = s.appended ∧ Foreign i s.world s'.world := by
  induction hhistory with
  | refl => exact ⟨rfl, rfl, (foreign i).refl _⟩
  | tail hbefore hcall ih =>
    obtain ⟨hwriter, happended, hforeign⟩ := ih
    obtain ⟨hwriter', happended', hforeign'⟩ := hcall.stopped
      (WriterHistory.consistent hbefore h) (by rw [hwriter]; exact hstop)
    exact ⟨hwriter'.trans hwriter, happended'.trans happended,
      (foreign i).trans hforeign hforeign'⟩

/-- A new writer of a new instance: nothing in the store is its own yet. -/
structure Opened (i : ι) (s : Session ι) : Prop where
  sequence : s.writer.nextSequence = 1
  live : s.writer.stopReason = none
  reservation : s.writer.reservation = none
  retryable : s.writer.retryable = none
  appended : s.appended = []
  events : ∀ key event, StoredAt s.world.items key event →
    ∃ j, j ≠ i ∧ s.world.drawn event.eventId = some j

theorem Opened.consistent {s : Session ι} (h : Opened i s) : Consistent i s where
  count := by
    rw [h.sequence, h.appended]
    rfl
  dense := by
    rw [h.appended]
    refine .inl ⟨?_, ?_, ?_⟩
    · intro key event hstored
      obtain ⟨j, -, hdrawn⟩ := h.events key event hstored
      exact ⟨j, hdrawn⟩
    · rintro key event ⟨hstored, hmine⟩
      obtain ⟨j, hne, hdrawn⟩ := h.events key event hstored
      exact absurd (Option.some.inj (hdrawn.symm.trans hmine)) hne
    · intro sequence hle hge
      have hlength : ([] : List JournalEvent).length = 0 := rfl
      omega
  stored := fun event hmem => by
    rw [h.appended] at hmem
    cases hmem
  built := fun put hput => by
    rw [h.reservation, h.retryable] at hput
    rcases hput with hput | hput <;> cases hput
  exclusive := .inl h.reservation
  stopped := fun _ => h.reservation

/-- After any history of calls the writer does not refuse: its events stand under
exactly the sequences `1 .. k`, one under each; every `appended` result names a
stored event; `k` is the number of `appended` results, or one more when the last
write was ambiguous; and once the writer has stopped no further history stores
another event of it. -/
theorem history_sequences_dense {s₀ s : Session ι} (hopened : Opened i s₀)
    (hhistory : WriterHistory i s₀ s) :
    ∃ k, (∀ key, (∃ event, OwnEventAt i s.world key event) ↔
        ∃ sequence, 1 ≤ sequence ∧ sequence ≤ k ∧ key = s.writer.keyAt sequence) ∧
      (∀ key event event', OwnEventAt i s.world key event → OwnEventAt i s.world key event' →
        event = event') ∧
      (∀ event ∈ s.appended, ∃ key, OwnEventAt i s.world key event) ∧
      (k = s.appended.length ∨
        (k = s.appended.length + 1 ∧ s.writer.stopReason = some .ambiguousAppend)) ∧
      (s.writer.stopReason ≠ none → ∀ s', WriterHistory i s s' → ∀ key event,
        OwnEventAt i s'.world key event ↔ OwnEventAt i s.world key event) := by
  have h := WriterHistory.consistent hhistory hopened.consistent
  have hdense : ∀ k, Dense i s.writer k s.world → ∀ key,
      (∃ event, OwnEventAt i s.world key event) ↔
        ∃ sequence, 1 ≤ sequence ∧ sequence ≤ k ∧ key = s.writer.keyAt sequence := by
    intro k hk key
    constructor
    · rintro ⟨event, hown⟩
      exact hk.within key event hown
    · rintro ⟨sequence, hle, hge, rfl⟩
      exact hk.filled sequence hle hge
  have hunique : ∀ key event event', OwnEventAt i s.world key event →
      OwnEventAt i s.world key event' → event = event' :=
    fun key event event' hown hown' => hown.1.unique hown'.1
  have hafter : s.writer.stopReason ≠ none → ∀ s', WriterHistory i s s' → ∀ key event,
      OwnEventAt i s'.world key event ↔ OwnEventAt i s.world key event := by
    intro hstop s' hmore
    obtain ⟨-, -, hforeign⟩ := WriterHistory.stopped hmore h hstop
    exact hforeign.ownEventAt_iff
  rcases h.dense with hk | ⟨hstop, hk⟩
  · exact ⟨s.appended.length, hdense _ hk, hunique, h.stored, .inl rfl, hafter⟩
  · exact ⟨s.appended.length + 1, hdense _ hk, hunique, h.stored, .inr ⟨rfl, hstop⟩, hafter⟩

def newSession : Session Unit :=
  ⟨{ table := .callerJournal, source := .conventionalCaller, instanceId := 0
     maxDefinitiveRetries := 2 }, ⟨∅, fun _ => none, []⟩, []⟩

theorem newSession_opened : Opened () newSession where
  sequence := rfl
  live := rfl
  reservation := rfl
  retryable := rfl
  appended := rfl
  events := fun key event hstored => by cases hstored

theorem append_played {choices : List Choice}
    {result : AppendResult}
    (h : Program.play (machine ι) i choices (writer.append body causation).run w =
      some (.ok (result, writer'), w')) :
    WriterCall i ⟨writer, w, log⟩ ⟨writer', w', result.record log⟩ :=
  .append (Program.play_runsTo h)

theorem newSession_plays : ∃ result writer w result' writer' w',
    Program.play (machine Unit) () [.id 1, .reading 0, .fate .answered]
      (newSession.writer.append (.innerExecutionExhausted "request" "arn" 1 1 7) []).run
      newSession.world = some (.ok (result, writer), w) ∧
    Program.play (machine Unit) () [.id 2, .reading 0, .fate (.lost "TimeoutError" true)]
      (writer.append (.innerExecutionExhausted "request" "arn" 2 1 7) []).run
      w = some (.ok (result', writer'), w') ∧
    (result'.record (result.record [])).length = 1 ∧
    writer'.stopReason = some .ambiguousAppend :=
  ⟨_, _, _, _, _, _, rfl, rfl, rfl, rfl⟩

theorem history_sequences_dense_ambiguous :
    ∃ s, WriterHistory () newSession s ∧ s.appended.length = 1 ∧
      s.writer.stopReason = some .ambiguousAppend ∧
      ∀ s', WriterHistory () s s' → ∀ key event,
        OwnEventAt () s'.world key event ↔ OwnEventAt () s.world key event := by
  obtain ⟨result, writer, w, result', writer', w', hfirst, hsecond, hlength, hstop⟩ :=
    newSession_plays
  have hhistory : WriterHistory () newSession ⟨writer', w', result'.record (result.record [])⟩ :=
    (Relation.ReflTransGen.single (append_played hfirst)).tail (append_played hsecond)
  obtain ⟨k, -, -, -, -, hafter⟩ := history_sequences_dense newSession_opened hhistory
  exact ⟨_, hhistory, hlength, hstop, hafter (by simp [hstop])⟩

end RefundStudy.Journal
