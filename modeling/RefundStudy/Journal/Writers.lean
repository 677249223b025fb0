/-
  Any number of journal writers over one partition, interleaved call by call.

  In every reachable world each instance's sequences are dense from one (`DenseKeys`), whoever
  drew which id.
-/
import RefundStudy.Journal.SortKey
import RefundStudy.Journal.History

set_option autoImplicit false

namespace RefundStudy.Journal

open Foundation Record RefundStudy.Runtime

variable {writer' : JournalWriter} {items : Items}

/-! ## Clients -/

/-- The other actions of a transaction that carries a put: none of them writes a journal key. -/
structure Companions where
  before : List (WriteAction ItemOf)
  after : List (WriteAction ItemOf)
  token : Uuid4
  apart : ∀ action ∈ before ++ after, ∀ key, action.key ≠ .journal key

def Companions.around (companions : Companions) (put : JournalEntry) :
    List (WriteAction ItemOf) :=
  companions.before ++ journalPutAction put :: companions.after

inductive WriterOp where
  | append (body : EventBody) (causation : List Uuid4)
  | transact (body : EventBody) (causation : List Uuid4) (companions : Companions)
  | resubmit (companions : Companions)

/-- The transaction of a reserved put and its confirmation. -/
def submit (writer : JournalWriter) (put : JournalEntry) (companions : Companions) :
    Async JournalWriter := do
  let outcome ← await (.transact (companions.around put) companions.token)
  let (_, writer) ← sync (writer.confirm put outcome companions.before.length)
  pure writer

/-- What a client does with the result of `prepare` or `prepareRetry`. -/
def submitPrepared (companions : Companions) :
    PrepareResult × JournalWriter → Async JournalWriter
  | (.prepared put, writer) => submit writer put companions
  | (.stopped _, writer) => pure writer

def WriterOp.run (writer : JournalWriter) : WriterOp → Async JournalWriter
  | .append body causation => do
    let (_, writer) ← writer.append body causation
    pure writer
  | .transact body causation companions => do
    submitPrepared companions (← writer.prepare body causation)
  | .resubmit companions =>
    match writer.retryable with
    | none => pure writer
    | some put => do submitPrepared companions (← sync (writer.prepareRetry put))

/-- A client runs its operations one after the other; it ends at the first that throws. -/
def runOps (writer : JournalWriter) : List WriterOp → Async JournalWriter
  | [] => pure writer
  | op :: rest => do
    let writer ← op.run writer
    runOps writer rest

/-- A source instance with what its client will do. -/
structure WriterClient where
  table : JournalTable
  source : EventSource
  instanceId : Uuid4
  maxDefinitiveRetries : Nat
  ops : List WriterOp
  uuid : instanceId < uuidBound

def WriterClient.writer (client : WriterClient) : JournalWriter where
  table := client.table
  source := client.source
  instanceId := client.instanceId
  maxDefinitiveRetries := client.maxDefinitiveRetries

/-! ## One step of the store -/

structure WellKeyed (key : JournalKey) (event : JournalEvent) : Prop where
  source : event.source = key.source
  instanceId : event.sourceInstanceId = key.instanceId
  sequence : event.sourceSequence = key.sequence
  positive : 1 ≤ key.sequence
  representable : Representable key

/-- Some event is stored under the key. -/
def Occupied (items : Items) (key : JournalKey) : Prop := ∃ event, StoredAt items key event

/-- The key is the first of its instance, or the one before it is occupied. -/
def FollowsStored (items : Items) (key : JournalKey) : Prop :=
  key.sequence = 1 ∨ ∃ before, key = successor before ∧ Occupied items before

/-- What any step of the writers does to the stored events. -/
structure JournalStep (items items' : Items) : Prop where
  kept : ∀ key event, StoredAt items key event → StoredAt items' key event
  added : ∀ key event, StoredAt items' key event →
    StoredAt items key event ∨ WellKeyed key event ∧ FollowsStored items key

/-- Every stored event says what its key says, and stands behind a stored predecessor. -/
def DenseKeys (items : Items) : Prop :=
  ∀ key event, StoredAt items key event → WellKeyed key event ∧ FollowsStored items key

def Keeps (items items' : Items) : Prop :=
  ∀ key event, StoredAt items key event → StoredAt items' key event

section Steps

variable {items items' : Items} {key : JournalKey} {event : JournalEvent} {put : JournalEntry}
  {actions : List (WriteAction ItemOf)} {outcome : WriteOutcome ItemOf} {index : Nat}

theorem JournalStep.refl (items : Items) : JournalStep items items :=
  ⟨fun _ _ h => h, fun _ _ h => .inl h⟩

theorem Keeps.followsStored (h : Keeps items items') (hfollows : FollowsStored items key) :
    FollowsStored items' key := by
  rcases hfollows with hfirst | ⟨before, hkey, event, hstored⟩
  · exact .inl hfirst
  · exact .inr ⟨before, hkey, event, h before event hstored⟩

theorem JournalStep.denseKeys (h : JournalStep items items') (hdense : DenseKeys items) :
    DenseKeys items' := by
  have hkeeps : Keeps items items' := h.kept
  intro key event hstored
  rcases h.added key event hstored with hold | ⟨hkeyed, hfollows⟩
  · obtain ⟨hkeyed, hfollows⟩ := hdense key event hold
    exact ⟨hkeyed, hkeeps.followsStored hfollows⟩
  · exact ⟨hkeyed, hkeeps.followsStored hfollows⟩

/-- The transaction puts the entry at this index and writes no other journal key. -/
structure SolePut (put : JournalEntry) (actions : List (WriteAction ItemOf)) (index : Nat) :
    Prop where
  get : actions[index]? = some (journalPutAction put)
  others : ∀ action ∈ actions, (∀ key, action.key ≠ .journal key) ∨
    ∃ entry, action = journalPutAction entry ∧ entry = put

theorem solePut_around (companions : Companions) (put : JournalEntry) :
    SolePut put (companions.around put) companions.before.length := by
  constructor
  · simp [Companions.around]
  · intro action hmem
    rcases List.mem_append.mp hmem with hbefore | hrest
    · exact .inl (companions.apart action (List.mem_append_left _ hbefore))
    · rcases List.mem_cons.mp hrest with rfl | hafter
      · exact .inr ⟨put, rfl, rfl⟩
      · exact .inl (companions.apart action (List.mem_append_right _ hafter))

theorem solePut_standalone (put : JournalEntry) : SolePut put [journalPutAction put] 0 := by
  refine ⟨rfl, fun action hmem => .inr ⟨put, ?_, rfl⟩⟩
  exact List.mem_singleton.mp hmem

/-- An applied transaction overwrites no event: a put finds its key absent. -/
theorem SolePut.kept (h : SolePut put actions index) (happlies : Applies actions items) :
    Keeps items (applyAll actions items) := by
  intro key event hstored
  refine @storedAt_applyAll_put actions items ⟨key, event⟩ (fun action hmem => ?_) (.inr hstored)
  rcases h.others action hmem with hother | ⟨entry, rfl, -⟩
  · exact .inl hother
  · refine .inr ⟨entry, rfl, .inr ?_⟩
    rintro rfl
    have habsent := (itemAbsent_iff _).mp (happlies.condition hmem)
    rw [StoredAt] at hstored
    exact absurd (hstored.symm.trans habsent) (by simp)

theorem SolePut.stored (h : SolePut put actions index) :
    StoredAt (applyAll actions items) put.key put.event := by
  refine storedAt_applyAll_put (fun action hmem => ?_) (.inl (List.mem_of_getElem? h.get))
  rcases h.others action hmem with hother | ⟨entry, hentry, hsame⟩
  · exact .inl hother
  · exact .inr ⟨entry, hentry, .inl hsame⟩

theorem SolePut.journalStep (h : SolePut put actions index) (hkeyed : WellKeyed put.key put.event)
    (hfollows : FollowsStored items put.key) (htransacted : Transacted actions items outcome items') :
    JournalStep items items' := by
  have happlied : Applies actions items → JournalStep items (applyAll actions items) := by
    intro happlies
    refine ⟨h.kept happlies, fun key event hstored => ?_⟩
    rcases storedAt_applyAll h.others hstored with hold | ⟨entry, rfl, rfl, rfl⟩
    · exact .inl hold
    · exact .inr ⟨hkeyed, hfollows⟩
  cases htransacted with
  | applied happlies => exact happlied happlies
  | lostApplied code happlies => exact happlied happlies
  | lost code => exact .refl _
  | refused code => exact .refl _
  | conditionFailed hfailing => exact .refl _

/-- An `applied` verdict means that the key of the put is occupied. -/
theorem SolePut.occupied (h : SolePut put actions index)
    (htransacted : Transacted actions items outcome items')
    (hverdict : classifyJournalOutcome outcome put index = .applied) : Occupied items' put.key := by
  cases htransacted with
  | applied happlies => exact ⟨put.event, h.stored⟩
  | lostApplied code happlies => cases hverdict
  | lost code => cases hverdict
  | refused code => cases hverdict
  | @conditionFailed failed existing hfailing =>
    simp only [classifyJournalOutcome] at hverdict
    split at hverdict
    · cases hverdict
    · rename_i hindex
      obtain rfl : failed = index := Decidable.of_not_not hindex
      obtain ⟨offset, action, hfound, hget, -, hexisting⟩ := firstFailing_get hfailing
      obtain rfl : offset = failed := by omega
      obtain rfl := Option.some.inj (h.get.symm.trans hget)
      cases hlookup : items.lookup (.journal put.key) with
      | none =>
        simp only [journalPutAction, hlookup, Option.map_none] at hexisting
        rw [hexisting] at hverdict
        cases hverdict
      | some event => exact ⟨event, hlookup⟩

end Steps

/-! ## What a writer knows -/

/-- The next sequence stands behind a stored one, and whatever is reserved or may be submitted
again is an entry for it. -/
structure Anchored (writer : JournalWriter) (items : Items) : Prop where
  uuid : writer.instanceId < uuidBound
  follows : FollowsStored items (writer.keyAt writer.nextSequence)
  positive : 1 ≤ writer.nextSequence
  puts : ∀ put, writer.reservation = some put ∨ writer.retryable = some put →
    put.key = writer.keyAt writer.nextSequence ∧ WellKeyed put.key put.event

section Knows

variable {writer : JournalWriter} {items items' : Items} {put : JournalEntry}

theorem Anchored.keeps (h : Anchored writer items) (hkeeps : Keeps items items') :
    Anchored writer items' :=
  ⟨h.uuid, hkeeps.followsStored h.follows, h.positive, h.puts⟩

theorem Anchored.same (h : Anchored writer items)
    (hsame : SameInstance writer writer') (hnext : writer'.nextSequence = writer.nextSequence)
    (hputs : ∀ put, writer'.reservation = some put ∨ writer'.retryable = some put →
      put.key = writer.keyAt writer.nextSequence ∧ WellKeyed put.key put.event) :
    Anchored writer' items := by
  have hkey : writer'.keyAt writer'.nextSequence = writer.keyAt writer.nextSequence := by
    rw [hsame.keyAt, hnext]
  refine ⟨?_, ?_, ?_, ?_⟩
  · rw [hsame.instanceId]
    exact h.uuid
  · rw [hkey]
    exact h.follows
  · rw [hnext]
    exact h.positive
  · rw [hkey]
    exact hputs

/-- After an event is stored under the next sequence the writer may go on behind it. -/
theorem Anchored.advance (h : Anchored writer items)
    (hsame : SameInstance writer writer') (hnext : writer'.nextSequence = writer.nextSequence + 1)
    (hreservation : writer'.reservation = none) (hretryable : writer'.retryable = none)
    (hoccupied : Occupied items' (writer.keyAt writer.nextSequence)) : Anchored writer' items' := by
  refine ⟨?_, .inr ⟨writer.keyAt writer.nextSequence, ?_, hoccupied⟩, ?_, fun put hput => ?_⟩
  · rw [hsame.instanceId]
    exact h.uuid
  · rw [hsame.keyAt, hnext]
    rfl
  · rw [hnext]
    exact Nat.le_add_left _ _
  · rw [hreservation, hretryable] at hput
    rcases hput with hput | hput <;> cases hput

end Knows

/-! ## One operation of a client -/

section Operations

variable {ι : Type} {i : ι} {R : Interference (World ι)} {writer : JournalWriter} {w : World ι}
  {put : JournalEntry} {body : EventBody} {causation : List Uuid4}

def KeepsItems (R : Interference (World ι)) : Prop :=
  ∀ w w', R.rel w w' → Keeps w.items w'.items

def Steps (w w' : World ι) : Prop := JournalStep w.items w'.items

theorem nextEntry_anchored (hR : KeepsItems R) (h : Anchored writer w.items) :
    SafeAt i R Steps (fun result w' => result.2 = { writer with retryable := none } ∧
        result.1.key = writer.keyAt writer.nextSequence ∧
        WellKeyed result.1.key result.1.event ∧ Anchored writer w'.items)
      (writer.nextEntry body causation) w := by
  refine nextEntry_rule (fun _ => JournalStep.refl _) (fun _ _ _ => JournalStep.refl _)
    fun w₁ w' eventId occurredAt h₁ _ h' hsequence => ⟨rfl, rfl, ?_, ?_⟩
  · have hrange : 1 ≤ writer.nextSequence ∧ writer.nextSequence ≤ maxSourceSequence := by
      simpa [isSourceSequence] using hsequence
    refine ⟨rfl, rfl, rfl, hrange.1, h.uuid, ?_⟩
    have hmax := hrange.2
    unfold maxSourceSequence at hmax
    show writer.nextSequence < 10 ^ 12
    omega
  · have hfirst : Anchored writer w₁.items := h.keeps (hR _ _ h₁)
    have hdrawn : Anchored writer (w₁.draw i eventId).items := hfirst
    exact hdrawn.keeps (hR _ _ h')

/-- The tries of an append: each is a step, and a verdict `applied` means the key is occupied. -/
theorem writeEntry_anchored (hR : KeepsItems R) (h : Anchored writer w.items)
    (hkey : put.key = writer.keyAt writer.nextSequence) (hkeyed : WellKeyed put.key put.event)
    (retries : Nat) :
    SafeAt i R Steps (fun verdict w' => Anchored writer w'.items ∧
        (verdict = .applied → Occupied w'.items put.key))
      (JournalWriter.writeEntry put retries) w := by
  refine writeEntry_rule (I := fun w => Anchored writer w.items) ?_ ?_ ?_ retries h
  · exact fun w w' h hanchored => hanchored.keeps (hR _ _ h)
  · rintro verdict w w' h ⟨hanchored, hoccupied⟩
    refine ⟨hanchored.keeps (hR _ _ h), fun hverdict => ?_⟩
    obtain ⟨event, hstored⟩ := hoccupied hverdict
    exact ⟨event, hR _ _ h _ _ hstored⟩
  · intro w outcome items hanchored htransacted
    have hstep := (solePut_standalone put).journalStep hkeyed (hkey ▸ hanchored.follows) htransacted
    have hafter := hanchored.keeps hstep.kept
    exact ⟨hstep, ⟨hafter, (solePut_standalone put).occupied htransacted⟩, fun _ => hafter⟩

/-- What is known of a writer between two operations. -/
def AnchoredAfter (writer : JournalWriter) (w : World ι) : Prop := Anchored writer w.items

theorem Anchored.idle (h : Anchored writer items)
    (hsame : SameInstance writer writer') (hnext : writer'.nextSequence = writer.nextSequence)
    (hreservation : writer'.reservation = none) (hretryable : writer'.retryable = none) :
    Anchored writer' items := by
  refine h.same hsame hnext fun put hput => ?_
  rw [hreservation, hretryable] at hput
  rcases hput with hput | hput <;> cases hput

theorem settle_anchored {verdict : JournalOutcomeClass}
    (h : Anchored writer items) (hkey : put.key = writer.keyAt writer.nextSequence)
    (hreservation : writer.reservation = none) (hretryable : writer.retryable = none)
    (hverdict : verdict ≠ .notApplied)
    (hoccupied : verdict = .applied → Occupied items put.key) :
    Anchored (writer.settle verdict put).2 items := by
  cases verdict with
  | notApplied => exact absurd rfl hverdict
  | ambiguous => exact h.idle ⟨rfl, rfl, rfl⟩ rfl hreservation hretryable
  | sequenceConflict => exact h.idle ⟨rfl, rfl, rfl⟩ rfl hreservation hretryable
  | applied =>
    have hat : Occupied items (writer.keyAt writer.nextSequence) := hkey ▸ hoccupied rfl
    exact h.advance ⟨rfl, rfl, rfl⟩ rfl hreservation hretryable hat

theorem append_anchored (hR : KeepsItems R) (h : Anchored writer w.items) :
    SafeAt i R Steps (fun result => AnchoredAfter result.2) (writer.append body causation) w := by
  unfold JournalWriter.append
  cases hstop : writer.stopReason with
  | some reason => exact SafeOk.pure fun w' h' => h.keeps (hR _ _ h')
  | none =>
    cases hreserved : writer.reservation with
    | some put => exact SafeOk.throw
    | none =>
      apply SafeOk.bind (nextEntry_anchored hR h)
      rintro ⟨entry, writer₁⟩ w₁ ⟨rfl, hkey, hkeyed, h₁⟩
      apply SafeOk.bind (writeEntry_anchored hR h₁ hkey hkeyed _)
      rintro verdict w₂ ⟨h₂, hoccupied⟩
      have hidle : Anchored { writer with retryable := none } w₂.items :=
        h₂.idle ⟨rfl, rfl, rfl⟩ rfl hreserved rfl
      split
      · refine SafeOk.pure fun w' h' => Anchored.keeps ?_ (hR _ _ h')
        exact h₂.idle ⟨rfl, rfl, rfl⟩ rfl hreserved rfl
      · rename_i hverdict
        refine SafeOk.pure fun w' h' => Anchored.keeps ?_ (hR _ _ h')
        exact settle_anchored hidle hkey hreserved rfl hverdict hoccupied

/-- What `prepare` and `prepareRetry` hand out is reserved by the writer. -/
def ReservedAfter (result : PrepareResult × JournalWriter) (w : World ι) : Prop :=
  Anchored result.2 w.items ∧ ∀ put, result.1 = .prepared put → result.2.reservation = some put ∧
    result.2.retryable = none

theorem reserve_anchored (h : Anchored writer items)
    (hkey : put.key = writer.keyAt writer.nextSequence) (hkeyed : WellKeyed put.key put.event) :
    Anchored (writer.reserve put).2 items := by
  refine h.same ⟨rfl, rfl, rfl⟩ rfl fun other hother => ?_
  rcases hother with hother | hother
  · obtain rfl : put = other := Option.some.inj hother
    exact ⟨hkey, hkeyed⟩
  · cases hother

theorem prepare_anchored (hR : KeepsItems R) (h : Anchored writer w.items) :
    SafeAt i R Steps ReservedAfter (writer.prepare body causation) w := by
  unfold JournalWriter.prepare
  cases hstop : writer.stopReason with
  | some reason =>
    refine SafeOk.pure fun w' h' => ⟨h.keeps (hR _ _ h'), fun put hput => ?_⟩
    cases hput
  | none =>
    cases hreserved : writer.reservation with
    | some put => exact SafeOk.throw
    | none =>
      apply SafeOk.bind (nextEntry_anchored hR h)
      rintro ⟨entry, writer₁⟩ w₁ ⟨rfl, hkey, hkeyed, h₁⟩
      refine SafeOk.pure fun w' h' => ⟨?_, fun put hput => ?_⟩
      · have hidle : Anchored { writer with retryable := none } w₁.items :=
          h₁.idle ⟨rfl, rfl, rfl⟩ rfl hreserved rfl
        exact (reserve_anchored hidle hkey hkeyed).keeps (hR _ _ h')
      · obtain rfl : entry = put := PrepareResult.prepared.inj hput
        exact ⟨rfl, rfl⟩

theorem confirm_anchored {result : ConfirmResult}
    {outcome : WriteOutcome ItemOf} {index : Nat} (h : Anchored writer items)
    (hkey : put.key = writer.keyAt writer.nextSequence) (hkeyed : WellKeyed put.key put.event)
    (hretryable : writer.retryable = none)
    (hoccupied : classifyJournalOutcome outcome put index = .applied → Occupied items put.key)
    (hconfirm : writer.confirm put outcome index = .ok (result, writer')) :
    Anchored writer' items := by
  unfold JournalWriter.confirm at hconfirm
  split at hconfirm
  · simp only at hconfirm
    split at hconfirm
    · obtain ⟨-, rfl⟩ := Prod.mk.inj (Except.ok.inj hconfirm)
      refine h.same ⟨rfl, rfl, rfl⟩ rfl fun other hother => ?_
      rcases hother with hother | hother
      · cases hother
      · obtain rfl : put = other := Option.some.inj hother
        exact ⟨hkey, hkeyed⟩
    · rename_i hverdict
      have hfree : Anchored { writer with reservation := none } items :=
        h.idle ⟨rfl, rfl, rfl⟩ rfl rfl hretryable
      have hsettled := settle_anchored hfree hkey rfl hretryable hverdict hoccupied
      split at hconfirm
      · rename_i hsettle
        obtain ⟨-, rfl⟩ := Prod.mk.inj (Except.ok.inj hconfirm)
        rw [hsettle] at hsettled
        exact hsettled
      · rename_i hsettle
        obtain ⟨-, rfl⟩ := Prod.mk.inj (Except.ok.inj hconfirm)
        rw [hsettle] at hsettled
        exact hsettled
  · cases hconfirm

theorem submit_anchored (hR : KeepsItems R) (h : Anchored writer w.items)
    (hreserved : writer.reservation = some put) (hretryable : writer.retryable = none)
    (companions : Companions) :
    SafeAt i R Steps AnchoredAfter (submit writer put companions) w := by
  obtain ⟨hkey, hkeyed⟩ := h.puts put (.inl hreserved)
  refine SafeOk.call fun w₁ h₁ outcome w₂ htransact => ?_
  obtain ⟨items, htransacted, rfl⟩ := answers_transact htransact
  have hbefore : Anchored writer w₁.items := h.keeps (hR _ _ h₁)
  have hsole := solePut_around companions put
  have hstep := hsole.journalStep hkeyed (hkey ▸ hbefore.follows) htransacted
  refine ⟨hstep, sync_spec fun value hconfirm => ?_⟩
  obtain ⟨result, writer'⟩ := value
  refine SafeOk.pure fun w' h' => Anchored.keeps ?_ (hR _ _ h')
  exact confirm_anchored (hbefore.keeps hstep.kept) hkey hkeyed hretryable
    (hsole.occupied htransacted) hconfirm

theorem submitPrepared_anchored (hR : KeepsItems R) {result : PrepareResult × JournalWriter}
    (h : ReservedAfter result w) (companions : Companions) :
    SafeAt i R Steps AnchoredAfter (submitPrepared companions result) w := by
  obtain ⟨prepared, writer⟩ := result
  obtain ⟨hanchored, hreserved⟩ := h
  cases prepared with
  | stopped reason => exact SafeOk.pure fun w' h' => hanchored.keeps (hR _ _ h')
  | prepared put =>
    obtain ⟨hreservation, hretryable⟩ := hreserved put rfl
    exact submit_anchored hR hanchored hreservation hretryable companions

theorem prepareRetry_anchored {result : PrepareResult × JournalWriter}
    (h : Anchored writer w.items) (hretryable : writer.retryable = some put)
    (hprepare : writer.prepareRetry put = .ok result) : ReservedAfter result w := by
  obtain ⟨hkey, hkeyed⟩ := h.puts put (.inr hretryable)
  unfold JournalWriter.prepareRetry at hprepare
  split at hprepare
  · obtain rfl := Except.ok.inj hprepare
    refine ⟨h, fun put hput => ?_⟩
    cases hput
  · split at hprepare
    · obtain rfl := Except.ok.inj hprepare
      refine ⟨reserve_anchored h hkey hkeyed, fun other hother => ?_⟩
      obtain rfl : put = other := PrepareResult.prepared.inj hother
      exact ⟨rfl, rfl⟩
    · cases hprepare

theorem run_anchored (hR : KeepsItems R) (h : Anchored writer w.items) (op : WriterOp) :
    SafeAt i R Steps AnchoredAfter (op.run writer) w := by
  cases op with
  | append body causation =>
    apply SafeOk.bind (append_anchored hR h)
    rintro ⟨result, writer'⟩ w₁ h₁
    exact SafeOk.pure fun w' h' => h₁.keeps (hR _ _ h')
  | transact body causation companions =>
    apply SafeOk.bind (prepare_anchored hR h)
    exact fun result w₁ h₁ => submitPrepared_anchored hR h₁ companions
  | resubmit companions =>
    unfold WriterOp.run
    cases hretryable : writer.retryable with
    | none => exact SafeOk.pure fun w' h' => h.keeps (hR _ _ h')
    | some put =>
      refine sync_spec fun result hprepare => ?_
      exact submitPrepared_anchored hR (prepareRetry_anchored h hretryable hprepare) companions

theorem runOps_anchored (hR : KeepsItems R) (h : Anchored writer w.items) (ops : List WriterOp) :
    SafeAt i R Steps AnchoredAfter (runOps writer ops) w := by
  induction ops generalizing writer w with
  | nil => exact SafeOk.pure fun w' h' => h.keeps (hR _ _ h')
  | cons op rest ih =>
    apply SafeOk.bind (run_anchored hR h op)
    exact fun writer' w₁ h₁ => ih h₁

end Operations

/-! ## The writers together -/

section System

variable {ι : Type}

abbrev WriterConfig (ι : Type) : Type :=
  Config ι Call Reply (World ι) (Except Thrown JournalWriter)

/-- Every writer at its start, over a world in which no event is stored yet. -/
structure Started (clients : ι → WriterClient) (cfg : WriterConfig ι) : Prop where
  programs : ∀ i, cfg.programs i = (runOps (clients i).writer (clients i).ops).run
  empty : ∀ key event, ¬ StoredAt cfg.world.items key event

theorem WriterClient.anchored (client : WriterClient) (items : Items) :
    Anchored client.writer items := by
  refine ⟨client.uuid, .inl rfl, Nat.le_refl _, fun put hput => ?_⟩
  rcases hput with hput | hput <;> cases hput

variable {clients : ι → WriterClient} {init cfg : WriterConfig ι}

theorem Started.allSafe (h : Started clients init) :
    AllSafe (machine ι).answers (fun _ => Steps) (fun _ => OnOk AnchoredAfter) init := by
  intro i
  rw [h.programs i]
  refine runOps_anchored (fun w w' hrel => ?_) ((clients i).anchored _) _
  intro key event hstored
  have hstable : ∀ (j : ι) (v v' : World ι), j ≠ i → Steps v v' → StoredAt v.items key event →
      StoredAt v'.items key event := fun j v v' _ hstep => hstep.kept key event
  exact @others_stable ι (World ι) (fun _ => Steps) i (fun v => StoredAt v.items key event)
    hstable w w' hrel hstored

variable [DecidableEq ι]

theorem Started.denseKeys (h : Started clients init)
    (hreach : Reachable (machine ι).answers init cfg) : DenseKeys cfg.world.items := by
  refine Reachable.invariant hreach h.allSafe (fun i w w' hstep hdense => hstep.denseKeys hdense) ?_
  intro key event hstored
  exact absurd hstored (h.empty key event)

end System

end RefundStudy.Journal
