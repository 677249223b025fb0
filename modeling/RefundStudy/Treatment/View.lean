/-
  What a party of the protocol knows about the partition from the replies it got,
  and that it is true.
-/
import RefundStudy.Treatment.Parties
import RefundStudy.Foundation.Metering

set_option autoImplicit false

namespace RefundStudy.Treatment

open Foundation Record RefundStudy.Runtime Journal
open Provider Controller Cleanup

variable {outcome : WriteOutcome ItemOf} {items : Items} {item : TreatmentItem}

variable {ι : Type} {i : ι} {w w' : World ι}

/-! ## How far an item is -/

/-- The place of a state in the graph; the two terminal states come last. -/
def stateRank : TreatmentState → Nat
  | .armed => 0
  | .committedWaiting => 1
  | .timeoutSignalled => 2
  | .timeoutObserved => 3
  | .responseReleased => 4
  | .safetyReleased => 4

def waitRank (state : CommittedWaitState) : Nat := stateRank state.toTreatmentState

theorem Edge.stateRank_lt {state next : TreatmentState} (h : Edge state next) :
    stateRank state < stateRank next := by
  cases h with
  | safety hwait => cases state <;> simp_all [stateRank, nonterminalTreatmentStates]
  | commit | signal | observe | release => decide

/-- The last wait state the item has been in, read off the identities it carries. -/
def waitsPassed (item : TreatmentItem) : Nat :=
  if item.observedEventId.isSome then 3
  else if item.signalEventId.isSome then 2
  else if item.providerCommitId.isSome then 1
  else 0

variable {item' : TreatmentItem}

theorem Keeps.isSome (h : Keeps item item') (field : TreatmentIdField)
    (hset : (idOf item field).isSome = true) : (idOf item' field).isSome = true := by
  obtain ⟨id, hid⟩ := Option.isSome_iff_exists.mp hset
  rw [h field id hid]
  rfl

theorem Keeps.waitsPassed_le (h : Keeps item item') :
    waitsPassed item ≤ waitsPassed item' := by
  have hobserved := h.isSome .observedEventId
  have hsignal := h.isSome .signalEventId
  have hcommit := h.isSome .providerCommitId
  simp only [idOf] at hobserved hsignal hcommit
  unfold waitsPassed
  split
  · rename_i hset
    simp [hobserved hset]
  · split
    · rename_i hset
      rw [if_pos (hsignal hset)]
      split <;> omega
    · split
      · rename_i hset
        rw [if_pos (hcommit hset)]
        split
        · omega
        · split <;> omega
      · omega

theorem WellFormed.waitsPassed_eq (h : WellFormed item)
    (state : CommittedWaitState) (hstate : item.state = state.toTreatmentState) :
    waitsPassed item = waitRank state := by
  have hcarries := h.carries (by cases state <;> simp [hstate, CommittedWaitState.toTreatmentState])
  have hcommit := hcarries .providerCommitId
  have hsignal := hcarries .signalEventId
  have hobserved := hcarries .observedEventId
  rw [hstate] at hcommit hsignal hobserved
  cases state <;>
    simp_all [idOf, fieldsOf, commitFields, waitsPassed, waitRank, stateRank,
      CommittedWaitState.toTreatmentState]

theorem WellFormed.waitRank_le (h : WellFormed item)
    (state : CommittedWaitState) (hstate : item.state = state.toTreatmentState) :
    waitRank state ≤ waitsPassed item :=
  Nat.le_of_eq (h.waitsPassed_eq state hstate).symm

/-- An item reached from the armed one has made at most as many transitions as its state is
far. -/
theorem Later.version_le (h : Later armedTreatment item) :
    1 ≤ item.version ∧ item.version ≤ 1 + stateRank item.state := by
  induction h with
  | refl => decide
  | tail _ hlast ih =>
    have hrank := hlast.edge.stateRank_lt
    have hversion := hlast.version
    omega

theorem Later.isPositiveSafeInteger (h : Later armedTreatment item) :
    isPositiveSafeInteger item.version = true := by
  obtain ⟨hpositive, hle⟩ := h.version_le
  have hrank : stateRank item.state ≤ 4 := by
    cases item.state <;> decide
  have hmax : 5 ≤ maxSafeInteger := by decide
  simp only [Record.isPositiveSafeInteger, decide_eq_true_eq]
  omega

/-! ## Views -/

/-- Where a party is: before any targeted commit of its own, waiting for that commit with the
item at least this far, or past its last step. -/
inductive Stage where
  | free
  | waiting (ownCommitId : Uuid4) (rank passed : Nat)
  | past

/-- What a stage says about the treatment item. -/
def Stage.Fits : Stage → TreatmentItem → Prop
  | .waiting ownCommitId rank passed, item =>
    item.providerCommitId = some ownCommitId ∧ item.state ≠ .responseReleased ∧
      rank ≤ stateRank item.state ∧ passed ≤ waitsPassed item
  | .free, _ => True
  | .past, _ => True

structure View where
  storeCalls : Nat := 0
  drawn : List Uuid4 := []
  next : Option JournalKey := none
  stage : Stage := .free

def nextKey (key : JournalKey) : JournalKey := { key with sequence := key.sequence + 1 }

/-- The next key after a transaction that carried the put of `key`; unknown when the
transaction may have been applied. -/
def nextAfter (key : JournalKey) : WriteOutcome ItemOf → Option JournalKey
  | .applied => some (nextKey key)
  | .ambiguous _ => none
  | _ => some key

def View.settled (view : View) (key : JournalKey) (outcome : WriteOutcome ItemOf)
    (stage : Stage) : View :=
  ⟨view.storeCalls + 1, view.drawn, nextAfter key outcome, stage⟩

def Stage.committed (input : CommitPlanInput) : WriteOutcome ItemOf → Stage
  | .applied =>
    match input.kind with
    | .targeted => .waiting input.identities.providerCommitId 1 1
    | .untargeted => .free
  | _ => .free

def Stage.transitioned (ownCommitId : Uuid4) (rank passed : Nat) (target : BarrierTarget) :
    WriteOutcome ItemOf → Stage
  | .applied =>
    match target with
    | .timeoutObserved => .waiting ownCommitId 3 3
    | _ => .past
  | .conditionFailed _ (some ⟨.treatment, item⟩) =>
    .waiting ownCommitId (stateRank item.state) (waitsPassed item)
  | .ambiguous _ => .past
  | _ => .waiting ownCommitId rank passed

/-- What an event of a party may say about a safety release, given the stage. -/
def Recordable (stage : Stage) (body : EventBody) : Prop :=
  ∀ cause fromState commit elapsed,
    body = .treatmentSafetyReleased cause fromState commit elapsed →
    ∃ ownCommitId rank passed, stage = .waiting ownCommitId rank passed ∧
      waitRank fromState ≤ passed

/-- The calls of the parties, and what a view becomes with the reply. -/
inductive Learns (view : View) : (request : Call) → Reply request → View → Prop where
  | monotonicNow {now : Nat} : Learns view .monotonicNow now view
  | wallNow {now : UtcMillis} : Learns view .wallNow now view
  | drew {id : Uuid4} : Learns view .nextId id { view with drawn := id :: view.drawn }
  | opened {id : Uuid4} (table : JournalTable) (source : EventSource) :
      Learns view .nextId id { view with next := some ⟨table, source, id, 1⟩ }
  | slept {ms : Nat} {reply : Unit} : Learns view (.sleep ms) reply { view with storeCalls := 0 }
  | read {key : ItemKey} {read : Except String (Option (ItemOf key))} :
      Learns view (.getConsistent key) read { view with storeCalls := view.storeCalls + 1 }
  | saw {item : TreatmentItem} {ownCommitId : Uuid4} {rank passed : Nat}
      (hstage : view.stage = .waiting ownCommitId rank passed) :
      Learns view (.getConsistent .treatment) (.ok (some item))
        { view with
          storeCalls := view.storeCalls + 1
          stage := .waiting ownCommitId (stateRank item.state) (waitsPassed item) }
  | put {entry : JournalEntry} {outcome : WriteOutcome ItemOf}
      (hkey : view.next = some entry.key) (hbody : Recordable view.stage entry.event.body) :
      Learns view (.write (journalPutAction entry)) outcome
        (view.settled entry.key outcome view.stage)
  | committed {input : CommitPlanInput} {token : Uuid4} {outcome : WriteOutcome ItemOf}
      (hkey : view.next = some input.commitEvent.key)
      (hdrawn : input.identities.providerCommitId ∈ view.drawn)
      (hbody : Recordable .free input.commitEvent.event.body) :
      Learns view (.transact (planCommit input).actions token) outcome
        (view.settled input.commitEvent.key outcome (.committed input outcome))
  | transitioned {fromState : CommittedWaitState} {target : BarrierTarget}
      {eventIdAttribute : Option EventIdAttribute} {put : JournalEntry} {token : Uuid4}
      {outcome : WriteOutcome ItemOf} {ownCommitId : Uuid4} {rank passed : Nat}
      (hstage : view.stage = .waiting ownCommitId rank passed)
      (hkey : view.next = some put.key)
      (hbody : ∀ cause state commit elapsed,
        put.event.body = .treatmentSafetyReleased cause state commit elapsed →
        state = fromState) :
      Learns view (.transact (transitionActions fromState target eventIdAttribute put) token)
        outcome
        (view.settled put.key outcome (.transitioned ownCommitId rank passed target outcome))
  | signalled {decision : SignalOnlyDecision} {put : JournalEntry} {token : Uuid4}
      {outcome : WriteOutcome ItemOf} (hkey : view.next = some put.key)
      (hbody : Recordable .free put.event.body) :
      Learns view (.transact (signalActions decision put) token) outcome
        (view.settled put.key outcome .free)
  | released {fromState : TreatmentState} {version : Nat} {outcome : WriteOutcome ItemOf}
      (hstage : view.stage = .free) :
      Learns view (.write (releaseAction fromState version)) outcome
        { view with storeCalls := view.storeCalls + 1 }

/-! ## Store calls -/

/-- Counts the store calls since the last sleep. -/
def storeMeter : Meter Call where
  counts := fun
    | .transact _ _ => true
    | .write _ => true
    | .getConsistent _ => true
    | .queryPartitionPage _ => true
    | _ => false
  resets := fun
    | .sleep _ => true
    | _ => false

variable {request : Call} {view : View}

theorem Learns.storeCalls {view' : View} {reply : Reply request}
    (h : Learns view request reply view') :
    view'.storeCalls = storeMeter.tick view.storeCalls request := by
  cases h <;> rfl

/-! ## Possible replies -/

/-- What a treatment item found in this stage looks like. -/
def Shows (stage : Stage) (item : TreatmentItem) : Prop :=
  WellFormed item ∧ isPositiveSafeInteger item.version = true ∧ stage.Fits item

/-- What the view expects to be found under a key. -/
def Believes (view : View) : (key : ItemKey) → Option (ItemOf key) → Prop
  | .treatment, found => ∃ item, found = some item ∧ Shows view.stage item
  | .journal key, found => view.next = some key → found = none
  | _, _ => True

/-- A failed condition is false of the item found, and the store returns that item. -/
def Refused (view : View) (actions : List (WriteAction ItemOf)) (outcome : WriteOutcome ItemOf) :
    Prop :=
  ∀ failed existing, outcome = .conditionFailed failed existing → ∃ action found,
    actions[failed]? = some action ∧ action.condition found = false ∧
    existing = found.map (fun item => ⟨action.key, item⟩) ∧ Believes view action.key found

/-- The replies a truthful store can give in a view. -/
def Possible (view : View) : (request : Call) → Reply request → Prop
  | .getConsistent key, read => ∀ found, read = .ok found → Believes view key found
  | .transact actions _, outcome => Refused view actions outcome
  | .write action, outcome => Refused view [action] outcome
  | _, _ => True

/-! ## Fair steps -/

/-- Only the process that drew the item's commit id releases the response, and an event that
records a safety release names a wait state the item has been in. -/
structure Fair (i : ι) (w w' : World ι) : Prop where
  owned : ∀ item item', w.items.lookup .treatment = some item →
    w'.items.lookup .treatment = some item' → item' ≠ item → item'.state = .responseReleased →
    ∃ id, item.providerCommitId = some id ∧ w.drawn id = some i
  grounded : ∀ key event cause fromState commit elapsed, StoredAt w'.items key event →
    event.body = .treatmentSafetyReleased cause fromState commit elapsed →
    StoredAt w.items key event ∨
      ∃ item, w'.items.lookup .treatment = some item ∧ waitRank fromState ≤ waitsPassed item

theorem Fair.ofItems (hitems : w'.items = w.items) : Fair i w w' where
  owned := fun item item' hlookup hlookup' hne => by
    rw [hitems, hlookup] at hlookup'
    exact absurd (Option.some.inj hlookup').symm hne
  grounded := fun _ _ _ _ _ _ hstored _ => .inl (hitems ▸ hstored)

structure Acts (i : ι) (w w' : World ι) : Prop where
  moves : Moves i w w'
  fair : Fair i w w'

/-- The interference one party sees: the fair steps of all the others. -/
abbrev company (i : ι) : Interference (World ι) := others (fun j => Acts j) i

theorem company_env (hrel : (company i).rel w w') : (env i).rel w w' :=
  others_stable (G := fun j => Acts j) (P := fun v => (env i).rel w v)
    (fun j _ _ hne hacts hsofar => hsofar.tail ⟨j, hne, hacts.moves⟩) hrel ((env i).refl w)

structure Wrote (put : JournalEntry) (items items' : Items) : Prop where
  written : items'.lookup (.journal put.key) = some put.event
  others : ∀ key, key ≠ put.key → items'.lookup (.journal key) = items.lookup (.journal key)

theorem Wrote.stored {put : JournalEntry} {items items' : Items} (h : Wrote put items items')
    {key : JournalKey} {event : JournalEvent} (hstored : StoredAt items' key event) :
    StoredAt items key event ∨ event = put.event := by
  unfold StoredAt at hstored ⊢
  by_cases hkey : key = put.key
  · rw [hkey, h.written] at hstored
    exact .inr (Option.some.inj hstored).symm
  · rw [h.others key hkey] at hstored
    exact .inl hstored

/-- A written put is fair when the process may release the response and the event is
grounded. -/
theorem Wrote.fair {put : JournalEntry} (h : Wrote put w.items items)
    (howned : ∀ item item', w.items.lookup .treatment = some item →
      items.lookup .treatment = some item' → item' ≠ item → item'.state = .responseReleased →
      ∃ id, item.providerCommitId = some id ∧ w.drawn id = some i)
    (hgrounded : ∀ cause fromState commit elapsed,
      put.event.body = .treatmentSafetyReleased cause fromState commit elapsed →
      ∃ item, items.lookup .treatment = some item ∧ waitRank fromState ≤ waitsPassed item) :
    Fair i w (w.withItems items) where
  owned := howned
  grounded := fun key event cause fromState commit elapsed hstored hbody => by
    rcases h.stored hstored with hold | rfl
    · exact .inl hold
    · exact .inr (hgrounded cause fromState commit elapsed hbody)

theorem wrote_put {entry : JournalEntry} :
    Wrote entry items (applyAll [journalPutAction entry] items) where
  written := AList.lookup_insert _
  others := fun _ hkey => AList.lookup_insert_ne (by simpa [journalPutAction] using hkey)

theorem wrote_commit {input : CommitPlanInput} :
    Wrote input.commitEvent items (applyAll (planCommit input).actions items) where
  written := by
    unfold planCommit
    cases input.kind with
    | untargeted => exact AList.lookup_insert _
    | targeted =>
      simp only [List.cons_append, List.nil_append, applyAll_cons, applyAll_nil,
        WriteAction.apply, journalPutAction, consumeTreatment, updateTreatment]
      rw [AList.lookup_insert_ne (by simp), AList.lookup_insert]
  others := fun key hkey => planCommit_keys input items key hkey

theorem wrote_update_put {condition : Option TreatmentItem → Bool}
    {set : TreatmentItem → TreatmentItem} {put : JournalEntry} :
    Wrote put items (applyAll [updateTreatment condition set, journalPutAction put] items) where
  written := AList.lookup_insert _
  others := fun key hkey => applyAll_update_put_keys key hkey

/-! ## A true view -/

/-- The instance is the process's own, and its keys from this one on are absent. -/
def Unwritten (i : ι) (next : Option JournalKey) (w : World ι) : Prop :=
  ∀ key, next = some key → w.drawn key.instanceId = some i ∧
    ∀ sequence, key.sequence ≤ sequence →
      w.items.lookup (.journal { key with sequence := sequence }) = none

theorem Unwritten.unknown : Unwritten i none w := fun _ hkey => by cases hkey

theorem Unwritten.respects {next : Option JournalKey} (h : Unwritten i next w)
    (hrespects : Respects i w w') : Unwritten i next w' := by
  intro key hkey
  obtain ⟨hdrawn, habsent⟩ := h key hkey
  refine ⟨hrespects.drawn _ _ hdrawn, fun sequence hle => ?_⟩
  rw [hrespects.keys { key with sequence := sequence } hdrawn]
  exact habsent sequence hle

theorem Unwritten.absent {key : JournalKey} (h : Unwritten i (some key) w) :
    w.items.lookup (.journal key) = none :=
  (h key rfl).2 key.sequence (Nat.le_refl _)

theorem Unwritten.wrote {put : JournalEntry} (h : Unwritten i (some put.key) w)
    (hwrote : Wrote put w.items items) :
    Unwritten i (some (nextKey put.key)) (w.withItems items) := by
  intro key hkey
  obtain rfl := Option.some.inj hkey
  obtain ⟨hdrawn, habsent⟩ := h put.key rfl
  refine ⟨hdrawn, fun sequence hle => ?_⟩
  change put.key.sequence + 1 ≤ sequence at hle
  have hne : { nextKey put.key with sequence := sequence } ≠ put.key := by
    intro heq
    have hsequence := congrArg JournalKey.sequence heq
    simp only at hsequence
    omega
  rw [World.withItems_items, hwrote.others _ hne]
  exact habsent sequence (by omega)

structure Holds (i : ι) (view : View) (w : World ι) : Prop where
  sourced : Sourced w
  drawn : ∀ id ∈ view.drawn, w.drawn id = some i
  unwritten : Unwritten i view.next w
  item : ∃ item, CoherentWith w item ∧ Later armedTreatment item ∧ view.stage.Fits item
  own : ∀ ownCommitId rank passed, view.stage = .waiting ownCommitId rank passed →
    ownCommitId ∈ view.drawn

theorem Stage.Fits.advances {stage : Stage} (h : stage.Fits item)
    (hadvances : Advances item item')
    (hheld : ∀ ownCommitId rank passed, stage = .waiting ownCommitId rank passed →
      item'.state ≠ .responseReleased) : stage.Fits item' := by
  cases stage with
  | free => trivial
  | past => trivial
  | waiting ownCommitId rank passed =>
    obtain ⟨hown, -, hrank, hpassed⟩ := h
    have hfurther := hadvances.edge.stateRank_lt
    have hmore := hadvances.keeps.waitsPassed_le
    exact ⟨hadvances.keeps .providerCommitId _ hown, hheld _ _ _ rfl, by omega, by omega⟩

theorem Holds.acts {j : ι} (h : Holds i view w) (hne : j ≠ i) (hacts : Acts j w w') :
    Holds i view w' := by
  obtain ⟨item, hitem, hlater, hfits⟩ := h.item
  obtain ⟨item', hitem', hmoved⟩ := hitem.step hacts.moves
  refine ⟨sourced_stable j _ _ hacts.moves h.sourced,
    fun id hid => drawn_stable id j _ _ hacts.moves (h.drawn id hid),
    h.unwritten.respects (hacts.moves.respects hne), ?_, h.own⟩
  rcases hmoved with rfl | hadvances
  · exact ⟨item', hitem', hlater, hfits⟩
  refine ⟨item', hitem', hlater.tail hadvances, hfits.advances hadvances ?_⟩
  intro ownCommitId rank passed hstage hreleased
  have hchanged : item' ≠ item := by
    rintro rfl
    exact absurd hadvances.edge.stateRank_lt (Nat.lt_irrefl _)
  -- whoever releases the response drew the commit id, and this process did
  obtain ⟨id, hid, hdrawn⟩ :=
    hacts.fair.owned item item' hitem.treatment hitem'.treatment hchanged hreleased
  rw [hstage] at hfits
  obtain rfl := Option.some.inj (hfits.1.symm.trans hid)
  have hown := h.drawn _ (h.own _ _ _ hstage)
  exact hne (Option.some.inj (hdrawn.symm.trans hown))

theorem Holds.company (h : Holds i view w) (hrel : (company i).rel w w') : Holds i view w' :=
  others_stable (G := fun j => Acts j) (P := Holds i view)
    (fun _ _ _ hne hacts hv => hv.acts hne hacts) hrel h

/-! ## A party's own calls -/

theorem Holds.believes (h : Holds i view w) (key : ItemKey) :
    Believes view key (w.items.lookup key) := by
  obtain ⟨item, hitem, hlater, hfits⟩ := h.item
  cases key with
  | treatment =>
    exact ⟨item, hitem.treatment, hitem.formed, hlater.isPositiveSafeInteger, hfits⟩
  | journal key =>
    intro hnext
    have hunwritten := h.unwritten
    rw [hnext] at hunwritten
    exact hunwritten.absent
  | config | payment | ledger | attemptState | requestState | rejectedMessageState => trivial

theorem Holds.refused {actions : List (WriteAction ItemOf)}
    (h : Holds i view w) (htransacted : Transacted actions w.items outcome items) :
    Refused view actions outcome := by
  rintro failed existing rfl
  cases htransacted with
  | conditionFailed hfailing =>
    obtain ⟨offset, action, hoffset, hget, hfalse, hexisting⟩ := firstFailing_get hfailing
    obtain rfl : failed = offset := by omega
    exact ⟨action, _, hget, hfalse, hexisting, h.believes action.key⟩

theorem Holds.possible {reply : Reply request} (h : Holds i view w)
    (hans : (machine ι).answers i request w reply w') : Possible view request reply := by
  cases request with
  | getConsistent key =>
    obtain ⟨-, hfound⟩ := answers_getConsistent hans
    intro found hread
    rw [hfound found hread]
    exact h.believes key
  | transact actions token =>
    obtain ⟨items, htransacted, -⟩ := answers_transact hans
    exact h.refused htransacted
  | write action =>
    obtain ⟨items, htransacted, -⟩ := answers_write hans
    exact h.refused htransacted
  | queryPartitionPage | nextId | monotonicNow | wallNow | sleep | invoke | awaitRace | claim
  | halt => trivial

theorem Holds.fits (h : Holds i view w) (hitem : CoherentWith w item) :
    Later armedTreatment item ∧ view.stage.Fits item := by
  obtain ⟨found, hfound, hlater, hfits⟩ := h.item
  obtain rfl := Option.some.inj (hfound.treatment.symm.trans hitem.treatment)
  exact ⟨hlater, hfits⟩

/-- A view of the same world with another stage, that may know less of the journal. -/
theorem Holds.restage {storeCalls : Nat} {next : Option JournalKey} {stage : Stage}
    (h : Holds i view w) (hnext : next = view.next ∨ next = none)
    (hstage : ∀ item, CoherentWith w item → stage.Fits item)
    (hown : ∀ ownCommitId rank passed, stage = .waiting ownCommitId rank passed →
      ownCommitId ∈ view.drawn) : Holds i ⟨storeCalls, view.drawn, next, stage⟩ w := by
  obtain ⟨item, hitem, hlater, -⟩ := h.item
  refine ⟨h.sourced, h.drawn, ?_, ⟨item, hitem, hlater, hstage item hitem⟩, hown⟩
  rcases hnext with rfl | rfl
  · exact h.unwritten
  · exact Unwritten.unknown

theorem Holds.recount (h : Holds i view w) (storeCalls : Nat) :
    Holds i { view with storeCalls := storeCalls } w :=
  h.restage (.inl rfl) (fun _ hitem => (h.fits hitem).2) h.own

theorem Holds.draw {id : Uuid4} (h : Holds i view w) (hfresh : w.drawn id = none) :
    Holds i view (w.draw i id) := by
  obtain ⟨item, hitem, hlater, hfits⟩ := h.item
  have hmove : Moves i w (w.draw i id) := .drew hfresh
  refine ⟨sourced_stable i _ _ hmove h.sourced,
    fun other hother => drawn_stable other i _ _ hmove (h.drawn other hother),
    h.unwritten.respects (.draw hfresh), ?_, h.own⟩
  obtain ⟨item', hitem', -⟩ := hitem.step hmove
  obtain rfl : item = item' :=
    Option.some.inj (hitem.treatment.symm.trans hitem'.treatment)
  exact ⟨item, hitem', hlater, hfits⟩

theorem Holds.wrote {put : JournalEntry} {stage : Stage} {storeCalls : Nat}
    (h : Holds i view w) (hmove : Moves i w (w.withItems items)) (hkey : view.next = some put.key)
    (hwrote : Wrote put w.items items)
    (hstage : ∀ item, CoherentWith (w.withItems items) item → stage.Fits item)
    (hown : ∀ ownCommitId rank passed, stage = .waiting ownCommitId rank passed →
      ownCommitId ∈ view.drawn) {next : Option JournalKey}
    (hnext : next = some (nextKey put.key) ∨ next = none) :
    Holds i ⟨storeCalls, view.drawn, next, stage⟩ (w.withItems items) := by
  obtain ⟨item, hitem, hlater, -⟩ := h.item
  obtain ⟨item', hitem', hmoved⟩ := hitem.step hmove
  have hunwritten := h.unwritten
  rw [hkey] at hunwritten
  refine ⟨sourced_stable i _ _ hmove h.sourced,
    fun id hid => drawn_stable id i _ _ hmove (h.drawn id hid), ?_, ?_, hown⟩
  · rcases hnext with rfl | rfl
    · exact hunwritten.wrote hwrote
    · exact Unwritten.unknown
  · refine ⟨item', hitem', ?_, hstage item' hitem'⟩
    rcases hmoved with rfl | hadvances
    · exact hlater
    · exact hlater.tail hadvances

/-- A transaction that was not applied leaves the next key, or nothing is known of it. -/
theorem Holds.unapplied {key : JournalKey} {stage : Stage}
    (h : Holds i view w) (hkey : view.next = some key) (hfailed : outcome ≠ .applied)
    (hstage : ∀ item, CoherentWith w item → stage.Fits item)
    (hown : ∀ ownCommitId rank passed, stage = .waiting ownCommitId rank passed →
      ownCommitId ∈ view.drawn) : Holds i (view.settled key outcome stage) w := by
  refine h.restage ?_ hstage hown
  rw [hkey]
  cases outcome with
  | applied => exact absurd rfl hfailed
  | conditionFailed | definitiveFailure => exact .inl rfl
  | ambiguous => exact .inr rfl

theorem Holds.put {entry : JournalEntry}
    (h : Holds i view w) (hmove : Moves i w (w.withItems items)) (hkey : view.next = some entry.key)
    (hbody : Recordable view.stage entry.event.body)
    (htransacted : Transacted [journalPutAction entry] w.items outcome items) :
    Fair i w (w.withItems items) ∧
      Holds i (view.settled entry.key outcome view.stage) (w.withItems items) := by
  obtain ⟨item, hitem, -, hfits⟩ := h.item
  have hsame : (applyAll [journalPutAction entry] w.items).lookup .treatment = some item := by
    rw [← hitem.treatment]
    exact AList.lookup_insert_ne (by simp [journalPutAction])
  have hfair : Fair i w (w.withItems (applyAll [journalPutAction entry] w.items)) := by
    refine wrote_put.fair ?_ ?_
    · intro old new hold hnew hne
      rw [hsame] at hnew
      exact absurd (Option.some.inj (hnew.symm.trans (hitem.treatment.symm.trans hold))) hne
    · intro cause fromState commit elapsed hrecorded
      obtain ⟨ownCommitId, rank, passed, hstage, hle⟩ := hbody _ _ _ _ hrecorded
      rw [hstage] at hfits
      exact ⟨item, hsame, Nat.le_trans hle hfits.2.2.2⟩
  have hstage : ∀ after, CoherentWith (w.withItems (applyAll [journalPutAction entry] w.items))
      after → view.stage.Fits after := by
    intro after hafter
    obtain rfl := Option.some.inj (hsame.symm.trans hafter.treatment)
    exact hfits
  cases htransacted with
  | applied => exact ⟨hfair, h.wrote hmove hkey wrote_put hstage h.own (.inl rfl)⟩
  | lostApplied => exact ⟨hfair, h.wrote hmove hkey wrote_put hstage h.own (.inr rfl)⟩
  | conditionFailed | refused | lost =>
    refine ⟨.ofItems rfl, h.unapplied hkey ?_ ?_ h.own⟩
    · intro hwritten
      cases hwritten
    · exact fun _ hsome => (h.fits hsome).2

theorem commit_treatment {input : CommitPlanInput}
    (happlies : Applies (planCommit input).actions items) :
    (input.kind = .untargeted ∧
      (applyAll (planCommit input).actions items).lookup .treatment = items.lookup .treatment) ∨
    (input.kind = .targeted ∧ ∃ item,
      (applyAll (planCommit input).actions items).lookup .treatment =
        some (consumedItem input item)) := by
  cases hkind : input.kind with
  | untargeted =>
    refine .inl ⟨rfl, ?_⟩
    unfold planCommit
    rw [hkind]
    simp only [applyAll_cons, applyAll_nil, WriteAction.apply, journalPutAction, ledgerPut]
    rw [AList.lookup_insert_ne (by simp), AList.lookup_insert_ne (by simp)]
  | targeted =>
    have hmem : consumeTreatment input ∈ (planCommit input).actions := by
      unfold planCommit
      simp [hkind]
    obtain ⟨item, hitem, -⟩ := (attributeEquals_iff _ _ _).mp (happlies.condition hmem)
    refine .inr ⟨rfl, item, ?_⟩
    change items.lookup .treatment = some item at hitem
    unfold planCommit
    rw [hkind]
    simp only [List.cons_append, List.nil_append, applyAll_cons, applyAll_nil,
      WriteAction.apply, journalPutAction, ledgerPut, consumeTreatment, updateTreatment]
    rw [AList.lookup_insert, AList.lookup_insert_ne (by simp),
      AList.lookup_insert_ne (by simp), hitem]
    rfl

theorem Holds.committed {input : CommitPlanInput} {outcome : WriteOutcome ItemOf} {items : Items}
    (h : Holds i view w) (hmove : Moves i w (w.withItems items))
    (hkey : view.next = some input.commitEvent.key)
    (hdrawn : input.identities.providerCommitId ∈ view.drawn)
    (hbody : Recordable .free input.commitEvent.event.body)
    (htransacted : Transacted (planCommit input).actions w.items outcome items) :
    Fair i w (w.withItems items) ∧
      Holds i (view.settled input.commitEvent.key outcome (.committed input outcome))
        (w.withItems items) := by
  have hgrounded : ∀ cause fromState commit elapsed, input.commitEvent.event.body ≠
      .treatmentSafetyReleased cause fromState commit elapsed := by
    intro cause fromState commit elapsed hrecorded
    obtain ⟨_, _, _, hstage, -⟩ := hbody _ _ _ _ hrecorded
    cases hstage
  have hfair : Applies (planCommit input).actions w.items →
      Fair i w (w.withItems (applyAll (planCommit input).actions w.items)) := by
    intro happlies
    refine wrote_commit.fair ?_ fun _ _ _ _ hrecorded => absurd hrecorded (hgrounded _ _ _ _)
    intro old new hold hnew hne hreleased
    rcases commit_treatment happlies with ⟨-, hsame⟩ | ⟨-, item, hconsumed⟩
    · rw [hsame, hold] at hnew
      exact absurd (Option.some.inj hnew).symm hne
    · obtain rfl := Option.some.inj (hconsumed.symm.trans hnew)
      cases hreleased
  cases htransacted with
  | applied happlies =>
    refine ⟨hfair happlies, h.wrote hmove hkey wrote_commit ?_ ?_ (.inl rfl)⟩
    · intro after hafter
      unfold Stage.committed
      rcases commit_treatment happlies with ⟨hkind, -⟩ | ⟨hkind, item, hconsumed⟩
      · rw [hkind]
        trivial
      · rw [hkind]
        obtain rfl := Option.some.inj (hconsumed.symm.trans hafter.treatment)
        exact ⟨rfl, by simp [consumedItem, consumedTreatment], Nat.le_refl _,
          hafter.formed.waitRank_le .committedWaiting rfl⟩
    · intro ownCommitId rank passed hstage
      unfold Stage.committed at hstage
      cases hkind : input.kind with
      | targeted =>
        rw [hkind] at hstage
        obtain ⟨rfl, -, -⟩ := Stage.waiting.inj hstage
        exact hdrawn
      | untargeted =>
        rw [hkind] at hstage
        cases hstage
  | lostApplied code happlies =>
    refine ⟨hfair happlies, h.wrote hmove hkey wrote_commit ?_ ?_ (.inr rfl)⟩
    · exact fun _ _ => trivial
    · exact fun _ _ _ hstage => by cases hstage
  | conditionFailed | refused | lost =>
    refine ⟨.ofItems rfl, h.unapplied hkey ?_ ?_ ?_⟩
    · intro hwritten
      cases hwritten
    · exact fun _ _ => trivial
    · exact fun _ _ _ hstage => by cases hstage

theorem Holds.transitioned {fromState : CommittedWaitState} {target : BarrierTarget}
    {eventIdAttribute : Option EventIdAttribute} {put : JournalEntry}
    {ownCommitId : Uuid4} {rank passed : Nat}
    (h : Holds i view w) (hmove : Moves i w (w.withItems items))
    (hstage : view.stage = .waiting ownCommitId rank passed) (hkey : view.next = some put.key)
    (hbody : ∀ cause state commit elapsed,
      put.event.body = .treatmentSafetyReleased cause state commit elapsed → state = fromState)
    (htransacted : Transacted (transitionActions fromState target eventIdAttribute put)
      w.items outcome items) :
    Fair i w (w.withItems items) ∧
      Holds i (view.settled put.key outcome (.transitioned ownCommitId rank passed target outcome))
        (w.withItems items) := by
  obtain ⟨item, hitem, -, hfits⟩ := h.item
  have hown := h.own _ _ _ hstage
  have hdrawn := h.drawn _ hown
  rw [hstage] at hfits
  have hfair : Applies (transitionActions fromState target eventIdAttribute put) w.items →
      Moves i w (w.withItems
        (applyAll (transitionActions fromState target eventIdAttribute put) w.items)) →
      Fair i w (w.withItems
        (applyAll (transitionActions fromState target eventIdAttribute put) w.items)) := by
    intro happlies hmoved
    refine wrote_update_put.fair ?_ ?_
    · intro old new hold _ _ _
      obtain rfl := Option.some.inj (hitem.treatment.symm.trans hold)
      exact ⟨ownCommitId, hfits.1, hdrawn⟩
    · intro cause state commit elapsed hrecorded
      obtain rfl := hbody _ _ _ _ hrecorded
      have hcondition := happlies.condition (List.mem_cons_self ..)
      obtain ⟨found, hfound, hstate⟩ := (attributeEquals_iff _ _ _).mp hcondition
      obtain rfl := Option.some.inj (hitem.treatment.symm.trans hfound)
      -- the state it left is passed, and stays so
      have hpassed := hitem.formed.waitRank_le _ hstate
      obtain ⟨after, hafter, hadvances⟩ := hitem.step hmoved
      refine ⟨after, hafter.treatment, ?_⟩
      rcases hadvances with rfl | hadvances
      · exact hpassed
      · exact Nat.le_trans hpassed hadvances.keeps.waitsPassed_le
  cases htransacted with
  | applied happlies =>
    refine ⟨hfair happlies hmove, h.wrote hmove hkey wrote_update_put ?_ ?_ (.inl rfl)⟩
    · intro after hafter
      have htreatment := hafter.treatment
      rw [World.withItems_items, transitionActions, applyAll_update_put hitem.treatment,
        AList.lookup_insert_ne (by simp), AList.lookup_insert] at htreatment
      have hcommit : after.providerCommitId = item.providerCommitId := by
        rw [← Option.some.inj htreatment]
        unfold transitionSet
        cases target <;> rcases eventIdAttribute with _ | (_ | _) <;> rfl
      have hstate : after.state = target.toTreatmentState := by
        rw [← Option.some.inj htreatment]
      cases target with
      | timeoutObserved =>
        refine ⟨hcommit.trans hfits.1, by simp [hstate, BarrierTarget.toTreatmentState], ?_,
          hafter.formed.waitRank_le .timeoutObserved hstate⟩
        rw [hstate]
        exact Nat.le_refl _
      | responseReleased | safetyReleased => trivial
    · intro found _ _ hwaiting
      cases target with
      | timeoutObserved =>
        obtain ⟨rfl, -, -⟩ := Stage.waiting.inj hwaiting
        exact hown
      | responseReleased | safetyReleased => cases hwaiting
  | lostApplied code happlies =>
    refine ⟨hfair happlies hmove, h.wrote hmove hkey wrote_update_put ?_ ?_ (.inr rfl)⟩
    · exact fun _ _ => trivial
    · exact fun _ _ _ hover => by cases hover
  | @conditionFailed failed existing hfailing =>
    -- the image the store returned is the item itself
    have himage : ∀ image, existing = some ⟨.treatment, image⟩ → image = item := by
      rintro image rfl
      obtain ⟨_, action, -, -, -, hexisting⟩ := firstFailing_get hfailing
      generalize action.key = key at hexisting
      obtain ⟨found, hfound, hsigma⟩ := Option.map_eq_some_iff.mp hexisting.symm
      cases hsigma
      exact Option.some.inj (hfound.symm.trans hitem.treatment)
    refine ⟨.ofItems rfl, h.unapplied hkey ?_ ?_ ?_⟩
    · nofun
    · intro found hfound
      obtain rfl := Option.some.inj (hitem.treatment.symm.trans hfound.treatment)
      unfold Stage.transitioned
      split
      · rename_i heq
        cases heq
      · rename_i image heq
        obtain ⟨-, rfl⟩ := WriteOutcome.conditionFailed.inj heq
        obtain rfl := himage image rfl
        exact ⟨hfits.1, hfits.2.1, Nat.le_refl _, Nat.le_refl _⟩
      · trivial
      · exact hfits
    · intro found _ _ hwaiting
      unfold Stage.transitioned at hwaiting
      split at hwaiting
      · rename_i heq
        cases heq
      · obtain ⟨rfl, -, -⟩ := Stage.waiting.inj hwaiting
        exact hown
      · cases hwaiting
      · obtain ⟨rfl, -, -⟩ := Stage.waiting.inj hwaiting
        exact hown
  | refused code =>
    refine ⟨.ofItems rfl, h.unapplied hkey ?_ ?_ ?_⟩
    · nofun
    · intro found hfound
      have hfound' := (h.fits hfound).2
      rw [hstage] at hfound'
      exact hfound'
    · intro found _ _ hwaiting
      obtain ⟨rfl, -, -⟩ := Stage.waiting.inj hwaiting
      exact hown
  | lost code =>
    refine ⟨.ofItems rfl, h.unapplied hkey ?_ ?_ ?_⟩
    · nofun
    · exact fun _ _ => trivial
    · exact fun _ _ _ hover => by cases hover

theorem Holds.signalled {decision : SignalOnlyDecision} {put : JournalEntry}
    (h : Holds i view w)
    (hmove : Moves i w (w.withItems items)) (hkey : view.next = some put.key)
    (hbody : Recordable .free put.event.body)
    (htransacted : Transacted (signalActions decision put) w.items outcome items) :
    Fair i w (w.withItems items) ∧
      Holds i (view.settled put.key outcome .free) (w.withItems items) := by
  obtain ⟨item, hitem, -, -⟩ := h.item
  have hfair : Fair i w (w.withItems (applyAll (signalActions decision put) w.items)) := by
    refine wrote_update_put.fair ?_ ?_
    · intro old new _ hnew _ hreleased
      rw [applyAll_update_put hitem.treatment, AList.lookup_insert_ne (by simp),
        AList.lookup_insert] at hnew
      rw [← Option.some.inj hnew] at hreleased
      cases hreleased
    · intro cause fromState commit elapsed hrecorded
      obtain ⟨_, _, _, hstage, -⟩ := hbody _ _ _ _ hrecorded
      cases hstage
  have hstage : ∀ {v : World ι} (found : TreatmentItem), CoherentWith v found →
      Stage.free.Fits found := fun _ _ => trivial
  have hown : ∀ ownCommitId rank passed, Stage.free = .waiting ownCommitId rank passed →
      ownCommitId ∈ view.drawn := fun _ _ _ hfree => by cases hfree
  cases htransacted with
  | applied => exact ⟨hfair, h.wrote hmove hkey wrote_update_put hstage hown (.inl rfl)⟩
  | lostApplied => exact ⟨hfair, h.wrote hmove hkey wrote_update_put hstage hown (.inr rfl)⟩
  | conditionFailed | refused | lost =>
    refine ⟨.ofItems rfl, h.unapplied hkey ?_ hstage hown⟩
    nofun

theorem Holds.released {fromState : TreatmentState} {version : Nat}
    (h : Holds i view w) (hmove : Moves i w (w.withItems items))
    (hstage : view.stage = .free)
    (htransacted : Transacted [releaseAction fromState version] w.items outcome items) :
    Fair i w (w.withItems items) ∧
      Holds i { view with storeCalls := view.storeCalls + 1 } (w.withItems items) := by
  obtain ⟨item, hitem, hlater, -⟩ := h.item
  have hfree : ∀ found, view.stage.Fits found := by
    intro found
    rw [hstage]
    trivial
  -- the write touches the treatment item only
  have hjournal : ∀ key, (applyAll [releaseAction fromState version] w.items).lookup
      (.journal key) = w.items.lookup (.journal key) :=
    fun key => AList.lookup_insert_ne (by simp [releaseAction, updateTreatment])
  have hfair : Fair i w (w.withItems (applyAll [releaseAction fromState version] w.items)) := by
    refine ⟨?_, ?_⟩
    · intro old new _ hnew _ hreleased
      have hreleasedItem : (applyAll [releaseAction fromState version] w.items).lookup .treatment =
          some (safetyReleasedItem item .cleanupRequest) := by
        simp [WriteAction.apply, releaseAction, updateTreatment, hitem.treatment,
          safetyReleasedItem]
      obtain rfl := Option.some.inj (hreleasedItem.symm.trans hnew)
      cases hreleased
    · intro key event _ _ _ _ hstored _
      refine .inl ?_
      unfold StoredAt at hstored ⊢
      rw [← hjournal key]
      exact hstored
  have hholds : Moves i w (w.withItems (applyAll [releaseAction fromState version] w.items)) →
      Holds i { view with storeCalls := view.storeCalls + 1 }
        (w.withItems (applyAll [releaseAction fromState version] w.items)) := by
    intro hmoved
    obtain ⟨item', hitem', hadvances⟩ := hitem.step hmoved
    refine ⟨sourced_stable i _ _ hmoved h.sourced,
      fun id hid => drawn_stable id i _ _ hmoved (h.drawn id hid),
      h.unwritten.respects ⟨fun _ _ hd => hd, fun key _ => hjournal key⟩,
      ⟨item', hitem', ?_, hfree item'⟩, h.own⟩
    rcases hadvances with rfl | hadvances
    · exact hlater
    · exact hlater.tail hadvances
  cases htransacted with
  | applied | lostApplied => exact ⟨hfair, hholds hmove⟩
  | conditionFailed | refused | lost => exact ⟨.ofItems rfl, h.recount _⟩

/-- A call of the party itself is fair and makes the new view true. -/
theorem Holds.learns {view' : View} {reply : Reply request} (h : Holds i view w)
    (hans : (machine ι).answers i request w reply w') (hmove : Moves i w w')
    (hlearns : Learns view request reply view') : Fair i w w' ∧ Holds i view' w' := by
  cases hlearns with
  | monotonicNow =>
    obtain rfl := answers_monotonicNow hans
    exact ⟨.ofItems rfl, h⟩
  | wallNow =>
    obtain rfl := answers_wallNow hans
    exact ⟨.ofItems rfl, h⟩
  | slept =>
    obtain rfl := answers_sleep hans
    exact ⟨.ofItems rfl, h.recount _⟩
  | drew =>
    obtain ⟨hfresh, rfl⟩ := answers_nextId hans
    have hdrawn := h.draw hfresh
    refine ⟨.ofItems rfl, hdrawn.sourced, ?_, hdrawn.unwritten, hdrawn.item, ?_⟩
    · intro id hid
      rcases List.mem_cons.mp hid with rfl | hold
      · exact World.draw_drawn_self _ _ _
      · exact hdrawn.drawn id hold
    · exact fun _ _ _ hstage => List.mem_cons_of_mem _ (h.own _ _ _ hstage)
  | opened table source =>
    obtain ⟨hfresh, rfl⟩ := answers_nextId hans
    have hdrawn := h.draw hfresh
    refine ⟨.ofItems rfl, hdrawn.sourced, hdrawn.drawn, ?_, hdrawn.item, h.own⟩
    -- a fresh instance has no stored event
    intro key hkey
    obtain rfl := Option.some.inj hkey
    refine ⟨World.draw_drawn_self _ _ _, fun sequence _ => ?_⟩
    rw [World.draw_items]
    refine Option.eq_none_iff_forall_ne_some.mpr fun event hstored => ?_
    obtain ⟨process, hprocess⟩ := h.sourced _ event hstored
    simp only at hprocess
    rw [hfresh] at hprocess
    cases hprocess
  | read =>
    obtain ⟨rfl, -⟩ := answers_getConsistent hans
    exact ⟨.ofItems rfl, h.recount _⟩
  | @saw item ownCommitId rank passed hstage =>
    obtain ⟨rfl, hfound⟩ := answers_getConsistent hans
    have hlookup := (hfound _ rfl).symm
    refine ⟨.ofItems rfl, h.restage (.inl rfl) ?_ ?_⟩
    · intro found hitem
      obtain rfl := Option.some.inj (hlookup.symm.trans hitem.treatment)
      have hfits := (h.fits hitem).2
      rw [hstage] at hfits
      exact ⟨hfits.1, hfits.2.1, Nat.le_refl _, Nat.le_refl _⟩
    · intro found _ _ hwaiting
      obtain ⟨rfl, -, -⟩ := Stage.waiting.inj hwaiting
      exact h.own _ _ _ hstage
  | put hkey hbody =>
    obtain ⟨items, htransacted, rfl⟩ := answers_write hans
    exact h.put hmove hkey hbody htransacted
  | committed hkey hdrawn hbody =>
    obtain ⟨items, htransacted, rfl⟩ := answers_transact hans
    exact h.committed hmove hkey hdrawn hbody htransacted
  | transitioned hstage hkey hbody =>
    obtain ⟨items, htransacted, rfl⟩ := answers_transact hans
    exact h.transitioned hmove hstage hkey hbody htransacted
  | signalled hkey hbody =>
    obtain ⟨items, htransacted, rfl⟩ := answers_transact hans
    exact h.signalled hmove hkey hbody htransacted
  | released hstage =>
    obtain ⟨items, htransacted, rfl⟩ := answers_write hans
    exact h.released hmove hstage htransacted

end RefundStudy.Treatment
