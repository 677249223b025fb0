/-
  The history of a request's state under any number of overlapping recordings.

  THE INVARIANT: the stored `request_state_recorded` events of a request are one history, each
  planned over the state before it, with the item as its newest state. What a process last read is
  in that history, so an item of the version that was read is the item that was read.
-/
import RefundStudy.Caller.RequestProtocol
import RefundStudy.Journal.History

set_option autoImplicit false

namespace RefundStudy.Caller

open Foundation Record RefundStudy.Runtime Journal Attempt

variable {current : Option RequestStateSnapshot} {next : PlannedState}

/-! ## Histories -/

abbrev StateHistory : Type := List (JournalEntry × RequestStateSnapshot)

def newest (history : StateHistory) : Option RequestStateSnapshot := history.head?.map Prod.snd

/-- Every state, newest first, was planned over the one before it. -/
inductive Written (request : String) : StateHistory → Prop where
  | nil : Written request []
  | cons {earlier : StateHistory} {put : JournalEntry} {next : PlannedState}
      (hearlier : Written request earlier) (hplanned : PlannedOver request (newest earlier) next)
      (hbody : put.event.body = .requestStateRecorded next.body) :
      Written request ((put, next.snapshot) :: earlier)

variable {request : String} {history : StateHistory}

theorem mem_of_newest {state : RequestStateSnapshot} (h : newest history = some state) :
    state ∈ history.map Prod.snd := by
  obtain ⟨entry, hentry, rfl⟩ := Option.map_eq_some_iff.mp h
  exact List.mem_map_of_mem (List.mem_of_head? hentry)

theorem Written.newest_version (h : Written request history) :
    ((newest history).map RequestStateSnapshot.version).getD 0 = history.length := by
  induction h with
  | nil => rfl
  | cons hearlier hplanned hbody ih =>
    obtain ⟨attempts, processing, rfl⟩ := hplanned.plan
    exact congrArg (· + 1) ih

/-- The versions are dense from 1. -/
theorem Written.versions (h : Written request history) :
    history.reverse.map (fun entry => entry.2.version) = List.range' 1 history.length := by
  induction h with
  | nil => rfl
  | cons hearlier hplanned hbody ih =>
    obtain ⟨attempts, processing, rfl⟩ := hplanned.plan
    rw [List.reverse_cons, List.map_append, ih, List.length_cons, List.range'_1_concat]
    simp only [List.map_cons, List.map_nil, planState, baseOf, hearlier.newest_version]
    rw [Nat.add_comm]

theorem Written.version_injective (h : Written request history) {left right : RequestStateSnapshot}
    (hleft : left ∈ history.map Prod.snd) (hright : right ∈ history.map Prod.snd)
    (hversion : left.version = right.version) : left = right := by
  obtain ⟨first, hfirst, rfl⟩ := List.mem_map.mp hleft
  obtain ⟨second, hsecond, rfl⟩ := List.mem_map.mp hright
  have hnodup : (history.reverse.map fun entry => entry.2.version).Nodup := by
    rw [h.versions]
    exact List.nodup_range'
  rw [List.inj_on_of_nodup_map hnodup (List.mem_reverse.mpr hfirst)
    (List.mem_reverse.mpr hsecond) hversion]

theorem Written.version_le (h : Written request history) {state : RequestStateSnapshot}
    (hstate : state ∈ history.map Prod.snd) : state.version ≤ history.length := by
  obtain ⟨entry, hentry, rfl⟩ := List.mem_map.mp hstate
  have hmem : entry.2.version ∈ List.range' 1 history.length := by
    rw [← h.versions]
    exact List.mem_map.mpr ⟨entry, List.mem_reverse.mpr hentry, rfl⟩
  have := (List.mem_range'_1.mp hmem).2
  omega

/-- A later state names every attempt of an earlier one, in order, and folds the classes of the
attempts it adds into the earlier knowledge. -/
def Extends (older newer : RequestStateSnapshot) : Prop :=
  ∃ attempts : List AccountedAttempt,
    newer.attemptIds = older.attemptIds ++ attempts.map AccountedAttempt.attemptId ∧
    newer.effectKnowledge = (attempts.map AccountedAttempt.outcomeClass).foldl
      nextEffectKnowledge older.effectKnowledge

theorem Extends.trans {first second third : RequestStateSnapshot} (h₁ : Extends first second)
    (h₂ : Extends second third) : Extends first third := by
  obtain ⟨attempts₁, hids₁, hknowledge₁⟩ := h₁
  obtain ⟨attempts₂, hids₂, hknowledge₂⟩ := h₂
  refine ⟨attempts₁ ++ attempts₂, ?_, ?_⟩
  · rw [hids₂, hids₁, List.map_append, List.append_assoc]
  · rw [hknowledge₂, hknowledge₁, List.map_append, List.foldl_append]

theorem PlannedOver.extends {top : RequestStateSnapshot}
    (h : PlannedOver request (some top) next) :
    top.attemptIds.Nodup ∧ Extends top next.snapshot := by
  obtain ⟨attempts, processing, rfl⟩ := h.plan
  exact ⟨(parseRequestStateItem_eq (h.parsed top rfl)).2, attempts, rfl, rfl⟩

/-- Only the newest state may list an attempt twice, and every state extends those before it. -/
theorem Written.grows (h : Written request history) {older newer : RequestStateSnapshot}
    (holder : older ∈ history.map Prod.snd) (hnewer : newer ∈ history.map Prod.snd)
    (hversion : older.version < newer.version) : older.attemptIds.Nodup ∧ Extends older newer := by
  induction h generalizing newer with
  | nil => cases holder
  | @cons earlier put next hearlier hplanned hbody ih =>
    have hnext := (Written.cons hearlier hplanned hbody).newest_version
    rw [List.map_cons, List.mem_cons] at holder hnewer
    rcases hnewer with rfl | hnewer
    · have holder := holder.resolve_left fun heq => by rw [heq] at hversion; omega
      obtain ⟨top, htop⟩ : ∃ top, newest earlier = some top := by
        cases earlier with
        | nil => cases holder
        | cons head rest => exact ⟨_, rfl⟩
      have hlast := hearlier.newest_version
      rw [htop] at hplanned hlast
      obtain ⟨hnodup, hstep⟩ := hplanned.extends
      by_cases hsame : older = top
      · rw [hsame]
        exact ⟨hnodup, hstep⟩
      · have hle := hearlier.version_le holder
        have hne : older.version ≠ top.version := fun heq =>
          hsame (hearlier.version_injective holder (mem_of_newest htop) heq)
        obtain ⟨hnodup, hextends⟩ :=
          ih holder (mem_of_newest htop) (lt_of_le_of_ne (hle.trans_eq hlast.symm) hne)
        exact ⟨hnodup, hextends.trans hstep⟩
    · refine ih (holder.resolve_left fun heq => ?_) hnewer hversion
      have hle := hearlier.version_le hnewer
      have holdest : older.version = earlier.length + 1 := by
        rw [heq]
        exact hnext
      omega

/-- The history a store holds of a request. -/
structure HistoryIn (items : Items) (request : String) (history : StateHistory) : Prop where
  written : Written request history
  item : items.lookup (.requestState request) = newest history
  keys : (history.map fun entry => entry.1.key).Nodup
  events : ∀ put : JournalEntry, (StoredAt items put.key put.event ∧
    requestOf put.event = some request) ↔ put ∈ history.map Prod.fst

/-! ## Steps -/

section Steps

variable {items : Items} {put : JournalEntry} {rest : List (WriteAction ItemOf)}

theorem lookup_applyAll {actions : List (WriteAction ItemOf)} {key : ItemKey}
    (h : ∀ action ∈ actions, action.key ≠ key) :
    (applyAll actions items).lookup key = items.lookup key := by
  induction actions generalizing items with
  | nil => rfl
  | cons head tail ih =>
    rw [applyAll_cons, ih fun action hmem => h action (List.mem_cons_of_mem _ hmem)]
    exact AList.lookup_insert_ne (h head List.mem_cons_self).symm

/-- The journal after a put under an absent key. -/
theorem storedAt_put (habsent : items.lookup (.journal put.key) = none)
    (hrest : ∀ action ∈ rest, ∀ key, action.key ≠ .journal key) {entry : JournalEntry} :
    StoredAt (applyAll (journalPutAction put :: rest) items) entry.key entry.event ↔
      entry = put ∨ StoredAt items entry.key entry.event := by
  have hshape : ∀ action ∈ journalPutAction put :: rest, (∀ key, action.key ≠ .journal key) ∨
      ∃ other, action = journalPutAction other ∧ other = put := by
    intro action hmem
    rcases List.mem_cons.mp hmem with rfl | hmem
    · exact .inr ⟨put, rfl, rfl⟩
    · exact .inl (hrest action hmem)
  constructor
  · intro hstored
    rcases storedAt_applyAll hshape hstored with hold | ⟨_, rfl, hkey, hevent⟩
    · exact .inr hold
    · left
      cases entry
      cases hkey
      cases hevent
      rfl
  · intro h
    refine storedAt_applyAll_put (fun action hmem => (hshape action hmem).imp_right ?_) ?_
    · rintro ⟨_, haction, rfl⟩
      refine ⟨_, haction, h.imp Eq.symm fun hstored hkey => ?_⟩
      rw [StoredAt, ← hkey, habsent] at hstored
      cases hstored
    · rcases h with rfl | hstored
      · exact .inl List.mem_cons_self
      · exact .inr hstored

/-- A put of another event keeps the history of a request whose item is not written. -/
theorem HistoryIn.kept (h : HistoryIn items request history)
    (hput : requestOf put.event ≠ some request)
    (hrest : ∀ action ∈ rest, (∀ key, action.key ≠ .journal key) ∧
      action.key ≠ .requestState request)
    (happlies : Applies (journalPutAction put :: rest) items) :
    HistoryIn (applyAll (journalPutAction put :: rest) items) request history := by
  have habsent := (itemAbsent_iff _).mp (happlies.condition List.mem_cons_self)
  refine ⟨h.written, ?_, h.keys, fun entry => ?_⟩
  · rw [lookup_applyAll, h.item]
    intro action hmem
    rcases List.mem_cons.mp hmem with rfl | hmem
    · exact fun heq => by cases heq
    · exact (hrest action hmem).2
  · rw [storedAt_put habsent fun action hmem => (hrest action hmem).1, ← h.events entry]
    constructor
    · rintro ⟨rfl | hstored, hrequest⟩
      · exact absurd hrequest hput
      · exact ⟨hstored, hrequest⟩
    · exact fun hboth => ⟨.inr hboth.1, hboth.2⟩

/-- An item whose version is that of a state read before is that state. -/
theorem HistoryIn.current_eq
    (h : HistoryIn items request history)
    (hread : ∀ state, current = some state → state ∈ history.map Prod.snd)
    (hcondition : unchangedSince current (items.lookup (.requestState request)) = true) :
    newest history = current := by
  rw [h.item] at hcondition
  cases current with
  | none => exact (itemAbsent_iff _).mp hcondition
  | some state =>
    obtain ⟨found, hfound, hversion⟩ := (attributeEquals_iff _ _ _).mp hcondition
    rw [hfound, h.written.version_injective (mem_of_newest hfound) (hread state rfl) hversion]

theorem HistoryIn.recorded (h : HistoryIn items request history)
    (hplanned : PlannedOver request (newest history) next)
    (hbody : put.event.body = .requestStateRecorded next.body)
    (happlies :
      Applies (stateActions (.request request) (newest history) next.snapshot put) items) :
    HistoryIn
      (applyAll (stateActions (.request request) (newest history) next.snapshot put) items)
      request ((put, next.snapshot) :: history) := by
  have habsent : items.lookup (.journal put.key) = none :=
    (itemAbsent_iff _).mp (happlies.condition List.mem_cons_self)
  refine ⟨.cons h.written hplanned hbody, AList.lookup_insert _, ?_, fun entry => ?_⟩
  · refine List.nodup_cons.mpr ⟨fun hmem => ?_, h.keys⟩
    obtain ⟨entry, hentry, hkey⟩ := List.mem_map.mp hmem
    have hstored := ((h.events entry.1).mpr (List.mem_map_of_mem hentry)).1
    unfold StoredAt at hstored
    rw [hkey, habsent] at hstored
    cases hstored
  · unfold stateActions
    rw [storedAt_put habsent, List.map_cons, List.mem_cons, ← h.events entry]
    · constructor
      · rintro ⟨rfl | hstored, hsome⟩
        · exact .inl rfl
        · exact .inr ⟨hstored, hsome⟩
      · rintro (rfl | hboth)
        · exact ⟨.inl rfl, hplanned.requestOf_eq hbody⟩
        · exact ⟨.inr hboth.1, hboth.2⟩
    · intro action hmem key
      obtain rfl := List.mem_singleton.mp hmem
      exact fun heq => by cases heq

end Steps

/-! ## Runs -/

section Runs

variable {ι : Type} {i : ι} {w w' : World ι}

theorem silent_items {call : Call} {reply : Reply call} (hsilent : Silent call)
    (hanswer : (machine ι).answers i call w reply w') :
    w'.items = w.items ∨ ∃ actions, Unrelated actions ∧ Applies actions w.items ∧
      w'.items = applyAll actions w.items := by
  have hwrite : ∀ {actions outcome items}, Unrelated actions →
      Transacted actions w.items outcome items → items = w.items ∨ ∃ actions, Unrelated actions ∧
        Applies actions w.items ∧ items = applyAll actions w.items := by
    intro actions outcome items hunrelated htransacted
    cases htransacted with
    | applied happlies => exact .inr ⟨actions, hunrelated, happlies, rfl⟩
    | lostApplied code happlies => exact .inr ⟨actions, hunrelated, happlies, rfl⟩
    | _ => exact .inl rfl
  cases call with
  | transact actions token =>
    obtain ⟨items, htransacted, rfl⟩ := answers_transact hanswer
    exact hwrite hsilent htransacted
  | write action =>
    obtain ⟨items, htransacted, rfl⟩ := answers_write hanswer
    exact hwrite hsilent htransacted
  | getConsistent key => exact hsilent.elim
  | queryPartitionPage cursor =>
    obtain ⟨choice, hexec⟩ := hanswer
    cases choice with
    | page size trailing => exact .inl (by rw [(Prod.mk.inj (Option.some.inj hexec)).2])
    | readFails code => exact .inl (by rw [(Prod.mk.inj (Option.some.inj hexec)).2])
    | _ => cases hexec
  | nextId =>
    obtain ⟨-, rfl⟩ := answers_nextId hanswer
    exact .inl rfl
  | monotonicNow => exact .inl (by rw [answers_monotonicNow hanswer])
  | wallNow => exact .inl (by rw [answers_wallNow hanswer])
  | sleep ms => exact .inl (by rw [answers_sleep hanswer])
  | invoke call => exact .inl (by rw [answers_invoke hanswer]; rfl)
  | awaitRace =>
    rcases answers_awaitRace hanswer with ⟨-, rfl⟩ | ⟨result, -, rfl⟩ <;> exact .inl rfl
  | claim winner => exact .inl (by rw [answers_claim hanswer]; rfl)
  | halt => exact reply.elim

/-- Every request has a history, and what a process last read is in it. -/
def Accounted (states : ι → Option KnownState) (w : World ι) : Prop :=
  ∀ request, ∃ history, HistoryIn w.items request history ∧ ∀ j state,
    states j = some ⟨request, some state⟩ → state ∈ history.map Prod.snd

variable {states : ι → Option KnownState}

theorem Accounted.silent {call : Call} {reply : Reply call} (h : Accounted states w)
    (hsilent : Silent call) (hanswer : (machine ι).answers i call w reply w') :
    Accounted states w' := by
  intro request
  obtain ⟨history, hhistory, hread⟩ := h request
  refine ⟨history, ?_, hread⟩
  rcases silent_items hsilent hanswer with hsame | ⟨actions, ⟨put, rest, rfl, hput, hrest⟩,
      happlies, hitems⟩
  · rw [hsame]
    exact hhistory
  · rw [hitems]
    refine hhistory.kept ?_ (fun action hmem => ⟨(hrest action hmem).1, (hrest action hmem).2 _⟩)
      happlies
    rw [hput]
    exact fun hnone => by cases hnone

theorem Accounted.recorded (h : Accounted states w) {request : String}
    {put : JournalEntry}
    (hknown : states i = some ⟨request, current⟩) (hplanned : PlannedOver request current next)
    (hbody : put.event.body = .requestStateRecorded next.body)
    (happlies : Applies (stateActions (.request request) current next.snapshot put) w.items) :
    Accounted states
      (w.withItems (applyAll (stateActions (.request request) current next.snapshot put)
        w.items)) := by
  intro other
  obtain ⟨history, hhistory, hread⟩ := h other
  by_cases hother : other = request
  · subst hother
    have hcondition := happlies.condition (List.mem_cons_of_mem _ List.mem_cons_self)
    obtain rfl := hhistory.current_eq
      (fun state hstate => hread i state (by rw [hknown, hstate])) hcondition
    exact ⟨_, hhistory.recorded hplanned hbody happlies,
      fun j state hstate => List.mem_cons_of_mem _ (hread j state hstate)⟩
  · refine ⟨history, hhistory.kept ?_ (fun action hmem => ?_) happlies, hread⟩
    · rw [hplanned.requestOf_eq hbody]
      exact fun hsome => hother (Option.some.inj hsome).symm
    · obtain rfl := List.mem_singleton.mp hmem
      exact ⟨fun key heq => (by cases heq), fun heq => hother (ItemKey.requestState.inj heq).symm⟩

variable [DecidableEq ι]

theorem Accounted.learned (h : Accounted states w) {request : String}
    (hcurrent : current = w.items.lookup (.requestState request)) :
    Accounted (Function.update states i (some ⟨request, current⟩)) w := by
  intro other
  obtain ⟨history, hhistory, hread⟩ := h other
  refine ⟨history, hhistory, fun j state hstate => ?_⟩
  by_cases hj : j = i
  · subst hj
    rw [Function.update_self] at hstate
    obtain ⟨rfl, rfl⟩ := KnownState.mk.inj (Option.some.inj hstate)
    exact mem_of_newest (hhistory.item.symm.trans hcurrent.symm)
  · rw [Function.update_of_ne hj] at hstate
    exact hread j state hstate

theorem Accounted.step {call : Call} {reply : Reply call} (h : Accounted states w)
    (hpermitted : Permitted (states i) call) (hanswer : (machine ι).answers i call w reply w') :
    Accounted (Function.update states i (learn (states i) call reply)) w' := by
  cases hpermitted with
  | silent hsilent =>
    rw [learn_silent hsilent, Function.update_eq_self]
    exact h.silent hsilent hanswer
  | read key =>
    obtain ⟨rfl, hfound⟩ := answers_getConsistent hanswer
    cases key with
    | requestState request =>
      cases reply with
      | ok current => exact h.learned (hfound current rfl)
      | error code => exact (Function.update_eq_self i states).symm ▸ h
    | _ => exact (Function.update_eq_self i states).symm ▸ h
  | record hknown hplanned hbody =>
    obtain ⟨items, htransacted, rfl⟩ := answers_transact hanswer
    change Accounted (Function.update states i (states i)) _
    rw [Function.update_eq_self]
    cases htransacted with
    | applied happlies => exact h.recorded hknown hplanned hbody happlies
    | lostApplied code happlies => exact h.recorded hknown hplanned hbody happlies
    | _ => exact h

end Runs

/-! ## Systems -/

/-- A process that touches request states through the recorder only (`recordAll_proper`). -/
structure Process where
  program : Async Unit
  proper : Proper program

section System

variable {ι : Type} [DecidableEq ι] {party : ι → Process} {w₀ : World ι}
  {cfg : Config ι Call Reply (World ι) (Except Thrown Unit)}

def started (party : ι → Process) (w : World ι) :
    Config ι Call Reply (World ι) (Except Thrown Unit) :=
  ⟨w, fun i => (party i).program.run⟩

/-- No request has a state yet. -/
structure Unrecorded (w : World ι) : Prop where
  items : ∀ request, w.items.lookup (.requestState request) = none
  events : ∀ key event, StoredAt w.items key event → requestOf event = none

theorem Unrecorded.reachable (hnew : Unrecorded w₀)
    (hreach : Reachable (machine ι).answers (started party w₀) cfg) (request : String) :
    ∃ history, HistoryIn cfg.world.items request history := by
  have hstart : Accounted (fun _ : ι => none) w₀ := by
    refine fun request => ⟨[], ⟨.nil, hnew.items request, List.nodup_nil, fun put => ?_⟩,
      fun _ _ hnone => by cases hnone⟩
    constructor
    · rintro ⟨hstored, hrequest⟩
      rw [hnew.events _ _ hstored] at hrequest
      cases hrequest
    · intro hmem
      cases hmem
  obtain ⟨states, -, hstates⟩ := hreach.follows (I := Accounted)
    (fun i => (party i).proper none) hstart
    fun states w i call reply w' hpermitted hanswer h => h.step hpermitted hanswer
  obtain ⟨history, hhistory, -⟩ := hstates request
  exact ⟨history, hhistory⟩

theorem foldl_unknown (classes : List OutcomeClass) :
    classes.foldl nextEffectKnowledge .unknown = .unknown := by
  induction classes with
  | nil => rfl
  | cons cls rest ih => rw [List.foldl_cons, nextEffectKnowledge_unknown, ih]

theorem Written.body (h : Written request history) {entry : JournalEntry × RequestStateSnapshot}
    (hentry : entry ∈ history) : ∃ reason, entry.1.event.body = .requestStateRecorded
      ⟨entry.2.version, entry.2.effectKnowledge, entry.2.attemptIds, entry.2.processingState,
        reason, some request⟩ := by
  induction h with
  | nil => cases hentry
  | cons hearlier hplanned hbody ih =>
    rcases List.mem_cons.mp hentry with rfl | hentry
    · obtain ⟨attempts, processing, rfl⟩ := hplanned.plan
      exact ⟨_, hbody⟩
    · exact ih hentry

/-- However many processes overlap and wherever they stop: the stored events of a request are,
oldest first, the versions 1, 2, … of its state, one event each, and its item is the newest. -/
theorem request_states_replay (hnew : Unrecorded w₀)
    (hreach : Reachable (machine ι).answers (started party w₀) cfg) (request : String) :
    ∃ history : StateHistory,
      (history.map fun entry => entry.1.key).Nodup ∧
      (∀ put : JournalEntry, (StoredAt cfg.world.items put.key put.event ∧
        requestOf put.event = some request) ↔ put ∈ history.map Prod.fst) ∧
      history.map (fun entry => entry.2.version) = List.range' 1 history.length ∧
      (∀ entry ∈ history, ∃ reason, entry.1.event.body = .requestStateRecorded
        ⟨entry.2.version, entry.2.effectKnowledge, entry.2.attemptIds, entry.2.processingState,
          reason, some request⟩) ∧
      cfg.world.items.lookup (.requestState request) = history.getLast?.map Prod.snd := by
  obtain ⟨history, h⟩ := hnew.reachable hreach request
  refine ⟨history.reverse, ?_, fun put => ?_, ?_, fun entry hentry => ?_, ?_⟩
  · rw [List.map_reverse]
    exact List.nodup_reverse.mpr h.keys
  · rw [h.events put, List.map_reverse, List.mem_reverse]
  · rw [h.written.versions, List.length_reverse]
  · exact h.written.body (List.mem_reverse.mp hentry)
  · rw [h.item, List.getLast?_reverse, newest]

/-- A stored event records this state of the request. -/
def RecordedIn (items : Items) (request : String) (state : RecordedRequestState) : Prop :=
  ∃ put : JournalEntry, StoredAt items put.key put.event ∧
    put.event.body = .requestStateRecorded state ∧ state.refundRequestId = some request

theorem HistoryIn.snapshot {items : Items} {state : RecordedRequestState}
    (h : HistoryIn items request history) (hstate : RecordedIn items request state) :
    ∃ snapshot ∈ history.map Prod.snd, state.version = snapshot.version ∧
      state.attemptIds = snapshot.attemptIds ∧
      state.effectKnowledge = snapshot.effectKnowledge := by
  obtain ⟨put, hstored, hbody, hnamed⟩ := hstate
  have hrequest : requestOf put.event = some request := by
    rw [requestOf, hbody]
    exact hnamed
  obtain ⟨entry, hentry, rfl⟩ := List.mem_map.mp ((h.events put).mp ⟨hstored, hrequest⟩)
  obtain ⟨reason, hrecorded⟩ := h.written.body hentry
  obtain rfl := EventBody.requestStateRecorded.inj (hbody.symm.trans hrecorded)
  exact ⟨entry.2, List.mem_map_of_mem hentry, rfl, rfl, rfl⟩

/-- A recorded state extends every recorded state of an earlier version, so `UNKNOWN` stays; a
state that lists an attempt twice is never extended. -/
theorem request_states_never_forget (hnew : Unrecorded w₀)
    (hreach : Reachable (machine ι).answers (started party w₀) cfg) {request : String}
    {before after : RecordedRequestState} (hbefore : RecordedIn cfg.world.items request before)
    (hafter : RecordedIn cfg.world.items request after)
    (hversion : before.version < after.version) :
    before.attemptIds.Nodup ∧
    (∃ attempts : List AccountedAttempt,
      after.attemptIds = before.attemptIds ++ attempts.map AccountedAttempt.attemptId ∧
      after.effectKnowledge = (attempts.map AccountedAttempt.outcomeClass).foldl
        nextEffectKnowledge before.effectKnowledge) ∧
    (before.effectKnowledge = .unknown → after.effectKnowledge = .unknown) := by
  obtain ⟨history, h⟩ := hnew.reachable hreach request
  obtain ⟨first, hfirst, hversion₁, hids₁, hknowledge₁⟩ := h.snapshot hbefore
  obtain ⟨second, hsecond, hversion₂, hids₂, hknowledge₂⟩ := h.snapshot hafter
  rw [hversion₁, hversion₂] at hversion
  obtain ⟨hnodup, attempts, hids, hknowledge⟩ := h.written.grows hfirst hsecond hversion
  rw [hids₁, hids₂, hknowledge₁, hknowledge₂]
  refine ⟨hnodup, ⟨attempts, hids, hknowledge⟩, fun hunknown => ?_⟩
  rw [hknowledge, hunknown]
  exact foldl_unknown _

end System

/-! ## Two recordings of one request -/

def recordingProcess (instanceId attemptId : Uuid4) (processing : ProcessingUpdate) : Process where
  program := recordAll ⟨0, 1⟩ [.attemptResult "request" ⟨attemptId, .ambiguous⟩ processing []]
    { table := .callerJournal
      source := .conventionalCaller
      instanceId := instanceId
      maxDefinitiveRetries := 0 }
  proper := recordAll_proper _

def redeliveries : Bool → Process
  | false => recordingProcess 900 2 .running
  | true => recordingProcess 901 12 (.finished .retriesExhausted)

def recordingSchedule : List (Bool × Choice) :=
  [(false, .readOk), (false, .id 1), (false, .reading 0), (false, .fate .answered),
    (true, .readOk), (true, .id 11), (true, .reading 0), (true, .fate .answered)]

def emptyPartition : World Bool := ⟨∅, fun _ => none, []⟩

theorem emptyPartition_unrecorded : Unrecorded emptyPartition where
  items := fun _ => rfl
  events := fun _ _ hstored => by cases hstored

theorem recordingSchedule_plays : ∃ cfg first second,
    (started redeliveries emptyPartition).play (machine Bool) recordingSchedule = some cfg ∧
    cfg.world.items.lookup (.requestState "request") = some ⟨2, .unknown, [2, 12], .finished⟩ ∧
    StoredAt cfg.world.items ⟨.callerJournal, .conventionalCaller, 900, 1⟩ first ∧
    StoredAt cfg.world.items ⟨.callerJournal, .conventionalCaller, 901, 1⟩ second ∧
    first.body = .requestStateRecorded ⟨1, .unknown, [2], .running, none, some "request"⟩ ∧
    second.body = .requestStateRecorded
      ⟨2, .unknown, [2, 12], .finished, some .retriesExhausted, some "request"⟩ :=
  ⟨_, _, _, rfl, rfl, rfl, rfl, rfl, rfl⟩

theorem recordings_replay : ∃ (cfg : Config Bool Call Reply (World Bool) (Except Thrown Unit))
    (history : StateHistory),
    cfg.world.items.lookup (.requestState "request") = some ⟨2, .unknown, [2, 12], .finished⟩ ∧
    history.map (fun entry => entry.2.version) = List.range' 1 history.length ∧
    cfg.world.items.lookup (.requestState "request") = history.getLast?.map Prod.snd := by
  obtain ⟨cfg, first, second, hplay, hitem, -⟩ := recordingSchedule_plays
  obtain ⟨history, -, -, hversions, -, hlast⟩ := request_states_replay
    emptyPartition_unrecorded (Config.play_reachable hplay) "request"
  exact ⟨cfg, history, hitem, hversions, hlast⟩

theorem second_recording_remembers :
    ∃ (cfg : Config Bool Call Reply (World Bool) (Except Thrown Unit))
      (before after : RecordedRequestState), RecordedIn cfg.world.items "request" before ∧
      RecordedIn cfg.world.items "request" after ∧ before.version < after.version ∧
      before.effectKnowledge = .unknown ∧ after.effectKnowledge = .unknown := by
  obtain ⟨cfg, first, second, hplay, -, hfirst, hsecond, hbefore, hafter⟩ :=
    recordingSchedule_plays
  have hone : RecordedIn cfg.world.items "request"
      ⟨1, .unknown, [2], .running, none, some "request"⟩ := ⟨⟨_, first⟩, hfirst, hbefore, rfl⟩
  have htwo : RecordedIn cfg.world.items "request"
      ⟨2, .unknown, [2, 12], .finished, some .retriesExhausted, some "request"⟩ :=
    ⟨⟨_, second⟩, hsecond, hafter, rfl⟩
  obtain ⟨-, -, hstays⟩ := request_states_never_forget emptyPartition_unrecorded
    (Config.play_reachable hplay) hone htwo Nat.one_lt_two
  exact ⟨cfg, _, _, hone, htwo, Nat.one_lt_two, rfl, hstays rfl⟩

end RefundStudy.Caller
