/-
  When a released lease stays free although writes land late.
-/
import RefundStudy.Lease.DelayedWrites

set_option autoImplicit false

namespace RefundStudy.Lease

open Foundation Record

/-! ## What a stage says of the item and the pending writes -/

def NotOwn (own : LeaseOwner) (item : Option LeaseItem) : Prop :=
  ∀ found, item = some found → found.owner ≠ own

/-- The item is this owner's only when it is released. -/
def NotActive (own : LeaseOwner) (item : Option LeaseItem) : Prop :=
  ∀ found, item = some found → found.owner = own → found.leaseStatus = .released

def OnlyUpdates (own : LeaseOwner) (pending : List PendingWrite) : Prop :=
  ∀ write ∈ pending, UpdateWrite own write.action

def StageHolds (own : LeaseOwner) (stage : LeaseStage) (item : Option LeaseItem)
    (pending : List PendingWrite) : Prop :=
  match stage with
  | .fresh => NotOwn own item ∧ pending = []
  | .tried at_ =>
    (∀ found, item = some found → found.owner = own →
      found = acquiredLeaseItem own at_ ∧ pending = []) ∧
    (pending = [] ∨ ∃ write condition, pending = [write] ∧ AcquireWrite own write.action ∧
      write.action = acquisitionPut own at_ condition)
  | .unsure =>
    (∀ found, item = some found → found.owner = own → OnlyUpdates own pending) ∧
    (∀ write ∈ pending.head?, AcquireWrite own write.action ∨ UpdateWrite own write.action) ∧
    OnlyUpdates own pending.tail
  | .mine => OnlyUpdates own pending
  | .clear | .closed => NotActive own item ∧ ∀ write ∈ pending,
      UpdateWrite own write.action ∨ (AcquireWrite own write.action ∧ write.seen = true)
  | .ended => ∀ write ∈ pending, AcquireWrite own write.action ∨ UpdateWrite own write.action

section Holds

variable {own : LeaseOwner} {stage : LeaseStage} {item : Option LeaseItem}
  {pending : List PendingWrite} {action : LeaseWrite}

theorem NotOwn.notActive (h : NotOwn own item) : NotActive own item :=
  fun found hfound hmine => absurd hmine (h found hfound)

theorem StageHolds.writes (h : StageHolds own stage item pending) :
    ∀ write ∈ pending, AcquireWrite own write.action ∨ UpdateWrite own write.action := by
  intro write hwrite
  cases stage with
  | fresh =>
    rw [h.2] at hwrite
    cases hwrite
  | tried at_ =>
    rcases h.2 with hnone | ⟨only, condition, honly, hacquire, -⟩
    · rw [hnone] at hwrite
      cases hwrite
    · rw [honly, List.mem_singleton] at hwrite
      subst hwrite
      exact .inl hacquire
  | unsure =>
    cases pending with
    | nil => cases hwrite
    | cons first rest =>
      rcases List.mem_cons.mp hwrite with rfl | hrest
      · exact h.2.1 write rfl
      · exact .inr (h.2.2 write hrest)
  | mine => exact .inr (h write hwrite)
  | clear | closed =>
    rcases h.2 write hwrite with hupdate | ⟨hacquire, -⟩
    · exact .inr hupdate
    · exact .inl hacquire
  | ended => exact h write hwrite

theorem StageHolds.foreign {item' : Option LeaseItem} (h : StageHolds own stage item pending)
    (hnot : NotOwn own item') : StageHolds own stage item' pending := by
  cases stage with
  | fresh => exact ⟨hnot, h.2⟩
  | tried at_ => exact ⟨fun found hfound hmine => absurd hmine (hnot found hfound), h.2⟩
  | unsure => exact ⟨fun found hfound hmine => absurd hmine (hnot found hfound), h.2⟩
  | mine => exact h
  | clear | closed => exact ⟨hnot.notActive, h.2⟩
  | ended => exact h

theorem UpdateWrite.finds (hupdate : UpdateWrite own action)
    (hcondition : action.condition item = true) :
    ∃ found, item = some found ∧ found.owner = own ∧ found.leaseStatus ≠ .released := by
  cases hupdate with
  | heartbeat version at_ | release version at_ | recovery version at_ =>
    obtain ⟨found, hfound, hmine, hstatus, -⟩ := ownedAt_found hcondition
    refine ⟨found, hfound, hmine, fun hreleased => ?_⟩
    rw [hreleased] at hstatus
    simp at hstatus

theorem UpdateWrite.leaves (hupdate : UpdateWrite own action)
    (hcondition : action.condition item = true) :
    (action.effect item).owner = own ∧
      (releases action = true → (action.effect item).leaseStatus = .released) := by
  obtain ⟨found, rfl, hmine, -⟩ := hupdate.finds hcondition
  cases hupdate with
  | heartbeat version at_ | recovery version at_ => exact ⟨hmine, nofun⟩
  | release version at_ => exact ⟨hmine, fun _ => rfl⟩

theorem NotActive.refuses (h : NotActive own item) (hupdate : UpdateWrite own action) :
    action.condition item = false := by
  rw [← Bool.not_eq_true]
  intro hcondition
  obtain ⟨found, hfound, hmine, hstatus⟩ := hupdate.finds hcondition
  exact hstatus (h found hfound hmine)

/-! ### Updates -/

theorem StageHolds.update_pending {outcome : LeaseOutcome} {more : List PendingWrite}
    (h : StageHolds own stage item pending) (hstage : stage.updating = true)
    (houtcome : outcome ≠ .applied) (hmore : OnlyUpdates own more) :
    StageHolds own (stage.afterWrite action outcome) item (pending ++ more) := by
  have happend : OnlyUpdates own pending → OnlyUpdates own (pending ++ more) := by
    intro honly write hwrite
    rcases List.mem_append.mp hwrite with hold | hnew
    · exact honly write hold
    · exact hmore write hnew
  have hheadMore : ∀ write ∈ more.head?, UpdateWrite own write.action :=
    fun write hwrite => hmore write (List.mem_of_mem_head? hwrite)
  cases outcome with
  | applied => exact absurd rfl houtcome
  | conditionFailed index existing | definitiveFailure code | ambiguous code =>
    cases stage with
    | fresh | closed | ended => cases hstage
    | tried at_ =>
      refine ⟨fun found hfound hmine => ?_, ?_⟩
      · rw [(h.1 found hfound hmine).2]
        exact hmore
      · rcases h.2 with rfl | ⟨write, condition, rfl, hacquire, -⟩
        · exact ⟨fun write hwrite => .inr (hheadMore write hwrite),
            fun write hwrite => hmore write (List.mem_of_mem_tail hwrite)⟩
        · refine ⟨fun first hfirst => ?_, hmore⟩
          obtain rfl := Option.some.inj hfirst
          exact .inl hacquire
    | unsure =>
      refine ⟨fun found hfound hmine => happend (h.1 found hfound hmine), ?_⟩
      cases pending with
      | nil => exact ⟨fun write hwrite => .inr (hheadMore write hwrite),
          fun write hwrite => hmore write (List.mem_of_mem_tail hwrite)⟩
      | cons first rest =>
        refine ⟨h.2.1, fun write hwrite => ?_⟩
        rcases List.mem_append.mp hwrite with hold | hnew
        · exact h.2.2 write hold
        · exact hmore write hnew
    | mine => exact happend h
    | clear =>
      refine ⟨h.1, fun write hwrite => ?_⟩
      rcases List.mem_append.mp hwrite with hold | hnew
      · exact h.2 write hold
      · exact .inl (hmore write hnew)

theorem StageHolds.update_effect {outcome : LeaseOutcome}
    (h : StageHolds own stage item pending) (hstage : stage.updating = true)
    (hupdate : UpdateWrite own action) (hcondition : action.condition item = true) :
    StageHolds own (stage.afterWrite action outcome) (some (action.effect item)) pending := by
  obtain ⟨found, hfound, hmine, hactive⟩ := hupdate.finds hcondition
  obtain ⟨hleft, hreleased⟩ := hupdate.leaves hcondition
  -- a session whose item it was has no put pending
  have honly : stage ≠ .clear → OnlyUpdates own pending := by
    intro hne
    cases stage with
    | fresh | closed | ended => cases hstage
    | clear => exact absurd rfl hne
    | tried at_ =>
      rw [(h.1 found hfound hmine).2]
      exact fun write hwrite => by cases hwrite
    | unsure => exact h.1 found hfound hmine
    | mine => exact h
  have hsettled : OnlyUpdates own pending → StageHolds own
      (if releases action then .clear else .mine) (some (action.effect item)) pending := by
    intro hupdates
    split
    · rename_i hreleases
      refine ⟨fun left hleft' _ => ?_, fun write hwrite => .inl (hupdates write hwrite)⟩
      rw [← Option.some.inj hleft']
      exact hreleased hreleases
    · exact hupdates
  have hunsure : OnlyUpdates own pending → StageHolds own .unsure (some (action.effect item))
      pending := fun hupdates => ⟨fun _ _ _ => hupdates,
    fun write hwrite => .inr (hupdates write (List.mem_of_mem_head? hwrite)),
    fun write hwrite => hupdates write (List.mem_of_mem_tail hwrite)⟩
  cases stage with
  | fresh | closed | ended => cases hstage
  | clear => exact absurd (h.1 found hfound hmine) hactive
  | tried at_ | unsure =>
    cases outcome with
    | applied => exact hsettled (honly nofun)
    | conditionFailed index existing | definitiveFailure code | ambiguous code =>
      exact hunsure (honly nofun)
  | mine =>
    cases outcome with
    | applied => exact hsettled h
    | conditionFailed index existing | definitiveFailure code | ambiguous code => exact h

/-! ### Acquisitions, reads and phases -/

theorem StageHolds.acquire_pending {outcome : LeaseOutcome} {more : List PendingWrite}
    (h : StageHolds own .fresh item pending) (hacquire : AcquireWrite own action)
    (houtcome : outcome ≠ .applied)
    (hmore : more = [] ∨ (more = [⟨action, false⟩] ∧ ∃ code, outcome = .ambiguous code)) :
    StageHolds own (LeaseStage.fresh.afterWrite action outcome) item (pending ++ more) := by
  obtain ⟨hnot, rfl⟩ := h
  cases outcome with
  | applied => exact absurd rfl houtcome
  | conditionFailed index existing | definitiveFailure code =>
    rcases hmore with rfl | ⟨-, _, heq⟩
    · exact ⟨hnot, rfl⟩
    · cases heq
  | ambiguous code =>
    refine ⟨fun found hfound hmine => absurd hmine (hnot found hfound), ?_⟩
    rcases hmore with rfl | ⟨rfl, -⟩
    · exact .inl rfl
    · have hput := hacquire
      obtain ⟨at_, condition, rfl, -⟩ := hput
      exact .inr ⟨_, condition, rfl, hacquire, rfl⟩

theorem StageHolds.acquire_effect {outcome : LeaseOutcome}
    (h : StageHolds own .fresh item pending) (hacquire : AcquireWrite own action)
    (houtcome : outcome = .applied ∨ ∃ code, outcome = .ambiguous code) :
    StageHolds own (LeaseStage.fresh.afterWrite action outcome) (some (action.effect item))
      pending := by
  obtain ⟨-, rfl⟩ := h
  rcases houtcome with rfl | ⟨code, rfl⟩
  · exact fun write hwrite => by cases hwrite
  · obtain ⟨at_, condition, rfl, -⟩ := hacquire
    refine ⟨fun found hfound _ => ⟨?_, rfl⟩, .inl rfl⟩
    exact (Option.some.inj hfound).symm

theorem ownsItem_iff : ownsItem own item = true ↔ ∃ found, item = some found ∧ found.owner = own := by
  cases item with
  | none => simp [ownsItem]
  | some found => simp [ownsItem, isOwnedBy]

/-- A read that finds another's item, or none, marks what is pending. -/
theorem StageHolds.read_foreign (h : StageHolds own stage item pending) (hnot : NotOwn own item) :
    StageHolds own (stage.afterRead own item) item
      (pending.map fun write => { write with seen := true }) := by
  have hmarked : ∀ write ∈ pending.map fun write : PendingWrite => { write with seen := true },
      UpdateWrite own write.action ∨ (AcquireWrite own write.action ∧ write.seen = true) := by
    intro write hwrite
    obtain ⟨before, hbefore, rfl⟩ := List.mem_map.mp hwrite
    rcases h.writes before hbefore with hacquire | hupdate
    · exact .inr ⟨hacquire, rfl⟩
    · exact .inl hupdate
  have hfalse : ∀ good : LeaseItem → Bool,
      (item.any fun found => isOwnedBy found own && good found) = false := by
    intro good
    cases item with
    | none => rfl
    | some found =>
      have hother : isOwnedBy found own = false := decide_eq_false (hnot found rfl)
      simp [hother]
  cases stage with
  | fresh =>
    refine ⟨hnot, ?_⟩
    rw [h.2]
    rfl
  | tried at_ =>
    have hstage : (LeaseStage.tried at_).afterRead own item = .clear :=
      if_neg fun heq => hnot _ heq rfl
    rw [hstage]
    exact ⟨hnot.notActive, hmarked⟩
  | unsure =>
    have hstage : LeaseStage.unsure.afterRead own item = .clear :=
      if_neg (by rw [hfalse]; exact Bool.false_ne_true)
    rw [hstage]
    exact ⟨hnot.notActive, hmarked⟩
  | mine =>
    have hstage : LeaseStage.mine.afterRead own item = .mine :=
      if_neg (by rw [hfalse]; exact Bool.false_ne_true)
    rw [hstage]
    intro write hwrite
    obtain ⟨before, hbefore, rfl⟩ := List.mem_map.mp hwrite
    exact h before hbefore
  | clear | closed => exact ⟨hnot.notActive, hmarked⟩
  | ended =>
    intro write hwrite
    obtain ⟨before, hbefore, rfl⟩ := List.mem_map.mp hwrite
    exact h before hbefore

theorem StageHolds.read_own {found : LeaseItem} (h : StageHolds own stage (some found) pending)
    (hmine : found.owner = own) :
    StageHolds own (stage.afterRead own (some found)) (some found) pending := by
  have howned : isOwnedBy found own = true := decide_eq_true hmine
  have hclear : OnlyUpdates own pending → found.leaseStatus = .released →
      StageHolds own .clear (some found) pending := by
    intro honly hreleased
    refine ⟨fun other hother _ => ?_, fun write hwrite => .inl (honly write hwrite)⟩
    rw [← Option.some.inj hother]
    exact hreleased
  cases stage with
  | fresh => exact absurd hmine (h.1 found rfl)
  | tried at_ =>
    obtain ⟨hput, hnone⟩ := h.1 found rfl hmine
    have hstage : (LeaseStage.tried at_).afterRead own (some found) = .mine :=
      if_pos (congrArg some hput)
    rw [hstage, hnone]
    exact fun write hwrite => by cases hwrite
  | unsure =>
    have honly := h.1 found rfl hmine
    change StageHolds own (if isOwnedBy found own && decide (found.leaseStatus ≠ .released)
      then .mine else .clear) (some found) pending
    split
    · exact honly
    · rename_i hnot
      rw [howned, Bool.true_and, decide_eq_true_iff, not_not] at hnot
      exact hclear honly hnot
  | mine =>
    change StageHolds own (if isOwnedBy found own && decide (found.leaseStatus = .released)
      then .clear else .mine) (some found) pending
    split
    · rename_i hreleased
      rw [howned, Bool.true_and, decide_eq_true_iff] at hreleased
      exact hclear h hreleased
    · exact h
  | clear | closed | ended => exact h

theorem StageHolds.read (h : StageHolds own stage item pending) :
    StageHolds own (stage.afterRead own item) item (seenAfter own (.ok item) pending) := by
  by_cases hown : ownsItem own item = true
  · have hsame : seenAfter own (.ok item) pending = pending := if_pos hown
    rw [hsame]
    obtain ⟨found, rfl, hmine⟩ := ownsItem_iff.mp hown
    exact h.read_own hmine
  · have hmarked : seenAfter own (.ok item) pending =
        pending.map fun write => { write with seen := true } := if_neg hown
    rw [hmarked]
    exact h.read_foreign fun found hfound hmine => hown (ownsItem_iff.mpr ⟨found, hfound, hmine⟩)

theorem StageHolds.phase {phase : SessionPhase} (h : StageHolds own stage item pending)
    (hpermits : StagePermits own stage (.setPhase phase)) :
    StageHolds own (stage.afterPhase phase) item pending := by
  cases phase with
  | idle | refused | unresolved | held state => exact h
  | finalized status =>
    cases status with
    | released =>
      rcases hpermits.2.2 rfl with rfl | rfl
      · refine ⟨h.1.notActive, fun write hwrite => ?_⟩
        rw [h.2] at hwrite
        cases hwrite
      · exact h
    | recoveryRequired | unverified => exact h.writes

/-! ### Landings -/

theorem StageHolds.land {index : Nat} {write : PendingWrite}
    (h : StageHolds own stage item pending) (hpending : pending[index]? = some write)
    (hlands : AcquireWrite own write.action → write.seen = false) :
    StageHolds own stage
      (if write.action.condition item then some (write.action.effect item) else item)
      (pending.eraseIdx index) := by
  have hmem : write ∈ pending := List.mem_of_getElem? hpending
  have hsub : ∀ other ∈ pending.eraseIdx index, other ∈ pending :=
    fun other hother => List.mem_of_mem_eraseIdx hother
  cases stage with
  | fresh =>
    rw [h.2] at hmem
    cases hmem
  | tried at_ =>
    rcases h.2 with hnone | ⟨only, condition, honly, -, hput⟩
    · rw [hnone] at hmem
      cases hmem
    · have hwrite : write = only := by
        rw [honly, List.mem_singleton] at hmem
        exact hmem
      have hgone : pending.eraseIdx index = [] := by
        rw [honly] at hpending ⊢
        cases index with
        | zero => rfl
        | succ index => cases hpending
      refine ⟨fun found hfound hmine => ⟨?_, hgone⟩, .inl hgone⟩
      split at hfound
      · rw [hwrite, hput] at hfound
        exact (Option.some.inj hfound).symm
      · exact (h.1 found hfound hmine).1
  | unsure =>
    cases pending with
    | nil => cases hmem
    | cons first rest =>
      cases index with
      | zero =>
        exact ⟨fun _ _ _ => h.2.2,
          fun other hother => .inr (h.2.2 other (List.mem_of_mem_head? hother)),
          fun other hother => h.2.2 other (List.mem_of_mem_tail hother)⟩
      | succ index =>
        have hupdate : UpdateWrite own write.action :=
          h.2.2 write (List.mem_of_getElem? hpending)
        refine ⟨fun found hfound hmine => ?_, h.2.1,
          fun other hother => h.2.2 other (List.mem_of_mem_eraseIdx hother)⟩
        have honly : OnlyUpdates own (first :: rest) := by
          split at hfound
          · rename_i hcondition
            obtain ⟨before, hbefore, hwas, -⟩ := hupdate.finds hcondition
            exact h.1 before hbefore hwas
          · exact h.1 found hfound hmine
        exact fun other hother => honly other (hsub other hother)
  | mine => exact fun other hother => h other (hsub other hother)
  | clear | closed =>
    have hupdate : UpdateWrite own write.action := by
      rcases h.2 write hmem with hupdate | ⟨hacquire, hseen⟩
      · exact hupdate
      · rw [hlands hacquire] at hseen
        cases hseen
    refine ⟨?_, fun other hother => h.2 other (hsub other hother)⟩
    rw [if_neg (by rw [h.1.refuses hupdate]; exact Bool.false_ne_true)]
    exact h.1
  | ended => exact fun other hother => h other (hsub other hother)

end Holds

/-! ## Runs -/

section Runs

variable {ι : Type} [DecidableEq ι] {owner : ι → LeaseOwner} {i : ι} {w w' : DelayedWorld ι}
  {stages : ι → LeaseStage}

variable {reply : LeaseOutcome}

theorem write_outcomes {action : LeaseWrite} {v v' : LeaseWorld ι}
    (hanswer : (leaseMachine ι).answers i (.write action) v reply v') :
    (TookEffect action v v' ∧ (reply = .applied ∨ ∃ code, reply = .ambiguous code)) ∨
      (v' = v ∧ reply ≠ .applied) := by
  rcases write_cases hanswer with heffect | hsame
  · by_cases hchanged : v' = v
    · cases reply with
      | applied => exact .inl ⟨heffect, .inl rfl⟩
      | ambiguous code => exact .inl ⟨heffect, .inr ⟨code, rfl⟩⟩
      | conditionFailed index existing | definitiveFailure code => exact .inr ⟨hchanged, nofun⟩
    · left
      refine ⟨heffect, ?_⟩
      obtain ⟨choice, hexec⟩ := hanswer
      cases choice with
      | fate fate =>
        obtain ⟨rfl, rfl⟩ := Prod.mk.inj (Option.some.inj hexec)
        have htransacted : Transacted [action] v.store (transact v.store [action] fate).1
            (transact v.store [action] fate).2 := transact_transacted rfl
        generalize (transact v.store [action] fate).1 = outcome at htransacted ⊢
        generalize (transact v.store [action] fate).2 = store at htransacted hchanged
        cases htransacted with
        | applied => exact .inl rfl
        | lostApplied code => exact .inr ⟨_, rfl⟩
        | conditionFailed | refused | lost => exact absurd rfl hchanged
      | readOk | readFails code | reading value | done => cases hexec
  · exact .inr hsame

theorem delayed_write {action : LeaseWrite}
    (hanswer : (delayedMachine owner).answers i (.write action) w reply w') :
    (∃ code, reply = .ambiguous code ∧ w' = w.defer i action) ∨
      ((leaseMachine ι).answers i (.write action) w.lease reply w'.lease ∧
        w'.pending = w.pending) := by
  obtain ⟨choice, hexec⟩ := hanswer
  cases choice with
  | later code =>
    obtain ⟨rfl, rfl⟩ := Prod.mk.inj (Option.some.inj hexec)
    exact .inl ⟨code, rfl, rfl⟩
  | now choice =>
    obtain ⟨answer, hlease, heq⟩ := Option.map_eq_some_iff.mp hexec
    obtain ⟨rfl, rfl⟩ := Prod.mk.inj heq
    exact .inr ⟨⟨choice, hlease⟩, rfl⟩

theorem delayed_read {reply : Except String (Option LeaseItem)}
    (hanswer : (delayedMachine owner).answers i .getConsistent w reply w') :
    w' = w.read i (owner i) reply ∧ ∀ found, reply = .ok found → found = w.lease.item := by
  obtain ⟨choice, hexec⟩ := hanswer
  cases choice with
  | later code => cases hexec
  | now choice =>
    obtain ⟨answer, hlease, heq⟩ := Option.map_eq_some_iff.mp hexec
    obtain ⟨rfl, rfl⟩ := Prod.mk.inj heq
    exact ⟨rfl, (read_cases ⟨choice, hlease⟩).2⟩

variable {request : LeaseCall}

theorem delayed_other {reply : LeaseReply request}
    (hanswer : (delayedMachine owner).answers i request w reply w')
    (hwrite : ∀ action, request ≠ .write action) (hread : request ≠ .getConsistent) :
    (leaseMachine ι).answers i request w.lease reply w'.lease ∧ w'.pending = w.pending := by
  obtain ⟨choice, hexec⟩ := hanswer
  cases request with
  | write action => exact absurd rfl (hwrite action)
  | getConsistent => exact absurd rfl hread
  | monotonicNow | wallNow | journal event state observed | setPhase phase =>
    cases choice with
    | later code => cases hexec
    | now choice =>
      obtain ⟨answer, hlease, heq⟩ := Option.map_eq_some_iff.mp hexec
      obtain ⟨rfl, rfl⟩ := Prod.mk.inj heq
      exact ⟨⟨choice, hlease⟩, rfl⟩

/-- Every session is where its stage says, and a session that returned released is closed. -/
structure StagesFit (owner : ι → LeaseOwner) (stages : ι → LeaseStage) (w : DelayedWorld ι) :
    Prop where
  holds : ∀ i, StageHolds (owner i) (stages i) w.lease.item (w.pending i)
  closed : ∀ i, w.lease.phases i = .finalized .released → stages i = .closed

/-- What a step of session `i` must keep, and what it may not touch. -/
theorem StagesFit.step (hinj : Function.Injective owner) {stage : LeaseStage}
    (h : StagesFit owner stages w)
    (hholds : StageHolds (owner i) stage w'.lease.item (w'.pending i))
    (hpending : ∀ j, j ≠ i → w'.pending j = w.pending j)
    (hitem : w'.lease.item = w.lease.item ∨
      ∃ next, w'.lease.item = some next ∧ next.owner = owner i)
    (hphases : ∀ j, j ≠ i → w'.lease.phases j = w.lease.phases j)
    (hclosed : w'.lease.phases i = .finalized .released → stage = .closed) :
    StagesFit owner (Function.update stages i stage) w' := by
  constructor
  · intro j
    by_cases hji : j = i
    · subst hji
      simpa using hholds
    · rw [Function.update_of_ne hji, hpending j hji]
      rcases hitem with hsame | ⟨next, hnext, hmine⟩
      · rw [hsame]
        exact h.holds j
      · refine (h.holds j).foreign fun found hfound heq => ?_
        obtain rfl := Option.some.inj (hnext.symm.trans hfound)
        exact hji (hinj (heq.symm.trans hmine))
  · intro j hj
    by_cases hji : j = i
    · subst hji
      simpa using hclosed hj
    · rw [Function.update_of_ne hji]
      rw [hphases j hji] at hj
      exact h.closed j hj

/-- No call but an assignment of the phase takes a closed session out of its stage. -/
theorem stageAfter_closed {own : LeaseOwner} (reply : LeaseReply request)
    (hphase : ∀ phase, request ≠ .setPhase phase) :
    stageAfter own .closed request reply = .closed := by
  cases request with
  | setPhase phase => exact absurd rfl (hphase phase)
  | getConsistent => cases reply <;> rfl
  | write action | monotonicNow | wallNow | journal event state observed => rfl

theorem StagesFit.write (hinj : Function.Injective owner) {action : LeaseWrite}
    (hpermits : StagePermits (owner i) (stages i) (.write action))
    (hanswer : (delayedMachine owner).answers i (.write action) w reply w')
    (h : StagesFit owner stages w) :
    StagesFit owner (Function.update stages i ((stages i).afterWrite action reply)) w' := by
  have hself := h.holds i
  have hopen : stages i ≠ .closed := by
    intro heq
    rw [heq] at hpermits
    rcases hpermits with ⟨hfresh, -⟩ | ⟨hupdating, -⟩
    · cases hfresh
    · cases hupdating
  rcases delayed_write hanswer with ⟨code, rfl, rfl⟩ | ⟨hlease, hpending⟩
  · refine h.step hinj ?_ ?_ (.inl rfl) (fun _ _ => rfl) fun hphase =>
      absurd (h.closed i hphase) hopen
    · change StageHolds _ _ _ (Function.update w.pending i _ i)
      rw [Function.update_self]
      rcases hpermits with ⟨hfresh, hacquire⟩ | ⟨hupdating, hupdate⟩
      · rw [hfresh] at hself ⊢
        exact hself.acquire_pending hacquire nofun (.inr ⟨rfl, code, rfl⟩)
      · refine hself.update_pending hupdating nofun fun write hwrite => ?_
        rw [List.mem_singleton.mp hwrite]
        exact hupdate
    · exact fun j hji => Function.update_of_ne hji _ _
  · rcases write_outcomes hlease with ⟨⟨hcondition, heffect⟩, houtcome⟩ | ⟨hsame, houtcome⟩
    · have hitem : w'.lease.item = some (action.effect w.lease.item) := by
        rw [heffect]
        exact w.lease.withItem_item _
      have hphases : w'.lease.phases = w.lease.phases := by
        rw [heffect]
        rfl
      refine h.step hinj ?_ (fun j _ => by rw [hpending]) (.inr ⟨_, hitem, ?_⟩)
        (fun j _ => by rw [hphases]) fun hphase => ?_
      · rw [hitem, hpending]
        rcases hpermits with ⟨hfresh, hacquire⟩ | ⟨hupdating, hupdate⟩
        · rw [hfresh] at hself ⊢
          exact hself.acquire_effect hacquire houtcome
        · exact hself.update_effect hupdating hupdate hcondition
      · rcases hpermits with ⟨-, hacquire⟩ | ⟨-, hupdate⟩
        · exact (hacquire.leaves _).1
        · exact (hupdate.leaves hcondition).1
      · rw [hphases] at hphase
        exact absurd (h.closed i hphase) hopen
    · refine h.step hinj ?_ (fun j _ => by rw [hpending]) (.inl (by rw [hsame]))
        (fun j _ => by rw [hsame]) fun hphase => ?_
      · rw [hsame, hpending, ← List.append_nil (w.pending i)]
        rcases hpermits with ⟨hfresh, hacquire⟩ | ⟨hupdating, hupdate⟩
        · rw [hfresh] at hself ⊢
          exact hself.acquire_pending hacquire houtcome (.inl rfl)
        · exact hself.update_pending hupdating houtcome fun write hwrite => by cases hwrite
      · rw [hsame] at hphase
        exact absurd (h.closed i hphase) hopen

theorem StagesFit.call (hinj : Function.Injective owner) {reply : LeaseReply request}
    (hpermits : StagePermits (owner i) (stages i) request)
    (hanswer : (delayedMachine owner).answers i request w reply w') (h : StagesFit owner stages w) :
    StagesFit owner (Function.update stages i (stageAfter (owner i) (stages i) request reply))
      w' := by
  have hclosed : (∀ phase, request ≠ .setPhase phase) → w'.lease.phases = w.lease.phases →
      w'.lease.phases i = .finalized .released →
      stageAfter (owner i) (stages i) request reply = .closed := by
    intro hother hphases hphase
    rw [hphases] at hphase
    rw [h.closed i hphase]
    exact stageAfter_closed reply hother
  cases request with
  | write action => exact h.write hinj hpermits hanswer
  | getConsistent =>
    obtain ⟨rfl, hfound⟩ := delayed_read hanswer
    refine h.step hinj ?_ (fun j hji => Function.update_of_ne hji _ _) (.inl rfl)
      (fun _ _ => rfl) (hclosed (fun _ => nofun) rfl)
    change StageHolds _ _ _ (Function.update w.pending i _ i)
    rw [Function.update_self]
    cases reply with
    | error code => exact h.holds i
    | ok found =>
      obtain rfl := hfound found rfl
      exact (h.holds i).read
  | monotonicNow | wallNow | journal event state observed =>
    obtain ⟨hlease, hpending⟩ := delayed_other hanswer (fun _ => nofun) nofun
    have hsame := quiet_same rfl hlease
    refine h.step hinj ?_ (fun j _ => by rw [hpending]) (.inl (by rw [hsame]))
      (fun j _ => by rw [hsame]) (hclosed (fun _ => nofun) (by rw [hsame]))
    rw [hsame, hpending]
    exact h.holds i
  | setPhase phase =>
    obtain ⟨hlease, hpending⟩ := delayed_other hanswer (fun _ => nofun) nofun
    have hentered := setPhase_entered hlease
    refine h.step hinj ?_ (fun j _ => by rw [hpending]) (.inl (by rw [hentered]; rfl))
      (fun j hji => by rw [hentered]; exact Function.update_of_ne hji _ _) fun hphase => ?_
    · rw [hentered, hpending]
      exact (h.holds i).phase hpermits
    · have hself : phase = .finalized .released := by
        rw [hentered] at hphase
        simpa using hphase
      rw [hself]
      rfl

@[simp] theorem DelayedWorld.land_item (w : DelayedWorld ι) (i : ι) (index : Nat)
    (action : LeaseWrite) : (w.land i index action).lease.item =
      if action.condition w.lease.item then some (action.effect w.lease.item)
      else w.lease.item := by
  unfold DelayedWorld.land
  dsimp only
  split
  · exact w.lease.withItem_item _
  · rfl

theorem DelayedWorld.land_phases (w : DelayedWorld ι) (i : ι) (index : Nat)
    (action : LeaseWrite) : (w.land i index action).lease.phases = w.lease.phases := by
  unfold DelayedWorld.land
  dsimp only
  split <;> rfl

theorem StagesFit.land (hinj : Function.Injective owner) {index : Nat} {write : PendingWrite}
    (hpending : (w.pending i)[index]? = some write) (hlands : LandsUnseen owner i write)
    (h : StagesFit owner stages w) : StagesFit owner stages (w.land i index write.action) := by
  have hkeep : Function.update stages i (stages i) = stages := Function.update_eq_self i stages
  rw [← hkeep]
  refine h.step hinj ?_ (fun j hji => Function.update_of_ne hji _ _) ?_
    (fun j _ => by rw [DelayedWorld.land_phases]) fun hphase => ?_
  · rw [DelayedWorld.land_item]
    change StageHolds _ _ _ (Function.update w.pending i _ i)
    rw [Function.update_self]
    exact (h.holds i).land hpending hlands
  · rw [DelayedWorld.land_item]
    split
    · rename_i hcondition
      refine .inr ⟨_, rfl, ?_⟩
      rcases (h.holds i).writes write (List.mem_of_getElem? hpending) with hacquire | hupdate
      · exact (hacquire.leaves _).1
      · exact (hupdate.leaves hcondition).1
    · exact .inl rfl
  · rw [DelayedWorld.land_phases] at hphase
    exact h.closed i hphase

variable {cfg : Config ι LeaseCall LeaseReply (DelayedWorld ι) Session}
  {operations : ι → List LeaseOperation} {store : LeaseStore}

theorem reachable_stages (hinj : Function.Injective owner)
    (hstart : ∀ i, NotOwn (owner i) (store.lookup ()))
    (hreach : Relation.ReflTransGen (DelayedStep owner (LandsUnseen owner))
      (delayedStart owner operations store) cfg) :
    ∃ stages, StagesFit owner stages cfg.world ∧
      ∀ i, StagedAs (owner i) (fun _ _ => True) (cfg.programs i) (stages i) := by
  induction hreach with
  | refl =>
    refine ⟨fun _ => .fresh, ⟨fun i => ⟨hstart i, rfl⟩, fun i hphase => ?_⟩, fun i => ?_⟩
    · cases hphase
    · exact runSession_staged (operations i) rfl
  | tail _ hlast ih =>
    obtain ⟨stages, hfit, hstaged⟩ := ih
    cases hlast with
    | land i index hpending hlands => exact ⟨stages, hfit.land hinj hpending hlands, hstaged⟩
    | call hstep =>
      cases hstep with
      | mk i hprogram hanswer =>
        have hself := hstaged i
        rw [hprogram] at hself
        refine ⟨_, hfit.call hinj hself.1 hanswer, fun j => ?_⟩
        by_cases hji : j = i
        · subst hji
          simpa using hself.2 _
        · simpa [Function.update_of_ne hji] using hstaged j

/-- In a store where an ambiguous write may land at any later time, in every run of any number
of sessions with distinct owners over a lease item that none of them owned before, in which no
put of an acquisition lands after its session has read the item and found it not its own: from
the moment `finalize` returned released, the item is neither HELD nor RECOVERY_REQUIRED by the
session's owner. -/
theorem released_lease_stays_free (hinj : Function.Injective owner)
    (hstart : ∀ i, NotOwn (owner i) (store.lookup ()))
    (hreach : Relation.ReflTransGen (DelayedStep owner (LandsUnseen owner))
      (delayedStart owner operations store) cfg)
    {i : ι} (hreleased : cfg.world.lease.phases i = .finalized .released)
    {item : LeaseItem} (hitem : cfg.world.lease.item = some item)
    (hmine : item.owner = owner i) :
    item.leaseStatus ≠ .held ∧ item.leaseStatus ≠ .recoveryRequired := by
  obtain ⟨stages, hfit, -⟩ := reachable_stages hinj hstart hreach
  have hholds := hfit.holds i
  rw [hfit.closed i hreleased] at hholds
  have hstatus : item.leaseStatus = .released := hholds.1 item hitem hmine
  rw [hstatus]
  exact ⟨nofun, nofun⟩

/-! ## Schedules -/

inductive DelayedEvent (ι : Type) where
  | call (i : ι) (choice : DelayedChoice)
  | land (i : ι) (index : Nat)

def advanceDelayed (owner : ι → LeaseOwner) (lands : PendingWrite → Bool)
    (cfg : Config ι LeaseCall LeaseReply (DelayedWorld ι) Session) :
    DelayedEvent ι → Option (Config ι LeaseCall LeaseReply (DelayedWorld ι) Session)
  | .call i choice => cfg.advance (delayedMachine owner) i choice
  | .land i index =>
    match (cfg.world.pending i)[index]? with
    | none => none
    | some write =>
      if lands write then some ⟨cfg.world.land i index write.action, cfg.programs⟩ else none

def playDelayed (owner : ι → LeaseOwner) (lands : PendingWrite → Bool) :
    List (DelayedEvent ι) → Config ι LeaseCall LeaseReply (DelayedWorld ι) Session →
      Option (Config ι LeaseCall LeaseReply (DelayedWorld ι) Session)
  | [], cfg => some cfg
  | event :: rest, cfg => (advanceDelayed owner lands cfg event).bind (playDelayed owner lands rest)

theorem advanceDelayed_step {lands : PendingWrite → Bool} {event : DelayedEvent ι}
    {next : Config ι LeaseCall LeaseReply (DelayedWorld ι) Session}
    {allowed : ι → PendingWrite → Prop} (hallowed : ∀ i write, lands write = true → allowed i write)
    (h : advanceDelayed owner lands cfg event = some next) : DelayedStep owner allowed cfg next := by
  cases event with
  | call i choice => exact .call (Config.advance_step h)
  | land i index =>
    change (match (cfg.world.pending i)[index]? with
      | none => none
      | some write => if lands write then _ else none) = some next at h
    split at h
    · cases h
    · rename_i write hpending
      split at h
      · rename_i hlands
        obtain rfl := Option.some.inj h
        exact .land i index hpending (hallowed i write hlands)
      · cases h

theorem playDelayed_reachable {lands : PendingWrite → Bool} {events : List (DelayedEvent ι)}
    {next : Config ι LeaseCall LeaseReply (DelayedWorld ι) Session}
    {allowed : ι → PendingWrite → Prop} (hallowed : ∀ i write, lands write = true → allowed i write)
    (h : playDelayed owner lands events cfg = some next) :
    Relation.ReflTransGen (DelayedStep owner allowed) cfg next := by
  induction events generalizing cfg with
  | nil =>
    obtain rfl := Option.some.inj h
    exact .refl
  | cons event rest ih =>
    obtain ⟨middle, hadvance, hrest⟩ := Option.bind_eq_some_iff.mp h
    exact (ih hrest).head (advanceDelayed_step hallowed hadvance)

end Runs

def acquireAndFinalize : Bool → List LeaseOperation
  | false => [.acquire, .finalize .clean]
  | true => []

def leaseAfter (lands : PendingWrite → Bool) (events : List (DelayedEvent Bool)) :
    Option (SessionPhase × Option LeaseItem) :=
  (playDelayed twoOwners lands events (delayedStart twoOwners acquireAndFinalize ∅)).map fun cfg =>
    (cfg.world.lease.phases false, cfg.world.lease.item)

def ambiguousPut : List (DelayedEvent Bool) :=
  [.call false (.now (.reading 0)), .call false (.now (.reading 0)), .call false (.later "timeout")]

def landedPut : List (DelayedEvent Bool) :=
  ambiguousPut ++
    [.call false (.now (.readFails "timeout")), .call false (.now .done), .call false (.now .done),
      .land false 0, .call false (.now .readOk), .call false (.now (.reading 1)),
      .call false (.now (.fate .answered)), .call false (.now .done), .call false (.now .done)]

def missedPut : List (DelayedEvent Bool) :=
  ambiguousPut ++
    [.call false (.now .readOk), .call false (.now .done), .call false (.now .done),
      .call false (.now .done), .call false (.now .done), .land false 0]

theorem released_lease_stays_free_landed : ∃ item,
    leaseAfter (fun write => !write.seen) landedPut = some (.finalized .released, some item) ∧
      item.owner = twoOwners false ∧
      item.leaseStatus ≠ .held ∧ item.leaseStatus ≠ .recoveryRequired := by
  obtain ⟨item, hafter, hmine⟩ : ∃ item,
      leaseAfter (fun write => !write.seen) landedPut = some (.finalized .released, some item) ∧
        item.owner = twoOwners false := ⟨_, rfl, rfl⟩
  obtain ⟨cfg, hplay, hcfg⟩ := Option.map_eq_some_iff.mp hafter
  obtain ⟨hphase, hitem⟩ := Prod.mk.inj hcfg
  have hreach : Relation.ReflTransGen (DelayedStep twoOwners (LandsUnseen twoOwners))
      (delayedStart twoOwners acquireAndFinalize ∅) cfg := by
    refine playDelayed_reachable ?_ hplay
    intro i write hunseen _
    simpa using hunseen
  have hempty : ∀ i, NotOwn (twoOwners i) ((∅ : LeaseStore).lookup ()) :=
    fun _ found hfound => by cases hfound
  exact ⟨item, hafter, hmine, released_lease_stays_free twoOwners_injective hempty hreach
    hphase hitem hmine⟩

theorem missedPut_held : Function.Injective twoOwners ∧
    ∃ cfg item, Relation.ReflTransGen (DelayedStep twoOwners fun _ _ => True)
        (delayedStart twoOwners acquireAndFinalize ∅) cfg ∧
      cfg.world.lease.phases false = .finalized .released ∧
      cfg.world.lease.item = some item ∧ item.owner = twoOwners false ∧
      item.leaseStatus = .held := by
  have hafter : leaseAfter (fun _ => true) missedPut =
      some (.finalized .released, some (acquiredLeaseItem (twoOwners false) 0)) := by rfl
  obtain ⟨cfg, hplay, hcfg⟩ := Option.map_eq_some_iff.mp hafter
  obtain ⟨hphase, hitem⟩ := Prod.mk.inj hcfg
  exact ⟨twoOwners_injective, cfg, _, playDelayed_reachable (fun _ _ _ => trivial) hplay, hphase,
    hitem, rfl, rfl⟩

end RefundStudy.Lease
