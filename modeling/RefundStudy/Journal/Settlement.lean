/-
  What one writer operation tells, when others may occupy even the keys of the writer's
  own instance.
-/
import RefundStudy.Journal.History

set_option autoImplicit false

namespace RefundStudy.Journal

open Foundation Record RefundStudy.Runtime

variable {ι : Type} {i : ι} {w w' : World ι}

/-! ## Ids and stored events -/

/-- Every stored event has an id that somebody drew. -/
def Identified (w : World ι) : Prop :=
  ∀ key event, StoredAt w.items key event → ∃ process, w.drawn event.eventId = some process

theorem Identified.foreign (h : Identified w) (hforeign : Foreign i w w') : Identified w' := by
  intro key event hstored
  rcases hforeign.added key event hstored with hold | ⟨j, -, hdrawn⟩
  · obtain ⟨process, hprocess⟩ := h key event hold
    exact ⟨process, hforeign.drawn _ _ hprocess⟩
  · exact ⟨j, hdrawn⟩

theorem Identified.draw (h : Identified w) {id : Uuid4} (hfresh : w.drawn id = none) :
    Identified (w.draw i id) := by
  intro key event hstored
  obtain ⟨process, hprocess⟩ := h key event hstored
  exact ⟨process, World.draw_drawn_of_some hfresh hprocess⟩

def Unstored (id : Uuid4) (w : World ι) : Prop :=
  ∀ key event, StoredAt w.items key event → event.eventId ≠ id

theorem Unstored.foreign {id : Uuid4} (h : Unstored id w) (hdrawn : w.drawn id = some i)
    (hforeign : Foreign i w w') : Unstored id w' := by
  intro key event hstored
  rcases hforeign.added key event hstored with hold | ⟨j, hne, hother⟩
  · exact h key event hold
  · rintro rfl
    have hmine := hforeign.drawn _ _ hdrawn
    exact hne (Option.some.inj (hother.symm.trans hmine))

theorem Identified.unstored (h : Identified w) {id : Uuid4} (hfresh : w.drawn id = none) :
    Unstored id w := by
  rintro key event hstored rfl
  obtain ⟨process, hprocess⟩ := h key event hstored
  rw [hfresh] at hprocess
  cases hprocess

/-- The entry the writer built for its next sequence; nothing has stored it. -/
structure Drafted (i : ι) (writer : JournalWriter) (body : EventBody) (causation : List Uuid4)
    (entry : JournalEntry) (w : World ι) : Prop where
  built : Built i writer body causation entry w
  unstored : Unstored entry.event.eventId w

variable {writer : JournalWriter} {body : EventBody} {causation : List Uuid4}
  {entry put : JournalEntry}

theorem Drafted.foreign (h : Drafted i writer body causation entry w)
    (hforeign : Foreign i w w') : Drafted i writer body causation entry w' :=
  ⟨⟨h.built.key, h.built.event, hforeign.drawn _ _ h.built.drawn⟩,
    h.unstored.foreign h.built.drawn hforeign⟩

/-! ## Verdicts -/

/-- How a transaction with an unstored put at its head settles: the result of `confirm`,
the items after it and the writer after it. -/
inductive Confirmed (writer : JournalWriter) (put : JournalEntry)
    (actions : List (WriteAction ItemOf)) (store : Items) :
    Items → ConfirmResult → JournalWriter → Prop where
  | appended (happlies : Applies actions store) :
      Confirmed writer put actions store (applyAll actions store) (.appended put.event)
        { writer with reservation := none, nextSequence := writer.nextSequence + 1 }
  | ambiguous {items : Items}
      (hitems : items = store ∨ (Applies actions store ∧ items = applyAll actions store)) :
      Confirmed writer put actions store items (.stopped .ambiguousAppend)
        { writer with reservation := none, stopReason := some .ambiguousAppend }
  | occupied :
      Confirmed writer put actions store store (.stopped .sequenceConflict)
        { writer with reservation := none, stopReason := some .sequenceConflict }
  | refused (code : String) :
      Confirmed writer put actions store store (.notApplied put.event (.definitiveFailure code))
        { writer with reservation := none, retryable := some put }
  | conditionFailed {failed : Nat} {existing : Option (Sigma ItemOf)}
      (hfailing : ∃ action ∈ actions.tail,
        action.condition (store.lookup action.key) = false) :
      Confirmed writer put actions store store
        (.notApplied put.event (.conditionFailed failed existing))
        { writer with reservation := none, retryable := some put }

theorem isSameStoredEntry_unstored {existing : Option (Sigma ItemOf)} {store : Items}
    (hunstored : ∀ key event, StoredAt store key event → event.eventId ≠ put.event.eventId)
    (hexisting : existing = (store.lookup (.journal put.key)).map fun item =>
      (⟨.journal put.key, item⟩ : Sigma ItemOf)) :
    ∀ item, existing = some item → isSameStoredEntry item put = false := by
  intro item hitem
  rw [hexisting] at hitem
  obtain ⟨event, hstored, rfl⟩ := Option.map_eq_some_iff.mp hitem
  have hne : event ≠ put.event := by
    rintro rfl
    exact hunstored put.key put.event hstored rfl
  simp [isSameStoredEntry, hne]

theorem classify_conditionFailed {actions : List (WriteAction ItemOf)} {store : Items}
    {failed : Nat} {existing : Option (Sigma ItemOf)}
    (hput : actions[0]? = some (journalPutAction put))
    (hunstored : ∀ key event, StoredAt store key event → event.eventId ≠ put.event.eventId)
    (hfailing : firstFailing store 0 actions = some (failed, existing)) :
    classifyJournalOutcome (.conditionFailed failed existing) put 0 = .sequenceConflict ∨
    (classifyJournalOutcome (.conditionFailed failed existing) put 0 = .notApplied ∧
      ∃ action ∈ actions.tail, action.condition (store.lookup action.key) = false) := by
  obtain ⟨offset, action, hfound, hget, hfalse, hexisting⟩ := firstFailing_get hfailing
  obtain rfl : offset = failed := by omega
  cases offset with
  | zero =>
    left
    obtain rfl := Option.some.inj (hput.symm.trans hget)
    have hother := isSameStoredEntry_unstored hunstored hexisting
    cases existing with
    | none => simp [classifyJournalOutcome]
    | some item => simp [classifyJournalOutcome, hother item rfl]
  | succ offset =>
    right
    refine ⟨by simp [classifyJournalOutcome], action, ?_, hfalse⟩
    have htail : actions.tail[offset]? = some action := by
      rw [List.getElem?_tail]
      exact hget
    exact List.mem_of_getElem? htail

/-- `confirm` reads the outcome of the put's transaction rightly. -/
theorem confirm_confirmed {writer' : JournalWriter} {actions : List (WriteAction ItemOf)}
    {store items : Items} {outcome : WriteOutcome ItemOf} {result : ConfirmResult}
    (hput : actions[0]? = some (journalPutAction put))
    (hunstored : ∀ key event, StoredAt store key event → event.eventId ≠ put.event.eventId)
    (htransacted : Transacted actions store outcome items)
    (hconfirm : writer.confirm put outcome 0 = .ok (result, writer')) :
    Confirmed writer put actions store items result writer' := by
  unfold JournalWriter.confirm at hconfirm
  split at hconfirm
  case isFalse => cases hconfirm
  case isTrue =>
    cases htransacted with
    | applied happlies =>
      obtain ⟨rfl, rfl⟩ := Prod.mk.inj (Except.ok.inj hconfirm)
      exact .appended happlies
    | refused code =>
      obtain ⟨rfl, rfl⟩ := Prod.mk.inj (Except.ok.inj hconfirm)
      exact .refused code
    | lost code =>
      obtain ⟨rfl, rfl⟩ := Prod.mk.inj (Except.ok.inj hconfirm)
      exact .ambiguous (.inl rfl)
    | lostApplied code happlies =>
      obtain ⟨rfl, rfl⟩ := Prod.mk.inj (Except.ok.inj hconfirm)
      exact .ambiguous (.inr ⟨happlies, rfl⟩)
    | conditionFailed hfailing =>
      rcases classify_conditionFailed hput hunstored hfailing with hclass | ⟨hclass, htail⟩
      · rw [hclass] at hconfirm
        obtain ⟨rfl, rfl⟩ := Prod.mk.inj (Except.ok.inj hconfirm)
        exact .occupied
      · rw [hclass] at hconfirm
        obtain ⟨rfl, rfl⟩ := Prod.mk.inj (Except.ok.inj hconfirm)
        exact .conditionFailed htail

/-! ## The operations -/

section Operations

variable {R : Interference (World ι)} {G : World ι → World ι → Prop}
  {P : World ι → Prop} {P₁ : JournalEvent → World ι → Prop}

/-- What a group of operations shares: the others are foreign, and `P` survives them and
every id this process draws. -/
structure Carries (i : ι) (R : Interference (World ι)) (G : World ι → World ι → Prop)
    (P : World ι → Prop) : Prop where
  foreign : ∀ w w', R.rel w w' → Foreign i w w'
  same : ∀ w, G w w
  draw : ∀ w id, w.drawn id = none → G w (w.draw i id)
  stable : ∀ w w', R.rel w w' → P w → P w'
  drawStable : ∀ w id, w.drawn id = none → P w → P (w.draw i id)
  identified : ∀ w, P w → Identified w

theorem nextEntry_drafts (hc : Carries i R G P) (hP : P w) :
    SafeAt i R G (fun result w' => Drafted i writer body causation result.1 w' ∧
        result.2 = { writer with retryable := none } ∧ P w')
      (writer.nextEntry body causation) w := by
  refine nextEntry_rule hc.same hc.draw fun w₁ w' eventId occurredAt h₁ hfresh h' _ => ?_
  have hP₁ : P w₁ := hc.stable _ _ h₁ hP
  have hself : (w₁.draw i eventId).drawn eventId = some i := World.draw_drawn_self _ _ _
  have hunstored : Unstored eventId (w₁.draw i eventId) := (hc.identified _ hP₁).unstored hfresh
  have hforeign := hc.foreign _ _ h'
  exact ⟨⟨⟨rfl, ⟨eventId, occurredAt, rfl⟩, hforeign.drawn _ _ hself⟩,
    hunstored.foreign hself hforeign⟩, rfl, hc.stable _ _ h' (hc.drawStable _ _ hfresh hP₁)⟩

/-- What is known after an append: `P₁` of the appended event, or a stopped writer. -/
def AppendPost (writer : JournalWriter) (P : World ι → Prop) (P₁ : JournalEvent → World ι → Prop)
    (result : AppendResult × JournalWriter) (w : World ι) : Prop :=
  SameInstance writer result.2 ∧
  match result.1 with
  | .appended event => P₁ event w
  | .stopped _ => (P w ∨ ∃ event, P₁ event w) ∧ result.2.stopReason ≠ none

/-- What a verdict on one entry says: nothing was put, it was put, or either. -/
def VerdictPost (P : World ι → Prop) (P₁ : JournalEvent → World ι → Prop) (event : JournalEvent)
    (w : World ι) : JournalOutcomeClass → Prop
  | .applied => P₁ event w
  | .ambiguous => P w ∨ P₁ event w
  | .notApplied => P w
  | .sequenceConflict => P w

theorem VerdictPost.stable {event : JournalEvent} {verdict : JournalOutcomeClass}
    (h : VerdictPost P P₁ event w verdict) (hP : P w → P w') (hP₁ : P₁ event w → P₁ event w') :
    VerdictPost P P₁ event w' verdict := by
  cases verdict with
  | applied => exact hP₁ h
  | ambiguous => exact h.imp hP hP₁
  | notApplied => exact hP h
  | sequenceConflict => exact hP h

theorem standalone_settlement {outcome : WriteOutcome ItemOf} {items : Items}
    (hsame : G w w) (hP : P w) (hunstored : Unstored entry.event.eventId w)
    (hput : w.items.lookup (.journal entry.key) = none →
      G w (w.withItems (w.items.insert (.journal entry.key) entry.event)) ∧
        P₁ entry.event (w.withItems (w.items.insert (.journal entry.key) entry.event)))
    (htransacted : Transacted [journalPutAction entry] w.items outcome items) :
    G w (w.withItems items) ∧
    VerdictPost P P₁ entry.event (w.withItems items) (classifyJournalOutcome outcome entry 0) ∧
    (classifyJournalOutcome outcome entry 0 = .notApplied → items = w.items) := by
  have happly : Applies [journalPutAction entry] w.items →
      G w (w.withItems (applyAll [journalPutAction entry] w.items)) ∧
      P₁ entry.event (w.withItems (applyAll [journalPutAction entry] w.items)) := by
    intro happlies
    exact hput ((itemAbsent_iff _).mp (happlies.condition (List.mem_singleton.mpr rfl)))
  cases htransacted with
  | applied happlies =>
    obtain ⟨hguar, hpost⟩ := happly happlies
    exact ⟨hguar, hpost, fun hclass => by cases hclass⟩
  | refused code => exact ⟨hsame, hP, fun _ => rfl⟩
  | lost code => exact ⟨hsame, .inl hP, fun _ => rfl⟩
  | lostApplied code happlies =>
    obtain ⟨hguar, hpost⟩ := happly happlies
    exact ⟨hguar, .inr hpost, fun hclass => by cases hclass⟩
  | conditionFailed hfailing =>
    refine ⟨hsame, ?_, fun _ => rfl⟩
    rcases classify_conditionFailed rfl hunstored hfailing with hclass | ⟨hclass, -⟩
    · rw [hclass]
      exact hP
    · rw [hclass]
      exact hP

theorem writeEntry_settlement (hc : Carries i R G P)
    (hP₁R : ∀ event w w', R.rel w w' → P₁ event w → P₁ event w')
    (hput : ∀ w, P w → Built i writer body causation entry w →
      w.items.lookup (.journal entry.key) = none →
      G w (w.withItems (w.items.insert (.journal entry.key) entry.event)) ∧
        P₁ entry.event (w.withItems (w.items.insert (.journal entry.key) entry.event)))
    (retries : Nat) (hP : P w) (hdraft : Drafted i writer body causation entry w) :
    SafeAt i R G (fun verdict w' => VerdictPost P P₁ entry.event w' verdict)
      (JournalWriter.writeEntry entry retries) w := by
  refine writeEntry_rule (I := fun w => P w ∧ Drafted i writer body causation entry w)
    ?_ ?_ ?_ retries ⟨hP, hdraft⟩
  · exact fun w w' h hw => ⟨hc.stable _ _ h hw.1, hw.2.foreign (hc.foreign _ _ h)⟩
  · exact fun verdict w w' h hpost => hpost.stable (hc.stable _ _ h) (hP₁R _ _ _ h)
  · rintro w outcome items ⟨hP, hdraft⟩ htransacted
    obtain ⟨hguar, hpost, hkept⟩ := standalone_settlement (hc.same _) hP hdraft.unstored
      (hput w hP hdraft.built) htransacted
    refine ⟨hguar, hpost, fun hclass => ?_⟩
    obtain rfl := hkept hclass
    exact ⟨hP, hdraft⟩

theorem append_settlement (hc : Carries i R G P)
    (hP₁R : ∀ event w w', R.rel w w' → P₁ event w → P₁ event w')
    (hput : ∀ w entry, writer.stopReason = none → P w → Built i writer body causation entry w →
      w.items.lookup (.journal entry.key) = none →
      G w (w.withItems (w.items.insert (.journal entry.key) entry.event)) ∧
        P₁ entry.event (w.withItems (w.items.insert (.journal entry.key) entry.event)))
    (hP : P w) :
    SafeAt i R G (AppendPost writer P P₁) (writer.append body causation) w := by
  unfold JournalWriter.append
  cases hstop : writer.stopReason with
  | some reason =>
    refine SafeOk.pure fun w' h' => ⟨.refl _, .inl (hc.stable _ _ h' hP), ?_⟩
    simp [hstop]
  | none =>
    cases hreserved : writer.reservation with
    | some put => exact SafeOk.throw
    | none =>
      refine SafeOk.bind (nextEntry_drafts hc hP) ?_
      rintro ⟨entry, writer₁⟩ w₁ ⟨hdraft, rfl, hP'⟩
      refine SafeOk.bind (writeEntry_settlement hc hP₁R
        (fun w hPw hbuilt habsent => hput w entry hstop hPw hbuilt habsent) _ hP' hdraft) ?_
      intro verdict w₂ hverdict
      cases verdict with
      | applied =>
        exact SafeOk.pure fun w' h' => ⟨⟨rfl, rfl, rfl⟩, hP₁R _ _ _ h' hverdict⟩
      | ambiguous =>
        refine SafeOk.pure fun w' h' => ⟨⟨rfl, rfl, rfl⟩, ?_, Option.some_ne_none _⟩
        rcases hverdict with hleft | hright
        · exact .inl (hc.stable _ _ h' hleft)
        · exact .inr ⟨_, hP₁R _ _ _ h' hright⟩
      | notApplied =>
        exact SafeOk.pure fun w' h' => ⟨⟨rfl, rfl, rfl⟩, .inl (hc.stable _ _ h' hverdict),
          Option.some_ne_none _⟩
      | sequenceConflict =>
        exact SafeOk.pure fun w' h' => ⟨⟨rfl, rfl, rfl⟩, .inl (hc.stable _ _ h' hverdict),
          Option.some_ne_none _⟩

/-- What is known after `prepare`. -/
def PreparePost (i : ι) (writer : JournalWriter) (body : EventBody) (causation : List Uuid4)
    (P : World ι → Prop) (result : PrepareResult × JournalWriter) (w : World ι) : Prop :=
  P w ∧
  match result.1 with
  | .stopped _ => result.2 = writer ∧ writer.stopReason ≠ none
  | .prepared put => Drafted i writer body causation put w ∧ writer.stopReason = none ∧
      result.2 = { writer with reservation := some put, retryable := none }

/-- `prepare` writes nothing. -/
theorem prepare_settlement (hc : Carries i R G P) (hP : P w) :
    SafeAt i R G (PreparePost i writer body causation P) (writer.prepare body causation) w := by
  unfold JournalWriter.prepare
  cases hstop : writer.stopReason with
  | some reason =>
    exact SafeOk.pure fun w' h' => ⟨hc.stable _ _ h' hP, rfl, by simp [hstop]⟩
  | none =>
    cases hreserved : writer.reservation with
    | some put => exact SafeOk.throw
    | none =>
      refine SafeOk.bind (nextEntry_drafts hc hP) ?_
      rintro ⟨entry, writer₁⟩ w₁ ⟨hdraft, rfl, hP'⟩
      exact SafeOk.pure fun w' h' => ⟨hc.stable _ _ h' hP',
        hdraft.foreign (hc.foreign _ _ h'), hstop, rfl⟩

end Operations

end RefundStudy.Journal
