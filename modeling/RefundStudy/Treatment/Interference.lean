/-
  What a party of the protocol may rely on while the others move.
-/
import RefundStudy.Treatment.Coherence

set_option autoImplicit false

namespace RefundStudy.Treatment

open Foundation Record RefundStudy.Runtime Journal
open Provider (CommitPlanInput readControl decodeTreatmentItem loadTreatment
  updateTreatment)

variable {condition : Option TreatmentItem → Bool} {set : TreatmentItem → TreatmentItem}
  {item : TreatmentItem} {writer : JournalWriter} {put : JournalEntry} {store : Items}

variable {ι : Type} {i : ι} {w w' : World ι}

/-! ## Interference by moves -/

/-- The interference one party sees: the moves of all the others. -/
abbrev env (i : ι) : Interference (World ι) := others (fun j => Moves j) i

theorem committedItems_keys {items : Items} {input : CommitPlanInput} {key : JournalKey}
    (hkey : key ≠ input.commitEvent.key) :
    (committedItems items input).lookup (.journal key) = items.lookup (.journal key) := by
  rw [committedItems, AList.lookup_insert_ne (by simpa using hkey),
    AList.lookup_insert_ne (by simp)]

variable {j : ι}

theorem Moves.respects (hne : j ≠ i) (h : Moves j w w') : Respects i w w' := by
  -- a put only touches a key whose instance the putting process drew
  have hput : ∀ {entry : JournalEntry} {items : Items}, Puts j w entry →
      (∀ key, key ≠ entry.key → items.lookup (.journal key) = w.items.lookup (.journal key)) →
      Respects i w (w.withItems items) := by
    intro entry items hputs hsame
    refine ⟨fun _ _ hd => hd, fun key hkey => hsame key ?_⟩
    rintro rfl
    exact hne (Option.some.inj (hputs.source.symm.trans hkey))
  cases h with
  | same => exact .refl w
  | drew hfresh => exact .draw hfresh
  | appended hputs | noted hputs =>
    exact hput hputs fun key hkey => AList.lookup_insert_ne (by simpa using hkey)
  | committed hcommits => exact hput hcommits.puts fun key hkey => committedItems_keys hkey
  | consumed hcommits =>
    refine hput hcommits.puts fun key hkey => ?_
    rw [AList.lookup_insert_ne (by simp)]
    exact committedItems_keys hkey
  | advanced hputs =>
    refine hput hputs fun key hkey => ?_
    rw [AList.lookup_insert_ne (by simpa using hkey), AList.lookup_insert_ne (by simp)]
  | cleaned =>
    exact ⟨fun _ _ hd => hd, fun key _ => AList.lookup_insert_ne (by simp)⟩

theorem env_respected (i : ι) : RespectedBy i (env i) := by
  intro w w' hrel
  exact others_stable (P := fun v => Respects i w v)
    (fun j _ _ hne hmove hsofar => hsofar.trans (hmove.respects hne)) hrel (.refl w)

/-- The program of `i` makes protocol moves only, among the moves of the others. -/
abbrev Abides {α : Type} (i : ι) (Q : α → World ι → Prop) (p : Async α) (w : World ι) : Prop :=
  SafeAt i (env i) (Moves i) Q p w

/-- A fact that every move of every process keeps. -/
def Stable (P : World ι → Prop) : Prop := ∀ j w w', Moves j w w' → P w → P w'

variable {P : World ι → Prop}

theorem Stable.env (h : Stable P) (hrel : (env i).rel w w') (hP : P w) : P w' :=
  others_stable (G := fun j => Moves j) (P := P) (fun j v v' _ hmove hPv => h j v v' hmove hPv)
    hrel hP

theorem Stable.draw (h : Stable P) {id : Uuid4} (hfresh : w.drawn id = none) (hP : P w) :
    P (w.draw i id) :=
  h i _ _ (.drew hfresh) hP

theorem Stable.and {Q : World ι → Prop} (hP : Stable P) (hQ : Stable Q) :
    Stable fun w => P w ∧ Q w :=
  fun j _ _ hmove h => ⟨hP j _ _ hmove h.1, hQ j _ _ hmove h.2⟩

theorem coherent_stable : Stable (Coherent (ι := ι)) := fun _ _ _ hmove h => h.step hmove

theorem drawn_stable (id : Uuid4) : Stable fun w : World ι => w.drawn id = some i := by
  intro j w w' hmove hdrawn
  cases hmove with
  | drew hfresh => exact World.draw_drawn_of_some hfresh hdrawn
  | same | appended | noted | committed | consumed | advanced | cleaned => exact hdrawn

theorem ledger_stable (id : Uuid4) (transaction : LedgerTransaction) :
    Stable fun w : World ι => w.items.lookup (.ledger id) = some transaction := by
  intro j w w' hmove hlookup
  have hold : ∀ {input : CommitPlanInput}, Commits j w input →
      (committedItems w.items input).lookup (.ledger id) = some transaction := by
    intro input hcommits
    have hne : id ≠ input.identities.providerTransactionId := by
      rintro rfl
      rw [hcommits.ledger] at hlookup
      cases hlookup
    rw [committedItems, AList.lookup_insert_ne (by simp),
      AList.lookup_insert_ne (by simpa using hne)]
    exact hlookup
  cases hmove with
  | same | drew => exact hlookup
  | appended | noted | cleaned =>
    rw [World.withItems_items, AList.lookup_insert_ne (by simp)]
    exact hlookup
  | committed hcommits => exact hold hcommits
  | consumed hcommits =>
    rw [World.withItems_items, AList.lookup_insert_ne (by simp)]
    exact hold hcommits
  | advanced =>
    rw [World.withItems_items, AList.lookup_insert_ne (by simp),
      AList.lookup_insert_ne (by simp)]
    exact hlookup

/-- Every stored event is of an instance that some process drew. -/
def Sourced (w : World ι) : Prop :=
  ∀ key event, StoredAt w.items key event → ∃ process, w.drawn key.instanceId = some process

theorem sourced_stable : Stable (Sourced (ι := ι)) := by
  intro j w w' hmove hsourced
  have hput : ∀ {entry : JournalEntry} {items : Items}, Puts j w entry →
      (∀ key, key ≠ entry.key → items.lookup (.journal key) = w.items.lookup (.journal key)) →
      Sourced (w.withItems items) := by
    intro entry items hputs hsame key event hstored
    by_cases hkey : key = entry.key
    · rw [hkey]
      exact ⟨j, hputs.source⟩
    · refine hsourced key event ?_
      rw [StoredAt, ← hsame key hkey]
      exact hstored
  cases hmove with
  | same => exact hsourced
  | drew hfresh =>
    intro key event hstored
    obtain ⟨process, hprocess⟩ := hsourced key event hstored
    exact ⟨process, World.draw_drawn_of_some hfresh hprocess⟩
  | appended hputs | noted hputs =>
    exact hput hputs fun key hkey => AList.lookup_insert_ne (by simpa using hkey)
  | committed hcommits => exact hput hcommits.puts fun key hkey => committedItems_keys hkey
  | consumed hcommits =>
    refine hput hcommits.puts fun key hkey => ?_
    rw [AList.lookup_insert_ne (by simp)]
    exact committedItems_keys hkey
  | advanced hputs =>
    refine hput hputs fun key hkey => ?_
    rw [AList.lookup_insert_ne (by simpa using hkey), AList.lookup_insert_ne (by simp)]
  | cleaned =>
    intro key event hstored
    exact hsourced key event (storedAt_insert_treatment.mp hstored)

theorem Sourced.opened (hsourced : Sourced w)
    (hfresh : w.drawn writer.instanceId = none) :
    Owns i writer (w.draw i writer.instanceId) := by
  refine ⟨World.draw_drawn_self _ _ _, fun _ sequence _ => ?_⟩
  cases hlookup : w.items.lookup (.journal (writer.keyAt sequence)) with
  | none => exact hlookup
  | some event =>
    obtain ⟨process, hprocess⟩ := hsourced _ event hlookup
    exact absurd (hfresh.symm.trans hprocess) (by simp)

/-- A ledger item found after a move was there before, or the moving process put
it for a call of its own. -/
theorem Moves.ledger {id : Uuid4} {transaction : LedgerTransaction} (h : Moves j w w')
    (hlookup : w'.items.lookup (.ledger id) = some transaction) :
    w.items.lookup (.ledger id) = some transaction ∨
      w.drawn transaction.providerCallId = some j := by
  have hcommit : ∀ {input : CommitPlanInput}, Commits j w input →
      (committedItems w.items input).lookup (.ledger id) = some transaction →
      w.items.lookup (.ledger id) = some transaction ∨
        w.drawn transaction.providerCallId = some j := by
    intro input hcommits hfound
    rcases lookup_committedItems_ledger hfound with ⟨-, rfl⟩ | hold
    · exact .inr hcommits.call
    · exact .inl hold
  cases h with
  | same | drew => exact .inl hlookup
  | appended | noted | cleaned =>
    rw [World.withItems_items, AList.lookup_insert_ne (by simp)] at hlookup
    exact .inl hlookup
  | committed hcommits => exact hcommit hcommits hlookup
  | consumed hcommits =>
    rw [World.withItems_items, AList.lookup_insert_ne (by simp)] at hlookup
    exact hcommit hcommits hlookup
  | advanced =>
    rw [World.withItems_items, AList.lookup_insert_ne (by simp),
      AList.lookup_insert_ne (by simp)] at hlookup
    exact .inl hlookup

theorem Moves.drawn_before {id : Uuid4} (hne : j ≠ i) (h : Moves j w w')
    (hdrawn : w'.drawn id = some i) : w.drawn id = some i := by
  cases h with
  | @drew fresh hfresh =>
    by_cases hid : id = fresh
    · subst hid
      rw [World.draw_drawn_self] at hdrawn
      exact absurd (Option.some.inj hdrawn) hne
    · simpa [World.draw, Function.update_of_ne hid] using hdrawn
  | same | appended | noted | committed | consumed | advanced | cleaned => exact hdrawn

/-- The partition is coherent and no ledger item is for a call of this process. -/
def Uncommitted (i : ι) (w : World ι) : Prop :=
  Coherent w ∧ ∀ id transaction, w.items.lookup (.ledger id) = some transaction →
    w.drawn transaction.providerCallId ≠ some i

theorem Uncommitted.env (h : Uncommitted i w) (hrel : (env i).rel w w') : Uncommitted i w' := by
  refine others_stable (P := Uncommitted i) (fun j v v' hne hmove hv => ?_) hrel h
  refine ⟨coherent_stable j _ _ hmove hv.1, fun id transaction hlookup hdrawn => ?_⟩
  have hdrawn₀ := hmove.drawn_before hne hdrawn
  rcases hmove.ledger hlookup with hold | hown
  · exact hv.2 id transaction hold hdrawn₀
  · exact hne (Option.some.inj (hown.symm.trans hdrawn₀))

/-- A move that leaves the ledger alone. -/
def Quiet (i : ι) (w w' : World ι) : Prop :=
  Moves i w w' ∧ ∀ id, w'.items.lookup (.ledger id) = w.items.lookup (.ledger id)

theorem Uncommitted.quiet (h : Uncommitted i w) (hquiet : Quiet i w w') : Uncommitted i w' := by
  obtain ⟨hmove, hledger⟩ := hquiet
  refine ⟨coherent_stable i _ _ hmove h.1, fun id transaction hlookup hdrawn => ?_⟩
  rw [hledger] at hlookup
  obtain ⟨item, hitem⟩ := h.1
  obtain ⟨process, hprocess⟩ := hitem.ledger.called id transaction hlookup
  have hkept := drawn_stable transaction.providerCallId i _ _ hmove hprocess
  obtain rfl := Option.some.inj (hkept.symm.trans hdrawn)
  exact h.2 id transaction hlookup hprocess

theorem Uncommitted.draw {id : Uuid4} (h : Uncommitted i w) (hfresh : w.drawn id = none) :
    Uncommitted i (w.draw i id) :=
  h.quiet ⟨.drew hfresh, fun _ => rfl⟩

/-! ## What an earlier image still says -/

/-- The item is the image or some transitions further. -/
abbrev Later : TreatmentItem → TreatmentItem → Prop := Relation.ReflTransGen Advances

variable {image : TreatmentItem}

theorem Later.keeps (h : Later image item) : Keeps image item := by
  induction h with
  | refl => exact fun _ _ hid => hid
  | tail _ hlast ih => exact fun field id hid => hlast.keeps field id (ih field id hid)

theorem Later.eq_of_terminal (h : Later image item)
    (hterminal : Terminal image.state) : item = image := by
  induction h with
  | refl => rfl
  | tail _ hlast ih =>
    subst ih
    exact absurd hterminal hlast.edge.not_terminal

/-- The partition is coherent and its treatment item is this image or later. -/
def Seen (image : TreatmentItem) (w : World ι) : Prop :=
  ∃ item, CoherentWith w item ∧ Later image item

theorem Seen.coherent (h : Seen image w) : Coherent w := by
  obtain ⟨item, hitem, -⟩ := h
  exact ⟨item, hitem⟩

theorem seen_stable (image : TreatmentItem) : Stable (Seen (ι := ι) image) := by
  rintro j w w' hmove ⟨item, hitem, hlater⟩
  obtain ⟨item', hitem', rfl | hadvances⟩ := hitem.step hmove
  · exact ⟨item', hitem', hlater⟩
  · exact ⟨item', hitem', hlater.tail hadvances⟩

theorem Seen.id (h : Seen image w)
    (hlookup : w.items.lookup .treatment = some item) (field : TreatmentIdField) {id : Uuid4}
    (hid : idOf image field = some id) : idOf item field = some id := by
  obtain ⟨found, hfound, hlater⟩ := h
  obtain rfl := Option.some.inj (hfound.treatment.symm.trans hlookup)
  exact hlater.keeps field id hid

theorem Coherent.seen (h : Coherent w)
    (hlookup : w.items.lookup .treatment = some item) : Seen item w := by
  obtain ⟨found, hfound⟩ := h
  obtain rfl := Option.some.inj (hfound.treatment.symm.trans hlookup)
  exact ⟨found, hfound, .refl⟩

/-! ## Appends and transitions -/

theorem append_quiet {body : EventBody} {causation : List Uuid4}
    (hinert : Inert body) (howns : Owns i writer w) :
    SafeAt i (env i) (Quiet i) (Appended i writer body causation)
      (writer.append body causation) w := by
  refine append_spec (P := fun _ => True) (env_respected i) (fun v => ⟨.same v, fun _ => rfl⟩)
    (fun _ _ hfresh => ⟨.drew hfresh, fun _ => rfl⟩)
    (fun _ _ _ _ => trivial) (fun _ _ _ _ => trivial) ?_ howns trivial
  intro v entry _ hbuilt habsent hinstance
  refine ⟨.appended ⟨?_, hbuilt.drawn, habsent⟩ ?_, fun id => AList.lookup_insert_ne (by simp)⟩
  · rw [hbuilt.instanceId_eq]
    exact hinstance
  · rw [hbuilt.body_eq]
    exact hinert

theorem append_inert {body : EventBody} {causation : List Uuid4}
    (hinert : Inert body) (hPR : ∀ v v', (env i).rel v v' → P v → P v')
    (hPG : ∀ v v', Quiet i v v' → P v → P v') (howns : Owns i writer w) (hP : P w) :
    Abides i (fun result w' => Appended i writer body causation result w' ∧ P w')
      (writer.append body causation) w :=
  Safe.guarantee (SafeOk.frame (append_quiet hinert howns) hPR hPG hP) fun _ _ h => h.1

theorem applyAll_update_put
    (hitem : store.lookup .treatment = some item) :
    applyAll [updateTreatment condition set, journalPutAction put] store =
      (store.insert .treatment { set item with version := item.version + 1 }).insert
        (.journal put.key) put.event := by
  simp [WriteAction.apply, updateTreatment, journalPutAction, hitem]

theorem applyAll_update_put_keys
    (key : JournalKey) (hkey : key ≠ put.key) :
    (applyAll [updateTreatment condition set, journalPutAction put] store).lookup
      (.journal key) = store.lookup (.journal key) := by
  have hne : ItemKey.journal key ≠ .journal put.key := by simpa using hkey
  simp only [applyAll_cons, applyAll_nil, WriteAction.apply, updateTreatment, journalPutAction]
  rw [AList.lookup_insert_ne hne, AList.lookup_insert_ne (by simp)]

/-- When such a transaction fails on another action than its put, it failed on
the treatment item and returned it. -/
theorem failed_update_put
    {failed : Nat}
    {existing : Option (Sigma ItemOf)}
    (h : firstFailing store 0 [updateTreatment condition set, journalPutAction put] =
      some (failed, existing)) (hne : failed ≠ 1) :
    failed = 0 ∧ existing = (store.lookup .treatment).map fun item => ⟨.treatment, item⟩ := by
  obtain ⟨offset, action, hfound, hget, -, hexisting⟩ := firstFailing_get h
  match offset, hget, hfound with
  | 0, hget, hfound =>
    obtain rfl := Option.some.inj hget
    exact ⟨by omega, hexisting⟩
  | 1, _, hfound => omega
  | offset + 2, hget, _ => simp at hget

/-! ## Reads -/

theorem readControl_spec {View : Type} {key : ItemKey} {decode : ItemOf key → Except String View}
    (hP : ∀ v v', (env i).rel v v' → P v → P v') (hPw : P w) :
    Abides i
      (fun read w' => P w' ∧ ∀ view, read = .ok (some view) → ∃ v item, (env i).rel v w' ∧ P v ∧
        v.items.lookup key = some item ∧ decode item = .ok view)
      (readControl key decode) w := by
  refine SafeOk.call fun w₁ h₁ read w₂ hread => ?_
  obtain ⟨rfl, hitem⟩ := answers_getConsistent hread
  have hP₁ : P w₂ := hP _ _ h₁ hPw
  refine ⟨.same _, ?_⟩
  match read, hitem with
  | .error code, _ =>
    exact SafeOk.pure fun w' h' => ⟨hP _ _ h' hP₁, fun view hview => by cases hview⟩
  | .ok none, _ =>
    exact SafeOk.pure fun w' h' => ⟨hP _ _ h' hP₁, fun view hview => by cases hview⟩
  | .ok (some item), hitem =>
    cases hdecode : decode item with
    | error code =>
      simp only [hdecode]
      exact SafeOk.pure fun w' h' => ⟨hP _ _ h' hP₁, fun view hview => by cases hview⟩
    | ok view =>
      simp only [hdecode]
      refine SafeOk.pure fun w' h' => ⟨hP _ _ h' hP₁, fun view' hview => ?_⟩
      obtain rfl : view = view' := Option.some.inj (Except.ok.inj hview)
      exact ⟨w₂, item, h', hP₁, (hitem _ rfl).symm, hdecode⟩

theorem loadTreatment_spec (hPR : ∀ v v', (env i).rel v v' → P v → P v')
    (hcoherent : ∀ v, P v → Coherent v) (hP : P w) :
    Abides i
      (fun read w' => P w' ∧ ∀ item, read = .ok (some item) → Seen item w') loadTreatment w := by
  refine SafeOk.weaken (readControl_spec hPR hP) ?_
  rintro read w' ⟨hP', hread⟩
  refine ⟨hP', fun image himage => ?_⟩
  obtain ⟨v, item, hrel, hPv, hlookup, hdecode⟩ := hread image himage
  unfold decodeTreatmentItem at hdecode
  split at hdecode
  · obtain rfl := Except.ok.inj hdecode
    exact (seen_stable _).env hrel ((hcoherent v hPv).seen hlookup)
  · cases hdecode

end RefundStudy.Treatment
