/-
  What cleanup records is what its journal can hold: every action of a run meets the schema of
  `cleanup_action_recorded` and the check of `cleanup/cleanup-history.ts`, so a later run reads
  it back (BR-RUA-050).
-/
import RefundStudy.ActionJournal.History
import RefundStudy.Cleanup.DeletionAccount

set_option autoImplicit false

namespace RefundStudy.Cleanup

open Foundation Record Store ActionJournal

/-! ## Entries the journal can hold -/

/-- An action on a resource follows from a decision that allows it. -/
def Decided (body : CleanupActionBody) : Prop :=
  ∀ action, body.action = .resource action →
    ∃ basis ∈ basesByAction action, body.ownershipBasis = some basis

/-- A resource is named by type and identifier, and only a named one has a basis. -/
structure Attributed (body : CleanupActionBody) : Prop where
  resource : body.resourceType.isSome = body.resourceIdentifier.isSome
  basis : body.ownershipBasis.isSome = true → body.resourceIdentifier.isSome = true
  decided : Decided body

/-- The action of the journal that stands for a body of the model, whatever details its reasons
carry. -/
structure Journals (recorded : ActionJournal.CleanupActionBody)
    (body : CleanupActionBody) : Prop where
  action : recorded.action = jsString (actionText body.action)
  resourceType : recorded.resourceType = body.resourceType.map jsString
  resourceIdentifier : recorded.resourceIdentifier = body.resourceIdentifier.map jsString
  ownershipBasis : recorded.ownershipBasis = body.ownershipBasis

/-- The names the body carries are not empty. -/
def Named (body : CleanupActionBody) : Prop :=
  (∀ name ∈ body.resourceType, name ≠ "") ∧ ∀ name ∈ body.resourceIdentifier, name ≠ ""

theorem actionText_upperSnake (action : CleanupAction) :
    ActionJournal.isUpperSnake (jsString (actionText action)) = true := by
  have hall : ∀ action ∈ foldedActions,
      ActionJournal.isUpperSnake (jsString (actionText action)) = true := by decide +kernel
  exact hall action (mem_foldedActions action)

theorem readName_sound {α : Type} {names : Names α} {text : JsString} {value : α}
    (h : readName names text = some value) : ∃ name, (name, value) ∈ names ∧ jsString name = text := by
  obtain ⟨⟨name, read⟩, hfound, rfl⟩ := Option.map_eq_some_iff.mp h
  have hname := List.find?_some hfound
  exact ⟨name, List.mem_of_find?_eq_some hfound, by simpa using hname⟩

/-- Only the name of a resource action is read as one. -/
theorem resourceAction_of_name {action : CleanupAction} {read : CleanupResourceAction}
    (h : readName resourceActionNames (jsString (actionText action)) = some read) :
    action = .resource read := by
  obtain ⟨name, hmem, hname⟩ := readName_sound h
  obtain ⟨value, -, heq⟩ := List.mem_map.mp hmem
  obtain ⟨rfl, rfl⟩ := Prod.mk.inj heq
  have htext : actionText action = actionText (.resource value) := (jsString_injective hname).symm
  exact List.inj_on_of_nodup_map foldedActions_distinct (mem_foldedActions _) (mem_foldedActions _)
    htext

theorem jsString_ne_nil {text : String} (h : text ≠ "") : jsString text ≠ [] := by
  intro hnil
  exact h (jsString_injective (hnil.trans (by decide)))

theorem Journals.recordable {action : ActionJournal.CleanupActionBody}
    {body : CleanupActionBody} (h : Journals action body) (hattributed : Attributed body)
    (hnamed : Named body) : action.Recordable := by
  refine ⟨?_, ?_, ?_, ?_, ?_, ?_⟩
  · rw [h.action]
    exact actionText_upperSnake body.action
  · rw [h.resourceType, h.resourceIdentifier, Option.isSome_map, Option.isSome_map]
    exact hattributed.resource
  · intro name hname
    rw [h.resourceType] at hname
    obtain ⟨text, htext, rfl⟩ := Option.mem_map.mp hname
    exact jsString_ne_nil (hnamed.1 text htext)
  · intro name hname
    rw [h.resourceIdentifier] at hname
    obtain ⟨text, htext, rfl⟩ := Option.mem_map.mp hname
    exact jsString_ne_nil (hnamed.2 text htext)
  · rw [h.ownershipBasis, h.resourceIdentifier, Option.isSome_map]
    exact hattributed.basis
  · intro read hname
    rw [h.action] at hname
    rw [h.ownershipBasis]
    exact hattributed.decided read (resourceAction_of_name hname)

/-! ## Histories -/

def AllDecided (entries : List CleanupActionEntry) : Prop :=
  ∀ entry ∈ entries, Decided entry.body

theorem AllDecided.append {front back : List CleanupActionEntry} (h : AllDecided front)
    (h' : AllDecided back) : AllDecided (front ++ back) := by
  intro entry hmem
  exact (List.mem_append.mp hmem).elim (h entry) (h' entry)

/-- An entry the history accepts follows from a decision, since the reader checks it. -/
theorem accountOf_decided {entry : ActionJournal.CleanupActionEntry}
    {account : CleanupActionEntry} (hmatches : basisMatches entry.body = true)
    (h : accountOf entry = some account) : Decided account.body := by
  obtain ⟨read, hread, rfl⟩ := Option.map_eq_some_iff.mp h
  intro action haction
  obtain rfl : read = .resource action := haction
  obtain ⟨name, hmem, hname⟩ := readName_sound hread
  obtain ⟨folded, -, heq⟩ := List.mem_map.mp hmem
  obtain ⟨rfl, rfl⟩ := Prod.mk.inj heq
  have hresource : readName resourceActionNames entry.body.action = some action := by
    rw [← hname]
    exact readName_text (by decide) (by cases action <;> decide)
  rw [basisMatches, hresource] at hmatches
  obtain ⟨basis, hbasis, hallowed⟩ := (Option.any_eq_true _ _).mp hmatches
  exact ⟨basis, by simpa using hallowed, hbasis⟩

theorem history_decided (text : NumberText) (bytes : List UInt8) (scope : HistoryExpectation) :
    AllDecided ((readCleanupHistory text bytes scope).entries.filterMap accountOf) := by
  intro account hmem
  obtain ⟨entry, hentry, haccount⟩ := List.mem_filterMap.mp hmem
  obtain ⟨line, -, hline⟩ := List.mem_filterMap.mp hentry
  refine accountOf_decided ?_ haccount
  unfold acceptedEntry at hline
  split at hline
  · rename_i accepted hjudged
    obtain rfl := Option.some.inj hline
    unfold judgeLine at hjudged
    split at hjudged
    · cases hjudged
    · split at hjudged
      · cases hjudged
      · unfold judgeRecord at hjudged
        dsimp only at hjudged
        split at hjudged
        · cases hjudged
        · split at hjudged
          · cases hjudged
          · rename_i hmatches
            obtain rfl := Except.ok.inj hjudged
            simpa using hmatches
  · cases hline

/-- A failed deletion of the history was of an owned resource. -/
theorem AllDecided.earlier {entries : List CleanupActionEntry} (h : AllDecided entries) :
    ∀ earlier ∈ earlierDeleteFailures (foldCleanupActions entries),
      earlier.ownershipBasis ∈ basesByAction .alreadyAbsent := by
  intro earlier hmem
  obtain ⟨hfolded, hfailed⟩ := List.mem_filter.mp hmem
  have hresources : earlier ∈ foldResources entries := hfolded
  rw [foldResources_eq] at hresources
  obtain ⟨front, back, heq, -⟩ := InsertionMap.mem_values_latest.mp hresources
  have houtcome : earlier ∈ outcomesIn entries := by
    rw [heq]
    exact List.mem_append_right _ List.mem_cons_self
  obtain ⟨entry, hentry, hresource⟩ := List.mem_filterMap.mp houtcome
  unfold resourceEntryOf at hresource
  split at hresource
  · rename_i action resourceType identifier basis haction _ _ hbasis
    split at hresource
    · obtain rfl := Option.some.inj hresource
      obtain rfl : action = .deleteFailed := by simpa using hfailed
      obtain ⟨allowed, hallowed, hsome⟩ := h entry hentry _ haction
      obtain rfl := Option.some.inj (hbasis.symm.trans hsome)
      exact hallowed
    · cases hresource
  · cases hresource

/-! ## Runs -/

section Run

variable {mode : CleanupMode} {input : CleanupInput} {start : List CleanupActionEntry}

theorem IsStepEntry.attributed {step : CleanupStep} {status : StepStatus}
    {entry : CleanupActionEntry} (h : IsStepEntry step status entry) :
    Attributed entry.body := by
  obtain ⟨-, haction, -, htype, hidentifier, hbasis⟩ := h
  refine ⟨by rw [htype, hidentifier], ?_, ?_⟩
  · rw [hbasis]
    intro hsome
    cases hsome
  · intro action hresource
    cases haction.symm.trans hresource

/-- What the entries so far follow from, the entries of the part go on with. -/
def Accounts (before : List CleanupActionEntry) (emitted : List CleanupActionEntry) :
    Prop :=
  AllDecided before → ∀ entry ∈ emitted, Attributed entry.body

theorem Accounts.append {before front back : List CleanupActionEntry}
    (h : Accounts before front) (h' : Accounts (before ++ front) back) :
    Accounts before (front ++ back) := by
  intro hdecided entry hmem
  have hfront := h hdecided
  rcases List.mem_append.mp hmem with hmem | hmem
  · exact hfront entry hmem
  · exact h' (hdecided.append fun other hother => (hfront other hother).decided) entry hmem

theorem IsStepEntry.accounts {step : CleanupStep} {status : StepStatus}
    {entry : CleanupActionEntry} (h : IsStepEntry step status entry)
    (before : List CleanupActionEntry) : Accounts before [entry] := by
  intro _ other hmem
  rw [List.mem_singleton.mp hmem]
  exact h.attributed

theorem runCleanupStep_accounts (step : CleanupStep) (start : List CleanupActionEntry) :
    Logs start (runCleanupStep step mode input (foldCleanupActions (input.history ++ start))
        (recordItem mode step)) fun _ emitted _ => Accounts (input.history ++ start) emitted := by
  by_cases hdecided : AllDecided (input.history ++ start)
  · refine (runCleanupStep_each (P := fun entry => Attributed entry.body)
      (B := fun basis action => basis ∈ basesByAction action) (fun _ _ h => h) ?_ ?_ input
      hdecided.earlier start).weaken fun _ _ _ h _ => h
    · intro item hother occurredAt
      refine ⟨rfl, fun _ => rfl, fun action haction => ?_⟩
      have hresource : item.action = .resource action := haction
      rw [hresource] at hother
      cases hother
    · intro resourceType identifier basis action reasons hallowed occurredAt
      refine ⟨rfl, fun _ => rfl, fun other haction => ?_⟩
      obtain rfl := CleanupAction.resource.inj haction
      exact ⟨basis, hallowed, rfl⟩
  · exact (runCleanupStep_ofStep input _ start).weaken fun _ _ _ _ h => absurd h hdecided

theorem runStep_accounts (step : CleanupStep) :
    Logs start (runStep mode input step) fun result emitted _ =>
      result = .ok () ∧ Accounts (input.history ++ start) emitted := by
  refine (runStep_emits (Q := fun _ start emitted => Accounts (input.history ++ start) emitted)
    (runCleanupStep_accounts step)).weaken ?_
  rintro result emitted trace ⟨hok, -, -, first, middle, last, status, outcome, rfl, hfirst, hlast,
    hmiddle, -⟩
  refine ⟨hok, ?_⟩
  rw [← List.append_assoc] at hmiddle
  exact ((hfirst.accounts _).append hmiddle).append (hlast.accounts _)

theorem runSteps_accounts (steps : List CleanupStep) :
    Logs start (runSteps mode input steps) fun result emitted _ =>
      result = .ok () ∧ Accounts (input.history ++ start) emitted := by
  have hnil : ∀ before, Accounts before [] := fun _ _ _ hmem => absurd hmem List.not_mem_nil
  refine runSteps_keeps hnil (fun _ _ _ hfront hback => hfront.append hback)
    (fun step start => ?_) steps
  exact (runStepIfNeeded_emits (runStep_accounts step) fun _ => ⟨rfl, hnil _⟩).weaken
    fun _ _ _ h => h.1

theorem runCleanup_accounts : Logs [] (runCleanup mode input)
    fun _ emitted _ => Accounts input.history emitted := by
  refine Unfed.bind unfed_clockNow (fun runStartedAt => ?_) fun _ _ _ _ _ h => h
  refine Emits.andThen (runSteps_accounts (cleanupStepOrder mode)) ?_
  rintro _ emitted trace ⟨-, hsteps⟩
  rw [List.append_nil] at hsteps
  refine (freezeRun_emits runStartedAt).weaken ?_
  rintro result _ trace' ⟨-, first, last, status, outcome, startedAt, completedAt, breach, rfl,
    hfirst, hlast, -⟩
  exact hsteps.append ((hfirst.accounts _).append (hlast.accounts _))

/-- Every action that a run on a journaled history records, whatever the ports answer or throw, is
one the journal takes, as long as the resources it names have a type and an identifier. -/
theorem recorded_actions_recordable {text : NumberText} {bytes : List UInt8}
    {scope : HistoryExpectation}
    (hhistory : input.history = (readCleanupHistory text bytes scope).entries.filterMap accountOf)
    {trace : List CleanupExchange} {result : Except Thrown CleanupRunOutcome} {state : RunState}
    (htraced : Traced ((runCleanup mode input).run.run (RunState.initial input)) trace
      (result, state)) :
    ∀ entry ∈ state.entries, Named entry.body → ∀ action, Journals action entry.body →
      action.Recordable := by
  obtain ⟨emitted, hemitted, haccounts⟩ := runCleanup_accounts _ rfl _ _ htraced
  obtain rfl : state.entries = emitted := hemitted
  rw [hhistory] at haccounts
  intro entry hmem hnamed action hjournals
  exact hjournals.recordable (haccounts (history_decided text bytes scope) entry hmem) hnamed

end Run

end RefundStudy.Cleanup
