/-
  Recovery of a finalized package's cleanup, any number of times
  (`execution-lifecycle/operational-recovery.ts`, `cleanup-plan.ts`, `amendment-payload.ts`).

  The lease, the references and the identity of the recovery record are not modelled here.
-/
import RefundStudy.Cleanup.DeletionAccount
import RefundStudy.ActionJournal.History

set_option autoImplicit false

namespace RefundStudy.Cleanup

open Foundation Record Store
open ActionJournal (JournalScope readCleanupHistory accountOf HistoryFinding)

/-! ## What a run reports of everything recorded -/

theorem IsStepEntry.ids {step : CleanupStep} {status : StepStatus} {entry : CleanupActionEntry}
    (h : IsStepEntry step status entry) (action : ItemActionName) : idsIn action [entry] = [] := by
  obtain ⟨-, haction, -⟩ := h
  simp [idsIn, identifierFor, haction]

theorem identifiersOf_append {before more : List CleanupActionEntry} {action : ItemActionName}
    (h : idsIn action more = []) : identifiersOf (before ++ more) action = identifiersOf before action := by
  have hids : (before ++ more).filterMap (identifierFor action) =
      before.filterMap (identifierFor action) := by
    rw [List.filterMap_append]
    exact (congrArg _ h).trans (List.append_nil _)
  unfold identifiersOf
  rw [hids]

theorem foldResources_kept {before more : List CleanupActionEntry} {resource : CleanupResource}
    (hmem : resource ∈ foldResources before) :
    ∃ reported ∈ foldResources (before ++ more), reported.key = resource.key ∧
      (reported = resource ∨ reported ∈ outcomesIn more) := by
  rw [foldResources_eq] at hmem ⊢
  rw [outcomesIn_append]
  exact InsertionMap.mem_values_latest_append hmem

section Run

variable {mode : CleanupMode} {input : CleanupInput} {start : List CleanupActionEntry}

theorem runStep_ofStep (step : CleanupStep) :
    Logs start (runStep mode input step) fun result emitted _ =>
      result = .ok () ∧ ∀ entry ∈ emitted, entry.body.step = step := by
  refine (runStep_emits (Q := fun _ _ emitted => ∀ entry ∈ emitted, entry.body.step = step)
    fun start => (runCleanupStep_ofStep input _ start).weaken fun _ _ _ h => h).weaken ?_
  rintro result emitted trace ⟨hok, -, -, first, middle, last, status, outcome, rfl, hfirst, hlast,
    hmiddle, -⟩
  refine ⟨hok, fun entry hmem => ?_⟩
  rw [List.cons_append, List.mem_cons, List.mem_append, List.mem_singleton] at hmem
  rcases hmem with rfl | hmem | rfl
  · exact hfirst.1
  · exact hmiddle entry hmem
  · exact hlast.1

/-- Entries of other steps do not change how a step ended. -/
theorem HasSucceeded.append {entries more : List CleanupActionEntry} {step : CleanupStep}
    (h : HasSucceeded entries step) (hother : ∀ entry ∈ more, entry.body.step ≠ step) :
    HasSucceeded (entries ++ more) step := by
  have hnone : stepEntries step more = [] := by
    refine List.filter_eq_nil_iff.mpr fun entry hmem => ?_
    simp [hother entry hmem]
  unfold HasSucceeded
  rw [latestStatus_append hnone]
  exact h

/-- The loop records nothing under a step that has succeeded and does not always run again. -/
theorem runSteps_skips {skipped : CleanupStep} (hrerun : alwaysRerun skipped = false)
    (steps : List CleanupStep) :
    Logs start (runSteps mode input steps) fun result emitted _ =>
      result = .ok () ∧ (HasSucceeded (input.history ++ start) skipped →
        ∀ entry ∈ emitted, entry.body.step ≠ skipped) := by
  refine runSteps_keeps (A := fun before emitted => HasSucceeded before skipped →
    ∀ entry ∈ emitted, entry.body.step ≠ skipped) ?_ ?_ (fun step start => ?_) steps
  · exact fun _ _ _ hmem => absurd hmem List.not_mem_nil
  · intro before front back hfront hback hsucceeded entry hmem
    rcases List.mem_append.mp hmem with hmem | hmem
    · exact hfront hsucceeded entry hmem
    · exact hback (hsucceeded.append (hfront hsucceeded)) entry hmem
  · refine (runStepIfNeeded_emits (runStep_ofStep step)
      fun _ => ⟨rfl, fun _ hmem => absurd hmem List.not_mem_nil⟩).weaken ?_
    rintro result emitted trace ⟨⟨hok, hown⟩, hskipped⟩
    refine ⟨hok, fun hsucceeded entry hmem heq => ?_⟩
    obtain rfl : step = skipped := (hown entry hmem).symm.trans heq
    rw [hskipped hsucceeded hrerun] at hmem
    cases hmem

/-- What a run freezes is what the history and its own entries fold to, and a step that the
history shows as succeeded is not run again unless it always is. -/
structure RunReport (history entries : List CleanupActionEntry) (outcome : CleanupRunOutcome) :
    Prop where
  resources : outcome.cleanupResult.resources = foldResources (history ++ entries)
  stops : outcome.cleanupResult.stoppedDurableExecutionArns =
    identifiersOf (history ++ entries) .durableStopApplied
  messages : outcome.cleanupResult.deletedDlqMessageIds =
    sortedSet (identifiersOf (history ++ entries) .dlqMessageDeleted ++
      identifiersOf (history ++ entries) .dlqMessageAbsent)
  skipped : ∀ step, HasSucceeded history step → alwaysRerun step = false →
    ∀ entry ∈ entries, entry.body.step ≠ step

theorem alwaysRerun_freeze {step : CleanupStep} (h : alwaysRerun step = false) :
    step ≠ .resultsFreeze := by
  intro heq
  rw [heq] at h
  cases h

theorem runCleanup_reports : Logs [] (runCleanup mode input)
    fun result emitted _ => ∃ outcome, result = .ok outcome ∧
      RunReport input.history emitted outcome := by
  have hsteps : Logs [] (runSteps mode input (cleanupStepOrder mode))
      fun result emitted _ => result = .ok () ∧ ∀ step, HasSucceeded input.history step →
        alwaysRerun step = false → ∀ entry ∈ emitted, entry.body.step ≠ step := by
    intro state hstate trace out htraced
    have hfirst : alwaysRerun .consumersDisable = false := rfl
    obtain ⟨emitted, hemitted, hok, -⟩ := runSteps_skips hfirst _ state hstate trace out htraced
    refine ⟨emitted, hemitted, hok, fun step hsucceeded hrerun => ?_⟩
    obtain ⟨emitted', hemitted', -, hskips⟩ := runSteps_skips hrerun _ state hstate trace out htraced
    obtain rfl : emitted' = emitted := List.append_cancel_left (hemitted'.symm.trans hemitted)
    rw [List.append_nil] at hskips
    exact hskips hsucceeded
  refine Unfed.bind unfed_clockNow (fun runStartedAt => ?_) fun _ _ _ _ _ h => h
  refine Emits.andThen hsteps ?_
  rintro _ emitted trace ⟨-, hskips⟩
  refine (freezeRun_emits runStartedAt).weaken ?_
  rintro result _ trace' ⟨-, first, last, status, outcome, startedAt, completedAt, breach, rfl,
    hfirst, hlast, hok, hresult⟩
  have hall : input.history ++ (emitted ++ [first, last]) =
      input.history ++ ([] ++ emitted) ++ [first] ++ [last] := by simp
  refine ⟨outcome, hok, ?_, ?_, ?_, ?_⟩
  · rw [hresult, hall, foldResources_append hlast.outcomes]
    rfl
  · rw [hresult, hall, identifiersOf_append (hlast.ids _)]
    rfl
  · rw [hresult, hall, identifiersOf_append (hlast.ids _), identifiersOf_append (hlast.ids _)]
    rfl
  · intro step hsucceeded hrerun entry hmem
    have hfreeze := alwaysRerun_freeze hrerun
    rw [List.mem_append, List.mem_cons, List.mem_singleton] at hmem
    rcases hmem with hmem | rfl | rfl
    · exact hskips step hsucceeded hrerun entry hmem
    · rw [hfirst.1]
      exact hfreeze.symm
    · rw [hlast.1]
      exact hfreeze.symm

end Run

/-! ## Recovery -/

/-- A finalized package as recovery reads it: its index, its resource manifest with the ownership
and the targets that follow from it, and the bytes of its cleanup journal. -/
structure FinalizedPackage where
  hasIndex : Bool
  resourceManifest : Option (Except StructuredReason OwnershipContext × CleanupTargets)
  cleanupJournal : Option (List UInt8)

/-- What one recovery leaves: its own cleanup journal and the frozen results, with the
`steps_run` of its record. -/
structure RecoveryAmendment where
  cleanupJournal : List CleanupActionEntry
  cleanupResult : CleanupResult
  leakAuditResult : LeakAuditResult
  stepsRun : List CleanupStep

/-- A package and its recoveries, oldest first. -/
structure ExecutionArchive where
  package : FinalizedPackage
  amendments : List RecoveryAmendment := []

def recoveryReason (code : String) : StructuredReason := ⟨code, "BR-RUA-038"⟩

def findingReason (finding : HistoryFinding) : StructuredReason :=
  ⟨finding.code, "cleanup-journal.jsonl"⟩

section Recovery

variable (text : NumberText) (scope : JournalScope)

/-- What the original cleanup recorded, as its journal in the package reads. -/
def FinalizedPackage.history (package : FinalizedPackage) : List CleanupActionEntry :=
  (readCleanupHistory text (package.cleanupJournal.getD []) scope).entries.filterMap accountOf

/-- `readOriginal` and `planCleanup`: what recovery runs cleanup on, or why it cannot. -/
def recoveryInput (package : FinalizedPackage) : Except StructuredReason CleanupInput := do
  if !package.hasIndex then throw (recoveryReason "PACKAGE_NOT_FINALIZED")
  match package.resourceManifest with
  | none => throw (recoveryReason "RESOURCE_MANIFEST_UNREADABLE")
  | some (ownership, targets) =>
    let ownership ← ownership
    let history := readCleanupHistory text (package.cleanupJournal.getD []) scope
    return {
      ownership := ownership
      targets := targets
      history := package.history text scope
      findings := history.findings.map findingReason }

def isRecoveryStep (step : CleanupStep) : Bool := 3 ≤ step.number && step.number ≤ 11

/-- The steps a recovery journaled as started, ascending. -/
def stepsRun (journal : List CleanupActionEntry) : List CleanupStep :=
  ((journal.filter fun entry => entry.body.stepStatus = .started && isRecoveryStep entry.body.step).map
    (·.body.step)).dedup.insertionSort (·.number ≤ ·.number)

def outOfScope : StepOutcome := ⟨.skipped, [recoveryReason "OUTSIDE_RECOVERY_SCOPE"]⟩

/-- What every recovery's ports have in common: late evidence is out of scope, and the journal is
appended to in memory. -/
structure RecoveryPorts (trace : List CleanupExchange) : Prop where
  cutoff : ∀ mode reply, ⟨.port (.completeLateEvidenceCutoff mode), reply⟩ ∈ trace →
    reply = .ok outOfScope
  freezeAssessment : ∀ mode reply, ⟨.port (.freezeLateEvidenceAssessment mode), reply⟩ ∈ trace →
    reply = .ok outOfScope
  append : ∀ body reply, ⟨.append body, reply⟩ ∈ trace → reply ≠ .stopped

def recoveryAmendment (outcome : CleanupRunOutcome) (journal : List CleanupActionEntry) :
    RecoveryAmendment where
  cleanupJournal := journal
  cleanupResult := outcome.cleanupResult
  leakAuditResult := outcome.leakAuditResult
  stepsRun := stepsRun journal

/-- `recoverExecution` on an archive: a recovery that cannot read the package, cannot establish
ownership or cannot write leaves it as it was; any other adds one amendment. -/
inductive Recovers : ExecutionArchive → ExecutionArchive → Prop where
  | refused {archive : ExecutionArchive} : Recovers archive archive
  | amended {archive : ExecutionArchive} {input : CleanupInput} {outcome : CleanupRunOutcome}
      {trace : List CleanupExchange} {state : RunState}
      (hplan : recoveryInput text scope archive.package = .ok input)
      (hrun : Traced ((runCleanup .emergency input).run.run (RunState.initial input)) trace
        (.ok outcome, state)) (hports : RecoveryPorts trace) :
      Recovers archive { archive with
        amendments := archive.amendments ++ [recoveryAmendment outcome state.entries] }

/-- A recovery reports everything that some runs folded to, and runs none of their succeeded
steps again unless it always is. -/
structure Reports (fold : CleanupFold) (amendment : RecoveryAmendment) : Prop where
  stops : ∀ arn ∈ fold.stoppedDurableExecutionArns,
    arn ∈ amendment.cleanupResult.stoppedDurableExecutionArns
  messages : ∀ messageId ∈ fold.deletedDlqMessageIds ++ fold.absentDlqMessageIds,
    messageId ∈ amendment.cleanupResult.deletedDlqMessageIds
  resources : ∀ resource ∈ fold.resources, ∃ reported ∈ amendment.cleanupResult.resources,
    reported.key = resource.key ∧
      (reported = resource ∨ reported ∈ outcomesIn amendment.cleanupJournal)
  steps : ∀ step ∈ fold.succeededSteps, alwaysRerun step = false → step ∉ amendment.stepsRun ∧
    ∀ entry ∈ amendment.cleanupJournal, entry.body.step ≠ step

variable {text : NumberText} {scope : JournalScope}

theorem recoveryInput_ok {package : FinalizedPackage} {ownership : OwnershipContext}
    {targets : CleanupTargets} (hindex : package.hasIndex = true)
    (hmanifest : package.resourceManifest = some (.ok ownership, targets)) :
    recoveryInput text scope package = .ok ⟨ownership, targets, package.history text scope,
      (readCleanupHistory text (package.cleanupJournal.getD []) scope).findings.map
        findingReason⟩ := by
  rw [recoveryInput, hindex, hmanifest]
  rfl

theorem recoveryInput_history {package : FinalizedPackage} {input : CleanupInput}
    (h : recoveryInput text scope package = .ok input) : input.history = package.history text scope := by
  unfold recoveryInput at h
  cases hindex : package.hasIndex with
  | false =>
    rw [hindex] at h
    cases h
  | true =>
    rw [hindex] at h
    cases hmanifest : package.resourceManifest with
    | none =>
      rw [hmanifest] at h
      cases h
    | some manifest =>
      obtain ⟨ownership, targets⟩ := manifest
      rw [hmanifest] at h
      cases ownership with
      | error reason => cases h
      | ok ownership =>
        obtain rfl := Except.ok.inj h
        rfl

theorem mem_stepsRun {journal : List CleanupActionEntry} {step : CleanupStep}
    (h : step ∈ stepsRun journal) : ∃ entry ∈ journal, entry.body.step = step := by
  unfold stepsRun at h
  rw [List.mem_insertionSort, List.mem_dedup, List.mem_map] at h
  obtain ⟨entry, hmem, hstep⟩ := h
  exact ⟨entry, (List.mem_filter.mp hmem).1, hstep⟩

theorem RunReport.reports {history entries : List CleanupActionEntry} {outcome : CleanupRunOutcome}
    (h : RunReport history entries outcome) :
    Reports (foldCleanupActions history) (recoveryAmendment outcome entries) where
  stops := by
    intro arn hmem
    have hrecorded : arn ∈ idsIn .durableStopApplied history := mem_identifiersOf.mp hmem
    change arn ∈ outcome.cleanupResult.stoppedDurableExecutionArns
    rw [h.stops, mem_identifiersOf, idsIn_append]
    exact List.mem_append_left _ hrecorded
  messages := by
    intro messageId hmem
    change messageId ∈ outcome.cleanupResult.deletedDlqMessageIds
    rw [h.messages, mem_sortedSet, List.mem_append]
    rcases List.mem_append.mp hmem with hdeleted | habsent
    · left
      rw [mem_identifiersOf, idsIn_append]
      exact List.mem_append_left _ (mem_identifiersOf.mp hdeleted)
    · right
      rw [mem_identifiersOf, idsIn_append]
      exact List.mem_append_left _ (mem_identifiersOf.mp habsent)
  resources := by
    intro resource hmem
    change ∃ reported ∈ outcome.cleanupResult.resources, _
    rw [h.resources]
    exact foldResources_kept hmem
  steps := by
    intro step hmem hrerun
    have hskipped := h.skipped step (succeededSteps_iff.mp hmem) hrerun
    refine ⟨fun hrun => ?_, hskipped⟩
    obtain ⟨entry, hentry, hstep⟩ := mem_stepsRun hrun
    exact hskipped entry hentry hstep

/-- A recovery runs cleanup to its end, whatever the ports answer or throw. -/
theorem recovery_completes {package : FinalizedPackage} {input : CleanupInput}
    (hplan : recoveryInput text scope package = .ok input) {trace : List CleanupExchange}
    {result : Except Thrown CleanupRunOutcome} {state : RunState}
    (hrun : Traced ((runCleanup .emergency input).run.run (RunState.initial input)) trace
      (result, state)) :
    ∃ outcome, result = .ok outcome ∧
      RunReport (package.history text scope) state.entries outcome := by
  obtain ⟨emitted, hemitted, outcome, hok, hreport⟩ := runCleanup_reports _ rfl _ _ hrun
  obtain rfl : state.entries = emitted := hemitted
  rw [recoveryInput_history hplan] at hreport
  exact ⟨outcome, hok, hreport⟩

/-- The state of an archive after any number of recoveries: the package is as it was, and every
amendment is the report of a run on the package's history. -/
def RecoveredFrom (text : NumberText) (scope : JournalScope) (package : FinalizedPackage)
    (archive : ExecutionArchive) : Prop :=
  archive.package = package ∧ ∀ amendment ∈ archive.amendments, ∃ outcome,
    amendment = recoveryAmendment outcome amendment.cleanupJournal ∧
      RunReport (package.history text scope) amendment.cleanupJournal outcome

theorem Recovers.keeps {package : FinalizedPackage} {archive archive' : ExecutionArchive}
    (hstep : Recovers text scope archive archive') (h : RecoveredFrom text scope package archive) :
    RecoveredFrom text scope package archive' := by
  cases hstep with
  | refused => exact h
  | amended hplan hrun hports =>
    obtain ⟨hpackage, hamendments⟩ := h
    refine ⟨hpackage, fun amendment hmem => ?_⟩
    rcases List.mem_append.mp hmem with hmem | hmem
    · exact hamendments amendment hmem
    · rw [List.mem_singleton.mp hmem]
      obtain ⟨outcome, hok, hreport⟩ := recovery_completes hplan hrun
      obtain rfl := Except.ok.inj hok
      rw [hpackage] at hreport
      exact ⟨_, rfl, hreport⟩

theorem recoveries_keep {package : FinalizedPackage} {archive : ExecutionArchive}
    (h : Relation.ReflTransGen (Recovers text scope) ⟨package, []⟩ archive) :
    RecoveredFrom text scope package archive := by
  induction h with
  | refl => exact ⟨rfl, fun _ hmem => absurd hmem List.not_mem_nil⟩
  | tail _ hstep ih => exact hstep.keeps ih

/-- Every recovery of a package, however many came before it and whatever the ports answer or
throw, runs to its end; what the `n`-th one freezes folds what the original cleanup recorded and
what the recovery itself recorded, so it reports at least every durable execution the original
cleanup stopped, every message it deleted or found absent and an outcome of every resource it
recorded one for; and a step that succeeded in the original cleanup is not run again unless it
always is. -/
theorem recoveries_report_original_cleanup (text : NumberText) (scope : JournalScope)
    (package : FinalizedPackage) :
    (∀ input, recoveryInput text scope package = .ok input → ∀ trace result state,
      Traced ((runCleanup .emergency input).run.run (RunState.initial input)) trace
        (result, state) → ∃ outcome, result = .ok outcome) ∧
    ∀ archive, Relation.ReflTransGen (Recovers text scope) ⟨package, []⟩ archive →
      archive.package = package ∧
      ∀ (n : Nat) (amendment : RecoveryAmendment), archive.amendments[n]? = some amendment →
        (amendment.cleanupResult.resources = (foldCleanupActions
          (package.history text scope ++ amendment.cleanupJournal)).resources ∧
        amendment.cleanupResult.stoppedDurableExecutionArns = (foldCleanupActions
          (package.history text scope ++ amendment.cleanupJournal)).stoppedDurableExecutionArns) ∧
        Reports (foldCleanupActions (package.history text scope)) amendment := by
  refine ⟨fun input hplan trace result state hrun => ?_, fun archive harchive => ?_⟩
  · obtain ⟨outcome, hok, -⟩ := recovery_completes hplan hrun
    exact ⟨outcome, hok⟩
  · obtain ⟨hpackage, hamendments⟩ := recoveries_keep harchive
    refine ⟨hpackage, fun n amendment hget => ?_⟩
    obtain ⟨outcome, hamendment, hreport⟩ := hamendments amendment (List.mem_of_getElem? hget)
    rw [hamendment]
    exact ⟨⟨hreport.resources, hreport.stops⟩, hreport.reports⟩

end Recovery

/-! ## A stop that the next recovery does not report -/

def plainAction (step : CleanupStep) (status : StepStatus) (name : String) :
    ActionJournal.CleanupActionBody where
  step := step
  stepStatus := status
  cleanupMode := .normal
  cleanupInduced := false
  action := jsString name
  reasons := []

def originalActions : List (ActionJournal.CleanupActionBody × ActionJournal.AppendInput) :=
  [(plainAction .barriersReleaseAndExecutionsStop (.ended .failed)
      "BARRIERS_RELEASE_AND_EXECUTIONS_STOP", ActionJournal.secondTry),
    ({ plainAction .dlqEvidenceCapture .started "DLQ_MESSAGE_CAPTURED" with
        resourceType := some (jsString "AWS::SQS::Message")
        resourceIdentifier := some (jsString "message") }, ActionJournal.secondTry),
    (plainAction .capturedDlqMessagesDelete (.ended .failed) "CAPTURED_DLQ_MESSAGES_DELETE",
      ActionJournal.secondTry)]

noncomputable def originalJournal : ActionJournal.CleanupJournal :=
  (ActionJournal.CleanupJournal.recordAll exactText ActionJournal.aWriter {}
    originalActions).toOption.getD {}

noncomputable def leakyPackage : FinalizedPackage where
  hasIndex := true
  resourceManifest := some (.ok failedProvisioning, ⟨[], [], ["caller"], []⟩)
  cleanupJournal := some originalJournal.file

def leakyScope : JournalScope := ActionJournal.aWriter.scope

def originalEntries : List CleanupActionEntry :=
  (ActionJournal.appendedEntries originalActions).filterMap accountOf

def leakyInput : CleanupInput := ⟨failedProvisioning, ⟨[], [], ["caller"], []⟩, originalEntries, []⟩

/-- The entries as the fold sees them, with their texts read. -/
def foldedEntries : List CleanupActionEntry :=
  [⟨{ step := .barriersReleaseAndExecutionsStop
      stepStatus := .ended .failed
      cleanupMode := .normal
      cleanupInduced := false
      action := .step .barriersReleaseAndExecutionsStop
      reasons := [] }, 65144520000000⟩,
    ⟨{ step := .dlqEvidenceCapture
       stepStatus := .started
       cleanupMode := .normal
       cleanupInduced := false
       action := .item .dlqMessageCaptured
       resourceType := some "AWS::SQS::Message"
       resourceIdentifier := some "message"
       reasons := [] }, 65144520000000⟩,
    ⟨{ step := .capturedDlqMessagesDelete
       stepStatus := .ended .failed
       cleanupMode := .normal
       cleanupInduced := false
       action := .step .capturedDlqMessagesDelete
       reasons := [] }, 65144520000000⟩]

theorem originalEntries_eq : originalEntries = foldedEntries := by
  unfold originalEntries ActionJournal.appendedEntries originalActions
  simp only [List.map_cons, List.map_nil]
  rw [List.filterMap_cons_some (ActionJournal.accountOf_named (.step .barriersReleaseAndExecutionsStop) rfl _),
    List.filterMap_cons_some (ActionJournal.accountOf_named (.item .dlqMessageCaptured) rfl _),
    List.filterMap_cons_some (ActionJournal.accountOf_named (.step .capturedDlqMessagesDelete) rfl _)]
  rfl

-- the runs below are computed on the texts already read
theorem leakyInput_eq : leakyInput =
    ⟨failedProvisioning, ⟨[], [], ["caller"], []⟩, foldedEntries, []⟩ := by
  rw [leakyInput, originalEntries_eq]

theorem recordable_of_unowned {body : ActionJournal.CleanupActionBody}
    (haction : ActionJournal.isUpperSnake body.action = true)
    (hnames : body.resourceType.isSome = body.resourceIdentifier.isSome)
    (htype : ∀ name ∈ body.resourceType, name ≠ [])
    (hidentifier : ∀ name ∈ body.resourceIdentifier, name ≠ [])
    (hbasis : body.ownershipBasis = none)
    (hother : ActionJournal.readName ActionJournal.resourceActionNames body.action = none) :
    body.Recordable where
  action := haction
  resource := hnames
  resourceType := htype
  resourceIdentifier := hidentifier
  basis := by
    intro hsome
    rw [hbasis] at hsome
    cases hsome
  allowed := by
    intro action hread
    rw [hother] at hread
    cases hread

theorem originalActions_recordable : ∀ action ∈ originalActions, action.1.Recordable := by
  intro action hmem
  rw [originalActions, List.mem_cons, List.mem_cons, List.mem_singleton] at hmem
  rcases hmem with rfl | rfl | rfl
  · exact recordable_of_unowned (by decide +kernel) rfl (by decide) (by decide) rfl
      (by decide +kernel)
  · exact recordable_of_unowned (by decide +kernel) rfl (by decide +kernel) (by decide +kernel) rfl
      (by decide +kernel)
  · exact recordable_of_unowned (by decide +kernel) rfl (by decide) (by decide) rfl
      (by decide +kernel)

theorem originalJournal_reads_back :
    readCleanupHistory exactText originalJournal.file leakyScope =
      ⟨ActionJournal.appendedEntries originalActions, []⟩ := by
  obtain ⟨journal, hrun, hrunning⟩ : ∃ journal : ActionJournal.CleanupJournal,
      ActionJournal.CleanupJournal.recordAll exactText ActionJournal.aWriter {} originalActions =
        .ok journal ∧ journal.stopped = false := ⟨_, rfl, rfl⟩
  have hjournal : originalJournal = journal := by
    unfold originalJournal
    rw [hrun]
    rfl
  obtain ⟨hentries, hread⟩ := ActionJournal.recordAll_reads_back exactText_lawful
    exactText_printsIntegers hrun hrunning originalActions_recordable
  rw [hjournal, ← hentries]
  exact hread

theorem leakyPackage_journal : leakyPackage.cleanupJournal = some originalJournal.file := rfl

theorem leakyPackage_history : leakyPackage.history exactText leakyScope = originalEntries := by
  rw [FinalizedPackage.history, leakyPackage_journal, Option.getD_some, originalJournal_reads_back,
    originalEntries]

theorem leakyPackage_input : recoveryInput exactText leakyScope leakyPackage = .ok leakyInput := by
  rw [recoveryInput_ok rfl rfl, leakyPackage_history, leakyPackage_journal, Option.getD_some,
    originalJournal_reads_back, leakyInput, List.map_nil]

def stoppingPorts (running : List String) : (request : CleanupCall) → CleanupReply request
  | .port (.completeLateEvidenceCutoff _) => .ok outOfScope
  | .port (.freezeLateEvidenceAssessment _) => .ok outOfScope
  | .port (.listRunning _) => .ok (.ok running)
  | .port (.stop _) => .ok .stopped
  | .port _ => .error ()
  | .append _ => .appended 3
  | .now => (3 : UtcMillis)
  | .totalTargetExceeded => false

def stoppingEnd (running : List String) : Except Thrown CleanupRunOutcome × RunState :=
  (((runCleanup .emergency leakyInput).run.run (RunState.initial leakyInput)).answered
    (stoppingPorts running)).2

def stoppingAmendment (running : List String) : Option RecoveryAmendment :=
  (stoppingEnd running).1.toOption.map fun outcome =>
    recoveryAmendment outcome (stoppingEnd running).2.entries

theorem stoppingPorts_recovery {running : List String} {trace : List CleanupExchange}
    (h : ∀ exchange ∈ trace, exchange.2 = stoppingPorts running exchange.1) :
    RecoveryPorts trace where
  cutoff := fun _ _ hmem => h _ hmem
  freezeAssessment := fun _ _ hmem => h _ hmem
  append := by
    intro body reply hmem hstopped
    have hreply : reply = AppendResult.appended 3 := h _ hmem
    cases hreply.symm.trans hstopped

theorem Recovers.answered {package : FinalizedPackage} {earlier : List RecoveryAmendment}
    {input : CleanupInput} (hplan : recoveryInput exactText leakyScope package = .ok input)
    {running : List String} {run : List CleanupExchange × Except Thrown CleanupRunOutcome × RunState}
    (hrun : ((runCleanup .emergency input).run.run (RunState.initial input)).answered
      (stoppingPorts running) = run) {amendment : RecoveryAmendment}
    (hamendment : (run.2.1.toOption.map fun outcome => recoveryAmendment outcome run.2.2.entries) =
      some amendment) :
    Recovers exactText leakyScope ⟨package, earlier⟩ ⟨package, earlier ++ [amendment]⟩ := by
  have htraced := Program.answered_traced (stoppingPorts running)
    ((runCleanup .emergency input).run.run (RunState.initial input))
  have hports : ∀ exchange ∈ (((runCleanup .emergency input).run.run
      (RunState.initial input)).answered (stoppingPorts running)).1,
      exchange.2 = stoppingPorts running exchange.1 :=
    fun exchange hmem => Program.reply_of_mem_answered hmem
  rw [hrun] at htraced hports
  obtain ⟨trace, result, state⟩ := run
  cases result with
  | error thrown => cases hamendment
  | ok outcome =>
    obtain rfl := Option.some.inj hamendment
    exact .amended hplan htraced (stoppingPorts_recovery hports)

theorem Recovers.stopping {earlier : List RecoveryAmendment} (running : List String)
    {amendment : RecoveryAmendment} (hamendment : stoppingAmendment running = some amendment) :
    Recovers exactText leakyScope ⟨leakyPackage, earlier⟩
      ⟨leakyPackage, earlier ++ [amendment]⟩ := by
  -- the run is named before anything is compared, so that it is not computed
  obtain ⟨run, hrun⟩ : ∃ run, ((runCleanup .emergency leakyInput).run.run
    (RunState.initial leakyInput)).answered (stoppingPorts running) = run := ⟨_, rfl⟩
  rw [stoppingAmendment, stoppingEnd, hrun] at hamendment
  exact Recovers.answered leakyPackage_input hrun hamendment

def ReportsEveryRun (history : List CleanupActionEntry) (amendments : List RecoveryAmendment) :
    Prop :=
  ∀ (earlier : List RecoveryAmendment) (amendment : RecoveryAmendment),
    earlier ++ [amendment] <+: amendments →
    Reports (foldCleanupActions (history ++ earlier.flatMap (·.cleanupJournal))) amendment ∧
    ∀ messageId ∈ (foldCleanupActions
        (history ++ earlier.flatMap (·.cleanupJournal))).capturedDlqMessageIds,
      messageId ∈ amendment.cleanupResult.deletedDlqMessageIds

def twoRecoveries : List RecoveryAmendment :=
  (stoppingAmendment ["execution"]).toList ++ (stoppingAmendment []).toList

theorem twoRecoveries_reached : ∃ first second, twoRecoveries = [first, second] ∧
    stoppingAmendment ["execution"] = some first ∧ stoppingAmendment [] = some second ∧
    Relation.ReflTransGen (Recovers exactText leakyScope) ⟨leakyPackage, []⟩
      ⟨leakyPackage, [first, second]⟩ := by
  obtain ⟨first, hfirst⟩ : ∃ amendment, stoppingAmendment ["execution"] = some amendment :=
    Option.isSome_iff_exists.mp (by
      rw [stoppingAmendment, stoppingEnd, leakyInput_eq]
      decide +kernel)
  obtain ⟨second, hsecond⟩ : ∃ amendment, stoppingAmendment [] = some amendment :=
    Option.isSome_iff_exists.mp (by
      rw [stoppingAmendment, stoppingEnd, leakyInput_eq]
      decide +kernel)
  refine ⟨first, second, ?_, hfirst, hsecond, ?_⟩
  · unfold twoRecoveries
    rw [hfirst, hsecond]
    rfl
  · exact .tail (.tail .refl (Recovers.stopping ["execution"] hfirst)) (Recovers.stopping [] hsecond)

theorem second_recovery_forgets_first_stop :
    Relation.ReflTransGen (Recovers exactText leakyScope) ⟨leakyPackage, []⟩
      ⟨leakyPackage, twoRecoveries⟩ ∧
    ¬ ReportsEveryRun (leakyPackage.history exactText leakyScope) twoRecoveries ∧
    ∃ first second, twoRecoveries = [first, second] ∧
      ("execution" ∈ (foldCleanupActions first.cleanupJournal).stoppedDurableExecutionArns ∧
        "execution" ∉ second.cleanupResult.stoppedDurableExecutionArns) ∧
      (.barriersReleaseAndExecutionsStop ∈
          (foldCleanupActions first.cleanupJournal).succeededSteps ∧
        .barriersReleaseAndExecutionsStop ∈ second.stepsRun) ∧
      "message" ∈ (foldCleanupActions
          (leakyPackage.history exactText leakyScope)).capturedDlqMessageIds ∧
        "message" ∉ first.cleanupResult.deletedDlqMessageIds := by
  obtain ⟨first, second, htwo, hfirst, hsecond, hreached⟩ := twoRecoveries_reached
  have hshows : ∀ amendment ∈ stoppingAmendment ["execution"],
      "execution" ∈ (foldCleanupActions amendment.cleanupJournal).stoppedDurableExecutionArns ∧
      .barriersReleaseAndExecutionsStop ∈
        (foldCleanupActions amendment.cleanupJournal).succeededSteps ∧
      "message" ∉ amendment.cleanupResult.deletedDlqMessageIds := by
    rw [stoppingAmendment, stoppingEnd, leakyInput_eq]
    decide +kernel
  have hforgets : ∀ amendment ∈ stoppingAmendment [],
      "execution" ∉ amendment.cleanupResult.stoppedDurableExecutionArns ∧
      .barriersReleaseAndExecutionsStop ∈ amendment.stepsRun := by
    rw [stoppingAmendment, stoppingEnd, leakyInput_eq]
    decide +kernel
  have hcaptured : (foldCleanupActions originalEntries).capturedDlqMessageIds = ["message"] := by
    rw [originalEntries_eq]
    decide +kernel
  obtain ⟨hstopped, hsucceeded, hundeleted⟩ := hshows first hfirst
  obtain ⟨hmissing, hagain⟩ := hforgets second hsecond
  rw [htwo, leakyPackage_history, hcaptured]
  refine ⟨hreached, fun hall => ?_, first, second, rfl, ⟨hstopped, hmissing⟩,
    ⟨hsucceeded, hagain⟩, List.mem_singleton_self _, hundeleted⟩
  obtain ⟨hreports, -⟩ := hall [first] second (List.prefix_refl _)
  have hstops : ∀ entries, (foldCleanupActions entries).stoppedDurableExecutionArns =
      identifiersOf entries .durableStopApplied := fun _ => rfl
  refine hmissing (hreports.stops "execution" ?_)
  rw [hstops, mem_identifiersOf] at hstopped ⊢
  rw [idsIn_append, List.flatMap_singleton]
  exact List.mem_append_right _ hstopped

theorem two_recoveries_report_original :
    recoveryInput exactText leakyScope leakyPackage = .ok leakyInput ∧
    (∃ outcome, (stoppingEnd []).1 = .ok outcome) ∧
    ∃ first second, twoRecoveries = [first, second] ∧
      Reports (foldCleanupActions (leakyPackage.history exactText leakyScope)) first ∧
      Reports (foldCleanupActions (leakyPackage.history exactText leakyScope)) second := by
  obtain ⟨first, second, htwo, -, -, hreached⟩ := twoRecoveries_reached
  obtain ⟨hends, hreports⟩ :=
    recoveries_report_original_cleanup exactText leakyScope leakyPackage
  obtain ⟨-, hall⟩ := hreports _ hreached
  refine ⟨leakyPackage_input, ?_, first, second, htwo, (hall 0 first rfl).2, (hall 1 second rfl).2⟩
  have htraced := Program.answered_traced (stoppingPorts [])
    ((runCleanup .emergency leakyInput).run.run (RunState.initial leakyInput))
  obtain ⟨run, hrun⟩ : ∃ run, ((runCleanup .emergency leakyInput).run.run
    (RunState.initial leakyInput)).answered (stoppingPorts []) = run := ⟨_, rfl⟩
  rw [hrun] at htraced
  rw [stoppingEnd, hrun]
  obtain ⟨trace, result, state⟩ := run
  exact hends leakyInput leakyPackage_input trace result state htraced

end RefundStudy.Cleanup
