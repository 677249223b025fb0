/-
  What a sequence of cleanup runs accounts for (BR-RUA-048 steps 5 to 8, AC-RUA-011).
-/
import RefundStudy.Cleanup.StepAccount

set_option autoImplicit false

namespace RefundStudy.Cleanup

open Foundation Record

variable {step : CleanupStep} {trace : List CleanupExchange}

/-! ## One run -/

/-- What the entries of a run say about its exchanges. -/
structure RunAccount (emitted : List CleanupActionEntry) (trace : List CleanupExchange) :
    Prop where
  induced : ∀ entry ∈ emitted, ∀ action, entry.body.action = .item action →
    action.isInduced = true → entry.body.cleanupInduced = true
  fed : ∀ action ∈ fedActions, ∀ identifier,
    identifier ∈ fedIn action trace ↔ identifier ∈ idsIn action emitted

theorem runAccount_accumulates : Accumulates RunAccount where
  nil := ⟨fun _ hmem => absurd hmem List.not_mem_nil, fun _ _ _ => Iff.rfl⟩
  append := by
    rintro emitted emitted' trace trace' ⟨hinduced, hfed⟩ ⟨hinduced', hfed'⟩
    refine ⟨?_, ?_⟩
    · intro entry hmem
      exact (List.mem_append.mp hmem).elim (hinduced entry) (hinduced' entry)
    · intro action haction identifier
      rw [fedIn_append, idsIn_append, List.mem_append, List.mem_append,
        hfed action haction identifier, hfed' action haction identifier]

structure Touches (steps : List CleanupStep) (emitted : List CleanupActionEntry) : Prop where
  statuses : ∀ step, step ∉ steps → stepEntries step emitted = []
  items : ∀ action : ItemActionName, action.step ∉ steps → idsIn action emitted = []

theorem Touches.nil (steps : List CleanupStep) : Touches steps [] := ⟨fun _ _ => rfl, fun _ _ => rfl⟩

theorem Touches.append {steps : List CleanupStep} {emitted emitted' : List CleanupActionEntry}
    (h : Touches steps emitted) (h' : Touches steps emitted') :
    Touches steps (emitted ++ emitted') := by
  refine ⟨fun step hstep => ?_, fun action haction => ?_⟩
  · have hfilter : stepEntries step (emitted ++ emitted') =
        stepEntries step emitted ++ stepEntries step emitted' := List.filter_append ..
    rw [hfilter, h.statuses step hstep, h'.statuses step hstep, List.append_nil]
  · rw [idsIn_append, h.items action haction, h'.items action haction, List.append_nil]

theorem Touches.mono {steps more : List CleanupStep} {emitted : List CleanupActionEntry}
    (h : Touches steps emitted) (hsub : steps ⊆ more) : Touches more emitted :=
  ⟨fun step hstep => h.statuses step fun hmem => hstep (hsub hmem),
    fun action haction => h.items action fun hmem => haction (hsub hmem)⟩

theorem StepAccount.touches {emitted : List CleanupActionEntry}
    (h : StepAccount step emitted trace) : Touches [step] emitted := by
  refine ⟨fun other _ => ?_, fun action haction => ?_⟩
  · refine List.filter_eq_nil_iff.mpr fun entry hmem => ?_
    simp [h.inner entry hmem other]
  · refine List.filterMap_eq_nil_iff.mpr fun entry hmem => ?_
    have hne : entry.body.action ≠ .item action := fun heq =>
      haction (List.mem_singleton.mpr (h.own entry hmem action heq))
    simp [identifierFor, hne]

section Runs

variable {mode : CleanupMode} {input : CleanupInput} {start : List CleanupActionEntry}

/-- The entry of the step itself, which names no resource. -/
def IsStepEntry (step : CleanupStep) (status : StepStatus) (entry : CleanupActionEntry) : Prop :=
  entry.body.step = step ∧ entry.body.action = .step step ∧ entry.body.stepStatus = status ∧
    entry.body.resourceType = none ∧ entry.body.resourceIdentifier = none ∧
    entry.body.ownershipBasis = none

theorem IsStepEntry.touches {status : StepStatus} {entry : CleanupActionEntry}
    (h : IsStepEntry step status entry) : Touches [step] [entry] := by
  obtain ⟨hstep, haction, -⟩ := h
  refine ⟨fun other hother => ?_, fun action _ => ?_⟩
  · have hne : ¬ step = other := fun heq => hother (List.mem_singleton.mpr heq.symm)
    simp [stepEntries, hstep, hne]
  · simp [idsIn, identifierFor, haction]

/-- A program that only reads or changes the run's state, outside the journal. -/
def Silent {α : Type} (m : CleanupM α) : Prop :=
  ∀ start, Logs start m fun result emitted trace =>
    (∃ value, result = .ok value) ∧ emitted = [] ∧ trace = []

theorem silent_inspect {α : Type} (f : RunState → α) : Silent (Stateful.inspect f) :=
  fun _ => Emits.inspect fun state _ => ⟨⟨f state, rfl⟩, rfl, rfl⟩

theorem silent_update {f : RunState → RunState} (h : ∀ state, (f state).entries = state.entries) :
    Silent (Stateful.update f) :=
  fun _ => Emits.update (fun state => by rw [h state, List.append_nil]) ⟨⟨(), rfl⟩, rfl, rfl⟩

theorem Silent.bind {α β : Type} {m : CleanupM α} {rest : α → CleanupM β}
    {R : Except Thrown β → List CleanupActionEntry → List CleanupExchange → Prop}
    (h : Silent m) (hrest : ∀ value, Logs start (rest value) R) :
    Logs start (m >>= rest) R := by
  refine Emits.andThen (h start) ?_
  rintro value emitted trace ⟨-, rfl, rfl⟩
  rw [List.append_nil]
  exact hrest value

theorem silent_pure {α : Type} (value : α) : Silent (pure value) :=
  fun _ => Emits.pure ⟨⟨value, rfl⟩, rfl, rfl⟩

theorem silent_takeCarried (status : StepStatus) : Silent (takeCarried status) := by
  intro start
  cases status with
  | started => exact silent_pure _ start
  | ended status =>
    refine Silent.bind (silent_inspect _) fun carried => ?_
    exact Silent.bind (silent_update fun _ => rfl) fun _ => silent_pure carried start

theorem silent_takeFailure : Silent takeFailure := by
  intro start
  refine Silent.bind (silent_inspect _) fun failure => ?_
  exact Silent.bind (silent_update fun _ => rfl) fun _ => silent_pure _ start

theorem runAccount_step {status : StepStatus} {entry : CleanupActionEntry}
    (hentry : IsStepEntry step status entry) (hquiet : NoPort trace) :
    RunAccount [entry] trace := by
  obtain ⟨-, haction, -⟩ := hentry
  refine ⟨?_, ?_⟩
  · intro other hmem action hitem
    rw [List.mem_singleton.mp hmem, haction] at hitem
    cases hitem
  · intro action _ identifier
    rw [hquiet.feeds_nothing]
    simp [idsIn, identifierFor, haction]

theorem recordStep_emits (step : CleanupStep) (status : StepStatus)
    (reasons : List StructuredReason) :
    Logs start (recordStep mode step status reasons)
      fun result emitted trace => result = .ok () ∧ RunAccount emitted trace ∧
        ∃ entry, emitted = [entry] ∧ IsStepEntry step status entry := by
  refine Silent.bind (silent_takeCarried status) fun carried => ?_
  refine Silent.bind silent_takeFailure fun failure => ?_
  refine (recordAction_emits _).weaken ?_
  rintro result emitted trace ⟨hok, hquiet, occurredAt, rfl⟩
  exact ⟨hok, runAccount_step ⟨rfl, rfl, rfl, rfl, rfl, rfl⟩ hquiet, _, rfl, rfl, rfl, rfl, rfl, rfl,
    rfl⟩

/-! ## What has to be settled -/

/-- Something one step feeds and a later step settles. -/
structure Obligation where
  feeder : CleanupStep
  recorder : CleanupStep
  fed : ItemActionName
  settledBy : List ItemActionName
  fed_mem : fed ∈ fedActions
  fed_step : fed.step = feeder
  settled_step : ∀ action ∈ settledBy, action.step = recorder
  distinct : feeder ≠ recorder

/-- Applied safety releases are recorded as cleanup-induced transitions. -/
def releasesObligation : Obligation where
  feeder := .barriersReleaseAndExecutionsStop
  recorder := .cleanupInducedTransitionsRecord
  fed := .safetyReleaseApplied
  settledBy := [.treatmentSafetyReleased]
  fed_mem := by decide
  fed_step := rfl
  settled_step := by decide
  distinct := by decide

/-- Applied stops are recorded as cleanup-induced transitions. -/
def stopsObligation : Obligation where
  feeder := .barriersReleaseAndExecutionsStop
  recorder := .cleanupInducedTransitionsRecord
  fed := .durableStopApplied
  settledBy := [.durableExecutionStopped]
  fed_mem := by decide
  fed_step := rfl
  settled_step := by decide
  distinct := by decide

/-- Captured messages are recorded as deleted or absent. -/
def messagesObligation : Obligation where
  feeder := .dlqEvidenceCapture
  recorder := .capturedDlqMessagesDelete
  fed := .dlqMessageCaptured
  settledBy := [.dlqMessageDeleted, .dlqMessageAbsent]
  fed_mem := by decide
  fed_step := rfl
  settled_step := by decide
  distinct := by decide

inductive IsObligation : Obligation → Prop where
  | releases : IsObligation releasesObligation
  | stops : IsObligation stopsObligation
  | messages : IsObligation messagesObligation

def Obligation.Settled (obligation : Obligation) (entries : List CleanupActionEntry)
    (identifier : String) : Prop :=
  ∃ action ∈ obligation.settledBy, identifier ∈ idsIn action entries

/-- Once the recording step has succeeded, everything fed is settled. -/
def Obligation.Met (obligation : Obligation) (entries : List CleanupActionEntry) : Prop :=
  HasSucceeded entries obligation.recorder →
    ∀ identifier ∈ idsIn obligation.fed entries, obligation.Settled entries identifier

variable {obligation : Obligation}

theorem Obligation.Settled.append {entries more : List CleanupActionEntry} {identifier : String}
    (h : obligation.Settled entries identifier) :
    obligation.Settled (entries ++ more) identifier := by
  obtain ⟨action, haction, hmem⟩ := h
  exact ⟨action, haction, by rw [idsIn_append]; exact List.mem_append_left _ hmem⟩

theorem Obligation.Met.append {entries more : List CleanupActionEntry}
    {steps : List CleanupStep} (h : obligation.Met entries) (htouches : Touches steps more)
    (hfeeder : obligation.feeder ∉ steps) (hrecorder : obligation.recorder ∉ steps) :
    obligation.Met (entries ++ more) := by
  intro hsucceeded identifier hmem
  have hfed : idsIn obligation.fed more = [] :=
    htouches.items _ (by rw [obligation.fed_step]; exact hfeeder)
  rw [HasSucceeded, latestStatus_append (htouches.statuses _ hrecorder)] at hsucceeded
  rw [idsIn_append, hfed, List.append_nil] at hmem
  exact (h hsucceeded identifier hmem).append

theorem hasSucceeded_concat {entries : List CleanupActionEntry} {entry : CleanupActionEntry}
    {status : TerminalStatus} (hentry : IsStepEntry step (.ended status) entry) :
    HasSucceeded (entries ++ [entry]) step ↔ status = .succeeded := by
  obtain ⟨hstep, haction, hstatus, -⟩ := hentry
  unfold HasSucceeded
  rw [latestStatus_concat hstep haction, hstatus]
  simp

/-- Running a step: it touches itself only, and what the step's own program establishes is
joined to its terminal status. -/
theorem runStep_emits
    {Q : Except Thrown StepOutcome → List CleanupActionEntry → List CleanupActionEntry → Prop}
    (hstep : ∀ start, Logs start
      (runCleanupStep step mode input (foldCleanupActions (input.history ++ start))
        (recordItem mode step)) fun result emitted _ => Q result start emitted) :
    Logs start (runStep mode input step) fun result emitted trace =>
      result = .ok () ∧ RunAccount emitted trace ∧ Touches [step] emitted ∧
      ∃ first middle last status outcome, emitted = first :: middle ++ [last] ∧
        IsStepEntry step .started first ∧ IsStepEntry step (.ended status) last ∧
        Q outcome (start ++ [first]) middle ∧
        (status = .succeeded → ∃ value, outcome = .ok value ∧ value.status = .succeeded) := by
  have hrun := runAccount_accumulates
  refine Emits.andThen (recordStep_emits step .started []) ?_
  rintro _ _ trace₁ ⟨-, hacc₁, first, rfl, hfirst⟩
  refine Emits.andThen (Emits.inspect (R := fun result emitted trace => emitted = [] ∧ trace = [] ∧
    result = .ok (foldCleanupActions (input.history ++ (start ++ [first]))))
    fun state hstate => ⟨rfl, rfl, by rw [hstate]⟩) ?_
  rintro fold _ _ ⟨rfl, rfl, heq⟩
  obtain rfl := Except.ok.inj heq
  rw [List.append_nil]
  have hboth := (runCleanupStep_account input (input.history ++ (start ++ [first])) _).both
    (hstep (start ++ [first]))
  -- a thrown value ends the step as failed
  have htotal : Logs (start ++ [first]) (stepTotally
      (runCleanupStep step mode input (foldCleanupActions (input.history ++ (start ++ [first])))
        (recordItem mode step)) ("step " ++ toString step.number))
      fun result emitted trace => StepAccount step emitted trace ∧
        ∃ value, result = .ok value ∧ ∃ outcome, Q outcome (start ++ [first]) emitted ∧
          (value.status = .succeeded → outcome = .ok value) := by
    refine Emits.orElse hboth ?_ ?_
    · rintro value emitted trace ⟨hacc, hQ⟩
      exact ⟨hacc, value, rfl, _, hQ, fun _ => rfl⟩
    · rintro error emitted trace ⟨hacc, hQ⟩
      refine Emits.pure ?_
      rw [List.append_nil, List.append_nil]
      exact ⟨hacc, _, rfl, _, hQ, fun h => by cases h⟩
  refine Emits.andThen htotal ?_
  rintro value middle trace₂ ⟨hacc₂, _, heq, outcome, hQ, hout⟩
  obtain rfl := Except.ok.inj heq
  refine (recordStep_emits step (.ended value.status) value.reasons).weaken ?_
  rintro result _ trace₃ ⟨rfl, hacc₃, last, rfl, hlast⟩
  refine ⟨rfl, ?_, ?_, first, middle, last, value.status, outcome, ?_, hfirst, hlast, hQ, ?_⟩
  · exact hrun.append hacc₁ (hrun.append hrun.nil
      (hrun.append ⟨hacc₂.induced, hacc₂.fed⟩ hacc₃))
  · exact hfirst.touches.append ((Touches.nil _).append
      (hacc₂.touches.append hlast.touches))
  · simp
  · intro hsucceeded
    exact ⟨value, hout hsucceeded, hsucceeded⟩

theorem recorder_settles (hob : IsObligation obligation) (start : List CleanupActionEntry) :
    Logs start
      (runCleanupStep obligation.recorder mode input (foldCleanupActions (input.history ++ start))
        (recordItem mode obligation.recorder)) fun result emitted _ =>
      ∀ value, result = .ok value → value.status = .succeeded →
        ∀ identifier ∈ idsIn obligation.fed (input.history ++ start),
          obligation.Settled (input.history ++ start ++ emitted) identifier := by
  cases hob with
  | releases =>
    refine (recordInducedTransitions_emits _).weaken ?_
    rintro result emitted trace ⟨-, hreleases, -⟩ value - - identifier hmem
    exact ⟨_, List.mem_singleton_self _, hreleases identifier hmem⟩
  | stops =>
    refine (recordInducedTransitions_emits _).weaken ?_
    rintro result emitted trace ⟨-, -, hstops, -⟩ value - - identifier hmem
    exact ⟨_, List.mem_singleton_self _, hstops identifier hmem⟩
  | messages =>
    refine (deleteCapturedDlqMessages_emits _ _).weaken ?_
    rintro result emitted trace ⟨-, hdeleted⟩ value hvalue hsucceeded identifier hmem
    by_cases hpending : identifier ∈
        pendingDlqMessages (foldCleanupActions (input.history ++ start))
    · rcases hdeleted value hvalue hsucceeded identifier hpending with hin | hin
      · refine ⟨.dlqMessageDeleted, by decide, ?_⟩
        rw [idsIn_append]
        exact List.mem_append_right _ hin
      · refine ⟨.dlqMessageAbsent, by decide, ?_⟩
        rw [idsIn_append]
        exact List.mem_append_right _ hin
    · have hsettled : identifier ∈ idsIn .dlqMessageDeleted (input.history ++ start) ∨
          identifier ∈ idsIn .dlqMessageAbsent (input.history ++ start) := by
        have hcaptured : identifier ∈
            (foldCleanupActions (input.history ++ start)).capturedDlqMessageIds :=
          mem_identifiersOf.mpr hmem
        simp only [pendingDlqMessages, List.mem_filter, hcaptured, true_and, Bool.not_eq_true',
          List.contains_eq_mem, decide_eq_false_iff_not, not_not, List.mem_append] at hpending
        exact hpending.imp mem_identifiersOf.mp mem_identifiersOf.mp
      refine Obligation.Settled.append ?_
      rcases hsettled with hin | hin
      · exact ⟨.dlqMessageDeleted, by decide, hin⟩
      · exact ⟨.dlqMessageAbsent, by decide, hin⟩

theorem runRecorder_met (hob : IsObligation obligation) :
    Logs start (runStep mode input obligation.recorder)
      fun result emitted trace => result = .ok () ∧ RunAccount emitted trace ∧
        Touches [obligation.recorder] emitted ∧
        obligation.Met (input.history ++ start ++ emitted) := by
  refine (runStep_emits (recorder_settles hob)).weaken ?_
  rintro result emitted trace ⟨hok, hacc, htouches, first, middle, last, status, outcome, rfl,
    hfirst, hlast, hQ, hout⟩
  refine ⟨hok, hacc, htouches, ?_⟩
  intro hsucceeded identifier hmem
  have hshape : input.history ++ start ++ (first :: middle ++ [last]) =
      (input.history ++ (start ++ [first]) ++ middle) ++ [last] := by simp
  rw [hshape, hasSucceeded_concat hlast] at hsucceeded
  obtain ⟨value, hvalue, hstatus⟩ := hout hsucceeded
  have hnone : idsIn obligation.fed (first :: middle ++ [last]) = [] :=
    htouches.items _ (by
      rw [obligation.fed_step, List.mem_singleton]
      exact obligation.distinct)
  have hbefore : identifier ∈ idsIn obligation.fed (input.history ++ (start ++ [first])) := by
    rw [idsIn_append, hnone, List.append_nil, idsIn_append] at hmem
    rw [idsIn_append, idsIn_append, ← List.append_assoc]
    exact List.mem_append_left _ hmem
  rw [hshape]
  exact (hQ value hvalue hstatus identifier hbefore).append

theorem runStepIfNeeded_emits
    {R : Except Thrown Unit → List CleanupActionEntry → List CleanupExchange → Prop}
    (hrun : Logs start (runStep mode input step) R)
    (hskip : step = .resultsFreeze ∨ HasSucceeded (input.history ++ start) step →
      R (.ok ()) [] []) :
    Logs start (runStepIfNeeded mode input step) fun result emitted trace =>
      R result emitted trace ∧
        (HasSucceeded (input.history ++ start) step → alwaysRerun step = false → emitted = []) := by
  refine Emits.andThen (Emits.inspect (R := fun result emitted trace => emitted = [] ∧ trace = [] ∧
    result = .ok (foldCleanupActions (input.history ++ start)))
    fun state hstate => ⟨rfl, rfl, by rw [hstate]⟩) ?_
  rintro fold _ _ ⟨rfl, rfl, heq⟩
  obtain rfl := Except.ok.inj heq
  rw [List.append_nil]
  have hcontains : (foldCleanupActions (input.history ++ start)).succeededSteps.contains step =
      true ↔ HasSucceeded (input.history ++ start) step := by
    rw [List.contains_eq_mem, decide_eq_true_eq]
    exact succeededSteps_iff
  split
  · rename_i hneeded
    refine hrun.weaken fun result emitted trace h => ⟨h, fun hsucceeded hrerun => ?_⟩
    rw [mustRunStep, hrerun, hcontains.mpr hsucceeded] at hneeded
    exact absurd hneeded.2 (by decide)
  · rename_i hneeded
    refine Emits.pure ⟨hskip ?_, fun _ _ => rfl⟩
    by_cases hfreeze : step = .resultsFreeze
    · exact .inl hfreeze
    · right
      have hnot : mustRunStep step (foldCleanupActions (input.history ++ start)).succeededSteps =
          false := by
        simpa [hfreeze] using hneeded
      rw [mustRunStep, Bool.or_eq_false_iff, Bool.not_eq_false'] at hnot
      exact hcontains.mp hnot.2

/-- What every step keeps of the entries before it and its own, the loop over the steps keeps. -/
theorem runSteps_keeps {A : List CleanupActionEntry → List CleanupActionEntry → Prop}
    (hnil : ∀ before, A before [])
    (happend : ∀ before front back, A before front → A (before ++ front) back →
      A before (front ++ back))
    (hstep : ∀ step start, Logs start (runStepIfNeeded mode input step) fun result emitted _ =>
      result = .ok () ∧ A (input.history ++ start) emitted) (steps : List CleanupStep) :
    Logs start (runSteps mode input steps) fun result emitted _ =>
      result = .ok () ∧ A (input.history ++ start) emitted := by
  induction steps generalizing start with
  | nil => exact Emits.pure ⟨rfl, hnil _⟩
  | cons step rest ih =>
    refine Emits.andThen (hstep step start) ?_
    rintro _ emitted trace ⟨-, hhere⟩
    refine ih.weaken ?_
    rintro result emitted' trace' ⟨hok, hthere⟩
    rw [← List.append_assoc] at hthere
    exact ⟨hok, happend _ _ _ hhere hthere⟩

/-- The recorder stands after the feeder, and neither comes again. -/
def OrderedFor (obligation : Obligation) : List CleanupStep → Prop
  | [] => True
  | step :: rest => (step = obligation.recorder →
      obligation.feeder ∉ rest ∧ obligation.recorder ∉ rest) ∧ OrderedFor obligation rest

theorem runStep_touches (step : CleanupStep) :
    Logs start (runStep mode input step) fun result emitted trace =>
      result = .ok () ∧ RunAccount emitted trace ∧ Touches [step] emitted :=
  (runStep_emits (Q := fun _ _ _ => True) fun start =>
    (runCleanupStep_account input _ start).weaken fun _ _ _ _ => trivial).weaken
    fun _ _ _ ⟨hok, hacc, htouches, _⟩ => ⟨hok, hacc, htouches⟩

theorem runSteps_emits (hob : IsObligation obligation)
    (hrerun : alwaysRerun obligation.recorder = false) (steps : List CleanupStep)
    (hordered : OrderedFor obligation steps) :
    Logs start (runSteps mode input steps) fun result emitted trace =>
      result = .ok () ∧ RunAccount emitted trace ∧ Touches steps emitted ∧
      (¬ HasSucceeded (input.history ++ start) obligation.recorder → obligation.recorder ∈ steps →
        obligation.Met (input.history ++ start ++ emitted)) ∧
      (HasSucceeded (input.history ++ start) obligation.recorder →
        HasSucceeded (input.history ++ start ++ emitted) obligation.recorder ∧
          ∀ action ∈ obligation.settledBy, idsIn action emitted = []) := by
  induction steps generalizing start with
  | nil =>
    refine Emits.pure ⟨rfl, runAccount_accumulates.nil, Touches.nil _, ?_, ?_⟩
    · intro _ hmem
      cases hmem
    · intro h
      rw [List.append_nil]
      exact ⟨h, fun _ _ => rfl⟩
  | cons step rest ih =>
    obtain ⟨hhere, hrest⟩ := hordered
    by_cases hrecorder : step = obligation.recorder
    · subst hrecorder
      obtain ⟨hfeederRest, hrecorderRest⟩ := hhere rfl
      have hstep : Logs start (runStepIfNeeded mode input obligation.recorder)
          fun result emitted trace => (result = .ok () ∧ RunAccount emitted trace ∧
            Touches [obligation.recorder] emitted ∧
            (¬ HasSucceeded (input.history ++ start) obligation.recorder →
              obligation.Met (input.history ++ start ++ emitted))) ∧
            (HasSucceeded (input.history ++ start) obligation.recorder →
              alwaysRerun obligation.recorder = false → emitted = []) := by
        refine runStepIfNeeded_emits ((runRecorder_met hob).weaken
          fun _ _ _ ⟨hok, hacc, htouches, hmet⟩ => ⟨hok, hacc, htouches, fun _ => hmet⟩) ?_
        rintro (hfreeze | hsucceeded)
        · rw [hfreeze] at hrerun
          cases hrerun
        · exact ⟨rfl, runAccount_accumulates.nil, Touches.nil _,
            fun hnot => absurd hsucceeded hnot⟩
      refine Emits.andThen hstep ?_
      rintro _ emitted trace ⟨⟨-, hacc, htouches, hmet⟩, hskipped⟩
      refine (ih hrest).weaken ?_
      rintro result emitted' trace' ⟨hok, hacc', htouches', -, -⟩
      have hall := (htouches.mono (List.cons_subset_cons _ (List.nil_subset rest))).append
        (htouches'.mono (List.subset_cons_self _ rest))
      refine ⟨hok, runAccount_accumulates.append hacc hacc', hall, ?_, ?_⟩
      · intro hnot _
        rw [← List.append_assoc]
        exact (hmet hnot).append htouches' hfeederRest hrecorderRest
      · intro hsucceeded
        obtain rfl := hskipped hsucceeded hrerun
        refine ⟨?_, fun action haction => ?_⟩
        · rw [HasSucceeded, List.nil_append,
            latestStatus_append (htouches'.statuses _ hrecorderRest)]
          exact hsucceeded
        · exact htouches'.items action (by
            rw [obligation.settled_step action haction]
            exact hrecorderRest)
    · have hstep : Logs start (runStepIfNeeded mode input step)
          fun result emitted trace => (result = .ok () ∧ RunAccount emitted trace ∧
            Touches [step] emitted) ∧ (HasSucceeded (input.history ++ start) step →
              alwaysRerun step = false → emitted = []) :=
        runStepIfNeeded_emits (runStep_touches step)
          fun _ => ⟨rfl, runAccount_accumulates.nil, Touches.nil _⟩
      refine Emits.andThen hstep ?_
      rintro _ emitted trace ⟨⟨-, hacc, htouches⟩, -⟩
      refine (ih hrest).weaken ?_
      rintro result emitted' trace' ⟨hok, hacc', htouches', hmet, hkept⟩
      have hall := (htouches.mono (List.cons_subset_cons _ (List.nil_subset rest))).append
        (htouches'.mono (List.subset_cons_self _ rest))
      have hother : obligation.recorder ∉ [step] := fun hmem =>
        hrecorder (List.mem_singleton.mp hmem).symm
      have hsame : HasSucceeded (input.history ++ (start ++ emitted)) obligation.recorder ↔
          HasSucceeded (input.history ++ start) obligation.recorder := by
        rw [← List.append_assoc, HasSucceeded, HasSucceeded,
          latestStatus_append (htouches.statuses _ hother)]
      have hshape : input.history ++ start ++ (emitted ++ emitted') =
          input.history ++ (start ++ emitted) ++ emitted' := by simp
      refine ⟨hok, runAccount_accumulates.append hacc hacc', hall, ?_, ?_⟩
      · intro hnot hmem
        rw [hshape]
        refine hmet (fun h => hnot (hsame.mp h)) ?_
        rcases List.mem_cons.mp hmem with heq | hmem
        · exact absurd heq.symm hrecorder
        · exact hmem
      · intro hsucceeded
        obtain ⟨hstill, hnone⟩ := hkept (hsame.mpr hsucceeded)
        refine ⟨by rw [hshape]; exact hstill, fun action haction => ?_⟩
        rw [idsIn_append, hnone action haction, List.append_nil]
        exact htouches.items action (by
          rw [obligation.settled_step action haction]
          exact hother)

theorem runAccount_quiet
    (h : ∀ action ∈ fedActions, fedIn action trace = []) : RunAccount [] trace :=
  ⟨fun _ hmem => absurd hmem List.not_mem_nil, fun action haction _ => by rw [h action haction]; rfl⟩

/-- A program that never throws, adds nothing to the journal and feeds nothing. -/
def Unfed {α : Type} (m : CleanupM α) : Prop :=
  ∀ start, Logs start m fun result emitted trace =>
    (∃ value, result = .ok value) ∧ emitted = [] ∧ RunAccount [] trace

theorem Silent.unfed {α : Type} {m : CleanupM α} (h : Silent m) : Unfed m :=
  fun start => (h start).weaken fun _ _ _ ⟨hok, hemitted, htrace⟩ =>
    ⟨hok, hemitted, by rw [htrace]; exact runAccount_accumulates.nil⟩

theorem unfed_clockNow : Unfed clockNow :=
  fun _ => Emits.perform fun now => ⟨⟨now, rfl⟩, rfl, runAccount_quiet fun action _ => by
    cases action <;> rfl⟩

theorem unfed_totalTargetExceeded : Unfed totalTargetExceeded :=
  fun _ => Emits.perform fun exceeded => ⟨⟨exceeded, rfl⟩, rfl, runAccount_quiet fun action _ => by
    cases action <;> rfl⟩

theorem Unfed.bind {α β : Type} {m : CleanupM α} {rest : α → CleanupM β}
    {R : Except Thrown β → List CleanupActionEntry → List CleanupExchange → Prop} (h : Unfed m)
    (hrest : ∀ value, Logs start (rest value) R)
    (hR : ∀ result emitted trace trace', RunAccount [] trace' → R result emitted trace →
      R result emitted (trace' ++ trace)) :
    Logs start (m >>= rest) R := by
  refine Emits.andThen (h start) ?_
  rintro value emitted trace ⟨-, rfl, hquiet⟩
  rw [List.append_nil]
  exact (hrest value).weaken fun _ _ _ h' => hR _ _ _ _ hquiet h'

/-- What the freeze records and returns: its own two entries, and a result built from everything
recorded before it, in earlier runs and in this one. -/
def FrozenFrom (mode : CleanupMode) (before : List CleanupActionEntry)
    (result : Except Thrown CleanupRunOutcome) (emitted : List CleanupActionEntry)
    (trace : List CleanupExchange) : Prop :=
  RunAccount emitted trace ∧ ∃ first last status outcome startedAt completedAt breach,
    emitted = [first, last] ∧ IsStepEntry .resultsFreeze .started first ∧
    IsStepEntry .resultsFreeze (.ended status) last ∧ result = .ok outcome ∧
    outcome.cleanupResult = buildCleanupResult mode (foldCleanupActions (before ++ [first]))
      startedAt completedAt breach

theorem freezeRun_ends (fold : CleanupFold) (startedAt : UtcMillis) :
    Logs start (do
      let completedAt ← clockNow
      let breach ← totalTargetExceeded
      let result := buildCleanupResult mode fold startedAt completedAt breach
      let leakAudit ← Stateful.inspect fun state => state.leakAudit
      let freeze ← stepTotally (callPort (.freezeResults result leakAudit)) "step 12"
      recordStep mode .resultsFreeze (.ended freeze.status) freeze.reasons
      return CleanupRunOutcome.mk result leakAudit freeze)
      fun result emitted trace => RunAccount emitted trace ∧
        ∃ last status outcome completedAt breach, emitted = [last] ∧
          IsStepEntry .resultsFreeze (.ended status) last ∧ result = .ok outcome ∧
          outcome.cleanupResult = buildCleanupResult mode fold startedAt completedAt breach := by
  have hrun := runAccount_accumulates
  refine Unfed.bind unfed_clockNow (fun completedAt => ?_)
    fun _ _ _ _ hquiet ⟨hacc, hrest⟩ => ⟨hrun.append hquiet hacc, hrest⟩
  refine Unfed.bind unfed_totalTargetExceeded (fun breach => ?_)
    fun _ _ _ _ hquiet ⟨hacc, hrest⟩ => ⟨hrun.append hquiet hacc, hrest⟩
  refine Unfed.bind (silent_inspect _).unfed (fun leakAudit => ?_)
    fun _ _ _ _ hquiet ⟨hacc, hrest⟩ => ⟨hrun.append hquiet hacc, hrest⟩
  refine Unfed.bind (fun start => ?_) (fun freeze => ?_)
    fun _ _ _ _ hquiet ⟨hacc, hrest⟩ => ⟨hrun.append hquiet hacc, hrest⟩
  · refine Emits.orElse (callPort_emits (R := fun _ emitted trace => emitted = [] ∧
      RunAccount [] trace) fun answer => ⟨rfl, runAccount_quiet fun action _ => ?_⟩) ?_ ?_
    · cases action <;> rfl
    · exact fun value _ _ ⟨hemitted, hacc⟩ => ⟨⟨value, rfl⟩, hemitted, hacc⟩
    · rintro error _ trace ⟨rfl, hacc⟩
      refine Emits.pure ⟨⟨_, rfl⟩, rfl, ?_⟩
      rwa [List.append_nil]
  · refine Emits.andThen (recordStep_emits _ _ _) ?_
    rintro _ _ trace ⟨-, hacc, last, rfl, hlast⟩
    refine Emits.pure ⟨?_, last, _, _, completedAt, breach, rfl, hlast, rfl, rfl⟩
    rw [List.append_nil, List.append_nil]
    exact hacc

theorem freezeRun_emits (runStartedAt : UtcMillis) :
    Logs start (freezeRun mode input runStartedAt) (FrozenFrom mode (input.history ++ start)) := by
  have hrun := runAccount_accumulates
  refine Emits.andThen (recordStep_emits .resultsFreeze .started []) ?_
  rintro _ _ trace₁ ⟨-, hacc₁, first, rfl, hfirst⟩
  refine Emits.andThen (Emits.inspect (R := fun result emitted trace => emitted = [] ∧ trace = [] ∧
    result = .ok (foldCleanupActions (input.history ++ (start ++ [first]))))
    fun state hstate => ⟨rfl, rfl, by rw [hstate]⟩) ?_
  rintro fold _ _ ⟨rfl, rfl, heq⟩
  obtain rfl := Except.ok.inj heq
  refine Silent.bind (silent_inspect _) fun startedAt => ?_
  refine (freezeRun_ends _ startedAt).weaken ?_
  rintro result _ trace₂ ⟨hacc₂, last, status, outcome, completedAt, breach, rfl, hlast, hok,
    hresult⟩
  rw [← List.append_assoc] at hresult
  exact ⟨hrun.append hacc₁ hacc₂, first, last, status, outcome, startedAt, completedAt, breach,
    rfl, hfirst, hlast, hok, hresult⟩

theorem FrozenFrom.touches {before : List CleanupActionEntry}
    {result : Except Thrown CleanupRunOutcome} {emitted : List CleanupActionEntry}
    (h : FrozenFrom mode before result emitted trace) :
    Touches [.resultsFreeze] emitted := by
  obtain ⟨-, first, last, status, outcome, startedAt, completedAt, breach, rfl, hfirst, hlast, -⟩ := h
  exact hfirst.touches.append hlast.touches

theorem IsObligation.ordered (hob : IsObligation obligation) (mode : CleanupMode) :
    alwaysRerun obligation.recorder = false ∧ OrderedFor obligation (cleanupStepOrder mode) ∧
      obligation.recorder ∈ cleanupStepOrder mode ∧
      obligation.recorder ≠ .resultsFreeze ∧ obligation.feeder ≠ .resultsFreeze := by
  cases hob <;> cases mode <;> simp [OrderedFor, cleanupStepOrder, cleanupSteps, alwaysRerun,
    releasesObligation, stopsObligation, messagesObligation]

/-- What one run of cleanup does for an obligation: if the recording step had not succeeded
before, the obligation is met at the end; if it had, it still has, and nothing is settled. -/
theorem runCleanup_emits (hob : IsObligation obligation) :
    Logs [] (runCleanup mode input) fun result emitted trace =>
      (∃ outcome, result = .ok outcome) ∧ RunAccount emitted trace ∧
      (¬ HasSucceeded input.history obligation.recorder →
        obligation.Met (input.history ++ emitted)) ∧
      (HasSucceeded input.history obligation.recorder →
        HasSucceeded (input.history ++ emitted) obligation.recorder ∧
          ∀ action ∈ obligation.settledBy, idsIn action emitted = []) := by
  have hrun := runAccount_accumulates
  obtain ⟨hrerun, hordered, hmem, hrecorder, hfeeder⟩ := hob.ordered mode
  refine Unfed.bind unfed_clockNow (fun runStartedAt => ?_)
    fun _ _ _ _ hquiet ⟨hok, hacc, hrest⟩ => ⟨hok, hrun.append hquiet hacc, hrest⟩
  refine Emits.andThen (runSteps_emits hob hrerun (cleanupStepOrder mode) hordered) ?_
  rintro _ emitted trace ⟨-, hacc, -, hmet, hkept⟩
  rw [List.append_nil] at hmet hkept
  refine (freezeRun_emits runStartedAt).weaken ?_
  intro result emitted' trace' hfrozen
  have htouches := hfrozen.touches
  obtain ⟨hacc', _, _, _, outcome, _, _, _, -, -, -, hok, -⟩ := hfrozen
  have hrecorder' : obligation.recorder ∉ [CleanupStep.resultsFreeze] := fun h =>
    hrecorder (List.mem_singleton.mp h)
  have hfeeder' : obligation.feeder ∉ [CleanupStep.resultsFreeze] := fun h =>
    hfeeder (List.mem_singleton.mp h)
  refine ⟨⟨outcome, hok⟩, hrun.append hacc hacc', fun hnot => ?_, fun hsucceeded => ?_⟩
  · rw [← List.append_assoc]
    exact (hmet hnot hmem).append htouches hfeeder' hrecorder'
  · obtain ⟨hstill, hnone⟩ := hkept hsucceeded
    refine ⟨?_, fun action haction => ?_⟩
    · rw [← List.append_assoc, HasSucceeded,
        latestStatus_append (htouches.statuses _ hrecorder')]
      exact hstill
    · rw [idsIn_append, hnone action haction, List.nil_append]
      exact htouches.items action (by
        rw [obligation.settled_step action haction]
        exact hrecorder')

end Runs

/-! ## Any number of runs -/

structure RunRecord where
  history : List CleanupActionEntry
  trace : List CleanupExchange
  entries : List CleanupActionEntry

/-- Every entry of some runs, oldest first. -/
def allEntries (runs : List RunRecord) : List CleanupActionEntry := runs.flatMap (·.entries)

/-- The run is a run of the orchestrator, in some mode, on the history it was given. -/
def RunRecord.Ran (run : RunRecord) : Prop :=
  ∃ mode ownership targets findings outcome state',
    Traced ((runCleanup mode ⟨ownership, targets, run.history, findings⟩).run.run
      (RunState.initial ⟨ownership, targets, run.history, findings⟩)) run.trace
      (.ok outcome, state') ∧ state'.entries = run.entries

/-- Cleanup runs of one execution: each is given what all earlier ones recorded. -/
inductive CleanupRuns : List RunRecord → Prop where
  | none : CleanupRuns []
  | next {runs : List RunRecord} {run : RunRecord} (hbefore : CleanupRuns runs)
      (hhistory : run.history = allEntries runs) (hran : run.Ran) : CleanupRuns (runs ++ [run])

/-- An identifier fed by a step of some run, as its port reported it. -/
def FedInSome (action : ItemActionName) (runs : List RunRecord) (identifier : String) : Prop :=
  ∃ run ∈ runs, identifier ∈ fedIn action run.trace

def RecordedInduced (action : ItemActionName) (entries : List CleanupActionEntry)
    (identifier : String) : Prop :=
  ∃ entry ∈ entries, entry.body.action = .item action ∧ entry.body.cleanupInduced = true ∧
    entry.body.resourceIdentifier = some identifier

/-- What step 6 owes: once its folded status is succeeded, every release and every stop that
step 5 applied in any run is recorded as cleanup-induced. -/
def TransitionsRecorded (runs : List RunRecord) : Prop :=
  stepStatusOf (foldCleanupActions (allEntries runs)) .cleanupInducedTransitionsRecord =
      some (.ended .succeeded) →
    (∀ partition, FedInSome .safetyReleaseApplied runs partition →
      RecordedInduced .treatmentSafetyReleased (allEntries runs) partition) ∧
    ∀ arn, FedInSome .durableStopApplied runs arn →
      RecordedInduced .durableExecutionStopped (allEntries runs) arn

/-- What step 8 owes: once its folded status is succeeded, every message id that step 7 captured
in any run is recorded as deleted or already absent. -/
def MessagesSettled (runs : List RunRecord) : Prop :=
  stepStatusOf (foldCleanupActions (allEntries runs)) .capturedDlqMessagesDelete =
      some (.ended .succeeded) →
    ∀ messageId, FedInSome .dlqMessageCaptured runs messageId →
      messageId ∈ (foldCleanupActions (allEntries runs)).deletedDlqMessageIds ∨
        messageId ∈ (foldCleanupActions (allEntries runs)).absentDlqMessageIds

/-- The run feeds nothing new after the step that has to settle it: with step 6 succeeded in its
history its ports apply no release and no stop that is not recorded there, and with step 8
succeeded they capture no message that is not settled there. -/
structure FeedsNothingLate (run : RunRecord) : Prop where
  releases : stepStatusOf (foldCleanupActions run.history) .cleanupInducedTransitionsRecord =
      some (.ended .succeeded) → ∀ partition ∈ fedIn .safetyReleaseApplied run.trace,
    partition ∈ (foldCleanupActions run.history).recordedSafetyReleases
  stops : stepStatusOf (foldCleanupActions run.history) .cleanupInducedTransitionsRecord =
      some (.ended .succeeded) → ∀ arn ∈ fedIn .durableStopApplied run.trace,
    arn ∈ (foldCleanupActions run.history).recordedExecutionStops
  messages : stepStatusOf (foldCleanupActions run.history) .capturedDlqMessagesDelete =
      some (.ended .succeeded) → ∀ messageId ∈ fedIn .dlqMessageCaptured run.trace,
    messageId ∈ (foldCleanupActions run.history).deletedDlqMessageIds ∨
      messageId ∈ (foldCleanupActions run.history).absentDlqMessageIds

section Sequences

variable {obligation : Obligation} {runs : List RunRecord} {run : RunRecord}

theorem allEntries_concat (runs : List RunRecord) (run : RunRecord) :
    allEntries (runs ++ [run]) = allEntries runs ++ run.entries := by
  simp [allEntries]

theorem RunRecord.Ran.spec (hran : run.Ran) (hob : IsObligation obligation) :
    RunAccount run.entries run.trace ∧
    (¬ HasSucceeded run.history obligation.recorder →
      obligation.Met (run.history ++ run.entries)) ∧
    (HasSucceeded run.history obligation.recorder →
      HasSucceeded (run.history ++ run.entries) obligation.recorder ∧
        ∀ action ∈ obligation.settledBy, idsIn action run.entries = []) := by
  obtain ⟨mode, ownership, targets, findings, outcome, state', htraced, hentries⟩ := hran
  obtain ⟨emitted, hemitted, -, hspec⟩ := runCleanup_emits hob _ rfl _ _ htraced
  obtain rfl : emitted = run.entries := hemitted.symm.trans hentries
  exact hspec

def Obligation.Kept (obligation : Obligation) (runs : List RunRecord) : Prop :=
  HasSucceeded (allEntries runs) obligation.recorder →
    ∀ identifier, FedInSome obligation.fed runs identifier →
      obligation.Settled (allEntries runs) identifier

def Obligation.OnTime (obligation : Obligation) (run : RunRecord) : Prop :=
  HasSucceeded run.history obligation.recorder →
    ∀ identifier ∈ fedIn obligation.fed run.trace, obligation.Settled run.history identifier

theorem CleanupRuns.fed_iff (h : CleanupRuns runs) (hob : IsObligation obligation)
    (identifier : String) : FedInSome obligation.fed runs identifier ↔
      identifier ∈ idsIn obligation.fed (allEntries runs) := by
  induction h with
  | none => simp [FedInSome, allEntries, idsIn]
  | @next runs run hbefore hhistory hran ih =>
    have hfed := (hran.spec hob).1.fed obligation.fed obligation.fed_mem identifier
    rw [allEntries_concat, idsIn_append, List.mem_append, ← ih, ← hfed]
    simp [FedInSome, or_and_right, exists_or]

/-- An obligation is kept at the end of a run exactly when it was kept before, where the
recording step had succeeded, and the run fed nothing late. -/
theorem CleanupRuns.kept_next (hbefore : CleanupRuns runs) (hhistory : run.history = allEntries runs)
    (hran : run.Ran) (hob : IsObligation obligation) (hkept : obligation.Kept runs) :
    obligation.Kept (runs ++ [run]) ↔ obligation.OnTime run := by
  have hruns : CleanupRuns (runs ++ [run]) := .next hbefore hhistory hran
  obtain ⟨hacc, hmet, hstill⟩ := hran.spec hob
  by_cases hsucceeded : HasSucceeded run.history obligation.recorder
  · obtain ⟨hend, hnone⟩ := hstill hsucceeded
    have hsame : ∀ identifier, obligation.Settled (allEntries (runs ++ [run])) identifier ↔
        obligation.Settled run.history identifier := by
      intro identifier
      rw [allEntries_concat, ← hhistory]
      constructor
      · rintro ⟨action, haction, hmem⟩
        rw [idsIn_append, hnone action haction, List.append_nil] at hmem
        exact ⟨action, haction, hmem⟩
      · exact fun h => h.append
    constructor
    · intro h _ identifier hfed
      refine (hsame identifier).mp (h ?_ identifier ⟨run, by simp, hfed⟩)
      rw [allEntries_concat, ← hhistory]
      exact hend
    · rintro hontime - identifier ⟨other, hother, hfed⟩
      rw [hsame identifier]
      rcases List.mem_append.mp hother with hother | hother
      · rw [hhistory] at hsucceeded ⊢
        exact hkept hsucceeded identifier ⟨other, hother, hfed⟩
      · rw [List.mem_singleton.mp hother] at hfed
        exact hontime hsucceeded identifier hfed
  · constructor
    · exact fun _ h => absurd h hsucceeded
    · intro _ hend identifier hfed
      rw [hruns.fed_iff hob identifier] at hfed
      have hmet' := hmet hsucceeded
      rw [hhistory, ← allEntries_concat] at hmet'
      exact hmet' hend identifier hfed

theorem CleanupRuns.kept_iff (h : CleanupRuns runs) (hob : IsObligation obligation) :
    (∀ done, done <+: runs → obligation.Kept done) ↔ ∀ run ∈ runs, obligation.OnTime run := by
  induction h with
  | none =>
    refine ⟨fun _ run hmem => (by cases hmem), fun _ done hdone => ?_⟩
    rw [List.prefix_nil.mp hdone]
    rintro - identifier ⟨run, hmem, -⟩
    cases hmem
  | @next runs run hbefore hhistory hran ih =>
    constructor
    · intro hall other hother
      have hearlier : ∀ done, done <+: runs → obligation.Kept done :=
        fun done hdone => hall done (hdone.trans (List.prefix_append runs [run]))
      rcases List.mem_append.mp hother with hother | hother
      · exact ih.mp hearlier other hother
      · rw [List.mem_singleton.mp hother]
        exact (hbefore.kept_next hhistory hran hob (hearlier runs List.prefix_rfl)).mp
          (hall _ List.prefix_rfl)
    · intro hontime done hdone
      have hearlier := ih.mpr fun other hother => hontime other (List.mem_append_left _ hother)
      rcases List.prefix_concat_iff.mp hdone with rfl | hdone
      · exact (hbefore.kept_next hhistory hran hob (hearlier runs List.prefix_rfl)).mpr
          (hontime run (by simp))
      · exact hearlier done hdone

theorem CleanupRuns.of_first {done : List RunRecord} (h : CleanupRuns runs)
    (hdone : done <+: runs) : CleanupRuns done := by
  induction h with
  | none =>
    rw [List.prefix_nil.mp hdone]
    exact .none
  | next hbefore hhistory hran ih =>
    rcases List.prefix_concat_iff.mp hdone with rfl | hdone
    · exact .next hbefore hhistory hran
    · exact ih hdone

theorem CleanupRuns.recordedInduced_iff (h : CleanupRuns runs) {action : ItemActionName}
    (hinduced : action.isInduced = true) (identifier : String) :
    RecordedInduced action (allEntries runs) identifier ↔
      identifier ∈ idsIn action (allEntries runs) := by
  have hflags : ∀ entry ∈ allEntries runs, entry.body.action = .item action →
      entry.body.cleanupInduced = true := by
    induction h with
    | none => exact fun _ hmem => by cases hmem
    | next hbefore hhistory hran ih =>
      intro entry hmem haction
      rw [allEntries_concat, List.mem_append] at hmem
      rcases hmem with hmem | hmem
      · exact ih entry hmem haction
      · exact (hran.spec .releases).1.induced entry hmem action haction hinduced
  unfold RecordedInduced idsIn
  rw [List.mem_filterMap]
  constructor
  · rintro ⟨entry, hmem, haction, -, hidentifier⟩
    exact ⟨entry, hmem, by rw [identifierFor, if_pos haction]; exact hidentifier⟩
  · rintro ⟨entry, hmem, hidentifier⟩
    unfold identifierFor at hidentifier
    split at hidentifier
    · rename_i haction
      exact ⟨entry, hmem, haction, hflags entry hmem haction, hidentifier⟩
    · cases hidentifier

theorem CleanupRuns.transitionsRecorded_iff (h : CleanupRuns runs) :
    TransitionsRecorded runs ↔ releasesObligation.Kept runs ∧ stopsObligation.Kept runs := by
  unfold TransitionsRecorded Obligation.Kept
  rw [stepStatusOf_fold]
  have hreleases : ∀ identifier, releasesObligation.Settled (allEntries runs) identifier ↔
      RecordedInduced .treatmentSafetyReleased (allEntries runs) identifier := fun identifier => by
    rw [h.recordedInduced_iff rfl]
    simp [Obligation.Settled, releasesObligation]
  have hstops : ∀ identifier, stopsObligation.Settled (allEntries runs) identifier ↔
      RecordedInduced .durableExecutionStopped (allEntries runs) identifier := fun identifier => by
    rw [h.recordedInduced_iff rfl]
    simp [Obligation.Settled, stopsObligation]
  constructor
  · intro hall
    refine ⟨fun hsucceeded identifier hfed => ?_, fun hsucceeded identifier hfed => ?_⟩
    · exact (hreleases identifier).mpr ((hall hsucceeded).1 identifier hfed)
    · exact (hstops identifier).mpr ((hall hsucceeded).2 identifier hfed)
  · rintro ⟨hr, hs⟩ hsucceeded
    refine ⟨fun identifier hfed => ?_, fun identifier hfed => ?_⟩
    · exact (hreleases identifier).mp (hr hsucceeded identifier hfed)
    · exact (hstops identifier).mp (hs hsucceeded identifier hfed)

theorem messages_settled_iff {entries : List CleanupActionEntry} {messageId : String} :
    messagesObligation.Settled entries messageId ↔
      messageId ∈ (foldCleanupActions entries).deletedDlqMessageIds ∨
        messageId ∈ (foldCleanupActions entries).absentDlqMessageIds := by
  have hdeleted : messageId ∈ (foldCleanupActions entries).deletedDlqMessageIds ↔
      messageId ∈ idsIn .dlqMessageDeleted entries := mem_identifiersOf
  have habsent : messageId ∈ (foldCleanupActions entries).absentDlqMessageIds ↔
      messageId ∈ idsIn .dlqMessageAbsent entries := mem_identifiersOf
  rw [hdeleted, habsent]
  simp [Obligation.Settled, messagesObligation]

theorem messagesSettled_iff : MessagesSettled runs ↔ messagesObligation.Kept runs := by
  unfold MessagesSettled Obligation.Kept
  rw [stepStatusOf_fold]
  simp only [messages_settled_iff]
  rfl

theorem feedsNothingLate_iff : FeedsNothingLate run ↔ releasesObligation.OnTime run ∧
    stopsObligation.OnTime run ∧ messagesObligation.OnTime run := by
  have hrelease : ∀ identifier, releasesObligation.Settled run.history identifier ↔
      identifier ∈ (foldCleanupActions run.history).recordedSafetyReleases := fun identifier => by
    have hmem : identifier ∈ (foldCleanupActions run.history).recordedSafetyReleases ↔
        identifier ∈ idsIn .treatmentSafetyReleased run.history := mem_identifiersOf
    rw [hmem]
    simp [Obligation.Settled, releasesObligation]
  have hstop : ∀ identifier, stopsObligation.Settled run.history identifier ↔
      identifier ∈ (foldCleanupActions run.history).recordedExecutionStops := fun identifier => by
    have hmem : identifier ∈ (foldCleanupActions run.history).recordedExecutionStops ↔
        identifier ∈ idsIn .durableExecutionStopped run.history := mem_identifiersOf
    rw [hmem]
    simp [Obligation.Settled, stopsObligation]
  unfold Obligation.OnTime HasSucceeded
  simp only [hrelease, hstop, messages_settled_iff, ← stepStatusOf_fold]
  exact ⟨fun h => ⟨h.releases, h.stops, h.messages⟩, fun ⟨hr, hs, hm⟩ => ⟨hr, hs, hm⟩⟩

/-- In every sequence of cleanup runs of one execution, in either mode and whatever the ports
answer or throw: at the end of every run both accounts are complete, exactly when no run feeds
anything new while the step that has to settle it counts as succeeded in its history. -/
theorem cleanup_accounts_iff (h : CleanupRuns runs) :
    (∀ done, done <+: runs → TransitionsRecorded done ∧ MessagesSettled done) ↔
      ∀ run ∈ runs, FeedsNothingLate run := by
  have hreleases := h.kept_iff .releases
  have hstops := h.kept_iff .stops
  have hmessages := h.kept_iff .messages
  constructor
  · intro hall run hmem
    refine feedsNothingLate_iff.mpr ⟨hreleases.mp (fun done hdone => ?_) run hmem,
      hstops.mp (fun done hdone => ?_) run hmem, hmessages.mp (fun done hdone => ?_) run hmem⟩
    · exact ((h.of_first hdone).transitionsRecorded_iff.mp (hall done hdone).1).1
    · exact ((h.of_first hdone).transitionsRecorded_iff.mp (hall done hdone).1).2
    · exact messagesSettled_iff.mp (hall done hdone).2
  · intro hlate done hdone
    refine ⟨(h.of_first hdone).transitionsRecorded_iff.mpr ⟨?_, ?_⟩, messagesSettled_iff.mpr ?_⟩
    · exact hreleases.mpr (fun run hmem => (feedsNothingLate_iff.mp (hlate run hmem)).1) done hdone
    · exact hstops.mpr (fun run hmem => (feedsNothingLate_iff.mp (hlate run hmem)).2.1) done hdone
    · exact hmessages.mpr (fun run hmem => (feedsNothingLate_iff.mp (hlate run hmem)).2.2) done
        hdone

end Sequences

/-! ## A release that is never recorded -/

def releasePorts (report : SafetyReleaseReport) : (request : CleanupCall) → CleanupReply request
  | .port (.requestSafetyRelease _) => .ok report
  | .port _ => .error ()
  | .append _ => .appended 3
  | .now => (3 : UtcMillis)
  | .totalTargetExceeded => false

def onePartition (history : List CleanupActionEntry) : CleanupInput :=
  ⟨failedProvisioning, ⟨[], ["partition"], [], []⟩, history, []⟩

def releaseRun (history : List CleanupActionEntry) (report : SafetyReleaseReport) : RunRecord :=
  let answered := ((runCleanup .normal (onePartition history)).run.run
    (RunState.initial (onePartition history))).answered (releasePorts report)
  ⟨history, answered.1, answered.2.2.entries⟩

def failedRelease : List RunRecord := [releaseRun [] (.failed ⟨"THROTTLED", "partition"⟩)]

def lateRelease : List RunRecord :=
  failedRelease ++ [releaseRun (allEntries failedRelease) (.released "COMMITTED_WAITING")]

def promptRelease : List RunRecord := [releaseRun [] (.released "COMMITTED_WAITING")]

def releaseEnd (history : List CleanupActionEntry) (report : SafetyReleaseReport) :=
  (((runCleanup .normal (onePartition history)).run.run
    (RunState.initial (onePartition history))).answered (releasePorts report)).2

theorem releaseRun_ran {history : List CleanupActionEntry} {report : SafetyReleaseReport}
    (hok : (releaseEnd history report).1.toOption.isSome = true) :
    (releaseRun history report).Ran := by
  obtain ⟨outcome, hend⟩ : ∃ outcome, (releaseEnd history report).1 = .ok outcome := by
    cases hresult : (releaseEnd history report).1 with
    | ok outcome => exact ⟨outcome, rfl⟩
    | error fault => rw [hresult] at hok; cases hok
  have htraced := Program.answered_traced (releasePorts report)
    ((runCleanup .normal (onePartition history)).run.run (RunState.initial (onePartition history)))
  have hpair : releaseEnd history report = (.ok outcome, (releaseEnd history report).2) :=
    Prod.ext hend rfl
  unfold releaseEnd at hpair
  rw [hpair] at htraced
  exact ⟨.normal, failedProvisioning, ⟨[], ["partition"], [], []⟩, [], outcome,
    (releaseEnd history report).2, htraced, rfl⟩

theorem CleanupRuns.then_release {runs : List RunRecord} (h : CleanupRuns runs)
    (report : SafetyReleaseReport)
    (hok : (releaseEnd (allEntries runs) report).1.toOption.isSome = true) :
    CleanupRuns (runs ++ [releaseRun (allEntries runs) report]) :=
  .next h rfl (releaseRun_ran hok)

theorem cleanupRuns_failedRelease : CleanupRuns failedRelease :=
  CleanupRuns.none.then_release (.failed ⟨"THROTTLED", "partition"⟩) (by decide +kernel)

theorem cleanupRuns_lateRelease : CleanupRuns lateRelease :=
  cleanupRuns_failedRelease.then_release (.released "COMMITTED_WAITING") (by decide +kernel)

theorem cleanupRuns_promptRelease : CleanupRuns promptRelease :=
  CleanupRuns.none.then_release (.released "COMMITTED_WAITING") (by decide +kernel)

theorem late_release_unrecorded : CleanupRuns lateRelease ∧
    ¬ (∀ done, done <+: lateRelease → TransitionsRecorded done ∧ MessagesSettled done) := by
  refine ⟨cleanupRuns_lateRelease, fun hall => ?_⟩
  have hsucceeded : stepStatusOf (foldCleanupActions (allEntries lateRelease))
      .cleanupInducedTransitionsRecord = some (.ended .succeeded) := by decide +kernel
  have hfed : FedInSome .safetyReleaseApplied lateRelease "partition" := by
    refine ⟨_, List.mem_cons_of_mem _ List.mem_cons_self, ?_⟩
    decide +kernel
  obtain ⟨entry, hmem, haction, -⟩ :=
    ((hall lateRelease (List.prefix_refl _)).1 hsucceeded).1 "partition" hfed
  have hnone : ∀ entry ∈ allEntries lateRelease,
      entry.body.action ≠ .item .treatmentSafetyReleased := by decide +kernel
  exact hnone entry hmem haction

theorem prompt_release_recorded : CleanupRuns promptRelease ∧
    ∀ done, done <+: promptRelease → TransitionsRecorded done ∧ MessagesSettled done := by
  refine ⟨cleanupRuns_promptRelease,
    (cleanup_accounts_iff cleanupRuns_promptRelease).mpr (fun run hmem => ?_)⟩
  obtain rfl : run = releaseRun [] (.released "COMMITTED_WAITING") := List.mem_singleton.mp hmem
  have hnone : ∀ step, stepStatusOf (foldCleanupActions []) step ≠ some (.ended .succeeded) :=
    fun step => by cases step <;> decide
  exact ⟨fun h => absurd h (hnone _), fun h => absurd h (hnone _), fun h => absurd h (hnone _)⟩

end RefundStudy.Cleanup
