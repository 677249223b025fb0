/-
  What each cleanup step adds to the journal, against what it exchanged with its ports.
-/
import RefundStudy.Cleanup.Steps

set_option autoImplicit false

namespace RefundStudy.Cleanup

open Foundation Record

variable {state : SweepState × List ReceivedDlqMessage} {queueUrl : String} {item : ItemAction}

/-! ## Statuses and identifiers in a list of entries -/

variable (entries : List CleanupActionEntry)

/-- The status of the latest step-level entry of a step. -/
def latestStatus (step : CleanupStep) : Option StepStatus :=
  (stepEntries step entries).getLast?.map (·.body.stepStatus)

/-- The step ended as succeeded when it was last recorded. -/
def HasSucceeded (step : CleanupStep) : Prop :=
  latestStatus entries step = some (.ended .succeeded)

theorem foldStep_status (step : CleanupStep) :
    (foldStep entries step).map (·.status) = latestStatus entries step := by
  unfold foldStep latestStatus
  dsimp only
  cases (stepEntries step entries).getLast? with
  | none => rfl
  | some latest =>
    dsimp only
    split <;> simp_all

theorem foldStep_step {entries : List CleanupActionEntry} {step : CleanupStep} {folded : FoldedStep}
    (h : foldStep entries step = some folded) : folded.step = step := by
  unfold foldStep at h
  dsimp only at h
  split at h
  · cases h
  · split at h <;> (obtain rfl := Option.some.inj h; rfl)

theorem find?_filterMap_foldStep (step : CleanupStep) (steps : List CleanupStep) :
    (steps.filterMap (foldStep entries)).find? (·.step = step) =
      if step ∈ steps then foldStep entries step else none := by
  induction steps with
  | nil => rfl
  | cons head rest ih =>
    cases hfold : foldStep entries head with
    | none =>
      rw [List.filterMap_cons_none hfold, ih]
      by_cases hhead : step = head
      · subst hhead
        simp [hfold]
      · simp [hhead]
    | some folded =>
      rw [List.filterMap_cons_some hfold, List.find?_cons]
      have hstep := foldStep_step hfold
      by_cases hhead : step = head
      · subst hhead
        simp [hstep, hfold]
      · have hne : ¬ folded.step = step := fun heq => hhead (heq.symm.trans hstep)
        simp [hne, hhead, ih]

theorem mem_cleanupSteps (step : CleanupStep) : step ∈ cleanupSteps := by
  cases step <;> decide

theorem stepStatusOf_fold (step : CleanupStep) :
    stepStatusOf (foldCleanupActions entries) step = latestStatus entries step := by
  unfold stepStatusOf foldCleanupActions
  dsimp only
  rw [find?_filterMap_foldStep, if_pos (mem_cleanupSteps step), foldStep_status]

theorem succeededSteps_iff {entries : List CleanupActionEntry} {step : CleanupStep} :
    step ∈ (foldCleanupActions entries).succeededSteps ↔ HasSucceeded entries step := by
  unfold foldCleanupActions HasSucceeded
  dsimp only
  rw [← foldStep_status]
  simp only [List.mem_map, List.mem_filter, List.mem_filterMap, decide_eq_true_eq]
  constructor
  · rintro ⟨folded, ⟨⟨head, -, hfold⟩, hstatus⟩, rfl⟩
    rw [foldStep_step hfold, hfold, Option.map_some, hstatus]
  · intro h
    obtain ⟨folded, hfold, hstatus⟩ := Option.map_eq_some_iff.mp h
    exact ⟨folded, ⟨⟨step, mem_cleanupSteps step, hfold⟩, hstatus⟩, foldStep_step hfold⟩

/-- The identifiers recorded for an item action. -/
def idsIn (action : ItemActionName) (entries : List CleanupActionEntry) : List String :=
  entries.filterMap (identifierFor action)

theorem mem_identifiersOf {entries : List CleanupActionEntry} {action : ItemActionName}
    {identifier : String} :
    identifier ∈ identifiersOf entries action ↔ identifier ∈ idsIn action entries :=
  mem_sortedSet

@[simp] theorem idsIn_append (action : ItemActionName) (front back : List CleanupActionEntry) :
    idsIn action (front ++ back) = idsIn action front ++ idsIn action back :=
  List.filterMap_append

/-- Entries without a step-level entry of a step leave its status alone. -/
theorem latestStatus_append {front back : List CleanupActionEntry} {step : CleanupStep}
    (h : stepEntries step back = []) :
    latestStatus (front ++ back) step = latestStatus front step := by
  have hfilter : stepEntries step (front ++ back) =
      stepEntries step front ++ stepEntries step back := List.filter_append ..
  unfold latestStatus
  rw [hfilter, h, List.append_nil]

theorem latestStatus_concat {front : List CleanupActionEntry} {entry : CleanupActionEntry}
    {step : CleanupStep} (hstep : entry.body.step = step) (haction : entry.body.action = .step step) :
    latestStatus (front ++ [entry]) step = some entry.body.stepStatus := by
  have hfilter : stepEntries step (front ++ [entry]) =
      stepEntries step front ++ [entry] := by
    simp [stepEntries, hstep, haction]
  unfold latestStatus
  rw [hfilter, List.getLast?_concat]
  rfl

/-! ## The account of a step -/

def ItemActionName.step : ItemActionName → CleanupStep
  | .consumerDisabled | .consumerAbsent | .consumerDisableFailed => .consumersDisable
  | .safetyReleaseApplied | .safetyReleaseNotHeld | .safetyReleaseFailed | .durableListFailed
  | .durableStopApplied | .durableStopNotRunning | .durableStopFailed =>
    .barriersReleaseAndExecutionsStop
  | .treatmentSafetyReleased | .durableExecutionStopped => .cleanupInducedTransitionsRecord
  | .dlqMessageCaptured => .dlqEvidenceCapture
  | .dlqMessageDeleted | .dlqMessageAbsent | .dlqMessageDeleteFailed => .capturedDlqMessagesDelete

/-- The item actions that a later step has to settle. -/
def fedActions : List ItemActionName :=
  [.safetyReleaseApplied, .durableStopApplied, .dlqMessageCaptured]

/-- What an exchange with a port feeds: an applied release, an applied stop, captured messages. -/
def fedBy : ItemActionName → CleanupExchange → List String
  | .safetyReleaseApplied, ⟨.port (.requestSafetyRelease partition), .ok (.released _)⟩ => [partition]
  | .durableStopApplied, ⟨.port (.stop arn), .ok .stopped⟩ => [arn]
  | .dlqMessageCaptured, ⟨.port (.captureDlqEvidence _), .ok report⟩ =>
    DlqCaptureReport.capturedMessageIds report
  | _, _ => []

def fedIn (action : ItemActionName) (trace : List CleanupExchange) : List String :=
  trace.flatMap (fedBy action)

@[simp] theorem fedIn_append (action : ItemActionName) (front back : List CleanupExchange) :
    fedIn action (front ++ back) = fedIn action front ++ fedIn action back := List.flatMap_append

theorem NoPort.feeds_nothing {trace : List CleanupExchange} (h : NoPort trace)
    (action : ItemActionName) : fedIn action trace = [] := by
  refine List.flatMap_eq_nil_iff.mpr ?_
  rintro ⟨request, reply⟩ hmem
  cases request with
  | port request => exact absurd rfl (h _ hmem request)
  | append body | now | totalTargetExceeded => cases action <;> rfl

/-- An action that says cleanup itself caused the transition. -/
def ItemActionName.isInduced : ItemActionName → Bool
  | .treatmentSafetyReleased | .durableExecutionStopped => true
  | _ => false

/-- What a step adds to the journal while it runs: item entries of its own, the induced ones
marked so, and an entry for whatever its exchanges fed. -/
structure StepAccount (step : CleanupStep) (emitted : List CleanupActionEntry)
    (trace : List CleanupExchange) : Prop where
  inner : ∀ entry ∈ emitted, ∀ other, entry.body.action ≠ .step other
  own : ∀ entry ∈ emitted, ∀ action, entry.body.action = .item action → action.step = step
  induced : ∀ entry ∈ emitted, ∀ action, entry.body.action = .item action →
    action.isInduced = true → entry.body.cleanupInduced = true
  fed : ∀ action ∈ fedActions, ∀ identifier,
    identifier ∈ fedIn action trace ↔ identifier ∈ idsIn action emitted

theorem stepAccount_accumulates (step : CleanupStep) : Accumulates (StepAccount step) where
  nil := ⟨fun _ hmem => absurd hmem List.not_mem_nil, fun _ hmem => absurd hmem List.not_mem_nil,
    fun _ hmem => absurd hmem List.not_mem_nil, fun _ _ _ => Iff.rfl⟩
  append := by
    rintro emitted emitted' trace trace' ⟨hinner, hown, hinduced, hfed⟩
      ⟨hinner', hown', hinduced', hfed'⟩
    refine ⟨?_, ?_, ?_, ?_⟩
    · intro entry hmem
      exact (List.mem_append.mp hmem).elim (hinner entry) (hinner' entry)
    · intro entry hmem
      exact (List.mem_append.mp hmem).elim (hown entry) (hown' entry)
    · intro entry hmem
      exact (List.mem_append.mp hmem).elim (hinduced entry) (hinduced' entry)
    · intro action haction identifier
      rw [fedIn_append, idsIn_append, List.mem_append, List.mem_append,
        hfed action haction identifier, hfed' action haction identifier]

theorem StepAccount.of_quiet {step : CleanupStep} {trace : List CleanupExchange}
    (h : ∀ action ∈ fedActions, fedIn action trace = []) : StepAccount step [] trace :=
  ⟨fun _ hmem => absurd hmem List.not_mem_nil, fun _ hmem => absurd hmem List.not_mem_nil,
    fun _ hmem => absurd hmem List.not_mem_nil,
    fun action haction _ => by rw [h action haction]; rfl⟩

theorem StepAccount.single {step : CleanupStep} {entry : CleanupActionEntry}
    {action : ItemActionName} {identifier : String} {trace : List CleanupExchange}
    (haction : entry.body.action = .item action) (hstep : action.step = step)
    (hidentifier : entry.body.resourceIdentifier = some identifier)
    (hinduced : action.isInduced = true → entry.body.cleanupInduced = true)
    (hfed : ∀ other ∈ fedActions, fedIn other trace = if other = action then [identifier] else []) :
    StepAccount step [entry] trace := by
  refine ⟨?_, ?_, ?_, ?_⟩
  · intro other hmem
    rw [List.mem_singleton.mp hmem, haction]
    intro step' heq
    cases heq
  · intro other hmem name hname
    rw [List.mem_singleton.mp hmem, haction] at hname
    obtain rfl := CleanupAction.item.inj hname
    exact hstep
  · intro other hmem name hname
    rw [List.mem_singleton.mp hmem, haction] at hname
    obtain rfl := CleanupAction.item.inj hname
    rw [List.mem_singleton.mp hmem]
    exact hinduced
  · intro other hother id
    rw [hfed other hother]
    by_cases hsame : other = action
    · subst hsame
      simp [idsIn, identifierFor, haction, hidentifier]
    · have hne : ¬ action = other := fun heq => hsame heq.symm
      simp [idsIn, identifierFor, haction, hsame, hne]

section Steps

variable {mode : CleanupMode} {step : CleanupStep} {start : List CleanupActionEntry}

variable {α : Type}

theorem recordItem_return {action : ItemActionName} {value : α}
    (trace : List CleanupExchange) (haction : item.action = .item action)
    (hstep : action.step = step) (hinduced : action.isInduced = true → item.cleanupInduced = true)
    (hfed : ∀ other ∈ fedActions, fedIn other trace =
      if other = action then [item.resourceIdentifier] else []) :
    Logs start (do recordItem mode step item; pure value)
      fun _ emitted trace' => StepAccount step emitted (trace ++ trace') := by
  refine Emits.andThen (recordAction_emits _) ?_
  rintro _ emitted trace' ⟨-, hquiet, occurredAt, rfl⟩
  refine Emits.pure ?_
  rw [List.append_nil, List.append_nil]
  refine StepAccount.single haction hstep rfl hinduced fun other hother => ?_
  rw [fedIn_append, hquiet.feeds_nothing, List.append_nil]
  exact hfed other hother

theorem recordItem_account {action : ItemActionName} {value : α}
    (haction : item.action = .item action) (hstep : action.step = step) (hnew : action ∉ fedActions)
    (hinduced : action.isInduced = true → item.cleanupInduced = true) :
    KeepsAccount (StepAccount step) (do recordItem mode step item; pure value) := by
  intro start
  refine recordItem_return [] haction hstep hinduced fun other hother => ?_
  have hne : ¬ other = action := by
    rintro rfl
    exact hnew hother
  rw [if_neg hne]
  rfl

/-! ### Programs that record nothing and feed nothing -/

/-- The requests whose answers feed a later step. -/
def PortCall.feeds : PortCall → Bool
  | .requestSafetyRelease _ | .stop _ | .captureDlqEvidence _ => true
  | _ => false

variable {request : PortCall}

theorem fedBy_eq_nil (h : request.feeds = false) (action : ItemActionName)
    (answer : Except Thrown (PortReply request)) :
    fedBy action ⟨CleanupCall.port request, answer⟩ = [] := by
  cases request <;> cases h <;> cases action <;> rfl

abbrev Quiet (m : CleanupM α) : Prop :=
  KeepsAccount (fun emitted trace => emitted = [] ∧ ∀ action, fedIn action trace = []) m

theorem quiet_accumulates :
    Accumulates (fun (emitted : List CleanupActionEntry) (trace : List CleanupExchange) =>
      emitted = [] ∧ ∀ action, fedIn action trace = []) where
  nil := ⟨rfl, fun _ => rfl⟩
  append := by
    rintro emitted emitted' trace trace' ⟨rfl, hfed⟩ ⟨rfl, hfed'⟩
    exact ⟨rfl, fun action => by rw [fedIn_append, hfed, hfed']; rfl⟩

theorem Quiet.pure (value : α) : Quiet (Pure.pure value) := Keeps.pure quiet_accumulates

theorem Quiet.bind {β : Type} {m : CleanupM α} {rest : α → CleanupM β} (h : Quiet m)
    (hrest : ∀ value, Quiet (rest value)) : Quiet (m >>= rest) :=
  Keeps.bind quiet_accumulates h hrest

theorem callPort_quiet (h : request.feeds = false) : Quiet (callPort request) := by
  refine KeepsAccount.callPort fun answer => ⟨rfl, fun action => ?_⟩
  change fedBy action _ ++ [] = []
  rw [fedBy_eq_nil h, List.append_nil]

theorem askPort_quiet (h : request.feeds = false) : Quiet (askPort request) := by
  refine KeepsAccount.askPort fun answer => ⟨rfl, fun action => ?_⟩
  change fedBy action _ ++ [] = []
  rw [fedBy_eq_nil h, List.append_nil]

theorem Quiet.account {m : CleanupM α} (h : Quiet m) : KeepsAccount (StepAccount step) m := by
  refine fun start => (h start).weaken fun _ emitted trace hquiet => ?_
  rw [hquiet.1]
  exact StepAccount.of_quiet fun action _ => hquiet.2 action

theorem disableOne_quiet (mappingId : String) : Quiet (disableOne mappingId) := by
  have hawait : ∀ remaining, Quiet (awaitDisabled mappingId remaining) := by
    intro remaining
    induction remaining with
    | zero => exact (callPort_quiet rfl).bind fun _ => .pure _
    | succ remaining ih =>
      refine (callPort_quiet rfl).bind fun read => ?_
      split
      · exact .pure _
      · exact (callPort_quiet rfl).bind fun _ => ih
  refine (callPort_quiet rfl).bind fun request => ?_
  cases request with
  | absent | failed reason => exact .pure _
  | requested => exact hawait _

theorem deleteCaptured_quiet (queueUrls messageIds : List String) :
    Quiet (deleteCaptured queueUrls messageIds) := by
  have hmessages : ∀ queueUrl messages state, Quiet (settleMessages queueUrl messages state) := by
    intro queueUrl messages
    induction messages with
    | nil => exact fun _ => .pure _
    | cons message rest ih =>
      intro state
      refine Quiet.bind ?_ fun next => ih next
      unfold settleMessage
      split
      · refine (callPort_quiet rfl).bind fun deletion => ?_
        cases deletion <;> exact .pure _
      · exact .pure _
  have hreceive : ∀ queueUrl receives state, Quiet (receiveUntilEmpty queueUrl receives state) := by
    intro queueUrl receives
    induction receives with
    | zero => exact fun _ => .pure _
    | succ receives ih =>
      intro state
      refine (callPort_quiet rfl).bind fun received => ?_
      match received with
      | .failed reason | .queueAbsent | .messages [] => exact .pure _
      | .messages (message :: rest) =>
        refine (hmessages _ _ _).bind fun next => ?_
        split
        · exact .pure _
        · exact ih next
  have hqueues : ∀ urls gaps state, Quiet (sweepQueues urls gaps state) := by
    intro urls
    induction urls with
    | nil => exact fun _ _ => .pure _
    | cons queueUrl rest ih =>
      intro gaps state
      unfold sweepQueues
      split
      · exact ih _ _
      · refine Quiet.bind ?_ fun result => ih _ _
        refine (hreceive _ _ _).bind fun result => ?_
        refine Quiet.bind (KeepsAccount.collect quiet_accumulates fun message _ =>
          (callPort_quiet rfl).bind fun _ => .pure _) fun _ => ?_
        split <;> exact .pure _
  refine (hqueues _ _ _).bind fun result => ?_
  obtain ⟨gaps, state⟩ := result
  cases gaps <;> exact .pure _

theorem deleteStackAndWait_quiet (stackId : String) : Quiet (deleteStackAndWait stackId) := by
  have hpoll : ∀ poll, Quiet (pollStack stackId poll) := by
    intro poll
    refine (callPort_quiet rfl).bind fun _ => ?_
    exact (callPort_quiet rfl).bind fun _ => .pure _
  have hawait : ∀ remaining, Quiet (awaitStackDeletion stackId remaining) := by
    intro remaining
    induction remaining with
    | zero => exact (hpoll _).bind fun _ => .pure _
    | succ remaining ih =>
      refine (hpoll _).bind fun settled => ?_
      cases settled with
      | some settled => exact .pure _
      | none => exact ih
  refine (callPort_quiet rfl).bind fun read => ?_
  split
  · exact .pure _
  · refine (callPort_quiet rfl).bind fun request => ?_
    cases request with
    | some reason => exact .pure _
    | none => exact hawait _

theorem sweepSurfaces_quiet : Quiet sweepSurfaces := by
  refine KeepsAccount.collect quiet_accumulates fun surface _ => ?_
  refine (askPort_quiet rfl).bind fun answer => ?_
  match answer with
  | .error thrown | .ok (.error reason) => exact .pure _
  | .ok (.ok resources) =>
    dsimp only
    split
    · refine Quiet.bind (KeepsAccount.collect quiet_accumulates fun resource _ => ?_) fun _ => .pure _
      refine (askPort_quiet rfl).bind fun check => ?_
      match check with
      | .ok .present | .ok .absent | .ok (.failed reason) | .error thrown => exact .pure _
    · exact .pure _

theorem auditTotally_quiet : Quiet auditTotally := by
  refine (askPort_quiet rfl).bind fun answer => ?_
  match answer with
  | .ok audit => exact Quiet.bind (Keeps.update quiet_accumulates fun _ => rfl) fun _ => .pure _
  | .error thrown =>
    refine Quiet.bind (fun _ => Emits.perform fun now => ⟨rfl, fun action => ?_⟩) fun _ => ?_
    · cases action <;> rfl
    · exact Quiet.bind (Keeps.update quiet_accumulates fun _ => rfl) fun _ => .pure _

/-! ### Steps 4, 5 and 7 -/

theorem askAndRecord_account {β : Type} {rest : PortReply request → CleanupM β}
    (hthrown : ∀ action ∈ fedActions, fedBy action ⟨CleanupCall.port request, .error ()⟩ = [])
    (hrest : ∀ reply start, Logs start (rest reply)
      fun _ emitted trace => StepAccount step emitted
        (⟨CleanupCall.port request, Except.ok reply⟩ :: trace)) :
    KeepsAccount (StepAccount step) (callPort request >>= rest) := by
  intro start
  refine Emits.bind (callPort_emits (R := fun result emitted trace => emitted = [] ∧
    trace = [⟨CleanupCall.port request, result⟩]) fun _ => ⟨rfl, rfl⟩) ?_ ?_
  · rintro reply emitted trace ⟨rfl, rfl⟩
    exact (hrest reply _).weaken fun _ _ _ h => h
  · rintro ⟨⟩ emitted trace ⟨rfl, rfl⟩
    refine StepAccount.of_quiet fun action haction => ?_
    change fedBy action _ ++ [] = []
    rw [hthrown action haction, List.append_nil]

theorem releaseBarrier_account (partition : String) :
    KeepsAccount (StepAccount .barriersReleaseAndExecutionsStop)
      (releaseBarrier (recordItem mode .barriersReleaseAndExecutionsStop) partition) := by
  refine askAndRecord_account (by simp [fedActions, fedBy]) fun reply start => ?_
  cases reply with
  | released fromState =>
    exact recordItem_return [⟨_, _⟩] rfl rfl nofun (by simp [fedActions, fedIn, fedBy, stepItem])
  | notHeld state =>
    exact recordItem_return [⟨_, _⟩] rfl rfl nofun (by simp [fedActions, fedIn, fedBy])
  | failed reason =>
    exact recordItem_return [⟨_, _⟩] rfl rfl nofun (by simp [fedActions, fedIn, fedBy])

theorem stopExecution_account (arn : String) :
    KeepsAccount (StepAccount .barriersReleaseAndExecutionsStop)
      (stopExecution (recordItem mode .barriersReleaseAndExecutionsStop) arn) := by
  refine askAndRecord_account (by simp [fedActions, fedBy]) fun reply start => ?_
  cases reply with
  | stopped =>
    exact recordItem_return [⟨_, _⟩] rfl rfl nofun (by simp [fedActions, fedIn, fedBy, stepItem])
  | notRunning =>
    exact recordItem_return [⟨_, _⟩] rfl rfl nofun (by simp [fedActions, fedIn, fedBy])
  | failed reason =>
    exact recordItem_return [⟨_, _⟩] rfl rfl nofun (by simp [fedActions, fedIn, fedBy])

theorem releaseBarriersAndStopExecutions_account (partitions functionNames : List String) :
    KeepsAccount (StepAccount .barriersReleaseAndExecutionsStop)
      (releaseBarriersAndStopExecutions partitions functionNames
        (recordItem mode .barriersReleaseAndExecutionsStop)) := by
  have hA := stepAccount_accumulates .barriersReleaseAndExecutionsStop
  refine Keeps.bind hA (KeepsAccount.collect hA fun partition _ => releaseBarrier_account partition)
    fun _ => ?_
  refine Keeps.bind hA (KeepsAccount.collect hA fun functionName _ => ?_) fun _ => Keeps.pure hA
  refine Keeps.bind hA (callPort_quiet rfl).account fun listing => ?_
  cases listing with
  | error reason => exact recordItem_account rfl rfl (by decide) nofun
  | ok arns => exact KeepsAccount.collect hA fun arn _ => stopExecution_account arn

theorem disableConsumers_account (mappingIds : List String) :
    KeepsAccount (StepAccount .consumersDisable)
      (disableConsumers mappingIds (recordItem mode .consumersDisable)) := by
  have hA := stepAccount_accumulates .consumersDisable
  refine Keeps.bind hA (KeepsAccount.collect hA fun mappingId _ => ?_) fun _ => Keeps.pure hA
  refine Keeps.bind hA (disableOne_quiet mappingId).account fun result => ?_
  cases result <;> exact recordItem_account rfl rfl (by decide) nofun

theorem recordEach_emits (action : ItemActionName) (induced : Bool)
    {body : String → CleanupM (List StructuredReason)} (item : String → ItemAction)
    (hbody : ∀ identifier, body identifier = do recordItem mode step (item identifier); pure [])
    (haction : ∀ identifier, (item identifier).action = .item action)
    (hidentifier : ∀ identifier, (item identifier).resourceIdentifier = identifier)
    (hinduced : ∀ identifier, (item identifier).cleanupInduced = induced)
    (identifiers : List String) :
    Logs start (collect body identifiers) fun result emitted trace =>
      (∃ values, result = .ok values) ∧ NoPort trace ∧ idsIn action emitted = identifiers ∧
        ∀ entry ∈ emitted, entry.body.action = .item action ∧ entry.body.cleanupInduced = induced := by
  induction identifiers generalizing start with
  | nil =>
    exact Emits.pure ⟨⟨[], rfl⟩, fun _ hmem => absurd hmem List.not_mem_nil, rfl,
      fun _ hmem => absurd hmem List.not_mem_nil⟩
  | cons identifier rest ih =>
    have hhere : Logs start (body identifier) fun result emitted trace =>
        (∃ values, result = .ok values) ∧ NoPort trace ∧ ∃ entry, emitted = [entry] ∧
          entry.body.action = .item action ∧ entry.body.resourceIdentifier = some identifier ∧
          entry.body.cleanupInduced = induced := by
      rw [hbody]
      refine Emits.andThen (recordAction_emits _) ?_
      rintro _ emitted trace ⟨-, hquiet, occurredAt, rfl⟩
      refine Emits.pure ⟨⟨[], rfl⟩, by rwa [List.append_nil], _, rfl, haction identifier, ?_, ?_⟩
      · exact congrArg some (hidentifier identifier)
      · exact hinduced identifier
    refine Emits.andThen hhere ?_
    rintro _ _ trace ⟨-, hquiet, entry, rfl, hname, hid, hflag⟩
    refine Emits.andThen ih ?_
    rintro _ emitted trace' ⟨-, hquiet', hids, hentries⟩
    refine Emits.pure ⟨⟨_, rfl⟩, ?_, ?_, ?_⟩
    · intro exchange hmem
      rw [List.append_nil, List.mem_append] at hmem
      exact hmem.elim (hquiet exchange) (hquiet' exchange)
    · rw [List.append_nil, idsIn_append, hids]
      simp [idsIn, identifierFor, hname, hid]
    · intro other hmem
      rw [List.append_nil, List.mem_append, List.mem_singleton] at hmem
      rcases hmem with rfl | hmem
      · exact ⟨hname, hflag⟩
      · exact hentries other hmem

theorem StepAccount.of_entries {action : ItemActionName} {emitted : List CleanupActionEntry}
    {trace : List CleanupExchange} (hstep : action.step = step)
    (hentries : ∀ entry ∈ emitted, entry.body.action = .item action ∧
      (action.isInduced = true → entry.body.cleanupInduced = true))
    (hfed : ∀ identifier, action ∈ fedActions →
      (identifier ∈ fedIn action trace ↔ identifier ∈ idsIn action emitted))
    (hothers : ∀ other ∈ fedActions, other ≠ action → fedIn other trace = []) :
    StepAccount step emitted trace := by
  have hname : ∀ entry ∈ emitted, ∀ name, entry.body.action = .item name → name = action := by
    intro entry hmem name hname
    rw [(hentries entry hmem).1] at hname
    exact (CleanupAction.item.inj hname).symm
  refine ⟨?_, ?_, ?_, ?_⟩
  · intro entry hmem other heq
    rw [(hentries entry hmem).1] at heq
    cases heq
  · intro entry hmem name hitem
    rw [hname entry hmem name hitem]
    exact hstep
  · intro entry hmem name hitem hflag
    obtain rfl := hname entry hmem name hitem
    exact (hentries entry hmem).2 hflag
  · intro other hother identifier
    by_cases hsame : other = action
    · subst hsame
      exact hfed identifier hother
    · have hnone : idsIn other emitted = [] := by
        refine List.filterMap_eq_nil_iff.mpr fun entry hmem => ?_
        have hne : ¬ action = other := fun heq => hsame heq.symm
        simp [identifierFor, (hentries entry hmem).1, hne]
      rw [hothers other hother hsame, hnone]

theorem recordInduced_emits (action : ItemActionName) (resourceType : String)
    (identifiers : List String) :
    Logs start (collect (recordInduced action resourceType (recordItem mode step)) identifiers)
      fun result emitted trace =>
        (∃ values, result = .ok values) ∧ NoPort trace ∧ idsIn action emitted = identifiers ∧
          ∀ entry ∈ emitted, entry.body.action = .item action ∧
            entry.body.cleanupInduced = true :=
  recordEach_emits action true
    (fun identifier => { stepItem action resourceType identifier [] with cleanupInduced := true })
    (fun _ => rfl) (fun _ => rfl) (fun _ => rfl) (fun _ => rfl) identifiers

theorem recordInducedTransitions_emits (entries : List CleanupActionEntry) :
    Logs start (recordInducedTransitions (foldCleanupActions entries)
        (recordItem mode .cleanupInducedTransitionsRecord))
      fun result emitted trace =>
        StepAccount .cleanupInducedTransitionsRecord emitted trace ∧
        (∀ identifier ∈ idsIn .safetyReleaseApplied entries,
          identifier ∈ idsIn .treatmentSafetyReleased (entries ++ emitted)) ∧
        (∀ identifier ∈ idsIn .durableStopApplied entries,
          identifier ∈ idsIn .durableExecutionStopped (entries ++ emitted)) ∧
        ∃ outcome, result = .ok outcome := by
  have hA := stepAccount_accumulates .cleanupInducedTransitionsRecord
  have hmissing : ∀ (fed settled : ItemActionName) (identifier : String),
      identifier ∈ idsIn fed entries →
      identifier ∉ (identifiersOf entries fed).filter
        (!(identifiersOf entries settled).contains ·) →
      identifier ∈ idsIn settled entries := by
    intro fed settled identifier hfed hnot
    simp only [List.mem_filter, mem_identifiersOf, hfed, true_and, Bool.not_eq_true',
      List.contains_eq_mem, decide_eq_false_iff_not, not_not] at hnot
    exact hnot
  refine Emits.andThen (recordInduced_emits .treatmentSafetyReleased _ _) ?_
  rintro _ emitted trace ⟨-, hquiet, hids, hentries⟩
  have hfirst : StepAccount .cleanupInducedTransitionsRecord emitted trace :=
    StepAccount.of_entries rfl (fun entry hmem => ⟨(hentries entry hmem).1,
      fun _ => (hentries entry hmem).2⟩) (fun _ h => absurd h (by decide))
      (fun other _ _ => hquiet.feeds_nothing other)
  refine Emits.andThen (recordInduced_emits .durableExecutionStopped _ _) ?_
  rintro _ emitted' trace' ⟨-, hquiet', hids', hentries'⟩
  have hsecond : StepAccount .cleanupInducedTransitionsRecord emitted' trace' :=
    StepAccount.of_entries rfl (fun entry hmem => ⟨(hentries' entry hmem).1,
      fun _ => (hentries' entry hmem).2⟩) (fun _ h => absurd h (by decide))
      (fun other _ _ => hquiet'.feeds_nothing other)
  refine Emits.pure ⟨?_, ?_, ?_, _, rfl⟩
  · rw [List.append_nil, List.append_nil]
    exact hA.append hfirst hsecond
  · intro identifier hfed
    rw [List.append_nil, idsIn_append, idsIn_append, hids, List.mem_append, List.mem_append]
    by_cases hnew : identifier ∈ (identifiersOf entries .safetyReleaseApplied).filter
        (!(identifiersOf entries .treatmentSafetyReleased).contains ·)
    · exact .inr (.inl hnew)
    · exact .inl (hmissing _ _ identifier hfed hnew)
  · intro identifier hfed
    rw [List.append_nil, idsIn_append, idsIn_append, hids', List.mem_append, List.mem_append]
    by_cases hnew : identifier ∈ (identifiersOf entries .durableStopApplied).filter
        (!(identifiersOf entries .durableExecutionStopped).contains ·)
    · exact .inr (.inr hnew)
    · exact .inl (hmissing _ _ identifier hfed hnew)

theorem captureDlqEvidence_account :
    KeepsAccount (StepAccount .dlqEvidenceCapture)
      (captureDlqEvidence mode (recordItem mode .dlqEvidenceCapture)) := by
  refine askAndRecord_account (by simp [fedActions, fedBy]) fun report start => ?_
  refine Emits.andThen (recordEach_emits .dlqMessageCaptured false
    (fun messageId => stepItem .dlqMessageCaptured dlqMessageResourceType messageId [])
    (fun _ => rfl) (fun _ => rfl) (fun _ => rfl) (fun _ => rfl) _) ?_
  rintro _ emitted trace ⟨-, hquiet, hids, hentries⟩
  refine Emits.pure ?_
  rw [List.append_nil, List.append_nil]
  refine StepAccount.of_entries rfl (fun entry hmem => ⟨(hentries entry hmem).1, nofun⟩) ?_ ?_
  · intro identifier _
    rw [hids, mem_sortedSet]
    change identifier ∈ DlqCaptureReport.capturedMessageIds report ++
      fedIn .dlqMessageCaptured trace ↔ _
    rw [hquiet.feeds_nothing, List.append_nil]
  · intro other hother hne
    change fedBy other _ ++ fedIn other trace = []
    rw [hquiet.feeds_nothing, List.append_nil]
    cases other <;> first | rfl | exact absurd rfl hne

/-! ### Step 8 -/

/-- Every captured id is still pending, or settled one way or the other. -/
def SweepState.Covers (state : SweepState) (messageIds : List String) : Prop :=
  state.captured = messageIds ∧ ∀ messageId ∈ messageIds, messageId ∈ state.pending ∨
    messageId ∈ state.deleted ∨ ∃ failure ∈ state.failed, failure.messageId = messageId

variable {messageIds : List String}

theorem SweepState.Covers.settle {state : SweepState} (h : state.Covers messageIds)
    {messageId : String} {deletion : Option DlqMessageChange}
    (hasked : messageId ∈ messageIds → deletion ≠ none) :
    (state.settle messageId deletion).Covers messageIds := by
  obtain ⟨hcaptured, hcovers⟩ := h
  have hfields : (state.settle messageId deletion).captured = messageIds ∧
      (∀ other ∈ state.pending, other ≠ messageId →
        other ∈ (state.settle messageId deletion).pending) ∧
      (∀ other ∈ state.deleted, other ∈ (state.settle messageId deletion).deleted) ∧
      (∀ failure ∈ state.failed, failure ∈ (state.settle messageId deletion).failed) ∧
      (messageId ∈ state.pending → deletion ≠ none →
        messageId ∈ (state.settle messageId deletion).deleted ∨
          ∃ failure ∈ (state.settle messageId deletion).failed, failure.messageId = messageId) := by
    unfold SweepState.settle
    match deletion with
    | none => simp +contextual [hcaptured]
    | some .done =>
      by_cases hpending : messageId ∈ state.pending <;> simp +contextual [hpending, hcaptured]
    | some (.failed reason) =>
      by_cases hpending : messageId ∈ state.pending <;> simp +contextual [hpending, hcaptured]
  obtain ⟨hsame, hpending, hdeleted, hfailed, hhere⟩ := hfields
  refine ⟨hsame, fun other hmem => ?_⟩
  rcases hcovers other hmem with hin | hin | ⟨failure, hin, heq⟩
  · by_cases hother : other = messageId
    · subst hother
      exact .inr (hhere hin (hasked hmem))
    · exact .inl (hpending other hin hother)
  · exact .inr (.inl (hdeleted other hin))
  · exact .inr (.inr ⟨failure, hfailed failure hin, heq⟩)

/-- Every value a program of the run returns satisfies `Q`. -/
abbrev Returns {α : Type} (m : CleanupM α) (Q : α → Prop) : Prop := Yields RunState.entries m Q

theorem callPort_returns (request : PortCall) : Returns (callPort request) fun _ => True :=
  fun _ => callPort_emits fun _ _ _ => trivial

theorem collect_returns {β : Type} {body : α → CleanupM (List β)}
    (h : ∀ item, Returns (body item) fun _ => True) (items : List α) :
    Returns (collect body items) fun _ => True := by
  induction items with
  | nil => exact Yields.pure trivial
  | cons item rest ih =>
    exact Yields.bind (h item) fun _ _ => Yields.bind ih fun _ _ => Yields.pure trivial

theorem settleMessage_covers {message : ReceivedDlqMessage}
    (h : state.1.Covers messageIds) :
    Returns (settleMessage queueUrl state message) fun next => next.1.Covers messageIds := by
  unfold settleMessage
  split
  · refine Yields.bind (callPort_returns _) fun deletion _ => ?_
    cases deletion <;> exact Yields.pure (h.settle fun _ => by simp)
  · rename_i hnot
    refine Yields.pure (h.settle fun hmem => ?_)
    rw [h.1] at hnot
    exact absurd (by simpa using hmem) hnot

theorem settleMessages_covers (messages : List ReceivedDlqMessage)
    (h : state.1.Covers messageIds) :
    Returns (settleMessages queueUrl messages state) fun next => next.1.Covers messageIds := by
  induction messages generalizing state with
  | nil => exact Yields.pure h
  | cons message rest ih => exact Yields.bind (settleMessage_covers h) fun _ hnext => ih hnext

theorem receiveUntilEmpty_covers (receives : Nat)
    (h : state.1.Covers messageIds) :
    Returns (receiveUntilEmpty queueUrl receives state)
      fun result => result.2.1.Covers messageIds := by
  induction receives generalizing state with
  | zero => exact Yields.pure h
  | succ receives ih =>
    refine Yields.bind (callPort_returns _) fun received _ => ?_
    match received with
    | .failed reason | .queueAbsent | .messages [] => exact Yields.pure h
    | .messages (message :: rest) =>
      refine Yields.bind (settleMessages_covers _ h) fun next hnext => ?_
      split
      · exact Yields.pure hnext
      · exact ih hnext

theorem sweepQueues_covers (queueUrls : List String) {gaps : List StructuredReason}
    {state : SweepState} (h : state.Covers messageIds) :
    Returns (sweepQueues queueUrls gaps state) fun result => result.2.Covers messageIds := by
  induction queueUrls generalizing gaps state with
  | nil => exact Yields.pure h
  | cons queueUrl rest ih =>
    unfold sweepQueues
    split
    · exact ih h
    · refine Yields.bind (Q := fun result => result.2.Covers messageIds) ?_
        fun result hresult => ih hresult
      refine Yields.bind (receiveUntilEmpty_covers _ h) fun result hresult => ?_
      refine Yields.bind (collect_returns (fun message => ?_) _) fun _ _ => ?_
      · exact Yields.bind (callPort_returns _) fun _ _ => Yields.pure trivial
      · split <;> exact Yields.pure hresult

theorem deleteCaptured_covers (queueUrls messageIds : List String) :
    Returns (deleteCaptured queueUrls messageIds) fun report => ∀ messageId ∈ messageIds,
      messageId ∈ report.deleted ∨ messageId ∈ report.absent ∨
        ∃ failure ∈ report.failed, failure.messageId = messageId := by
  have hstart : SweepState.Covers ⟨messageIds, messageIds.dedup, [], []⟩ messageIds :=
    ⟨rfl, fun messageId hmem => .inl (List.mem_dedup.mpr hmem)⟩
  refine Yields.bind (sweepQueues_covers _ hstart) fun result hresult => ?_
  obtain ⟨gaps, state⟩ := result
  obtain ⟨-, hcovers⟩ := hresult
  cases gaps with
  | nil =>
    refine Yields.pure fun messageId hmem => ?_
    rcases hcovers messageId hmem with hin | hin | hin
    · exact .inr (.inl ((List.mem_insertionSort _).mpr hin))
    · exact .inl hin
    · exact .inr (.inr hin)
  | cons gap more =>
    refine Yields.pure fun messageId hmem => ?_
    rcases hcovers messageId hmem with hin | hin | ⟨failure, hin, heq⟩
    · have hmapped := List.mem_map_of_mem (f := fun messageId => FailedDlqMessage.mk messageId
        ⟨"DLQ_MESSAGE_NOT_PROVEN_ABSENT", messageId⟩)
        ((List.mem_insertionSort (codeUnitsLe · ·)).mpr hin)
      exact .inr (.inr ⟨_, List.mem_append_right _ hmapped, rfl⟩)
    · exact .inl hin
    · exact .inr (.inr ⟨failure, List.mem_append_left _ hin, heq⟩)

theorem deleteCapturedDlqMessages_emits (queueUrls messageIds : List String) :
    Logs start
      (deleteCapturedDlqMessages queueUrls messageIds (recordItem mode .capturedDlqMessagesDelete))
      fun result emitted trace => StepAccount .capturedDlqMessagesDelete emitted trace ∧
        ∀ outcome, result = .ok outcome → outcome.status = .succeeded →
          ∀ messageId ∈ messageIds, messageId ∈ idsIn .dlqMessageDeleted emitted ∨
            messageId ∈ idsIn .dlqMessageAbsent emitted := by
  have hA := stepAccount_accumulates .capturedDlqMessagesDelete
  have hrecord : ∀ (action : ItemActionName) (induced : Bool) (start : List CleanupActionEntry)
      (ids : List String), action.step = .capturedDlqMessagesDelete → action.isInduced = false →
      action ∉ fedActions → Logs start
        (collect (recordMessage action (recordItem mode .capturedDlqMessagesDelete)) ids)
        fun result emitted trace => (∃ values, result = .ok values) ∧
          StepAccount .capturedDlqMessagesDelete emitted trace ∧ idsIn action emitted = ids := by
    intro action induced start ids hstep hflag hnew
    refine (recordEach_emits action false
      (fun messageId => stepItem action dlqMessageResourceType messageId [])
      (fun _ => rfl) (fun _ => rfl) (fun _ => rfl) (fun _ => rfl) ids).weaken ?_
    rintro result emitted trace ⟨hok, hquiet, hids, hentries⟩
    refine ⟨hok, StepAccount.of_entries hstep (fun entry hmem => ⟨(hentries entry hmem).1, ?_⟩)
      (fun _ h => absurd h hnew) (fun other _ _ => hquiet.feeds_nothing other), hids⟩
    rw [hflag]
    nofun
  unfold deleteCapturedDlqMessages
  split
  · rename_i hempty
    refine Emits.pure ⟨hA.nil, fun _ _ _ messageId hmem => ?_⟩
    rw [List.isEmpty_iff.mp hempty] at hmem
    cases hmem
  · have hcaptured : KeepsAccount (StepAccount .capturedDlqMessagesDelete)
        (deleteCaptured queueUrls messageIds) := (deleteCaptured_quiet _ _).account
    refine Emits.bind ((hcaptured start).both (deleteCaptured_covers queueUrls messageIds start)) ?_ ?_
    · rintro report emitted₀ trace₀ ⟨hacc₀, hreport⟩
      have hcovers := hreport report rfl
      refine Emits.andThen (hrecord .dlqMessageDeleted false _ _ rfl rfl (by decide)) ?_
      rintro _ emitted₁ trace₁ ⟨-, hacc₁, hids₁⟩
      refine Emits.andThen (hrecord .dlqMessageAbsent false _ _ rfl rfl (by decide)) ?_
      rintro _ emitted₂ trace₂ ⟨-, hacc₂, hids₂⟩
      have hfailure : ∀ failure, KeepsAccount (StepAccount .capturedDlqMessagesDelete)
          (recordMessageFailure (recordItem mode .capturedDlqMessagesDelete) failure) :=
        fun failure => recordItem_account rfl rfl (by decide) (by intro h; cases h)
      refine Emits.bind (KeepsAccount.collect hA (fun failure _ => hfailure failure) _) ?_ ?_
      · rintro _ emitted₃ trace₃ hacc₃
        refine Emits.pure ⟨?_, ?_⟩
        · rw [List.append_nil, List.append_nil]
          exact hA.append hacc₀ (hA.append hacc₁ (hA.append hacc₂ hacc₃))
        · rintro outcome heq hsucceeded messageId hmem
          obtain rfl := Except.ok.inj heq
          have hnone : report.failed = [] := by
            simp only [outcomeFromFailures] at hsucceeded
            split at hsucceeded
            · rename_i hfailed
              simpa using hfailed
            · cases hsucceeded
          rcases hcovers messageId hmem with hin | hin | ⟨failure, hin, -⟩
          · left
            simp only [idsIn_append, hids₁, List.mem_append]
            exact .inr (.inl hin)
          · right
            simp only [idsIn_append, hids₂, List.mem_append]
            exact .inr (.inr (.inl hin))
          · rw [hnone] at hin
            cases hin
      · intro error emitted₃ trace₃ hacc₃
        exact ⟨hA.append hacc₀ (hA.append hacc₁ (hA.append hacc₂ hacc₃)), nofun⟩
    · rintro error emitted trace ⟨hacc, -⟩
      exact ⟨hacc, nofun⟩

/-! ### The other steps -/

theorem recordResource_account {action : CleanupResourceAction}
    (haction : item.action = .resource action) :
    KeepsAccount (StepAccount step) (recordItem mode step item) := by
  refine KeepsAccount.recordAction fun occurredAt trace hquiet => ⟨?_, ?_, ?_, ?_⟩
  · intro entry hmem other heq
    rw [List.mem_singleton.mp hmem] at heq
    cases haction.symm.trans heq
  · intro entry hmem name heq
    rw [List.mem_singleton.mp hmem] at heq
    cases haction.symm.trans heq
  · intro entry hmem name heq
    rw [List.mem_singleton.mp hmem] at heq
    cases haction.symm.trans heq
  · intro name hname identifier
    rw [hquiet.feeds_nothing]
    simp [idsIn, identifierFor, haction]

/-- Step 9 keeps any account that quiet programs and the records of resources keep, each record
with a basis `P` allows its action. -/
theorem deleteOwnedResources_keeps
    {A : List CleanupActionEntry → List CleanupExchange → Prop} (hA : Accumulates A)
    {P : OwnershipBasis → CleanupResourceAction → Prop}
    (hP : ∀ action, ∀ basis ∈ basesByAction action, P basis action)
    (hquiet : ∀ {β : Type} {m : CleanupM β}, Quiet m → KeepsAccount A m)
    (hrecord : ∀ resourceType identifier basis action reasons, P basis action →
      KeepsAccount A (recordItem mode step (resourceItem resourceType identifier basis action reasons)))
    (ownership : OwnershipContext) {earlierFailures : List CleanupResource}
    (hearlier : ∀ earlier ∈ earlierFailures, P earlier.ownershipBasis .alreadyAbsent) :
    KeepsAccount A (deleteOwnedResources ownership earlierFailures (recordItem mode step)) := by
  have hreturn : ∀ {β : Type} {resourceType identifier : String} {basis : OwnershipBasis}
      {action : CleanupResourceAction} {reasons : List StructuredReason} {value : β},
      P basis action → KeepsAccount A (do
        recordItem mode step (resourceItem resourceType identifier basis action reasons)
        pure value) :=
    fun hbasis => Keeps.bind hA (hrecord _ _ _ _ _ hbasis) fun _ => Keeps.pure hA
  have howned : ∀ basis, P (.owned basis) .deleted ∧ P (.owned basis) .alreadyAbsent ∧
      P (.owned basis) .deleteFailed := by
    intro basis
    have hmem : .owned basis ∈ basesByAction .deleted := by cases basis <;> decide
    exact ⟨hP .deleted _ hmem, hP .alreadyAbsent _ hmem, hP .deleteFailed _ hmem⟩
  have hstack : KeepsAccount A (settleStack ownership.recordedStackId (recordItem mode step)) := by
    cases ownership.recordedStackId with
    | none => exact Keeps.pure hA
    | some stackId =>
      refine Keeps.bind hA (hquiet (deleteStackAndWait_quiet stackId)) fun deletion => ?_
      obtain ⟨hdeleted, habsent, hfailed⟩ := howned .recordedStack
      cases deletion with
      | deleted => exact hreturn hdeleted
      | alreadyAbsent => exact hreturn habsent
      | deleteFailed reason => exact hreturn hfailed
  have hsettle : ∀ entry, KeepsAccount A
      (settleUnlessStack ownership.recordedStackId (recordItem mode step) entry) := by
    intro entry
    unfold settleUnlessStack settleRemainingResource
    split
    · exact Keeps.pure hA
    · cases entry.decision with
      | excludedBaseline => exact hreturn (hP _ _ List.mem_cons_self)
      | ambiguous first others => exact hreturn (hP _ _ List.mem_cons_self)
      | owned basis =>
        obtain ⟨hdeleted, habsent, hfailed⟩ := howned basis
        dsimp only
        split
        · refine Keeps.bind hA (hquiet (callPort_quiet rfl)) fun deletion => ?_
          cases deletion with
          | deleted => exact hreturn hdeleted
          | alreadyAbsent => exact hreturn habsent
          | failed reason => exact hreturn hfailed
        · exact hreturn hfailed
  refine Keeps.bind hA hstack fun stackFailures => ?_
  refine Keeps.bind hA (hquiet sweepSurfaces_quiet) fun sightings => ?_
  refine Keeps.bind hA (KeepsAccount.collect hA fun entry _ => hsettle entry) fun failures => ?_
  refine Keeps.bind hA ?_ fun _ => Keeps.pure hA
  unfold recordVanishedFailures
  split
  · refine KeepsAccount.collect hA fun earlier hmem => ?_
    unfold recordVanished
    split
    · exact Keeps.pure hA
    · exact hreturn (hearlier earlier hmem)
  · exact Keeps.pure hA

theorem runCleanupStep_account (input : CleanupInput) (entries : List CleanupActionEntry) :
    KeepsAccount (StepAccount step)
      (runCleanupStep step mode input (foldCleanupActions entries) (recordItem mode step)) := by
  have hA := stepAccount_accumulates step
  cases step with
  | lateEvidenceCutoff | lateAssessmentFreeze | preCleanupSnapshot =>
    exact (callPort_quiet rfl).account
  | consumersDisable => exact disableConsumers_account _
  | barriersReleaseAndExecutionsStop => exact releaseBarriersAndStopExecutions_account _ _
  | cleanupInducedTransitionsRecord =>
    exact fun start => (recordInducedTransitions_emits entries).weaken fun _ _ _ h => h.1
  | dlqEvidenceCapture => exact captureDlqEvidence_account
  | capturedDlqMessagesDelete =>
    exact fun start => (deleteCapturedDlqMessages_emits _ _).weaken fun _ _ _ h => h.1
  | ownedResourcesDelete =>
    exact deleteOwnedResources_keeps hA (P := fun _ _ => True) (fun _ _ _ => trivial) Quiet.account
      (fun _ _ _ _ _ _ => recordResource_account rfl) _ fun _ _ => trivial
  | discoverySurfacesAudit => exact (auditTotally_quiet.bind fun _ => .pure _).account
  | stableAbsenceConfirm => exact Keeps.bind hA (Keeps.inspect hA) fun _ => Keeps.pure hA
  | resultsFreeze => exact Keeps.pure hA

end Steps

end RefundStudy.Cleanup
