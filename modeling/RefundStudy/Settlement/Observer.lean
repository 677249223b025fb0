/-
  The live settlement observer (`trial-execution/settlement-observer.ts`).

  The two loops have no bound in the source. They take fuel here.
-/
import RefundStudy.Foundation.System
import RefundStudy.Settlement.Reading

set_option autoImplicit false

namespace RefundStudy.Settlement

open Foundation Record

/-! ## Calls -/

inductive InterruptionCause where
  | leaseLost
  | operatorAbort
  | safetyDeadline
  | interrupted

structure TrialInterruption where
  cause : InterruptionCause
  detail : String

inductive ObserverCall where
  | now
  | sleep (durationMs : Int)
  | interruption
  | read (phase : SettlementSamplePhase) (previous : Option SettlementSample)
  | collect

@[reducible] def ObserverReply (C : Type) : ObserverCall → Type
  | .now => UtcMillis
  | .sleep _ => Unit
  | .interruption => Option TrialInterruption
  | .read _ _ => SettlementReading
  | .collect => C

/-- An asynchronous function of the observer, for collections of type `C`. -/
abbrev Observing (C α : Type) : Type := Program ObserverCall (ObserverReply C) α

/-! ## The observer -/

/-- A quiet recheck that repeats the last sample would establish settlement. -/
def windowComplete (samples : List SettlementSample) (policy : SettlementPolicy)
    (publishedAt : UtcMillis) : Bool :=
  match samples.getLast? with
  | none => false
  | some last =>
    let repeated : SettlementSample := { last with phase := .preFreezeRecheck }
    (evaluateSettlement (samples ++ [repeated]) policy publishedAt).isEstablished

def nextPollMs (publishedMs nowMs : UtcMillis) (policy : SettlementPolicy) : UtcMillis :=
  let elapsedPolls : Int := ((nowMs : Int) - publishedMs) / policy.pollIntervalMs
  publishedMs + (max 1 (elapsedPolls + 1)).toNat * policy.pollIntervalMs

/-- Without the members that are calls here. -/
structure ObservationPlan where
  publishedAt : UtcMillis
  policy : SettlementPolicy

inductive ObservationStop where
  | windowComplete
  | deadline
  | interrupted
  deriving DecidableEq

structure Observation where
  stop : ObservationStop
  rounds : List SettlementReading
  assessment : SettlementAssessment
  interruption : Option TrialInterruption

variable (plan : ObservationPlan)

variable (rounds : List SettlementReading)

def ObservationPlan.assess : SettlementAssessment :=
  evaluateSettlement (samplesOf rounds) plan.policy plan.publishedAt

def stopped (stop : ObservationStop) (rounds : List SettlementReading) (plan : ObservationPlan) :
    Observation :=
  ⟨stop, rounds, plan.assess rounds, none⟩

variable {C : Type}

def interrupted (rounds : List SettlementReading) (plan : ObservationPlan) :
    Observing C (Option Observation) := do
  let interruption ← Program.perform ObserverCall.interruption
  match interruption with
  | none => pure none
  | some found =>
    pure (some { stopped .interrupted rounds plan with interruption := some found })

def lastSample : Option SettlementSample :=
  rounds.getLast?.map SettlementReading.sample

/-- The end of one turn of the loop of `observe`: read a round, and go on with `again` unless the
window is complete. -/
def readPoll (again : List SettlementReading → Observing C (Option Observation)) :
    Observing C (Option Observation) := do
  let round ← Program.perform (ObserverCall.read .observation (lastSample rounds))
  let rounds := rounds ++ [round]
  if windowComplete (samplesOf rounds) plan.policy plan.publishedAt then
    pure (some (stopped .windowComplete rounds plan))
  else again rounds

/-- One turn of the loop once a poll is due before the deadline: wait for it, look for an
interruption again, then read. -/
def awaitPoll (pollMs : UtcMillis)
    (again : List SettlementReading → Observing C (Option Observation)) :
    Observing C (Option Observation) := do
  let now ← Program.perform ObserverCall.now
  Program.perform (ObserverCall.sleep ((pollMs : Int) - now))
  let after ← interrupted rounds plan
  match after with
  | some observation => pure (some observation)
  | none => readPoll plan rounds again

def observe (plan : ObservationPlan) (rounds : List SettlementReading) :
    Nat → Observing C (Option Observation)
  | 0 => pure none
  | fuel + 1 => do
    let now ← Program.perform ObserverCall.now
    let pollMs := nextPollMs plan.publishedAt now plan.policy
    let before ← interrupted rounds plan
    match before with
    | some observation => pure (some observation)
    | none =>
      if deadlineMs plan.policy plan.publishedAt < pollMs then
        pure (some (stopped .deadline rounds plan))
      else awaitPoll plan rounds pollMs fun rounds => observe plan rounds fuel

/-- Its kind is `established` when the assessment is. -/
structure SettlementRecheck where
  rounds : List SettlementReading
  assessment : SettlementAssessment

def recheckBeforeFreeze (prior : List SettlementReading) : Observing C SettlementRecheck := do
  let round ← Program.perform (ObserverCall.read .preFreezeRecheck (lastSample prior))
  let rounds := prior ++ [round]
  pure ⟨rounds, plan.assess rounds⟩

structure SettledCapture (C : Type) where
  collection : C
  rounds : List SettlementReading
  assessment : SettlementAssessment
  interruption : Option TrialInterruption

/-- The turn of `settle` behind a complete window: collect, look for an interruption, recheck,
and go on with `again` when the recheck does not establish settlement. -/
def collectAndRecheck (assessment : SettlementAssessment)
    (again : List SettlementReading → Observing C (Option (SettledCapture C))) :
    Observing C (Option (SettledCapture C)) := do
  let collection ← Program.perform ObserverCall.collect
  let interruption ← Program.perform ObserverCall.interruption
  match interruption with
  | some found => pure (some ⟨collection, rounds, assessment, some found⟩)
  | none => do
    let recheck ← recheckBeforeFreeze plan rounds
    if recheck.assessment.isEstablished then
      pure (some ⟨collection, recheck.rounds, recheck.assessment, none⟩)
    else again recheck.rounds

/-- The loop of `settle`, from the rounds read before; `polls` is the fuel of each observation. -/
def settleFrom (plan : ObservationPlan) (polls : Nat) (rounds : List SettlementReading) :
    Nat → Observing C (Option (SettledCapture C))
  | 0 => pure none
  | fuel + 1 => do
    let observed ← observe plan rounds polls
    match observed with
    | none => pure none
    | some observed =>
      if observed.stop ≠ .windowComplete then do
        let collection ← Program.perform ObserverCall.collect
        pure (some ⟨collection, observed.rounds, observed.assessment, observed.interruption⟩)
      else
        collectAndRecheck plan observed.rounds observed.assessment
          fun rounds => settleFrom plan polls rounds fuel

def settle (fuel : Nat) : Observing C (Option (SettledCapture C)) :=
  settleFrom plan fuel [] fuel

/-! ## The world of the observer -/

/-- One collection: what it gave, and the clock when it was called and when it returned. -/
structure CollectSpan (C : Type) where
  startedAt : UtcMillis
  endedAt : UtcMillis
  collection : C

/-- The clock, the rounds read and the collections made so far. -/
structure ObserverWorld (C : Type) where
  clock : UtcMillis
  reads : List SettlementReading
  collects : List (CollectSpan C)

/-- What the world leaves open for one call: how long it takes and what it gives. -/
inductive ObserverChoice (C : Type) where
  | passing (elapsedMs : Nat)
  | interruption (found : Option TrialInterruption)
  | reading (elapsedMs : Nat) (reading : SettlementReading)
  | collection (elapsedMs : Nat) (collection : C)

/-- The world answers a call.  A round is observed within its read call, under the phase it was
asked for; `advances` says whether a sleep takes at least as long as asked. -/
def answerObserver (advances : Bool) (_ : Unit) :
    (request : ObserverCall) → ObserverChoice C → ObserverWorld C →
    Option (ObserverReply C request × ObserverWorld C)
  | .now, .passing elapsedMs, w =>
    some (w.clock + elapsedMs, { w with clock := w.clock + elapsedMs })
  | .sleep durationMs, .passing elapsedMs, w =>
    if advances && decide ((elapsedMs : Int) < durationMs) then none
    else some ((), { w with clock := w.clock + elapsedMs })
  | .interruption, .interruption found, w => some (found, w)
  | .read phase _, .reading elapsedMs reading, w =>
    if reading.sample.phase = phase ∧ w.clock ≤ reading.sample.observedAt ∧
        reading.sample.observedAt ≤ w.clock + elapsedMs then
      some (reading,
        { w with
          clock := w.clock + elapsedMs
          reads := w.reads ++ [reading] })
    else none
  | .collect, .collection elapsedMs collection, w =>
    some (collection,
      { w with
        clock := w.clock + elapsedMs
        collects := w.collects ++ [⟨w.clock, w.clock + elapsedMs, collection⟩] })
  | _, _, _ => none

def observerMachine (C : Type) (advances : Bool) :
    Machine Unit ObserverCall (ObserverReply C) (ObserverWorld C) (ObserverChoice C) :=
  ⟨answerObserver advances⟩

abbrev observerAnswers (C : Type) (advances : Bool) :
    Answers ObserverCall (ObserverReply C) (ObserverWorld C) :=
  (observerMachine C advances).answers ()

def passingTime (C : Type) : Interference (ObserverWorld C) where
  rel w w' := w.clock ≤ w'.clock ∧ w'.reads = w.reads ∧ w'.collects = w.collects
  refl w := ⟨Nat.le_refl w.clock, rfl, rfl⟩
  trans h₁ h₂ := ⟨h₁.1.trans h₂.1, h₂.2.1.trans h₁.2.1, h₂.2.2.trans h₁.2.2⟩

end RefundStudy.Settlement
