/-
  The callbacks of `transport-race.ts`, `deadline-timer.ts` and `settlement-arbiter.ts`,
  one at a time.

  Here it is the event loop: the firings the scheduler holds, the queue of promise reactions, and
  the port's promise.
-/
import RefundStudy.Attempt.Client

set_option autoImplicit false

namespace RefundStudy.Attempt.Race

open Record RefundStudy.Runtime

/-! ## The port -/

inductive ThrownValue where
  | error (name message : String)
  | other (text : String)
  | unreadable
  deriving DecidableEq

/-- What the port resolved: a result with typed fields, or something else of this type. -/
inductive PortValue where
  | wellFormed (result : ProviderTransportResult)
  | malformed (typeName : String)
  deriving DecidableEq

/-- How the promise of `invoke` settled; a throw of `invoke` is a resolved transport error. -/
inductive PortOutcome where
  | resolved (value : PortValue)
  | rejected (thrown : ThrownValue)
  deriving DecidableEq

def transportErrorFromThrown : ThrownValue → ProviderTransportResult
  | .error name message => .transportError name message none
  | .other text => .transportError "NonErrorThrown" text none
  | .unreadable =>
    .transportError "UnrepresentableThrown"
      "the thrown value has no readable name or string form" none

def transportResultOf : PortValue → ProviderTransportResult
  | .wellFormed result => result
  | .malformed typeName =>
    .transportError "MalformedPortResult" ("the provider invocation port resolved " ++ typeName ++
      "; expected a ProviderTransportResult (kind \"response\" or \"transport_error\" " ++
      "with typed fields)") none

/-- `.then(transportResultOf, transportErrorFromThrown)`. -/
def PortOutcome.result : PortOutcome → ProviderTransportResult
  | .resolved value => transportResultOf value
  | .rejected thrown => transportErrorFromThrown thrown

/-! ## The state of a race -/

structure TimedSettlement where
  result : ProviderTransportResult
  atNs : Nat
  deriving DecidableEq

inductive Reaction where
  /-- the first `then` of `settleTransport` -/
  | normalize (outcome : PortOutcome)
  /-- the second one, which reads the clock -/
  | stamp (result : ProviderTransportResult)
  /-- the claim of the transport -/
  | claimTransport (settled : TimedSettlement)
  /-- the late settlement -/
  | reportLate (settled : TimedSettlement)
  deriving DecidableEq

structure RaceState where
  originNs : Nat
  deadlineNs : Nat
  /-- the last reading of the monotonic clock -/
  readNs : Nat
  /-- the delays of the firings scheduled so far, in milliseconds; a firing is its index -/
  scheduled : List Nat
  cancelled : List Nat
  /-- the firings that ran, in order -/
  fired : List Nat
  /-- `pending` of the timer -/
  pending : Nat
  /-- the arbiter's `#winner` -/
  winner : Option ArbiterWinner
  /-- the claims that succeeded -/
  claims : List ArbiterWinner
  /-- the elapsed times `onDeadline` was run with -/
  deadlineRuns : List Nat
  aborted : Bool
  /-- the port's promise is settled -/
  portSettled : Bool
  /-- the value of `settlement` -/
  settlement : Option TimedSettlement
  /-- `late_settlement` waits for `settlement` -/
  lateAwaited : Bool
  reactions : List Reaction
  /-- what the promise of the race was resolved with -/
  decision : Option RaceDecision
  late : List LateSettlement
  deriving DecidableEq

/-- `RaceDecision['winner']`. -/
def winnerOf : RaceDecision → ArbiterWinner
  | .transport .. => .transport
  | .timer .. => .timer

/-! ## The callbacks -/

def delayMsFor (remainingNs : Int) : Nat :=
  if remainingNs ≤ 0 then 0 else ((remainingNs + nsPerMs - 1) / nsPerMs).toNat

/-- `none` is its `RangeError`. -/
def elapsedNs (origin now : Nat) : Option DecimalNs :=
  if now < origin then none else some (now - origin)

namespace RaceState

variable (s : RaceState)

/-- `scheduler.schedule`, for what is left of the deadline. -/
def arm : RaceState :=
  { s with
    scheduled := s.scheduled ++
      [delayMsFor ((s.deadlineNs : Int) - ((s.readNs : Int) - (s.originNs : Int)))]
    pending := s.scheduled.length }

def resolve (decision : RaceDecision) : RaceState :=
  { s with decision := s.decision <|> some decision }

def claim (claimant : ArbiterWinner) (decide : RaceState → RaceState) : RaceState :=
  match s.winner with
  | some _ => s
  | none => decide { s with winner := some claimant, claims := s.claims ++ [claimant] }

def settlePort (outcome : PortOutcome) : RaceState :=
  if s.portSettled then s
  else { s with portSettled := true, reactions := s.reactions ++ [.normalize outcome] }

/-- `controller.abort()`; the port may settle while it is told. -/
def abort (onAbort : Option PortOutcome) : RaceState :=
  match onAbort with
  | none => { s with aborted := true }
  | some outcome => { s with aborted := true }.settlePort outcome

/-- `settlement.then((late) => lateSettlementOf(late, originNs))`. -/
def awaitLate : RaceState :=
  match s.settlement with
  | none => { s with lateAwaited := true }
  | some settled => { s with reactions := s.reactions ++ [.reportLate settled] }

def onDeadline (elapsed : Nat) (timerFiredAt abortRequestedAt : UtcMillis)
    (onAbort : Option PortOutcome) : RaceState :=
  { s with deadlineRuns := s.deadlineRuns ++ [elapsed] }.claim .timer fun claimed =>
    ((claimed.abort onAbort).awaitLate).resolve
      (.timer s.originNs elapsed timerFiredAt abortRequestedAt)

/-- A firing before the deadline arms the next one. -/
def check (now : Nat) (timerFiredAt abortRequestedAt : UtcMillis)
    (onAbort : Option PortOutcome) : RaceState :=
  if now < s.originNs + s.deadlineNs then { s with readNs := now }.arm
  else
    { s with readNs := now }.onDeadline (now - s.originNs) timerFiredAt abortRequestedAt onAbort

/-- One promise reaction; only `stamp` reads the clock. -/
def react (now : Nat) : Reaction → RaceState
  | .normalize outcome => { s with reactions := s.reactions ++ [.stamp outcome.result] }
  | .stamp result =>
    { s with
      readNs := now
      settlement := some ⟨result, now⟩
      lateAwaited := false
      reactions := s.reactions ++ .claimTransport ⟨result, now⟩ ::
        if s.lateAwaited then [.reportLate ⟨result, now⟩] else [] }
  | .claimTransport settled =>
    s.claim .transport fun claimed =>
      match elapsedNs s.originNs settled.atNs with
      | none => { claimed with cancelled := claimed.cancelled ++ [claimed.pending] }
      | some elapsed =>
        { claimed with cancelled := claimed.cancelled ++ [claimed.pending] }.resolve
          (.transport settled.result elapsed)
  | .reportLate settled =>
    match elapsedNs s.originNs settled.atNs with
    | none => s
    | some elapsed => { s with late := s.late ++ [⟨lateSettlementKind settled.result, elapsed⟩] }

end RaceState

/-! ## Runs -/

/-- What the event loop does next. -/
inductive RaceInput where
  /-- a firing runs: the clock it reads, the two wall readings, and what aborting does -/
  | fires (firing now : Nat) (timerFiredAt abortRequestedAt : UtcMillis)
      (onAbort : Option PortOutcome)
  /-- the port's promise settles -/
  | settles (outcome : PortOutcome)
  /-- the first promise reaction of the queue runs -/
  | reacts (now : Nat)

/-- One callback; `none` when the event loop may not run it. -/
def step (s : RaceState) : RaceInput → Option RaceState
  | .fires firing now timerFiredAt abortRequestedAt onAbort =>
    if firing < s.scheduled.length ∧ firing ∉ s.cancelled ∧ s.reactions = [] ∧ s.readNs ≤ now then
      some ({ s with fired := s.fired ++ [firing] }.check now timerFiredAt abortRequestedAt
        onAbort)
    else none
  | .settles outcome => if s.portSettled then none else some (s.settlePort outcome)
  | .reacts now =>
    match s.reactions with
    | [] => none
    | reaction :: rest =>
      if s.readNs ≤ now then some ({ s with reactions := rest }.react now reaction) else none

def run (s : RaceState) : List RaceInput → Option RaceState
  | [] => some s
  | input :: rest => (step s input).bind fun next => run next rest

/-- `raceTransportAgainstDeadline`: the race after its first tick.  The timer reads the clock a
second time, and the port may have settled while it was invoked. -/
def startRace (deadlineNs originNs readNs : Nat) (settled : Option PortOutcome) : RaceState :=
  let armed := RaceState.arm
    { originNs := originNs, deadlineNs := deadlineNs, readNs := readNs, scheduled := [],
      cancelled := [], fired := [], pending := 0, winner := none, claims := [],
      deadlineRuns := [], aborted := false, portSettled := false, settlement := none,
      lateAwaited := false, reactions := [], decision := none, late := [] }
  match settled with
  | none => armed
  | some outcome => armed.settlePort outcome

/-! ## What holds in every race -/

/-- The decision agrees with the arbiter, and a timer's elapsed time has reached the deadline. -/
inductive Decided (originNs deadlineNs : Nat) :
    Option ArbiterWinner → Option RaceDecision → Prop where
  | running : Decided originNs deadlineNs none none
  | timer {elapsed : Nat} {timerFiredAt abortRequestedAt : UtcMillis} (h : deadlineNs ≤ elapsed) :
      Decided originNs deadlineNs (some .timer)
        (some (.timer originNs elapsed timerFiredAt abortRequestedAt))
  | transport {result : ProviderTransportResult} {elapsed : DecimalNs} :
      Decided originNs deadlineNs (some .transport) (some (.transport result elapsed))

/-- Where the promise chain of the port stands: the queue holds one of its reactions, and after
`settlement` is resolved the claim and then the late settlement, if the timer won. -/
inductive Chain (originNs : Nat) (winner : Option ArbiterWinner) :
    Bool → Option TimedSettlement → Bool → List Reaction → List LateSettlement → Prop where
  | waiting {awaited : Bool} (hw : winner ≠ some .transport)
      (ha : awaited = true ↔ winner = some .timer) :
      Chain originNs winner false none awaited [] []
  | normalizing {awaited : Bool} (outcome : PortOutcome) (hw : winner ≠ some .transport)
      (ha : awaited = true ↔ winner = some .timer) :
      Chain originNs winner true none awaited [.normalize outcome] []
  | stamping {awaited : Bool} (result : ProviderTransportResult) (hw : winner ≠ some .transport)
      (ha : awaited = true ↔ winner = some .timer) :
      Chain originNs winner true none awaited [.stamp result] []
  | claiming (settled : TimedSettlement) (hat : originNs ≤ settled.atNs) (hw : winner = none) :
      Chain originNs winner true (some settled) false [.claimTransport settled] []
  | claimingLate (settled : TimedSettlement) (hat : originNs ≤ settled.atNs)
      (hw : winner = some .timer) :
      Chain originNs winner true (some settled) false
        [.claimTransport settled, .reportLate settled] []
  | reporting (settled : TimedSettlement) (hat : originNs ≤ settled.atNs)
      (hw : winner = some .timer) :
      Chain originNs winner true (some settled) false [.reportLate settled] []
  | finished (settled : TimedSettlement) (late : List LateSettlement) (hw : winner ≠ none)
      (hone : late.length ≤ 1) (hlate : late ≠ [] → winner = some .timer) :
      Chain originNs winner true (some settled) false [] late

structure Invariant (s : RaceState) : Prop where
  reading : s.originNs ≤ s.readNs
  claims : s.claims = s.winner.toList
  decided : Decided s.originNs s.deadlineNs s.winner s.decision
  aborted : s.aborted = true ↔ s.winner = some .timer
  chain : Chain s.originNs s.winner s.portSettled s.settlement s.lateAwaited s.reactions s.late

theorem claim_after {s : RaceState} {winner : ArbiterWinner} (hwinner : s.winner = some winner)
    (claimant : ArbiterWinner) (decide : RaceState → RaceState) : s.claim claimant decide = s := by
  rw [RaceState.claim, hwinner]

/-- A run of `onDeadline` after a claim does nothing. -/
theorem onDeadline_after {s : RaceState} {winner : ArbiterWinner}
    (hwinner : s.winner = some winner) (elapsed : Nat) (timerFiredAt abortRequestedAt : UtcMillis)
    (onAbort : Option PortOutcome) :
    s.onDeadline elapsed timerFiredAt abortRequestedAt onAbort =
      { s with deadlineRuns := s.deadlineRuns ++ [elapsed] } := by
  have hsame : ({ s with deadlineRuns := s.deadlineRuns ++ [elapsed] } : RaceState).winner =
      some winner := hwinner
  exact claim_after hsame _ _

namespace Invariant

variable {s : RaceState}

theorem winner_of_settled (h : Invariant s) (hreactions : s.reactions = [])
    (hsettled : s.portSettled = true) : s.winner ≠ none := by
  have hchain := h.chain
  rw [hreactions, hsettled] at hchain
  generalize s.settlement = value at hchain
  generalize s.lateAwaited = awaited at hchain
  generalize s.late = late at hchain
  cases hchain with
  | finished settled late hw => exact hw

/-- While no one has won and no reaction waits, the port has not settled and nothing waits for
it. -/
theorem unsettled (h : Invariant s) (hreactions : s.reactions = []) (hwinner : s.winner = none) :
    s.portSettled = false ∧ s.settlement = none ∧ s.lateAwaited = false ∧ s.late = [] := by
  have hchain := h.chain
  rw [hreactions] at hchain
  generalize hp : s.portSettled = settled at hchain ⊢
  generalize hs : s.settlement = value at hchain ⊢
  generalize ha : s.lateAwaited = awaited at hchain ⊢
  generalize hl : s.late = late at hchain ⊢
  cases hchain with
  | waiting hw hawaited =>
    rw [hwinner] at hawaited
    refine ⟨rfl, rfl, ?_, rfl⟩
    cases awaited with
    | false => rfl
    | true => exact absurd (hawaited.mp rfl) (by simp)
  | finished settled late hw => exact absurd hwinner hw

theorem settlePort (h : Invariant s) (hsettled : s.portSettled = false) (outcome : PortOutcome) :
    Invariant (s.settlePort outcome) := by
  have hchain := h.chain
  rw [hsettled] at hchain
  unfold RaceState.settlePort
  rw [hsettled]
  refine ⟨h.reading, h.claims, h.decided, h.aborted, ?_⟩
  show Chain s.originNs s.winner true s.settlement s.lateAwaited
    (s.reactions ++ [.normalize outcome]) s.late
  generalize hs : s.settlement = value at hchain ⊢
  generalize ha : s.lateAwaited = awaited at hchain ⊢
  generalize hr : s.reactions = reactions at hchain ⊢
  generalize hl : s.late = late at hchain ⊢
  cases hchain with
  | waiting hw hawaited => exact .normalizing outcome hw hawaited

theorem arm (h : Invariant s) : Invariant s.arm :=
  ⟨h.reading, h.claims, h.decided, h.aborted, h.chain⟩

/-- A claim of the timer that comes first: it aborts the transport and waits for its late
settlement. -/
theorem timer_wins (h : Invariant s) (hreactions : s.reactions = []) (hwinner : s.winner = none)
    {elapsed : Nat} (helapsed : s.deadlineNs ≤ elapsed) (timerFiredAt abortRequestedAt : UtcMillis)
    (onAbort : Option PortOutcome) :
    Invariant (s.onDeadline elapsed timerFiredAt abortRequestedAt onAbort) ∧
    (s.onDeadline elapsed timerFiredAt abortRequestedAt onAbort).winner = some .timer ∧
    (s.onDeadline elapsed timerFiredAt abortRequestedAt onAbort).aborted = true := by
  obtain ⟨hport, hsettlement, hawaited, hlate⟩ := h.unsettled hreactions hwinner
  have hclaims := h.claims
  have hdecided := h.decided
  rw [hwinner] at hclaims hdecided
  have hdecision : s.decision = none := by
    cases hd : s.decision with
    | none => rfl
    | some decision =>
      rw [hd] at hdecided
      cases hdecided
  cases onAbort with
  | none =>
    simp only [RaceState.onDeadline, RaceState.claim, hwinner, RaceState.abort,
      RaceState.awaitLate, hsettlement, RaceState.resolve, hdecision, and_self, and_true]
    refine ⟨h.reading, ?_, .timer helapsed, by simp, ?_⟩
    · simpa using hclaims
    · simp only [hport, hreactions, hlate]
      exact .waiting (by simp) (by simp)
  | some outcome =>
    simp only [RaceState.onDeadline, RaceState.claim, hwinner, RaceState.abort,
      RaceState.settlePort, hport, Bool.false_eq_true, if_false,
      RaceState.awaitLate, hsettlement, RaceState.resolve, hdecision, and_self, and_true]
    refine ⟨h.reading, ?_, .timer helapsed, by simp, ?_⟩
    · simpa using hclaims
    · simp only [hreactions, hlate]
      exact .normalizing outcome (by simp) (by simp)

theorem check (h : Invariant s) (hreactions : s.reactions = []) {now : Nat} (hnow : s.readNs ≤ now)
    (timerFiredAt abortRequestedAt : UtcMillis) (onAbort : Option PortOutcome) :
    Invariant (s.check now timerFiredAt abortRequestedAt onAbort) := by
  have hread : Invariant { s with readNs := now } :=
    ⟨le_trans h.reading hnow, h.claims, h.decided, h.aborted, h.chain⟩
  unfold RaceState.check
  split
  · exact hread.arm
  · rename_i hdeadline
    have helapsed : s.deadlineNs ≤ now - s.originNs := by omega
    by_cases hwinner : s.winner = none
    · exact (hread.timer_wins hreactions hwinner helapsed timerFiredAt abortRequestedAt onAbort).1
    · obtain ⟨winner, hsome⟩ := Option.ne_none_iff_exists'.mp hwinner
      have hafter : ({ s with readNs := now } : RaceState).winner = some winner := hsome
      rw [onDeadline_after hafter]
      exact ⟨hread.reading, hread.claims, hread.decided, hread.aborted, hread.chain⟩

theorem react (h : Invariant s) {reaction : Reaction} {rest : List Reaction}
    (hreactions : s.reactions = reaction :: rest) {now : Nat} (hnow : s.readNs ≤ now) :
    Invariant ({ s with reactions := rest }.react now reaction) := by
  have hchain := h.chain
  rw [hreactions] at hchain
  generalize s.portSettled = settledFlag at hchain ⊢
  generalize s.settlement = value at hchain ⊢
  generalize s.lateAwaited = awaited at hchain ⊢
  generalize s.late = late at hchain ⊢
  cases hchain with
  | normalizing outcome hw hawaited =>
    refine ⟨h.reading, h.claims, h.decided, h.aborted, ?_⟩
    simp only [RaceState.react, List.nil_append]
    exact .stamping _ hw hawaited
  | stamping result hw hawaited =>
    refine ⟨le_trans h.reading hnow, h.claims, h.decided, h.aborted, ?_⟩
    simp only [RaceState.react, List.nil_append]
    cases awaited with
    | false =>
      refine .claiming _ (le_trans h.reading hnow) ?_
      cases hwinner : s.winner with
      | none => rfl
      | some winner =>
        cases winner with
        | timer => exact absurd (hawaited.mpr hwinner) (by simp)
        | transport => exact absurd hwinner hw
    | true => exact .claimingLate _ (le_trans h.reading hnow) (hawaited.mp rfl)
  | claiming settled hat hw =>
    have hclaims := h.claims
    have hdecided := h.decided
    rw [hw] at hclaims hdecided
    have hdecision : s.decision = none := by
      cases hd : s.decision with
      | none => rfl
      | some decision =>
        rw [hd] at hdecided
        cases hdecided
    simp only [RaceState.react, RaceState.claim, hw, elapsedNs, if_neg (Nat.not_lt.mpr hat),
      RaceState.resolve, hdecision]
    refine ⟨h.reading, ?_, .transport, ?_, ?_⟩
    · simpa using hclaims
    · have haborted := h.aborted
      rw [hw] at haborted
      simpa using haborted
    · exact .finished settled [] (by simp) (by simp) (fun hne => absurd rfl hne)
  | claimingLate settled hat hw =>
    rw [RaceState.react, claim_after]
    · exact ⟨h.reading, h.claims, h.decided, h.aborted, .reporting settled hat hw⟩
    · exact hw
  | reporting settled hat hw =>
    simp only [RaceState.react, elapsedNs, if_neg (Nat.not_lt.mpr hat)]
    refine ⟨h.reading, h.claims, h.decided, h.aborted, ?_⟩
    exact .finished settled _ (by simp [hw]) (by simp) (fun _ => hw)

theorem step (h : Invariant s) {input : RaceInput} {s' : RaceState}
    (hstep : Race.step s input = some s') : Invariant s' := by
  cases input with
  | fires firing now timerFiredAt abortRequestedAt onAbort =>
    simp only [Race.step] at hstep
    split at hstep
    · rename_i hguard
      cases hstep
      have hfired : Invariant { s with fired := s.fired ++ [firing] } :=
        ⟨h.reading, h.claims, h.decided, h.aborted, h.chain⟩
      exact hfired.check hguard.2.2.1 hguard.2.2.2 _ _ _
    · cases hstep
  | settles outcome =>
    simp only [Race.step] at hstep
    split at hstep
    · cases hstep
    · rename_i hport
      cases hstep
      exact h.settlePort (by simpa using hport) outcome
  | reacts now =>
    simp only [Race.step] at hstep
    split at hstep
    · cases hstep
    · rename_i reaction rest hreactions
      split at hstep
      · rename_i hnow
        cases hstep
        exact h.react hreactions hnow
      · cases hstep

theorem run (h : Invariant s) {inputs : List RaceInput} {s' : RaceState}
    (hrun : Race.run s inputs = some s') : Invariant s' := by
  induction inputs generalizing s with
  | nil =>
    cases hrun
    exact h
  | cons input rest ih =>
    obtain ⟨next, hstep, hrest⟩ := Option.bind_eq_some_iff.mp hrun
    exact ih (h.step hstep) hrest

end Invariant

theorem startRace_invariant {originNs readNs : Nat} (deadlineNs : Nat) (hread : originNs ≤ readNs)
    (settled : Option PortOutcome) : Invariant (startRace deadlineNs originNs readNs settled) := by
  have hunsettled : Invariant (startRace deadlineNs originNs readNs none) := by
    refine ⟨hread, rfl, .running, ?_, .waiting ?_ ?_⟩
    · simp [startRace, RaceState.arm]
    · simp [startRace, RaceState.arm]
    · simp [startRace, RaceState.arm]
  cases settled with
  | none => exact hunsettled
  | some outcome => exact hunsettled.settlePort rfl outcome

/-! ## What never changes -/

/-- What a callback keeps: the deadline, a decision, a winner, and the firings that ran. -/
structure Keeps (s s' : RaceState) : Prop where
  deadline : s'.deadlineNs = s.deadlineNs
  decision : ∀ decision, s.decision = some decision → s'.decision = some decision
  winner : ∀ winner, s.winner = some winner → s'.winner = some winner
  fired : ∃ later, s'.fired = s.fired ++ later

theorem Keeps.of_eq {s s' : RaceState} (hdeadline : s'.deadlineNs = s.deadlineNs)
    (hdecision : s'.decision = s.decision) (hwinner : s'.winner = s.winner)
    (hfired : s'.fired = s.fired) : Keeps s s' := by
  refine ⟨hdeadline, fun d hd => hdecision.trans hd, fun w hw => hwinner.trans hw, [], ?_⟩
  rw [hfired, List.append_nil]

variable (s : RaceState)

theorem Keeps.refl : Keeps s s := .of_eq rfl rfl rfl rfl

theorem Keeps.trans {s s' s'' : RaceState} (h : Keeps s s') (h' : Keeps s' s'') : Keeps s s'' := by
  obtain ⟨first, hfirst⟩ := h.fired
  obtain ⟨second, hsecond⟩ := h'.fired
  refine ⟨h'.deadline.trans h.deadline, fun d hd => h'.decision d (h.decision d hd),
    fun w hw => h'.winner w (h.winner w hw), first ++ second, ?_⟩
  rw [hsecond, hfirst, List.append_assoc]

theorem keeps_settlePort (outcome : PortOutcome) : Keeps s (s.settlePort outcome) := by
  unfold RaceState.settlePort
  split
  · exact .refl s
  · exact .of_eq rfl rfl rfl rfl

theorem keeps_awaitLate : Keeps s s.awaitLate := by
  unfold RaceState.awaitLate
  split <;> exact .of_eq rfl rfl rfl rfl

theorem keeps_abort (onAbort : Option PortOutcome) : Keeps s (s.abort onAbort) := by
  have haborted : Keeps s { s with aborted := true } :=
    .of_eq rfl rfl rfl rfl
  cases onAbort with
  | none => exact haborted
  | some outcome => exact haborted.trans (keeps_settlePort _ outcome)

theorem keeps_resolve (decision : RaceDecision) : Keeps s (s.resolve decision) := by
  refine ⟨rfl, ?_, fun _ h => h, [], (List.append_nil _).symm⟩
  intro earlier hearlier
  simp [RaceState.resolve, hearlier]

theorem keeps_claim {s : RaceState} {claimant : ArbiterWinner} {decide : RaceState → RaceState}
    (h : ∀ claimed, Keeps claimed (decide claimed)) : Keeps s (s.claim claimant decide) := by
  unfold RaceState.claim
  split
  · exact .refl s
  · rename_i hwinner
    have hclaimed : Keeps s { s with winner := some claimant, claims := s.claims ++ [claimant] } := by
      refine ⟨rfl, fun _ hd => hd, ?_, [], (List.append_nil _).symm⟩
      intro winner hsome
      rw [hwinner] at hsome
      cases hsome
    exact hclaimed.trans (h _)

theorem keeps_onDeadline (elapsed : Nat) (timerFiredAt abortRequestedAt : UtcMillis)
    (onAbort : Option PortOutcome) :
    Keeps s (s.onDeadline elapsed timerFiredAt abortRequestedAt onAbort) := by
  have hruns : Keeps s { s with deadlineRuns := s.deadlineRuns ++ [elapsed] } :=
    .of_eq rfl rfl rfl rfl
  exact hruns.trans (keeps_claim fun claimed =>
    ((keeps_abort claimed onAbort).trans (keeps_awaitLate _)).trans (keeps_resolve _ _))

theorem keeps_check (now : Nat) (timerFiredAt abortRequestedAt : UtcMillis)
    (onAbort : Option PortOutcome) :
    Keeps s (s.check now timerFiredAt abortRequestedAt onAbort) := by
  have hread : Keeps s { s with readNs := now } :=
    .of_eq rfl rfl rfl rfl
  unfold RaceState.check
  split
  · exact hread.trans (.of_eq rfl rfl rfl rfl)
  · exact hread.trans (keeps_onDeadline _ _ _ _ _)

theorem keeps_react (now : Nat) (reaction : Reaction) : Keeps s (s.react now reaction) := by
  cases reaction with
  | normalize outcome => exact .of_eq rfl rfl rfl rfl
  | stamp result => exact .of_eq rfl rfl rfl rfl
  | claimTransport settled =>
    rw [RaceState.react]
    refine keeps_claim ?_
    intro claimed
    have hcancelled : Keeps claimed
        { claimed with cancelled := claimed.cancelled ++ [claimed.pending] } :=
      .of_eq rfl rfl rfl rfl
    split
    · exact hcancelled
    · exact hcancelled.trans (keeps_resolve _ _)
  | reportLate settled =>
    simp only [RaceState.react]
    split
    · exact .refl s
    · exact .of_eq rfl rfl rfl rfl

theorem keeps_step {s s' : RaceState} {input : RaceInput} (hstep : step s input = some s') :
    Keeps s s' := by
  cases input with
  | fires firing now timerFiredAt abortRequestedAt onAbort =>
    simp only [step] at hstep
    split at hstep
    · cases hstep
      have hfired : Keeps s { s with fired := s.fired ++ [firing] } :=
        ⟨rfl, fun _ h => h, fun _ h => h, [firing], rfl⟩
      exact hfired.trans (keeps_check _ _ _ _ _)
    · cases hstep
  | settles outcome =>
    simp only [step] at hstep
    split at hstep
    · cases hstep
    · cases hstep
      exact keeps_settlePort s outcome
  | reacts now =>
    simp only [step] at hstep
    split at hstep
    · cases hstep
    · rename_i reaction rest hreactions
      split at hstep
      · cases hstep
        have hrest : Keeps s { s with reactions := rest } :=
          .of_eq rfl rfl rfl rfl
        exact hrest.trans (keeps_react _ now reaction)
      · cases hstep

theorem keeps_run {s s' : RaceState} {inputs : List RaceInput} (hrun : run s inputs = some s') :
    Keeps s s' := by
  induction inputs generalizing s with
  | nil =>
    cases hrun
    exact .refl _
  | cons input rest ih =>
    obtain ⟨next, hstep, hrest⟩ := Option.bind_eq_some_iff.mp hrun
    exact (keeps_step hstep).trans (ih hrest)

/-! ## A scheduler that fires each callback once -/

/-- While no one has won, every firing but the pending one ran or was cancelled; when the
transport has won, every firing. -/
structure OneLive (s : RaceState) : Prop where
  others : s.winner = none → ∀ firing < s.scheduled.length, firing ≠ s.pending →
    firing ∈ s.fired ∨ firing ∈ s.cancelled
  noneLive : s.winner = some .transport → ∀ firing < s.scheduled.length,
    firing ∈ s.fired ∨ firing ∈ s.cancelled

theorem OneLive.congr {s s' : RaceState} (h : OneLive s) (hwinner : s'.winner = s.winner)
    (hscheduled : s'.scheduled = s.scheduled) (hpending : s'.pending = s.pending)
    (hfired : s'.fired = s.fired) (hcancelled : s'.cancelled = s.cancelled) : OneLive s' := by
  constructor
  · rw [hwinner, hscheduled, hpending, hfired, hcancelled]
    exact h.others
  · rw [hwinner, hscheduled, hfired, hcancelled]
    exact h.noneLive

theorem OneLive.settlePort {s : RaceState} (h : OneLive s) (outcome : PortOutcome) :
    OneLive (s.settlePort outcome) := by
  unfold RaceState.settlePort
  split
  · exact h
  · exact h.congr rfl rfl rfl rfl rfl

theorem OneLive.react {s : RaceState} (h : OneLive s) (now : Nat) (reaction : Reaction) :
    OneLive (s.react now reaction) := by
  cases reaction with
  | normalize outcome => exact h.congr rfl rfl rfl rfl rfl
  | stamp result => exact h.congr rfl rfl rfl rfl rfl
  | claimTransport settled =>
    rw [RaceState.react]
    cases hwinner : s.winner with
    | some winner =>
      rw [claim_after hwinner]
      exact h
    | none =>
      rw [RaceState.claim, hwinner]
      have hcancelled : ∀ firing < s.scheduled.length,
          firing ∈ s.fired ∨ firing ∈ s.cancelled ++ [s.pending] := by
        intro firing hlt
        by_cases hpending : firing = s.pending
        · exact .inr (by simp [hpending])
        · obtain hfired | hold := h.others hwinner firing hlt hpending
          · exact .inl hfired
          · exact .inr (List.mem_append_left _ hold)
      dsimp only
      split
      · exact ⟨fun hnone => (by cases hnone), fun _ => hcancelled⟩
      · exact ⟨fun hnone => (by cases hnone), fun _ => hcancelled⟩
  | reportLate settled =>
    simp only [RaceState.react]
    split
    · exact h
    · exact h.congr rfl rfl rfl rfl rfl

theorem OneLive.fires {s : RaceState} (h : OneLive s) {firing : Nat}
    (hlt : firing < s.scheduled.length) (hlive : firing ∉ s.cancelled) (hnew : firing ∉ s.fired) :
    s.winner ≠ some .transport ∧ (s.winner = none → firing = s.pending) := by
  constructor
  · intro hwinner
    exact (h.noneLive hwinner firing hlt).elim hnew hlive
  · intro hwinner
    by_contra hne
    exact (h.others hwinner firing hlt hne).elim hnew hlive

theorem react_deadlineRuns (now : Nat) (reaction : Reaction) :
    (s.react now reaction).deadlineRuns = s.deadlineRuns := by
  cases reaction with
  | normalize outcome => rfl
  | stamp result => rfl
  | claimTransport settled =>
    rw [RaceState.react, RaceState.claim]
    split
    · rfl
    · dsimp only
      split <;> rfl
  | reportLate settled =>
    simp only [RaceState.react]
    split <;> rfl

/-- Unless the transport has won, the timer has after `onDeadline`. -/
theorem onDeadline_winner {s : RaceState} (hwinner : s.winner ≠ some .transport) (elapsed : Nat)
    (timerFiredAt abortRequestedAt : UtcMillis) (onAbort : Option PortOutcome) :
    (s.onDeadline elapsed timerFiredAt abortRequestedAt onAbort).winner = some .timer := by
  cases hwon : s.winner with
  | none =>
    rw [RaceState.onDeadline, RaceState.claim]
    simp only [hwon]
    exact (((keeps_abort _ onAbort).trans (keeps_awaitLate _)).trans (keeps_resolve _ _)).winner
      .timer rfl
  | some winner =>
    rw [onDeadline_after hwon]
    cases winner with
    | timer => exact hwon
    | transport => exact absurd hwon hwinner

theorem OneLive.check {s : RaceState} (h : OneLive s) {firing : Nat}
    (hwinner : s.winner ≠ some .transport) (hpending : s.winner = none → firing = s.pending)
    (now : Nat) (timerFiredAt abortRequestedAt : UtcMillis) (onAbort : Option PortOutcome) :
    OneLive ({ s with fired := s.fired ++ [firing] }.check now timerFiredAt abortRequestedAt
      onAbort) := by
  unfold RaceState.check
  split
  · refine ⟨fun hnone other hlt hne => ?_, fun htransport => absurd htransport hwinner⟩
    simp only [RaceState.arm, List.length_append, List.length_singleton] at hlt hne ⊢
    by_cases hother : other = s.pending
    · rw [hother, hpending hnone]
      exact .inl (by simp)
    · obtain hfired | hcancelled := h.others hnone other (by omega) hother
      · exact .inl (List.mem_append_left _ hfired)
      · exact .inr hcancelled
  · constructor
    · intro hnone
      rw [onDeadline_winner (by exact hwinner)] at hnone
      cases hnone
    · intro htransport
      rw [onDeadline_winner (by exact hwinner)] at htransport
      cases htransport

theorem OneLive.step {s s' : RaceState} {input : RaceInput} (h : OneLive s)
    (hstep : step s input = some s') (honce : s'.fired.Nodup) :
    OneLive s' ∧ (s.winner = some .transport → s'.deadlineRuns = s.deadlineRuns) := by
  cases input with
  | fires firing now timerFiredAt abortRequestedAt onAbort =>
    simp only [Race.step] at hstep
    split at hstep
    · rename_i hguard
      cases hstep
      have hkeeps := keeps_check { s with fired := s.fired ++ [firing] } now timerFiredAt
        abortRequestedAt onAbort
      obtain ⟨later, hlater⟩ := hkeeps.fired
      rw [hlater] at honce
      have hnew : firing ∉ s.fired := by
        have hpart := (List.nodup_append.mp honce).1
        exact fun hold => (List.nodup_append.mp hpart).2.2 firing hold firing
          (List.mem_singleton_self firing) rfl
      obtain ⟨hnotTransport, hpending⟩ := h.fires hguard.1 hguard.2.1 hnew
      exact ⟨h.check hnotTransport hpending now timerFiredAt abortRequestedAt onAbort,
        fun hwinner => absurd hwinner hnotTransport⟩
    · cases hstep
  | settles outcome =>
    simp only [Race.step] at hstep
    split at hstep
    · cases hstep
    · cases hstep
      refine ⟨h.settlePort outcome, fun _ => ?_⟩
      unfold RaceState.settlePort
      split <;> rfl
  | reacts now =>
    simp only [Race.step] at hstep
    split at hstep
    · cases hstep
    · rename_i reaction rest hreactions
      split at hstep
      · cases hstep
        have hrest : OneLive { s with reactions := rest } := h.congr rfl rfl rfl rfl rfl
        exact ⟨hrest.react now reaction, fun _ => react_deadlineRuns _ now reaction⟩
      · cases hstep

theorem OneLive.run {s s' : RaceState} {inputs : List RaceInput} (h : OneLive s)
    (hrun : run s inputs = some s') (honce : s'.fired.Nodup) :
    OneLive s' ∧ (s.winner = some .transport → s'.deadlineRuns = s.deadlineRuns) := by
  induction inputs generalizing s with
  | nil =>
    cases hrun
    exact ⟨h, fun _ => rfl⟩
  | cons input rest ih =>
    obtain ⟨next, hstep, hrest⟩ := Option.bind_eq_some_iff.mp hrun
    have hnext : next.fired.Nodup := by
      obtain ⟨later, hlater⟩ := (keeps_run hrest).fired
      rw [hlater] at honce
      exact (List.nodup_append.mp honce).1
    obtain ⟨hlive, hruns⟩ := h.step hstep hnext
    obtain ⟨hlive', hruns'⟩ := ih hlive hrest
    refine ⟨hlive', fun hwinner => ?_⟩
    rw [hruns' ((keeps_step hstep).winner _ hwinner), hruns hwinner]

theorem startRace_oneLive (deadlineNs originNs readNs : Nat) (settled : Option PortOutcome) :
    OneLive (startRace deadlineNs originNs readNs settled) := by
  have hunsettled : OneLive (startRace deadlineNs originNs readNs none) := by
    refine ⟨fun _ firing hlt hne => ?_, fun htransport => (by cases htransport)⟩
    simp only [startRace, RaceState.arm, List.nil_append, List.length_singleton, List.length_nil]
      at hlt hne
    omega
  cases settled with
  | none => exact hunsettled
  | some outcome => exact hunsettled.settlePort outcome

/-! ## The race -/

theorem Decided.winner {originNs deadlineNs : Nat} {winner : Option ArbiterWinner}
    {decision : Option RaceDecision} (h : Decided originNs deadlineNs winner decision) :
    decision.map winnerOf = winner := by
  cases h <;> rfl

theorem Chain.late_once {originNs : Nat} {winner : Option ArbiterWinner} {portSettled awaited : Bool}
    {settlement : Option TimedSettlement} {reactions : List Reaction} {late : List LateSettlement}
    (h : Chain originNs winner portSettled settlement awaited reactions late) :
    late.length ≤ 1 ∧ (late ≠ [] → winner = some .timer) := by
  cases h with
  | finished settled late hw hone hlate => exact ⟨hone, hlate⟩
  | _ => exact ⟨Nat.zero_le 1, fun hne => absurd rfl hne⟩

theorem react_not_timer {s : RaceState} (hwinner : s.winner = none) (now : Nat)
    (reaction : Reaction) : (s.react now reaction).winner ≠ some .timer := by
  cases reaction with
  | normalize outcome => simp [RaceState.react, hwinner]
  | stamp result => simp [RaceState.react, hwinner]
  | claimTransport settled =>
    simp only [RaceState.react, RaceState.claim, hwinner]
    split <;> simp [RaceState.resolve]
  | reportLate settled =>
    simp only [RaceState.react]
    split <;> simp [hwinner]

theorem timer_claims {s next : RaceState} (h : Invariant s) {input : RaceInput}
    (hstep : step s input = some next) (hwinner : s.winner = none)
    (htimer : next.winner = some .timer) :
    s.portSettled = false ∧ s.settlement = none ∧ s.reactions = [] ∧ next.aborted = true := by
  have haborted : next.aborted = true := (h.step hstep).aborted.mpr htimer
  cases input with
  | fires firing now timerFiredAt abortRequestedAt onAbort =>
    simp only [step] at hstep
    split at hstep
    · rename_i hguard
      obtain ⟨hport, hsettlement, -, -⟩ := h.unsettled hguard.2.2.1 hwinner
      exact ⟨hport, hsettlement, hguard.2.2.1, haborted⟩
    · cases hstep
  | settles outcome =>
    simp only [step] at hstep
    split at hstep
    · cases hstep
    · cases hstep
      unfold RaceState.settlePort at htimer
      split at htimer
      · rw [hwinner] at htimer
        cases htimer
      · exact absurd (hwinner.symm.trans htimer) (by simp)
  | reacts now =>
    simp only [step] at hstep
    split at hstep
    · cases hstep
    · rename_i reaction rest hreactions
      split at hstep
      · cases hstep
        exact absurd htimer (react_not_timer (by exact hwinner) now reaction)
      · cases hstep

/-- In every race, whatever the scheduler fires and whenever the port settles:

* at most one of timer and transport claims the arbiter, the race is resolved with that winner,
  and neither ever changes;
* when the timer claims, the port has not settled and no reaction to it waits; the abort is
  requested, and the elapsed time has reached the deadline;
* once the transport has won, `onDeadline` is not run again by a scheduler that fires each
  callback once, and has no effect with any other;
* a late settlement is reported once at most, only after the timer won, and changes nothing. -/
theorem race_has_one_winner (deadlineNs originNs readNs : Nat) (hread : originNs ≤ readNs)
    (settled : Option PortOutcome) (before after : List RaceInput) (s s' : RaceState)
    (hbefore : run (startRace deadlineNs originNs readNs settled) before = some s)
    (hafter : run s after = some s') :
    s.claims = s.winner.toList ∧ s.decision.map winnerOf = s.winner ∧
    (∀ decision, s.decision = some decision →
      s'.decision = some decision ∧ s'.winner = s.winner ∧ s'.aborted = s.aborted) ∧
    (s.portSettled = true → s.reactions = [] → s.winner ≠ none) ∧
    (∀ origin elapsed timerFiredAt abortRequestedAt,
      s.decision = some (.timer origin elapsed timerFiredAt abortRequestedAt) →
      deadlineNs ≤ elapsed ∧ s.aborted = true) ∧
    (∀ input next, step s input = some next → s.winner = none → next.winner = some .timer →
      s.portSettled = false ∧ s.settlement = none ∧ s.reactions = [] ∧ next.aborted = true) ∧
    (s.winner = some .transport → s'.fired.Nodup → s'.deadlineRuns = s.deadlineRuns) ∧
    s.late.length ≤ 1 ∧ (s.late ≠ [] → s.winner = some .timer) := by
  have hs : Invariant s := (startRace_invariant deadlineNs hread settled).run hbefore
  have hs' : Invariant s' := hs.run hafter
  have hkept := keeps_run hafter
  have hdeadline : s.deadlineNs = deadlineNs := by
    rw [(keeps_run hbefore).deadline]
    cases settled <;> rfl
  refine ⟨hs.claims, hs.decided.winner, ?_, ?_, ?_, ?_, ?_, hs.chain.late_once⟩
  · intro decision hdecision
    have hwon : s.winner = some (winnerOf decision) := by
      rw [← hs.decided.winner, hdecision]
      rfl
    have hwinner : s'.winner = s.winner := (hkept.winner _ hwon).trans hwon.symm
    refine ⟨hkept.decision decision hdecision, hwinner, ?_⟩
    rw [Bool.eq_iff_iff, hs'.aborted, hs.aborted, hwinner]
  · exact fun hsettled hreactions => hs.winner_of_settled hreactions hsettled
  · intro origin elapsed timerFiredAt abortRequestedAt hdecision
    have hdecided := hs.decided
    have haborted := hs.aborted
    rw [hdecision, hdeadline] at hdecided
    generalize s.winner = winner at hdecided haborted
    cases hdecided with
    | timer h => exact ⟨h, haborted.mpr rfl⟩
  · exact fun input next hstep hwinner htimer => timer_claims hs hstep hwinner htimer
  · intro hwinner honce
    have hfirst : s.fired.Nodup := by
      obtain ⟨later, hlater⟩ := hkept.fired
      rw [hlater] at honce
      exact (List.nodup_append.mp honce).1
    have hlive := (startRace_oneLive deadlineNs originNs readNs settled).run hbefore hfirst
    exact (hlive.1.run hafter honce).2 hwinner

def answered : PortOutcome := .resolved (.wellFormed (.response 200 none none []))

def firedTwice : List RaceInput :=
  [.fires 0 1 0 0 none, .fires 0 2 0 0 none, .settles answered, .reacts 3, .reacts 4, .reacts 5]

theorem onDeadline_runs_after_transport :
    ((run (startRace 10 0 0 none) firedTwice).map fun s => (s.winner, s.deadlineRuns)) =
        some (some .transport, []) ∧
    ((run (startRace 10 0 0 none) (firedTwice ++ [RaceInput.fires 1 20 0 0 none])).map fun s =>
      (s.winner, s.deadlineRuns)) = some (some .transport, [20]) := by
  decide +kernel

def timedOut : List RaceInput :=
  [.fires 0 7 0 0 none, .fires 1 12 5 6 (some (.rejected (.error "AbortError" "aborted"))),
    .reacts 13, .reacts 14, .reacts 15, .reacts 16]

theorem timedOut_one_winner :
    ∃ s, run (startRace 10 0 1 none) timedOut = some s ∧ s.claims = [.timer] ∧
      s.decision = some (.timer 0 12 5 6) ∧ 10 ≤ 12 ∧ s.late = [⟨.aborted, 14⟩] := by
  have hrun : ∃ s, run (startRace 10 0 1 none) timedOut = some s ∧ s.winner = some .timer ∧
      s.decision = some (.timer 0 12 5 6) ∧ s.late = [⟨.aborted, 14⟩] := by
    refine ⟨((run (startRace 10 0 1 none) timedOut).getD (startRace 10 0 1 none)), ?_⟩
    decide +kernel
  obtain ⟨s, hs, hwinner, hdecision, hlate⟩ := hrun
  obtain ⟨hclaims, -, -, -, helapsed, -⟩ :=
    race_has_one_winner 10 0 1 (by decide) none timedOut [] s s hs rfl
  rw [hwinner] at hclaims
  exact ⟨s, hs, hclaims, hdecision, (helapsed 0 12 5 6 hdecision).1, hlate⟩

end RefundStudy.Attempt.Race
