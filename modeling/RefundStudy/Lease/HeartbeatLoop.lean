/-
  The heartbeat scheduler (`lease-heartbeat-loop.ts`, `heartbeatDelayMs` of `lease-health.ts`;
  BR-RUA-045).
-/
import RefundStudy.Lease.Confirmation

set_option autoImplicit false

namespace RefundStudy.Lease

open Foundation Record

def leaseHeartbeatIntervalMs : Nat := 30000

def nsPerMs : Nat := 1000000

def heartbeatDelayMs (state : LeaseHealthState) (nowNs : Nat) : Nat :=
  if state.health ≠ .uncertain then leaseHeartbeatIntervalMs
  else
    let remainingNs : Int := state.lastConfirmedNs + leaseStaleBoundaryNs - nowNs
    let remainingMs := (remainingNs + nsPerMs - 1).tdiv nsPerMs
    (max 0 (min (leaseHeartbeatIntervalMs : Int) remainingMs)).toNat

/-- A beat the loop scheduled: the state of the session, the reading of its clock and the delay. -/
structure ScheduledBeat where
  state : LeaseHealthState
  nowNs : Nat
  delayMs : Nat

/-- The loop with its session and the beats scheduled so far. -/
structure HeartbeatLoop where
  session : Session
  stopped : Bool := false
  scheduled : List ScheduledBeat := []

/-- `loss() !== undefined`: a beat settled on a lost health. -/
def isLostPhase : SessionPhase → Bool
  | .held state => isLost state.health
  | _ => false

namespace HeartbeatLoop

/-- `#scheduleNext`; without a held lease the delay is zero, and no clock is read. -/
def scheduleNext (loop : HeartbeatLoop) : LeaseAsync HeartbeatLoop :=
  match loop.session.phase with
  | .held state => do
    let nowNs ← leaseAwait .monotonicNow
    pure { loop with
      scheduled := loop.scheduled ++ [⟨state, nowNs, heartbeatDelayMs state nowNs⟩] }
  | _ => pure loop

/-- `#beat`; `stop()` may be called while it runs. -/
def beat (loop : HeartbeatLoop) (owner : LeaseOwner) (stopping : Bool) : LeaseAsync HeartbeatLoop := do
  let (held, session) ← loop.session.heartbeatOnce owner
  match held with
  | .error _ => pure { loop with session := session, stopped := true }
  | .ok _ =>
    if isLostPhase session.phase || stopping then
      pure { loop with session := session, stopped := true }
    else scheduleNext { loop with session := session }

end HeartbeatLoop

/-- What happens to a running loop: its timer fires, it is stopped, or the lease is finalized. -/
inductive LoopEvent where
  | due (stopping : Bool)
  | stop
  | finalize (closure : LeaseClosure)

namespace HeartbeatLoop

/-- One event; a stopped loop has no timer. -/
def on (loop : HeartbeatLoop) (owner : LeaseOwner) : LoopEvent → LeaseAsync HeartbeatLoop
  | .due stopping => if loop.stopped then pure loop else loop.beat owner stopping
  | .stop => pure { loop with stopped := true }
  | .finalize closure => do
    let (_, session) ← loop.session.finalize owner closure
    pure { loop with session := session }

def run (owner : LeaseOwner) : List LoopEvent → HeartbeatLoop → LeaseAsync HeartbeatLoop
  | [], loop => pure loop
  | event :: rest, loop => do
    let loop ← loop.on owner event
    run owner rest loop

end HeartbeatLoop

section Runs

variable {owner : LeaseOwner} {loop after : HeartbeatLoop} {trace : LeaseHistory}

end Runs

/-! ## When the delay ends by the boundary -/

def lateState : LeaseHealthState := ⟨.confirmed, 2, 31000000000, 31000⟩

def lateLoop : HeartbeatLoop where
  session := ⟨.held lateState, [.acquired, .heartbeatConfirmed]⟩
  scheduled := [⟨⟨.confirmed, 1, 0, 0⟩, 1000000000, 30000⟩, ⟨lateState, 301500000000, 30000⟩]

end RefundStudy.Lease
