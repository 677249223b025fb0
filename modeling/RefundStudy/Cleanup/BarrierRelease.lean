/-
  Cleanup's safety release of a held barrier (`cleanup/control-barrier-release.ts`,
  BR-RUA-048 step 5).
-/
import RefundStudy.Provider.Barrier

set_option autoImplicit false

namespace RefundStudy.Cleanup

open Foundation Record RefundStudy.Runtime
open Provider (updateTreatment)

def maxReleaseAttempts : Nat := 3

inductive BarrierReleaseOutcome where
  | released (fromState : TreatmentState)
  | notHeld (state : Option TreatmentState)
  | failed

inductive ReleaseDecision where
  | release (fromState : TreatmentState) (version : Nat)
  | done (outcome : BarrierReleaseOutcome)

/-- An item whose version is no positive safe integer fails. -/
def decideFromItem (item : TreatmentItem) : ReleaseDecision :=
  if isPositiveSafeInteger item.version then
    if item.state ∈ nonterminalTreatmentStates then .release item.state item.version
    else .done (.notHeld (some item.state))
  else .done .failed

def decideRelease : Async ReleaseDecision := do
  let read ← await (.getConsistent .treatment)
  match read with
  | .error _ => pure (.done .failed)
  | .ok none => pure (.done (.notHeld none))
  | .ok (some item) => pure (decideFromItem item)

/-- Condition on the state and version read. -/
def releaseAction (fromState : TreatmentState) (version : Nat) : WriteAction ItemOf :=
  updateTreatment
    (allConditions [attributeEquals TreatmentItem.state fromState,
      attributeEquals TreatmentItem.version version])
    (fun item => { item with
      state := .safetyReleased
      safetyReleaseCause := some .cleanupRequest })

/-- `#attemptRelease` with `attempts` tries left. -/
def attemptRelease : Nat → Async BarrierReleaseOutcome
  | 0 => pure .failed
  | attempts + 1 => do
    let decision ← decideRelease
    match decision with
    | .done outcome => pure outcome
    | .release fromState version => do
      let written ← await (.write (releaseAction fromState version))
      match written with
      | .applied => pure (.released fromState)
      | .conditionFailed _ _ => attemptRelease attempts
      | _ => pure .failed

def requestSafetyRelease : Async BarrierReleaseOutcome := attemptRelease maxReleaseAttempts

end RefundStudy.Cleanup
