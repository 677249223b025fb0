/-
  What a request's effect knowledge is, whatever the order its attempts are folded in
  (`attempt-lifecycle/effect-knowledge.ts`, BR-RUA-022).

  `knowledgeOf` says the same from which classes occur and how often, so the order and the split
  into versions do not matter.
-/
import Mathlib.Data.List.Induction
import RefundStudy.Record.Item

set_option autoImplicit false

namespace RefundStudy.Caller

open Record

/-- `OrphanAttempt`: an attempt with the class it adds. -/
structure AccountedAttempt where
  attemptId : Uuid4
  outcomeClass : OutcomeClass

/-- `baseOf` of `request-state-recorder.ts`, with the processing state its callers add. -/
def baseOf (current : Option RequestStateSnapshot) (attempts : List AccountedAttempt)
    (processing : ProcessingState) : RequestStateSnapshot where
  version := (current.map RequestStateSnapshot.version).getD 0 + 1
  effectKnowledge := (attempts.map AccountedAttempt.outcomeClass).foldl nextEffectKnowledge
    ((current.map RequestStateSnapshot.effectKnowledge).getD initialEffectKnowledge)
  attemptIds := (current.map RequestStateSnapshot.attemptIds).getD [] ++
    attempts.map AccountedAttempt.attemptId
  processingState := processing

/-- The knowledge of some attempts, from the classes that occur among them. -/
def knowledgeOf (classes : List OutcomeClass) : EffectKnowledge :=
  if .ambiguous ∈ classes then .unknown
  else if 2 ≤ classes.count .success then .multipleEffectsConfirmed
  else if classes.count .success = 1 then .oneEffectConfirmed
  else if .rejection ∈ classes then .noEffectConfirmed
  else .notAttempted

theorem knowledgeOf_concat (classes : List OutcomeClass) (cls : OutcomeClass) :
    knowledgeOf (classes ++ [cls]) = nextEffectKnowledge (knowledgeOf classes) cls := by
  by_cases hambiguous : OutcomeClass.ambiguous ∈ classes
  · simp [knowledgeOf, hambiguous]
  have hcount : classes.count .success = 0 ∨ classes.count .success = 1 ∨
      2 ≤ classes.count .success := by omega
  have hrejection := Classical.em (OutcomeClass.rejection ∈ classes)
  cases cls with
  | ambiguous => simp [knowledgeOf]
  | preDispatchFailure =>
    rcases hcount with hzero | hone | htwo <;> rcases hrejection with hin | hout <;>
      simp_all [knowledgeOf, List.count_append, nextEffectKnowledge]
  | rejection =>
    rcases hcount with hzero | hone | htwo <;> rcases hrejection with hin | hout <;>
      simp_all [knowledgeOf, List.count_append, nextEffectKnowledge]
  | success =>
    have hmem : 2 ≤ classes.count .success → OutcomeClass.success ∈ classes := by
      intro htwo
      exact List.count_pos_iff.mp (by omega)
    rcases hcount with hzero | hone | htwo <;> rcases hrejection with hin | hout <;>
      simp_all [knowledgeOf, List.count_append, nextEffectKnowledge]

theorem foldEffectKnowledge_eq (classes : List OutcomeClass) :
    foldEffectKnowledge classes = knowledgeOf classes := by
  induction classes using List.reverseRecOn with
  | nil => rfl
  | append_singleton front cls ih =>
    rw [foldEffectKnowledge_append, ih, knowledgeOf_concat]
    rfl

theorem knowledgeOf_perm {classes permuted : List OutcomeClass} (h : permuted.Perm classes) :
    knowledgeOf permuted = knowledgeOf classes := by
  simp only [knowledgeOf, h.mem_iff, h.count_eq]

/-! ## Recording in steps -/

/-- One recorded version: the attempts it adds and the processing state it stores. -/
structure RecordedStep where
  attempts : List AccountedAttempt
  processing : ProcessingState

def recordedState (steps : List RecordedStep) : Option RequestStateSnapshot :=
  steps.foldl (fun current step => some (baseOf current step.attempts step.processing)) none

/-- The knowledge of a request state; a request without one was not attempted. -/
def storedKnowledge (current : Option RequestStateSnapshot) : EffectKnowledge :=
  (current.map RequestStateSnapshot.effectKnowledge).getD initialEffectKnowledge

def recordedClasses (steps : List RecordedStep) : List OutcomeClass :=
  steps.flatMap fun step => step.attempts.map AccountedAttempt.outcomeClass

theorem storedKnowledge_recordedState (steps : List RecordedStep) :
    storedKnowledge (recordedState steps) = foldEffectKnowledge (recordedClasses steps) := by
  induction steps using List.reverseRecOn with
  | nil => rfl
  | append_singleton front step ih =>
    have hclasses : recordedClasses (front ++ [step]) =
        recordedClasses front ++ step.attempts.map AccountedAttempt.outcomeClass := by
      simp [recordedClasses]
    rw [hclasses, foldEffectKnowledge_append, ← ih]
    unfold recordedState
    rw [List.foldl_append]
    rfl

/-- Effect knowledge is a function of the classes alone: the fold has the closed form `knowledgeOf`,
no order of the attempts changes it, and recording them in steps stores it. -/
theorem effectKnowledge_order_free (classes : List OutcomeClass) :
    foldEffectKnowledge classes = knowledgeOf classes ∧
    (∀ permuted : List OutcomeClass, permuted.Perm classes →
      foldEffectKnowledge permuted = foldEffectKnowledge classes) ∧
    ∀ steps, (recordedClasses steps).Perm classes →
      storedKnowledge (recordedState steps) = foldEffectKnowledge classes := by
  have hpermuted : ∀ permuted : List OutcomeClass, permuted.Perm classes →
      foldEffectKnowledge permuted = foldEffectKnowledge classes := by
    intro permuted hperm
    rw [foldEffectKnowledge_eq, foldEffectKnowledge_eq, knowledgeOf_perm hperm]
  refine ⟨foldEffectKnowledge_eq classes, hpermuted, ?_⟩
  intro steps hperm
  rw [storedKnowledge_recordedState]
  exact hpermuted (recordedClasses steps) hperm

end RefundStudy.Caller
