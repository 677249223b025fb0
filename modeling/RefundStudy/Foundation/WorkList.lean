/-
  Loops over a work list.
-/
import Mathlib.Algebra.BigOperators.Group.List.Basic
import Mathlib.Algebra.Ring.Nat

set_option autoImplicit false

namespace RefundStudy.Foundation

/-- The tasks a task opens, in the order in which they are pushed. -/
structure WorkList (σ : Type) where
  opened : σ → List σ
  size : σ → Nat
  smaller : ∀ task, ((opened task).map size).sum < size task

namespace WorkList

variable {σ β : Type} (work : WorkList σ) (step : β → σ → β)

/-- The head of the list is popped next: of the opened tasks the last one. -/
def push (task : σ) (pending : List σ) : List σ := (work.opened task).reverse ++ pending

def run (result : β) : List σ → β
  | [] => result
  | task :: pending => run (step result task) (work.push task pending)
termination_by pending => (pending.map work.size).sum
decreasing_by
  have hsmaller := work.smaller task
  simp only [push, List.map_append, List.sum_append, List.map_reverse, List.sum_reverse,
    List.map_cons, List.sum_cons]
  omega

/-- It is enough that the recursive function does so on the tasks that can come up. -/
theorem run_eq_foldl_of {good : σ → Prop}
    (hopened : ∀ task, good task → ∀ opened ∈ work.opened task, good opened) (whole : β → σ → β)
    (h : ∀ result task, good task → whole result task =
      (work.opened task).reverse.foldl whole (step result task)) (result : β) (pending : List σ)
    (hpending : ∀ task ∈ pending, good task) :
    work.run step result pending = pending.foldl whole result := by
  fun_induction run work step result pending with
  | case1 result => rw [List.foldl_nil]
  | case2 result task pending ih =>
    rw [List.forall_mem_cons] at hpending
    have hnext : ∀ next ∈ work.push task pending, good next := by
      intro next hnext
      rcases List.mem_append.mp hnext with hmem | hmem
      · exact hopened task hpending.1 next (List.mem_reverse.mp hmem)
      · exact hpending.2 next hmem
    rw [ih hnext, push, List.foldl_append, List.foldl_cons, h result task hpending.1]

theorem run_eq_foldl (whole : β → σ → β)
    (h : ∀ result task, whole result task =
      (work.opened task).reverse.foldl whole (step result task)) (result : β) (pending : List σ) :
    work.run step result pending = pending.foldl whole result :=
  @run_eq_foldl_of σ β work step (fun _ => True) (fun _ _ _ _ => trivial) whole
    (fun result task _ => h result task) result pending fun _ _ => trivial

end WorkList

end RefundStudy.Foundation
