/-
  Stable sorting and filtering.
-/
import Mathlib.Data.List.Sort

set_option autoImplicit false

namespace RefundStudy.Foundation

variable {α : Type} {r : α → α → Prop} [DecidableRel r]

theorem orderedInsert_of_forall {a : α} {l : List α} (h : ∀ b ∈ l, r a b) :
    l.orderedInsert r a = a :: l := by
  cases l with
  | nil => rfl
  | cons b rest => exact List.orderedInsert_cons_of_le r rest (h b List.mem_cons_self)

theorem filter_orderedInsert [IsTrans α r] (keep : α → Bool) (a : α) {l : List α}
    (hsorted : l.Pairwise r) :
    (l.orderedInsert r a).filter keep =
      if keep a then (l.filter keep).orderedInsert r a else l.filter keep := by
  induction l with
  | nil => simp [List.filter_cons]
  | cons b rest ih =>
    rw [List.pairwise_cons] at hsorted
    rw [List.orderedInsert_cons]
    by_cases hbefore : r a b
    · rw [if_pos hbefore, List.filter_cons]
      split
      · -- what is kept lies above the element in front of it
        apply (orderedInsert_of_forall _).symm
        intro c hc
        rcases List.mem_cons.mp (List.mem_of_mem_filter hc) with rfl | hrest
        · exact hbefore
        · exact IsTrans.trans _ _ _ hbefore (hsorted.1 c hrest)
      · rfl
    · rw [if_neg hbefore, List.filter_cons, List.filter_cons, ih hsorted.2]
      split <;> split <;> simp [List.orderedInsert_cons, hbefore]

theorem filter_insertionSort [IsTrans α r] [Std.Total r] (keep : α → Bool) (l : List α) :
    (l.insertionSort r).filter keep = (l.filter keep).insertionSort r := by
  induction l with
  | nil => rfl
  | cons a rest ih =>
    rw [List.insertionSort_cons, filter_orderedInsert keep a (List.pairwise_insertionSort r rest),
      ih, List.filter_cons]
    split <;> rfl

omit [DecidableRel r] in
/-- A sorted list is what lies in an initial segment of the order, then what does not. -/
theorem filter_append_filter_not {l : List α} {keep : α → Bool} (hsorted : l.Pairwise r)
    (hinitial : ∀ a b, r a b → keep b = true → keep a = true) :
    l.filter keep ++ l.filter (fun a => !keep a) = l := by
  induction l with
  | nil => rfl
  | cons a rest ih =>
    rw [List.pairwise_cons] at hsorted
    have hrest := ih hsorted.2
    cases hkeep : keep a with
    | true => simp [hkeep, hrest]
    | false =>
      have hnone : rest.filter keep = [] := by
        rw [List.filter_eq_nil_iff]
        intro b hb hkept
        rw [hinitial a b (hsorted.1 b hb) hkept] at hkeep
        cases hkeep
      rw [hnone, List.nil_append] at hrest
      simp [hkeep, hnone, hrest]

end RefundStudy.Foundation
