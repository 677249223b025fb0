/-
  Following a partial function.
-/
import Mathlib.Logic.Relation

set_option autoImplicit false

namespace RefundStudy.Foundation

variable {α : Type}

def StepsTo (parent : α → Option α) (element next : α) : Prop := parent element = some next

/-- These are the elements met from a start up to a stop. -/
def Trail (parent : α → Option α) : Option α → List α → Option α → Prop
  | here, [], last => here = last
  | here, element :: rest, last => here = some element ∧ Trail parent (parent element) rest last

/-- Only finitely many steps can be made from the element. -/
def RunsOut (parent : α → Option α) (element : α) : Prop :=
  Acc (fun next element => StepsTo parent element next) element

section Trails

variable {parent : α → Option α} {here last : Option α} {met : List α} {element stop : α}

theorem Trail.reaches (h : Trail parent here met (some stop)) (hmem : element ∈ met) :
    Relation.TransGen (StepsTo parent) element stop := by
  induction met generalizing here element with
  | nil => cases hmem
  | cons first rest ih =>
    obtain ⟨-, hrest⟩ := h
    rcases List.mem_cons.mp hmem with rfl | hlater
    · cases rest with
      | nil => exact .single hrest
      | cons second others =>
        exact .head hrest.1 (ih hrest List.mem_cons_self)
    · exact ih hrest hlater

/-- A trail that stops where only finitely many steps are left has no other place. -/
theorem Trail.runsOut (h : Trail parent here met last) (hlast : ∀ stop ∈ last, RunsOut parent stop) :
    ∀ element ∈ here, RunsOut parent element := by
  induction met generalizing here with
  | nil =>
    intro element hhere
    exact hlast element (h ▸ hhere)
  | cons first rest ih =>
    obtain ⟨hstart, hrest⟩ := h
    intro element hhere
    rw [hstart] at hhere
    obtain rfl := Option.mem_some_iff.mp hhere
    constructor
    intro next hnext
    exact ih hrest next hnext

theorem Trail.runsOut_of_mem (h : Trail parent here met last)
    (hlast : ∀ stop ∈ last, RunsOut parent stop) (hmem : element ∈ met) : RunsOut parent element := by
  induction met generalizing here with
  | nil => cases hmem
  | cons first rest ih =>
    rcases List.mem_cons.mp hmem with rfl | hlater
    · exact h.runsOut hlast element h.1
    · exact ih h.2 hlater

theorem Trail.holds {P : α → Prop} (h : Trail parent here met last)
    (hstart : ∀ element ∈ here, P element)
    (hstep : ∀ element next, P element → parent element = some next → P next) :
    (∀ element ∈ met, P element) ∧ ∀ stop ∈ last, P stop := by
  induction met generalizing here with
  | nil =>
    refine ⟨fun element hmem => absurd hmem List.not_mem_nil, ?_⟩
    rw [← h]
    exact hstart
  | cons first rest ih =>
    have hfirst := hstart first h.1
    obtain ⟨hrest, hlast⟩ := ih h.2 fun next hnext => hstep first next hfirst hnext
    refine ⟨?_, hlast⟩
    intro element hmem
    rcases List.mem_cons.mp hmem with rfl | hlater
    · exact hfirst
    · exact hrest element hlater

theorem not_runsOut_of_returns (h : Relation.TransGen (StepsTo parent) element element) :
    ¬ RunsOut parent element := by
  intro hends
  induction hends with
  | intro element _ ih =>
    obtain ⟨next, hnext, hback⟩ := Relation.TransGen.head'_iff.mp h
    exact ih next hnext (.trans_right hback (.single hnext))

end Trails

end RefundStudy.Foundation
