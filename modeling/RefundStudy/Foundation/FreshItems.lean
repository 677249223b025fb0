/-
  The items of a list that bring a new key.
-/
import Mathlib.Data.List.Basic

set_option autoImplicit false

namespace RefundStudy.Foundation

section Fresh

variable {α κ : Type} [DecidableEq κ] (key : α → κ)

/-- The items whose key is new, each key once. -/
def fresh (known : List κ) : List α → List α
  | [] => []
  | item :: rest =>
    if key item ∈ known then fresh known rest else item :: fresh (known ++ [key item]) rest

variable {key} {known : List κ} {items : List α}

theorem fresh_sublist : ∀ (known : List κ) (items : List α), (fresh key known items).Sublist items
  | _, [] => .slnil
  | known, item :: rest => by
    rw [fresh]
    split
    · exact (fresh_sublist known rest).cons item
    · exact (fresh_sublist _ rest).cons_cons item

theorem mem_fresh_keys {k : κ} :
    k ∈ (fresh key known items).map key ↔ k ∈ items.map key ∧ k ∉ known := by
  induction items generalizing known with
  | nil => simp [fresh]
  | cons item rest ih =>
    rw [fresh]
    split
    · rename_i hknown
      rw [ih, List.map_cons, List.mem_cons]
      constructor
      · intro h
        exact ⟨.inr h.1, h.2⟩
      · rintro ⟨hitem | hrest, hnew⟩
        · rw [hitem] at hnew
          exact absurd hknown hnew
        · exact ⟨hrest, hnew⟩
    · rename_i hnew
      rw [List.map_cons, List.mem_cons, ih, List.map_cons, List.mem_cons, List.mem_append,
        List.mem_singleton]
      constructor
      · rintro (hitem | ⟨hrest, hother⟩)
        · rw [hitem]
          exact ⟨.inl rfl, hnew⟩
        · exact ⟨.inr hrest, fun hmem => hother (.inl hmem)⟩
      · rintro ⟨hitem | hrest, hother⟩
        · exact .inl hitem
        · by_cases hsame : k = key item
          · exact .inl hsame
          · refine .inr ⟨hrest, fun hmem => ?_⟩
            rcases hmem with hmem | hmem
            · exact hother hmem
            · exact hsame hmem

theorem fresh_eq_nil : fresh key known items = [] ↔ ∀ item ∈ items, key item ∈ known := by
  constructor
  · intro h item hmem
    by_contra hnew
    have hkey : key item ∈ (fresh key known items).map key :=
      mem_fresh_keys.mpr ⟨List.mem_map_of_mem hmem, hnew⟩
    rw [h] at hkey
    cases hkey
  · intro h
    cases hfresh : fresh key known items with
    | nil => rfl
    | cons item rest =>
      have hkey : key item ∈ (fresh key known items).map key := by
        rw [hfresh]
        exact List.mem_cons_self
      obtain ⟨hmem, hnew⟩ := mem_fresh_keys.mp hkey
      obtain ⟨other, hother, heq⟩ := List.mem_map.mp hmem
      rw [← heq] at hnew
      exact absurd (h other hother) hnew

theorem fresh_congr {μ : Type} [DecidableEq μ] {other : α → μ} {known : List κ} {seen : List μ}
    {items : List α} (hknown : ∀ item ∈ items, (key item ∈ known ↔ other item ∈ seen))
    (hkeys : ∀ first ∈ items, ∀ second ∈ items,
      (key first = key second ↔ other first = other second)) :
    fresh key known items = fresh other seen items := by
  induction items generalizing known seen with
  | nil => rfl
  | cons item rest ih =>
    have htail : ∀ first ∈ rest, ∀ second ∈ rest,
        (key first = key second ↔ other first = other second) :=
      fun first hfirst second hsecond =>
        hkeys first (List.mem_cons_of_mem _ hfirst) second (List.mem_cons_of_mem _ hsecond)
    have hitem := hknown item List.mem_cons_self
    rw [fresh, fresh]
    by_cases hmem : key item ∈ known
    · rw [if_pos hmem, if_pos (hitem.mp hmem)]
      exact ih (fun next hnext => hknown next (List.mem_cons_of_mem _ hnext)) htail
    · rw [if_neg hmem, if_neg fun h => hmem (hitem.mpr h)]
      congr 1
      refine ih (fun next hnext => ?_) htail
      rw [List.mem_append, List.mem_append, List.mem_singleton, List.mem_singleton,
        hknown next (List.mem_cons_of_mem _ hnext),
        hkeys next (List.mem_cons_of_mem _ hnext) item List.mem_cons_self]

/-- Items with a known key or an earlier key are passed over, and no others. -/
theorem fresh_eq_filter (known : List κ) (items before : List α) :
    fresh key (known ++ before.map key) items =
      ((items.zipIdx before.length).filter fun entry => decide (key entry.1 ∉ known ∧
        key entry.1 ∉ ((before ++ items).take entry.2).map key)).map Prod.fst := by
  induction items generalizing before with
  | nil => rfl
  | cons item rest ih =>
    have htake : (before ++ item :: rest).take before.length = before := by
      rw [List.take_append_of_le_length (Nat.le_refl _), List.take_length]
    have hnext : before ++ item :: rest = before ++ [item] ++ rest := by simp
    have hrest := ih (before ++ [item])
    rw [List.length_append, List.length_singleton, ← hnext] at hrest
    rw [fresh, List.zipIdx_cons, List.filter_cons, htake]
    by_cases hknown : key item ∈ known ++ before.map key
    · have hdrop : ¬ (key item ∉ known ∧ key item ∉ before.map key) := by
        rw [List.mem_append] at hknown
        tauto
      rw [if_pos hknown, if_neg (by simpa using hdrop), ← hrest]
      -- a key that repeats changes nothing about what is known
      refine fresh_congr (fun next _ => ?_) fun _ _ _ _ => Iff.rfl
      rw [List.map_append, ← List.append_assoc, List.map_singleton]
      constructor
      · intro hmem
        exact List.mem_append_left _ hmem
      · intro hmem
        rcases List.mem_append.mp hmem with hmem | hmem
        · exact hmem
        · rw [List.mem_singleton.mp hmem]
          exact hknown
    · have hkeep : key item ∉ known ∧ key item ∉ before.map key := by
        rw [List.mem_append] at hknown
        tauto
      rw [if_neg hknown, if_pos (by simpa using hkeep), List.map_cons, ← hrest, List.map_append,
        List.append_assoc]
      rfl

end Fresh

end RefundStudy.Foundation
