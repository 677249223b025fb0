/-
  A map that keeps its keys in the order they were first set, as a JavaScript `Map` does:
  setting a key again replaces the value and keeps the place.
-/
import Mathlib.Data.List.Nodup

set_option autoImplicit false

namespace RefundStudy.Foundation

abbrev InsertionMap (κ ν : Type) : Type := List (κ × ν)

namespace InsertionMap

variable {κ ν : Type} [DecidableEq κ]

/-- `map.get(key)`. -/
def get? (m : InsertionMap κ ν) (key : κ) : Option ν :=
  match m with
  | [] => none
  | (k, v) :: rest => if k = key then some v else get? rest key

/-- `map.set(key, value)`. -/
def set (m : InsertionMap κ ν) (key : κ) (value : ν) : InsertionMap κ ν :=
  match m with
  | [] => [(key, value)]
  | (k, v) :: rest => if k = key then (k, value) :: rest else (k, v) :: set rest key value

/-- `map.values()`. -/
def values (m : InsertionMap κ ν) : List ν := m.map Prod.snd

@[simp] theorem get?_nil (key : κ) : get? ([] : InsertionMap κ ν) key = none := rfl

variable (m : InsertionMap κ ν)

@[simp] theorem get?_set_self (key : κ) (value : ν) : (m.set key value).get? key = some value := by
  induction m with
  | nil => simp [set, get?]
  | cons entry rest ih =>
    obtain ⟨k, v⟩ := entry
    by_cases hk : k = key <;> simp [set, get?, hk, ih]

theorem get?_set_of_ne {key other : κ} (hne : other ≠ key) (value : ν) :
    (m.set key value).get? other = m.get? other := by
  induction m with
  | nil => simp [set, get?, Ne.symm hne]
  | cons entry rest ih =>
    obtain ⟨k, v⟩ := entry
    by_cases hk : k = key
    · subst hk
      simp [set, get?, Ne.symm hne]
    · simp [set, get?, hk, ih]

/-- Setting a key does not show among the other keys. -/
theorem filter_set {keep : κ → Bool} {key : κ} (h : keep key = false) (value : ν) :
    (m.set key value).filter (fun entry => keep entry.1) = m.filter fun entry => keep entry.1 := by
  induction m with
  | nil => simp [set, h]
  | cons entry rest ih =>
    obtain ⟨k, v⟩ := entry
    by_cases hk : k = key
    · subst hk
      simp [set, h]
    · simp only [set, if_neg hk, List.filter_cons, ih]

/-- What `get?` finds is an entry. -/
theorem mem_of_get? {m : InsertionMap κ ν} {key : κ} {value : ν} (h : m.get? key = some value) :
    (key, value) ∈ m := by
  induction m with
  | nil => cases h
  | cons entry rest ih =>
    obtain ⟨k, v⟩ := entry
    by_cases hk : k = key
    · subst hk
      simp only [get?, if_true, Option.some.injEq] at h
      rw [h]
      exact List.mem_cons_self
    · simp only [get?, if_neg hk] at h
      exact List.mem_cons_of_mem _ (ih h)

theorem keys_set (key : κ) (value : ν) :
    (m.set key value).map Prod.fst =
      if key ∈ m.map Prod.fst then m.map Prod.fst else m.map Prod.fst ++ [key] := by
  induction m with
  | nil => simp [set]
  | cons entry rest ih =>
    obtain ⟨k, v⟩ := entry
    by_cases hk : k = key
    · simp [set, hk]
    · simp only [set, if_neg hk, List.map_cons, ih, List.mem_cons, Ne.symm hk, false_or]
      split <;> simp

theorem mem_set {m : InsertionMap κ ν} {key : κ} {value : ν} {entry : κ × ν}
    (h : entry ∈ m.set key value) : entry = (key, value) ∨ entry ∈ m := by
  induction m with
  | nil => exact .inl (List.mem_singleton.mp h)
  | cons first rest ih =>
    obtain ⟨k, v⟩ := first
    unfold set at h
    split at h
    · rename_i hk
      rcases List.mem_cons.mp h with rfl | hrest
      · exact .inl (by rw [hk])
      · exact .inr (List.mem_cons_of_mem _ hrest)
    · rcases List.mem_cons.mp h with rfl | hrest
      · exact .inr List.mem_cons_self
      · rcases ih hrest with heq | hmem
        · exact .inl heq
        · exact .inr (List.mem_cons_of_mem _ hmem)

theorem get?_map {μ : Type} (change : ν → μ) (key : κ) :
    get? (m.map fun entry => (entry.1, change entry.2) : InsertionMap κ μ) key =
      (m.get? key).map change := by
  induction m with
  | nil => rfl
  | cons entry rest ih =>
    by_cases hk : entry.1 = key
    · simp [get?, hk]
    · simp [get?, hk, ih]

theorem get?_of_not_mem {m : InsertionMap κ ν} {key : κ} (h : key ∉ m.map Prod.fst) :
    m.get? key = none := by
  cases hfound : m.get? key with
  | none => rfl
  | some value => exact absurd (List.mem_map.mpr ⟨_, mem_of_get? hfound, rfl⟩) h

theorem set_of_not_mem {m : InsertionMap κ ν} {key : κ} (h : key ∉ m.map Prod.fst) (value : ν) :
    m.set key value = m ++ [(key, value)] := by
  induction m with
  | nil => rfl
  | cons entry rest ih =>
    obtain ⟨k, v⟩ := entry
    rw [List.map_cons, List.mem_cons, not_or] at h
    simp only [set, if_neg (Ne.symm h.1), ih h.2, List.cons_append]

theorem set_of_get? {m : InsertionMap κ ν} {key : κ} {value : ν} (h : m.get? key = some value) :
    m.set key value = m := by
  induction m with
  | nil => cases h
  | cons entry rest ih =>
    obtain ⟨k, v⟩ := entry
    by_cases hk : k = key
    · simp only [get?, if_pos hk, Option.some.injEq] at h
      simp only [set, if_pos hk, h]
    · simp only [get?, if_neg hk] at h
      simp only [set, if_neg hk, ih h]

theorem nodup_set {m : InsertionMap κ ν} (h : (m.map Prod.fst).Nodup) (key : κ) (value : ν) :
    ((m.set key value).map Prod.fst).Nodup := by
  rw [keys_set]
  split
  · exact h
  · rename_i hkey
    exact h.append (List.nodup_singleton key) (by simpa using hkey)

/-- With distinct keys, an entry is what `get?` finds. -/
theorem get?_of_mem {m : InsertionMap κ ν} (h : (m.map Prod.fst).Nodup) {key : κ} {value : ν}
    (hmem : (key, value) ∈ m) : m.get? key = some value := by
  induction m with
  | nil => cases hmem
  | cons entry rest ih =>
    obtain ⟨k, v⟩ := entry
    rw [List.map_cons, List.nodup_cons] at h
    rcases List.mem_cons.mp hmem with heq | hrest
    · obtain ⟨rfl, rfl⟩ := Prod.mk.inj heq
      simp [get?]
    · have hk : k ≠ key := by
        rintro rfl
        exact h.1 (List.mem_map.mpr ⟨_, hrest, rfl⟩)
      simp only [get?, if_neg hk]
      exact ih h.2 hrest

end InsertionMap

end RefundStudy.Foundation
