/-
  Collecting the items of a list under their keys.
-/
import RefundStudy.Foundation.InsertionMap
import Mathlib.Data.List.Induction
import Mathlib.Data.List.Perm.Basic
import Mathlib.Data.Finset.Card

set_option autoImplicit false

namespace RefundStudy.Foundation

/-- More than one value is left once repeats are dropped exactly when two values differ. -/
theorem one_lt_length_dedup {α : Type} [DecidableEq α] {values : List α} :
    1 < values.dedup.length ↔ ∃ first ∈ values, ∃ second ∈ values, first ≠ second := by
  rw [← List.card_toFinset, Finset.one_lt_card]
  simp only [List.mem_toFinset]

namespace InsertionMap

variable {α κ ν : Type} [DecidableEq κ]

def grouped (key : α → κ) (value : α → ν) (items : List α) : InsertionMap κ (List ν) :=
  items.foldl (fun groups item =>
    groups.set (key item) ((groups.get? (key item)).getD [] ++ [value item])) []

def valuesAt (key : α → κ) (value : α → ν) (items : List α) (k : κ) : List ν :=
  (items.filter fun item => decide (key item = k)).map value

variable {key : α → κ} {value : α → ν} {items : List α} {k : κ}

theorem grouped_concat (items : List α) (item : α) :
    grouped key value (items ++ [item]) =
      (grouped key value items).set (key item)
        (((grouped key value items).get? (key item)).getD [] ++ [value item]) := by
  unfold grouped
  rw [List.foldl_append]
  rfl

theorem valuesAt_concat (items : List α) (item : α) (k : κ) :
    valuesAt key value (items ++ [item]) k =
      valuesAt key value items k ++ if key item = k then [value item] else [] := by
  unfold valuesAt
  by_cases hkey : key item = k
  · simp [List.filter_append, hkey]
  · simp [List.filter_append, hkey]

theorem valuesAt_eq_nil (h : k ∉ items.map key) : valuesAt key value items k = [] := by
  unfold valuesAt
  rw [List.map_eq_nil_iff, List.filter_eq_nil_iff]
  intro item hitem hkey
  exact h (List.mem_map.mpr ⟨item, hitem, of_decide_eq_true hkey⟩)

theorem get?_grouped (key : α → κ) (value : α → ν) (items : List α) (k : κ) :
    (grouped key value items).get? k =
      if k ∈ items.map key then some (valuesAt key value items k) else none := by
  induction items using List.reverseRecOn with
  | nil => rfl
  | append_singleton items item ih =>
    rw [grouped_concat, valuesAt_concat, List.map_append, List.map_singleton]
    by_cases hkey : key item = k
    · subst hkey
      rw [get?_set_self, if_pos (by simp), if_pos rfl, ih]
      split
      · rfl
      · rename_i habsent
        rw [valuesAt_eq_nil habsent]
        rfl
    · rw [get?_set_of_ne _ (Ne.symm hkey), ih, if_neg hkey, List.append_nil]
      simp [Ne.symm hkey]

theorem nodup_keys_grouped (key : α → κ) (value : α → ν) (items : List α) :
    ((grouped key value items).map Prod.fst).Nodup := by
  induction items using List.reverseRecOn with
  | nil => exact List.nodup_nil
  | append_singleton items item ih =>
    rw [grouped_concat]
    exact nodup_set ih _ _

theorem mem_grouped {entry : κ × List ν} :
    entry ∈ grouped key value items ↔
      entry.1 ∈ items.map key ∧ entry.2 = valuesAt key value items entry.1 := by
  have hget := get?_grouped key value items entry.1
  constructor
  · intro hmem
    rw [get?_of_mem (nodup_keys_grouped key value items) hmem] at hget
    split at hget
    · rename_i hkey
      exact ⟨hkey, Option.some.inj hget⟩
    · cases hget
  · intro hentry
    rw [if_pos hentry.1, ← hentry.2] at hget
    exact mem_of_get? hget

theorem mem_keys_grouped : k ∈ (grouped key value items).map Prod.fst ↔ k ∈ items.map key := by
  rw [List.mem_map]
  constructor
  · intro hmem
    obtain ⟨entry, hentry, rfl⟩ := hmem
    exact (mem_grouped.mp hentry).1
  · intro hkey
    exact ⟨(k, valuesAt key value items k), mem_grouped.mpr ⟨hkey, rfl⟩, rfl⟩

theorem grouped_eq_map (key : α → κ) (value : α → ν) (items : List α) :
    grouped key value items = ((grouped key value items).map Prod.fst).map
      fun k => (k, valuesAt key value items k) := by
  have hentry : ∀ entry ∈ grouped key value items,
      (entry.1, valuesAt key value items entry.1) = entry := by
    intro entry hmem
    rw [← (mem_grouped.mp hmem).2]
  rw [List.map_map]
  exact ((List.map_congr_left hentry).trans (List.map_id _)).symm

theorem valuesAt_perm {other : List α} (h : items.Perm other) (k : κ) :
    (valuesAt key value items k).Perm (valuesAt key value other k) :=
  (h.filter _).map value

/-! ## Maps with distinct keys -/

section Distinct

variable {β : Type}

theorem foldl_set_eq_append (key : α → κ) (value : α → ν) (m : InsertionMap κ ν)
    (hnew : ∀ item ∈ items, key item ∉ m.map Prod.fst) (hdistinct : (items.map key).Nodup) :
    items.foldl (fun m item => m.set (key item) (value item)) m =
      m ++ items.map fun item => (key item, value item) := by
  induction items generalizing m with
  | nil => simp
  | cons first rest ih =>
    rw [List.map_cons, List.nodup_cons] at hdistinct
    rw [List.foldl_cons, set_of_not_mem (hnew first List.mem_cons_self), ih, List.map_cons,
      List.append_assoc]
    · rfl
    · intro item hitem hmem
      rw [List.map_append, List.mem_append] at hmem
      rcases hmem with hold | hfirst
      · exact hnew item (List.mem_cons_of_mem _ hitem) hold
      · have hsame : key item = key first := List.mem_singleton.mp hfirst
        apply hdistinct.1
        rw [← hsame]
        exact List.mem_map_of_mem hitem
    · exact hdistinct.2

theorem filter_flatMap_key {m : InsertionMap κ ν} (hdistinct : (m.map Prod.fst).Nodup)
    (give : κ × ν → List β) (name : β → Option κ)
    (hnames : ∀ entry, ∀ thing ∈ give entry, name thing = some entry.1) (k : κ) :
    (m.flatMap give).filter (fun thing => decide (name thing = some k)) =
      ((m.get? k).map fun found => give (k, found)).getD [] := by
  induction m with
  | nil => rfl
  | cons entry rest ih =>
    obtain ⟨first, found⟩ := entry
    rw [List.map_cons, List.nodup_cons] at hdistinct
    rw [List.flatMap_cons, List.filter_append, ih hdistinct.2]
    by_cases hkey : first = k
    · subst hkey
      have habsent : get? rest first = none := get?_of_not_mem hdistinct.1
      rw [habsent, List.filter_eq_self.mpr]
      · simp [get?]
      · intro thing hthing
        exact decide_eq_true (hnames _ thing hthing)
    · have hnone : (give (first, found)).filter
          (fun thing => decide (name thing = some k)) = [] := by
        rw [List.filter_eq_nil_iff]
        intro thing hthing hsame
        have hnamed := hnames _ thing hthing
        rw [of_decide_eq_true hsame] at hnamed
        exact hkey (Option.some.inj hnamed).symm
      rw [hnone, List.nil_append]
      simp [get?, hkey]

end Distinct

/-- Every item set under its key, in order. -/
def latest (key : α → κ) (items : List α) : InsertionMap κ α :=
  items.foldl (fun held item => held.set (key item) item) []

theorem latest_concat (items : List α) (item : α) :
    latest key (items ++ [item]) = (latest key items).set (key item) item := by
  unfold latest
  rw [List.foldl_append]
  rfl

theorem nodup_keys_latest (key : α → κ) (items : List α) :
    ((latest key items).map Prod.fst).Nodup := by
  induction items using List.reverseRecOn with
  | nil => exact List.nodup_nil
  | append_singleton items item ih =>
    rw [latest_concat]
    exact nodup_set ih _ _

/-- A key holds an item exactly when the item has that key and none after it has. -/
theorem get?_latest {item : α} : (latest key items).get? k = some item ↔
    ∃ front back, items = front ++ item :: back ∧ key item = k ∧ ∀ other ∈ back, key other ≠ k := by
  induction items using List.reverseRecOn with
  | nil => simp [latest]
  | append_singleton items last ih =>
    rw [latest_concat]
    by_cases hkey : key last = k
    · subst hkey
      rw [get?_set_self]
      constructor
      · intro heq
        obtain rfl := Option.some.inj heq
        exact ⟨items, [], rfl, rfl, fun other hmem => absurd hmem List.not_mem_nil⟩
      · intro hsplit
        obtain ⟨front, back, heq, -, hafter⟩ := hsplit
        rcases List.eq_nil_or_concat' back with rfl | ⟨most, final, rfl⟩
        · obtain ⟨-, hsame⟩ := List.append_inj' heq rfl
          rw [List.singleton_inj.mp hsame]
        · rw [← List.cons_append, ← List.append_assoc] at heq
          obtain ⟨-, hsame⟩ := List.append_inj' heq rfl
          refine absurd ?_ (hafter final (List.mem_append_right _ (List.mem_singleton_self final)))
          rw [List.singleton_inj.mp hsame]
    · rw [get?_set_of_ne _ (Ne.symm hkey), ih]
      constructor
      · intro hsplit
        obtain ⟨front, back, rfl, hitem, hafter⟩ := hsplit
        refine ⟨front, back ++ [last], by simp, hitem, fun other hmem => ?_⟩
        rcases List.mem_append.mp hmem with hmem | hmem
        · exact hafter other hmem
        · rw [List.mem_singleton.mp hmem]
          exact hkey
      · intro hsplit
        obtain ⟨front, back, heq, hitem, hafter⟩ := hsplit
        rcases List.eq_nil_or_concat' back with rfl | ⟨most, final, rfl⟩
        · obtain ⟨-, hsame⟩ := List.append_inj' heq rfl
          rw [List.singleton_inj.mp hsame] at hkey
          exact absurd hitem hkey
        · rw [← List.cons_append, ← List.append_assoc] at heq
          obtain ⟨hfront, -⟩ := List.append_inj' heq rfl
          exact ⟨front, most, hfront, hitem,
            fun other hmem => hafter other (List.mem_append_left _ hmem)⟩

theorem mem_values_latest {item : α} : item ∈ (latest key items).values ↔
    ∃ front back, items = front ++ item :: back ∧ ∀ other ∈ back, key other ≠ key item := by
  constructor
  · intro hmem
    obtain ⟨⟨k, held⟩, hin, rfl⟩ := List.mem_map.mp hmem
    obtain ⟨front, back, heq, hkey, hafter⟩ :=
      get?_latest.mp (get?_of_mem (nodup_keys_latest key items) hin)
    rw [← hkey] at hafter
    exact ⟨front, back, heq, hafter⟩
  · intro hsplit
    obtain ⟨front, back, heq, hafter⟩ := hsplit
    have hget : (latest key items).get? (key item) = some item :=
      get?_latest.mpr ⟨front, back, heq, rfl, hafter⟩
    exact List.mem_map.mpr ⟨_, mem_of_get? hget, rfl⟩

theorem mem_values_latest_append {more : List α} {item : α}
    (hmem : item ∈ (latest key items).values) :
    ∃ last ∈ (latest key (items ++ more)).values, key last = key item ∧
      (last = item ∨ last ∈ more) := by
  induction more using List.reverseRecOn with
  | nil =>
    rw [List.append_nil]
    exact ⟨item, hmem, rfl, .inl rfl⟩
  | append_singleton more final ih =>
    rw [← List.append_assoc]
    by_cases hkey : key final = key item
    · refine ⟨final, mem_values_latest.mpr ⟨items ++ more, [], rfl, ?_⟩, hkey, .inr ?_⟩
      · exact fun other hother => absurd hother List.not_mem_nil
      · exact List.mem_append_right _ (List.mem_singleton_self final)
    · obtain ⟨last, hlast, hsame, hwhich⟩ := ih
      obtain ⟨front, back, heq, hafter⟩ := mem_values_latest.mp hlast
      refine ⟨last, mem_values_latest.mpr ⟨front, back ++ [final], ?_, fun other hother => ?_⟩,
        hsame, hwhich.imp id (List.mem_append_left _)⟩
      · rw [heq, List.append_assoc, List.cons_append]
      · rcases List.mem_append.mp hother with hback | hfinal
        · exact hafter other hback
        · rw [List.mem_singleton.mp hfinal, hsame]
          exact hkey

end InsertionMap

end RefundStudy.Foundation
