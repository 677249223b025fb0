/-
  Joining records to values that are found by key.
-/
import Mathlib.Data.List.Induction
import RefundStudy.Foundation.InsertionMap

set_option autoImplicit false

namespace RefundStudy.Foundation

variable {ρ κ ν ε : Type}

/-! ## Records at one key -/

section OneKey

variable (join : ρ → Option ν → Except ε ν)

def joinAt (current : Option ν) (record : ρ) : Option ν :=
  match join record current with
  | .ok value => some value
  | .error _ => current

def joiners (current : Option ν) : List ρ → List ρ
  | [] => []
  | record :: rest =>
    match join record current with
    | .ok value => record :: joiners (some value) rest
    | .error _ => joiners current rest

variable {join} {current : Option ν}

theorem joiners_cons (record : ρ) (rest : List ρ) :
    joiners join current (record :: rest) =
      (if (join record current).isOk then [record] else []) ++
        joiners join (joinAt join current record) rest := by
  rw [joiners, joinAt]
  cases join record current with
  | error why => rfl
  | ok value => rfl

theorem joiners_append (first second : List ρ) :
    joiners join current (first ++ second) =
      joiners join current first ++ joiners join (first.foldl (joinAt join) current) second := by
  induction first generalizing current with
  | nil => rfl
  | cons record rest ih =>
    rw [List.cons_append, joiners_cons, joiners_cons, ih, List.append_assoc, List.foldl_cons]

theorem mem_of_mem_joiners {records : List ρ} {record : ρ}
    (h : record ∈ joiners join current records) : record ∈ records := by
  induction records generalizing current with
  | nil => exact h
  | cons first rest ih =>
    rw [joiners_cons, List.mem_append] at h
    rcases h with hfirst | hrest
    · split at hfirst
      · rw [List.mem_singleton.mp hfirst]
        exact List.mem_cons_self
      · cases hfirst
    · exact List.mem_cons_of_mem _ (ih hrest)

theorem foldl_joinAt_of_joiners_nil {records : List ρ} (h : joiners join current records = []) :
    records.foldl (joinAt join) current = current := by
  induction records generalizing current with
  | nil => rfl
  | cons record rest ih =>
    rw [joiners] at h
    rw [List.foldl_cons, joinAt]
    cases hjoin : join record current with
    | ok value =>
      rw [hjoin] at h
      cases h
    | error why =>
      rw [hjoin] at h
      exact ih h

end OneKey

/-! ## The loop -/

structure KeyedState (ρ κ ν ε : Type) where
  changed : InsertionMap κ ν
  refused : List (ρ × ε)

section Loop

variable [DecidableEq κ] (key : ρ → κ) (join : ρ → Option ν → Except ε ν) (original : κ → Option ν)

def KeyedState.current (state : KeyedState ρ κ ν ε) (place : κ) : Option ν :=
  (state.changed.get? place).or (original place)

def keyedStep (state : KeyedState ρ κ ν ε) (record : ρ) : KeyedState ρ κ ν ε :=
  match join record (state.current original (key record)) with
  | .ok value => { state with changed := state.changed.set (key record) value }
  | .error why => { state with refused := state.refused ++ [(record, why)] }

variable (records : List ρ)

def keyedRun : KeyedState ρ κ ν ε :=
  records.foldl (keyedStep key join original) ⟨[], []⟩

def recordsAt (place : κ) (records : List ρ) : List ρ :=
  records.filter fun record => decide (key record = place)

/-- What the records of a key make of the value that was there. -/
def valueAt (place : κ) (records : List ρ) : Option ν :=
  (recordsAt key place records).foldl (joinAt join) (original place)

variable {key join original}

theorem recordsAt_concat (place : κ) (records : List ρ) (record : ρ) :
    recordsAt key place (records ++ [record]) =
      recordsAt key place records ++ if key record = place then [record] else [] := by
  unfold recordsAt
  rw [List.filter_append]
  by_cases hkey : key record = place
  · simp [hkey]
  · simp [hkey]

theorem valueAt_concat (place : κ) (records : List ρ) (record : ρ) :
    valueAt key join original place (records ++ [record]) =
      if key record = place then joinAt join (valueAt key join original place records) record
      else valueAt key join original place records := by
  unfold valueAt
  rw [recordsAt_concat, List.foldl_append]
  split
  · rfl
  · rfl

theorem keyedRun_concat (record : ρ) : keyedRun key join original (records ++ [record]) =
      keyedStep key join original (keyedRun key join original records) record := by
  rw [keyedRun, List.foldl_concat, keyedRun]

/-- A turn of the loop changes the value at its record's key and no other. -/
theorem keyedStep_current (state : KeyedState ρ κ ν ε) (record : ρ) (place : κ) :
    (keyedStep key join original state record).current original place =
      if key record = place then joinAt join (state.current original place) record
      else state.current original place := by
  unfold keyedStep joinAt
  by_cases hkey : key record = place
  · subst hkey
    rw [if_pos rfl]
    cases join record (state.current original (key record)) with
    | ok value =>
      simp only [KeyedState.current]
      rw [InsertionMap.get?_set_self, Option.some_or]
    | error why => rfl
  · rw [if_neg hkey]
    cases join record (state.current original (key record)) with
    | ok value =>
      simp only [KeyedState.current]
      rw [InsertionMap.get?_set_of_ne _ (Ne.symm hkey)]
    | error why => rfl

theorem keyedRun_current (place : κ) : (keyedRun key join original records).current original place =
      valueAt key join original place records := by
  induction records using List.reverseRecOn with
  | nil => rfl
  | append_singleton records record ih =>
    rw [keyedRun_concat, keyedStep_current, valueAt_concat, ih]

theorem keyedRun_nodup : ((keyedRun key join original records).changed.map Prod.fst).Nodup := by
  induction records using List.reverseRecOn with
  | nil => exact List.nodup_nil
  | append_singleton records record ih =>
    rw [keyedRun_concat, keyedStep]
    split
    · exact InsertionMap.nodup_set ih _ _
    · exact ih

theorem keyedRun_changed_none_iff (place : κ) :
    (keyedRun key join original records).changed.get? place = none ↔
      joiners join (original place) (recordsAt key place records) = [] := by
  induction records using List.reverseRecOn with
  | nil => exact ⟨fun _ => rfl, fun _ => rfl⟩
  | append_singleton records record ih =>
    have hcurrent := @keyedRun_current _ _ _ _ _ key join original
      records (key record)
    rw [keyedRun_concat, recordsAt_concat, joiners_append, List.append_eq_nil_iff, ← ih, keyedStep,
      hcurrent]
    by_cases hkey : key record = place
    · subst hkey
      rw [if_pos rfl, joiners_cons]
      change _ ↔ _ ∧ (if (join record (valueAt key join original (key record) records)).isOk then
        [record] else []) ++ [] = []
      cases join record (valueAt key join original (key record) records) with
      | ok value => simp [Except.isOk, Except.toBool]
      | error why => simp [Except.isOk, Except.toBool]
    · rw [if_neg hkey]
      cases join record (valueAt key join original (key record) records) with
      | ok value =>
        simp only [InsertionMap.get?_set_of_ne _ (Ne.symm hkey), joiners, and_true]
      | error why => simp only [joiners, and_true]

/-- Why a record is refused after the earlier records, if it is. -/
def refusal (key : ρ → κ) (join : ρ → Option ν → Except ε ν) (original : κ → Option ν)
    (earlier : List ρ) (record : ρ) : Option (ρ × ε) :=
  match join record (valueAt key join original (key record) earlier) with
  | .ok _ => none
  | .error why => some (record, why)

theorem keyedRun_refused : (keyedRun key join original records).refused =
      records.zipIdx.filterMap fun entry =>
        refusal key join original (records.take entry.2) entry.1 := by
  induction records using List.reverseRecOn with
  | nil => rfl
  | append_singleton records record ih =>
    have hbefore : (records.zipIdx.filterMap fun entry =>
        refusal key join original ((records ++ [record]).take entry.2) entry.1) =
        records.zipIdx.filterMap fun entry =>
          refusal key join original (records.take entry.2) entry.1 := by
      apply List.filterMap_congr
      intro entry hmem
      have hindex := (List.mem_zipIdx' hmem).1
      rw [List.take_append_of_le_length (by omega)]
    rw [keyedRun_concat, keyedStep, keyedRun_current, List.zipIdx_append, List.filterMap_append,
      hbefore, ← ih]
    have hlast : ((records ++ [record]).take records.length) = records := by
      rw [List.take_append_of_le_length (Nat.le_refl _), List.take_length]
    simp only [List.zipIdx_singleton, Nat.zero_add, List.filterMap_cons, List.filterMap_nil, hlast,
      refusal]
    cases join record (valueAt key join original (key record) records) with
    | ok value => simp
    | error why => rfl

end Loop

end RefundStudy.Foundation
