/-
  Paths as texts over any alphabet with a separator and a dot, and the directory a
  path leads to.
-/
import Mathlib.Data.List.Basic

set_option autoImplicit false

namespace RefundStudy.Foundation

section Splitting

variable {α : Type} [BEq α] [LawfulBEq α]

theorem not_mem_of_mem_splitOn (separator : α) (length : Nat) :
    ∀ {text piece : List α}, text.length ≤ length → piece ∈ text.splitOn separator →
      separator ∉ piece := by
  induction length with
  | zero =>
    intro text piece hlength h
    obtain rfl := List.length_eq_zero_iff.mp (Nat.le_zero.mp hlength)
    rw [List.splitOn_eq_singleton List.not_mem_nil, List.mem_singleton] at h
    rw [h]
    exact List.not_mem_nil
  | succ length ih =>
    intro text piece hlength h
    by_cases hmem : separator ∈ text
    · obtain ⟨first, more, rfl, hfirst⟩ := List.eq_append_cons_of_mem hmem
      rw [List.splitOn_append_cons_self_of_not_mem hfirst, List.mem_cons] at h
      rcases h with rfl | h
      · exact hfirst
      · rw [List.length_append, List.length_cons] at hlength
        exact ih (by omega) h
    · rw [List.splitOn_eq_singleton hmem, List.mem_singleton] at h
      rw [h]
      exact hmem

end Splitting

section Paths

variable {α : Type} [DecidableEq α] (slash dot : α)

def enter (directory : List (List α)) (segment : List α) : List (List α) :=
  if segment = [] ∨ segment = [dot] then directory
  else if segment = [dot, dot] then directory.dropLast
  else directory ++ [segment]

def resolvePath (root : List (List α)) (path : List α) : List (List α) :=
  (path.splitOn slash).foldl (enter dot) (if path.head? = some slash then [] else root)

/-- The same for a relative path of which the root is not known: two dots that cannot go up stay. -/
def enterRelative (directory : List (List α)) (segment : List α) : List (List α) :=
  if segment = [dot, dot] ∧ (directory = [] ∨ directory.getLast? = some [dot, dot]) then
    directory ++ [segment]
  else enter dot directory segment

def normalizePath (path : List α) : List α :=
  if path.head? = some slash then slash :: [slash].intercalate (resolvePath slash dot [] path)
  else
    let segments := (path.splitOn slash).foldl (enterRelative dot) []
    if segments = [] then [dot] else [slash].intercalate segments

def IsName (segment : List α) : Prop :=
  segment ≠ [] ∧ segment ≠ [dot] ∧ segment ≠ [dot, dot]

variable {slash dot}

theorem enter_names {segments : List (List α)} (h : ∀ segment ∈ segments, IsName dot segment) :
    ∀ directory, segments.foldl (enter dot) directory = directory ++ segments := by
  induction segments with
  | nil => exact fun directory => (List.append_nil directory).symm
  | cons segment rest ih =>
    intro directory
    obtain ⟨hempty, hdot, hdots⟩ := h segment List.mem_cons_self
    rw [List.foldl_cons, ih fun other hmem => h other (List.mem_cons_of_mem _ hmem), enter,
      if_neg (not_or.mpr ⟨hempty, hdot⟩), if_neg hdots, List.append_assoc, List.singleton_append]

theorem resolvePath_names {path : List α} (hrelative : path.head? ≠ some slash)
    (h : ∀ segment ∈ path.splitOn slash, IsName dot segment) (root : List (List α)) :
    resolvePath slash dot root path = root ++ path.splitOn slash := by
  rw [resolvePath, if_neg hrelative, enter_names h]

/-- Without two dots a relative path keeps its segments other than the empty ones and the dots. -/
theorem enterRelative_filter {segments : List (List α)} (h : [dot, dot] ∉ segments) :
    ∀ directory, segments.foldl (enterRelative dot) directory =
      directory ++ segments.filter fun segment => !(decide (segment = [] ∨ segment = [dot])) := by
  induction segments with
  | nil => exact fun directory => (List.append_nil directory).symm
  | cons segment rest ih =>
    intro directory
    obtain ⟨hdots, hrest⟩ := not_or.mp (List.mem_cons.not.mp h)
    rw [List.foldl_cons, ih hrest, enterRelative, if_neg fun hboth => hdots hboth.1.symm, enter,
      if_neg (Ne.symm hdots)]
    split
    · rename_i hstays
      rw [List.filter_cons_of_neg (by simp [hstays])]
    · rename_i hgoes
      rw [List.filter_cons_of_pos (by simp [hgoes]), List.append_assoc, List.singleton_append]

/-- A relative path without two dots is its own normal form exactly when it is made of names. -/
theorem normalizePath_eq_self_iff {path : List α} (hrelative : path.head? ≠ some slash)
    (hdots : [dot, dot] ∉ path.splitOn slash) (hdot : path ≠ [dot]) :
    normalizePath slash dot path = path ↔
      ∀ segment ∈ path.splitOn slash, IsName dot segment := by
  have hsegments := enterRelative_filter hdots []
  rw [List.nil_append] at hsegments
  rw [normalizePath, if_neg hrelative]
  dsimp only
  rw [hsegments]
  constructor
  · intro h segment hmem
    split at h
    · exact absurd h.symm hdot
    · rename_i hkept
      -- the segments that are kept are cut again at the same places
      have hcut := List.splitOn_intercalate slash (fun piece hpiece =>
        not_mem_of_mem_splitOn slash _ (Nat.le_refl _) (List.mem_of_mem_filter hpiece)) hkept
      rw [h] at hcut
      rw [hcut] at hmem
      have hkeeps := (List.mem_filter.mp hmem).2
      simp only [Bool.not_eq_true', decide_eq_false_iff_not, not_or] at hkeeps
      refine ⟨hkeeps.1, hkeeps.2, ?_⟩
      rintro rfl
      exact hdots (List.mem_of_mem_filter hmem)
  · intro h
    have hall : ((path.splitOn slash).filter fun segment =>
        !(decide (segment = [] ∨ segment = [dot]))) = path.splitOn slash := by
      refine List.filter_eq_self.mpr fun segment hmem => ?_
      simp [(h segment hmem).1, (h segment hmem).2.1]
    rw [hall, if_neg (List.splitOn_ne_nil slash path)]
    exact List.intercalate_splitOn slash

end Paths

end RefundStudy.Foundation
