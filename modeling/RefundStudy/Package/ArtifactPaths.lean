/-
  Where an accepted artifact path leads (`classifyArtifactPath` of
  `record-contract/evidence-refs.ts`, BR-RUA-035).
-/
import RefundStudy.Foundation.PosixPath
import RefundStudy.Package.Layout

set_option autoImplicit false

namespace RefundStudy.Package.Paths

open Foundation Store

structure AcceptedPath (path : JsString) : Prop where
  relative : path.head? ≠ some slashUnit
  noDrive : startsWithDrive path = false
  names : ∀ segment ∈ path.splitOn slashUnit, IsName dotUnit segment
  noBackslash : backslashUnit ∉ path
  noNul : 0 ∉ path
  trimmed : hasEdgeWhitespace path = false

theorem classifyArtifactPath_eq_none (path : JsString) :
    classifyArtifactPath path = none ↔ AcceptedPath path := by
  unfold classifyArtifactPath isNonNormalized
  dsimp only
  constructor
  · intro h
    split at h
    · cases h
    · rename_i habsolute
      split at h
      · cases h
      · rename_i hdots
        split at h
        · cases h
        · rename_i hnormal
          simp only [Bool.or_eq_true, decide_eq_true_eq, not_or, Bool.not_eq_true,
            List.contains_iff_mem, List.any_eq_true, beq_iff_eq, not_exists, not_and] at *
          refine ⟨habsolute.1, habsolute.2, fun segment hmem => ?_, hnormal.1.1.1, hnormal.1.1.2,
            hnormal.1.2⟩
          refine ⟨(hnormal.2 segment hmem).1, (hnormal.2 segment hmem).2, ?_⟩
          rintro rfl
          exact hdots hmem
  · intro h
    have hdots : [dotUnit, dotUnit] ∉ path.splitOn slashUnit := fun hmem => (h.names _ hmem).2.2 rfl
    have hnames : ∀ segment ∈ path.splitOn slashUnit, segment ≠ [] ∧ segment ≠ [dotUnit] :=
      fun segment hmem => ⟨(h.names segment hmem).1, (h.names segment hmem).2.1⟩
    rw [if_neg (by simp [h.relative, h.noDrive]), if_neg (by simpa using hdots),
      if_neg (by simpa [h.noBackslash, h.noNul, h.trimmed] using hnames)]

/-- An accepted path leads strictly into the root, no other accepted path leads to the same place,
and apart from the characters and the drives it refuses, the check accepts the relative paths that
are their own normal form and do not go up. -/
theorem artifact_paths_stay_inside (path : JsString) :
    (classifyArtifactPath path = none → ∀ root, ∃ inside, inside ≠ [] ∧
      resolvePath slashUnit dotUnit root path = root ++ inside) ∧
    (classifyArtifactPath path = none → ∀ other, classifyArtifactPath other = none → ∀ root,
      resolvePath slashUnit dotUnit root path = resolvePath slashUnit dotUnit root other →
      path = other) ∧
    (backslashUnit ∉ path → 0 ∉ path → hasEdgeWhitespace path = false →
      startsWithDrive path = false →
      (classifyArtifactPath path = none ↔ path ≠ [] ∧ path.head? ≠ some slashUnit ∧ path ≠ [dotUnit] ∧
        normalizePath slashUnit dotUnit path = path ∧
        [dotUnit, dotUnit] ∉ path.splitOn slashUnit)) := by
  refine ⟨?_, ?_, ?_⟩
  · intro h root
    have haccepted := (classifyArtifactPath_eq_none path).mp h
    exact ⟨path.splitOn slashUnit, List.splitOn_ne_nil slashUnit path,
      resolvePath_names haccepted.relative haccepted.names root⟩
  · intro h other hother root hsame
    have haccepted := (classifyArtifactPath_eq_none path).mp h
    have haccepts := (classifyArtifactPath_eq_none other).mp hother
    rw [resolvePath_names haccepted.relative haccepted.names,
      resolvePath_names haccepts.relative haccepts.names, List.append_cancel_left_eq] at hsame
    rw [← @List.intercalate_splitOn _ path _ _ slashUnit, hsame, List.intercalate_splitOn]
  · intro hbackslash hnul hedge hdrive
    rw [classifyArtifactPath_eq_none]
    constructor
    · intro h
      have hdots : [dotUnit, dotUnit] ∉ path.splitOn slashUnit :=
        fun hmem => (h.names _ hmem).2.2 rfl
      have hempty : path ≠ [] := by
        rintro rfl
        exact (h.names [] (by decide)).1 rfl
      have hdot : path ≠ [dotUnit] := by
        rintro rfl
        exact (h.names [dotUnit] (by decide)).2.1 rfl
      exact ⟨hempty, h.relative, hdot, (normalizePath_eq_self_iff h.relative hdots hdot).mpr h.names,
        hdots⟩
    · rintro ⟨-, hrelative, hdot, hnormal, hdots⟩
      exact ⟨hrelative, hdrive, (normalizePath_eq_self_iff hrelative hdots hdot).mp hnormal,
        hbackslash, hnul, hedge⟩

end RefundStudy.Package.Paths
