/-
  Texts joined by a separator whose occurrences are escaped.
-/
import Mathlib.Data.List.Basic

set_option autoImplicit false

namespace RefundStudy.Foundation

variable {α : Type} [DecidableEq α]

/-! ## Global replacement -/

/-- The text with the occurrences of a pattern replaced from the left; `skip` units still belong to
the occurrence that was replaced last. -/
def replaceFrom (pattern replacement : List α) : Nat → List α → List α
  | _, [] => []
  | skip + 1, _ :: rest => replaceFrom pattern replacement skip rest
  | 0, unit :: rest =>
    if pattern.isPrefixOf (unit :: rest) then
      replacement ++ replaceFrom pattern replacement (pattern.length - 1) rest
    else unit :: replaceFrom pattern replacement 0 rest

def replaceAll (pattern replacement text : List α) : List α :=
  replaceFrom pattern replacement 0 text

theorem replaceAll_singleton (unit : α) (replacement text : List α) :
    replaceAll [unit] replacement text =
      text.flatMap fun found => if found = unit then replacement else [found] := by
  induction text with
  | nil => rfl
  | cons found rest ih =>
    rw [List.flatMap_cons, ← ih]
    by_cases hfound : found = unit
    · simp [replaceAll, replaceFrom, hfound]
    · simp [replaceAll, replaceFrom, hfound, Ne.symm hfound]

section Pair

variable {first second : α} {replacement : List α}

theorem replaceAll_pair (rest : List α) :
    replaceAll [first, second] replacement (first :: second :: rest) =
      replacement ++ replaceAll [first, second] replacement rest := by
  simp [replaceAll, replaceFrom]

theorem replaceAll_cons_of_ne {unit : α} (hne : unit ≠ first) (rest : List α) :
    replaceAll [first, second] replacement (unit :: rest) =
      unit :: replaceAll [first, second] replacement rest := by
  simp [replaceAll, replaceFrom, Ne.symm hne]

theorem replaceAll_first_of_ne {unit : α} (hne : unit ≠ second) (rest : List α) :
    replaceAll [first, second] replacement (first :: unit :: rest) =
      first :: replaceAll [first, second] replacement (unit :: rest) := by
  simp [replaceAll, replaceFrom, Ne.symm hne]

end Pair

/-! ## Escaping -/

/-- A mark, a separator, and the units that stand for them after a mark. -/
structure EscapeScheme (α : Type) where
  mark : α
  separator : α
  forMark : α
  forSeparator : α
  separator_ne_mark : separator ≠ mark
  forMark_ne_mark : forMark ≠ mark
  forSeparator_ne_mark : forSeparator ≠ mark
  forMark_ne_separator : forMark ≠ separator
  forSeparator_ne_separator : forSeparator ≠ separator
  forMark_ne_forSeparator : forMark ≠ forSeparator

namespace EscapeScheme

variable (scheme : EscapeScheme α)

def escapeUnit (unit : α) : List α :=
  if unit = scheme.mark then [scheme.mark, scheme.forMark]
  else if unit = scheme.separator then [scheme.mark, scheme.forSeparator]
  else [unit]

/-- Marks are escaped first, then separators. -/
def escape (text : List α) : List α :=
  replaceAll [scheme.separator] [scheme.mark, scheme.forSeparator]
    (replaceAll [scheme.mark] [scheme.mark, scheme.forMark] text)

/-- Separators are restored first, then marks. -/
def unescape (text : List α) : List α :=
  replaceAll [scheme.mark, scheme.forMark] [scheme.mark]
    (replaceAll [scheme.mark, scheme.forSeparator] [scheme.separator] text)

/-- A mark that is followed by neither of the two units. -/
def strayMark : List α → Bool
  | [] => false
  | unit :: rest =>
    (decide (unit = scheme.mark) &&
      !(rest.head?.any fun next =>
        decide (next = scheme.forMark ∨ next = scheme.forSeparator))) || strayMark rest

def joined (texts : List (List α)) : List α :=
  texts.flatMap fun text => scheme.separator :: scheme.escape text

variable (text : List α)

theorem escape_eq_flatMap : scheme.escape text = text.flatMap scheme.escapeUnit := by
  rw [escape, replaceAll_singleton, replaceAll_singleton, List.flatMap_assoc]
  congr 1
  funext unit
  unfold escapeUnit
  by_cases hmark : unit = scheme.mark
  · simp [hmark, scheme.separator_ne_mark.symm, scheme.forMark_ne_separator]
  · simp [hmark]

theorem escape_cons (unit : α) (rest : List α) :
    scheme.escape (unit :: rest) = scheme.escapeUnit unit ++ scheme.escape rest := by
  rw [escape_eq_flatMap, escape_eq_flatMap, List.flatMap_cons]

theorem replaceAll_escape :
    replaceAll [scheme.mark, scheme.forSeparator] [scheme.separator] (scheme.escape text) =
      text.flatMap fun unit =>
        if unit = scheme.mark then [scheme.mark, scheme.forMark] else [unit] := by
  induction text with
  | nil => rfl
  | cons unit rest ih =>
    rw [escape_cons, List.flatMap_cons, ← ih]
    unfold escapeUnit
    split
    · rw [List.cons_append, List.cons_append, List.nil_append,
        replaceAll_first_of_ne scheme.forMark_ne_forSeparator,
        replaceAll_cons_of_ne scheme.forMark_ne_mark]
      rfl
    · rename_i hmark
      split
      · rename_i hseparator
        rw [List.cons_append, List.cons_append, List.nil_append, replaceAll_pair, hseparator]
      · rw [List.cons_append, List.nil_append, replaceAll_cons_of_ne hmark]
        rfl

theorem unescape_escape : scheme.unescape (scheme.escape text) = text := by
  rw [unescape, replaceAll_escape]
  induction text with
  | nil => rfl
  | cons unit rest ih =>
    rw [List.flatMap_cons]
    split
    · rename_i hmark
      rw [List.cons_append, List.cons_append, List.nil_append, replaceAll_pair, ih, hmark]
      rfl
    · rename_i hmark
      rw [List.cons_append, List.nil_append, replaceAll_cons_of_ne hmark, ih]

theorem separator_not_mem_escape : scheme.separator ∉ scheme.escape text := by
  intro hmem
  rw [escape_eq_flatMap] at hmem
  obtain ⟨unit, -, hunit⟩ := List.mem_flatMap.mp hmem
  unfold escapeUnit at hunit
  split at hunit
  · simp [scheme.separator_ne_mark, scheme.forMark_ne_separator.symm] at hunit
  · split at hunit
    · simp [scheme.separator_ne_mark, scheme.forSeparator_ne_separator.symm] at hunit
    · rename_i hne
      exact hne (List.mem_singleton.mp hunit).symm

theorem strayMark_cons_of_ne {unit : α} (hne : unit ≠ scheme.mark) (rest : List α) :
    scheme.strayMark (unit :: rest) = scheme.strayMark rest := by
  simp [strayMark, hne]

theorem strayMark_escape_append {rest : List α} (hrest : scheme.strayMark rest = false) :
    scheme.strayMark (scheme.escape text ++ rest) = false := by
  induction text with
  | nil => exact hrest
  | cons unit text ih =>
    rw [escape_cons, List.append_assoc]
    unfold escapeUnit
    split
    · simp [strayMark, scheme.forMark_ne_mark, ih]
    · rename_i hmark
      split
      · simp [strayMark, scheme.forSeparator_ne_mark, ih]
      · rw [List.singleton_append, strayMark_cons_of_ne scheme hmark, ih]

theorem exists_escape_eq (text : List α) (hseparator : scheme.separator ∉ text)
    (hstray : scheme.strayMark text = false) : ∃ plain, scheme.escape plain = text := by
  match text with
  | [] => exact ⟨[], rfl⟩
  | unit :: rest =>
    rw [List.mem_cons, not_or] at hseparator
    by_cases hmark : unit = scheme.mark
    · -- the unit after the mark tells which unit was escaped
      match rest with
      | [] => simp [strayMark, hmark] at hstray
      | next :: rest =>
        rw [List.mem_cons, not_or] at hseparator
        simp only [strayMark, hmark, decide_true, Bool.true_and, List.head?_cons,
          Option.any_some, Bool.or_eq_false_iff, Bool.not_eq_false', decide_eq_true_eq] at hstray
        obtain ⟨plain, hplain⟩ := exists_escape_eq rest hseparator.2.2 hstray.2.2
        rcases hstray.1 with hnext | hnext
        · refine ⟨scheme.mark :: plain, ?_⟩
          rw [escape_cons, hplain, hmark, hnext]
          simp [escapeUnit]
        · refine ⟨scheme.separator :: plain, ?_⟩
          rw [escape_cons, hplain, hmark, hnext]
          simp [escapeUnit, scheme.separator_ne_mark]
    · rw [strayMark_cons_of_ne scheme hmark] at hstray
      obtain ⟨plain, hplain⟩ := exists_escape_eq rest hseparator.2 hstray
      refine ⟨unit :: plain, ?_⟩
      rw [escape_cons, hplain]
      simp [escapeUnit, hmark, Ne.symm hseparator.1]

theorem escape_unescape {text : List α} (hseparator : scheme.separator ∉ text)
    (hstray : scheme.strayMark text = false) : scheme.escape (scheme.unescape text) = text := by
  obtain ⟨plain, rfl⟩ := scheme.exists_escape_eq text hseparator hstray
  rw [unescape_escape]

/-! ## Joined texts -/

variable (texts : List (List α))

theorem joined_cons :
    scheme.joined (text :: texts) =
      scheme.separator :: (scheme.escape text ++ scheme.joined texts) := by
  rw [joined, List.flatMap_cons]
  rfl

theorem strayMark_joined : scheme.strayMark (scheme.joined texts) = false := by
  induction texts with
  | nil => rfl
  | cons text texts ih =>
    rw [joined_cons, strayMark_cons_of_ne scheme scheme.separator_ne_mark]
    exact scheme.strayMark_escape_append text ih

theorem splitOn_joined :
    (scheme.escape text ++ scheme.joined texts).splitOn scheme.separator =
      (text :: texts).map scheme.escape := by
  induction texts generalizing text with
  | nil =>
    rw [show scheme.joined [] = [] from rfl, List.append_nil,
      List.splitOn_eq_singleton (scheme.separator_not_mem_escape text)]
    rfl
  | cons next texts ih =>
    rw [joined_cons,
      List.splitOn_append_cons_self_of_not_mem (scheme.separator_not_mem_escape text), ih]
    rfl

theorem strayMark_append {first rest : List α}
    (h : scheme.strayMark (first ++ scheme.separator :: rest) = false) :
    scheme.strayMark first = false ∧ scheme.strayMark rest = false := by
  induction first with
  | nil =>
    rw [List.nil_append, strayMark_cons_of_ne scheme scheme.separator_ne_mark] at h
    exact ⟨rfl, h⟩
  | cons unit first ih =>
    rw [List.cons_append, strayMark, Bool.or_eq_false_iff] at h
    obtain ⟨hfirst, hrest⟩ := ih h.2
    refine ⟨?_, hrest⟩
    rw [strayMark, hfirst, Bool.or_false]
    cases first with
    | cons next first => exact h.1
    | nil =>
      have hmark := h.1
      simp only [List.nil_append, List.head?_cons, Option.any_some,
        scheme.forMark_ne_separator.symm, scheme.forSeparator_ne_separator.symm, or_self,
        decide_false, Bool.not_false, Bool.and_true] at hmark
      simp [hmark]

theorem joined_unescape_splitOn (text : List α) (hstray : scheme.strayMark text = false) :
    scheme.joined ((text.splitOn scheme.separator).map scheme.unescape) =
      scheme.separator :: text := by
  by_cases hmem : scheme.separator ∈ text
  · obtain ⟨first, rest, htext, hfirst⟩ := List.eq_append_cons_of_mem hmem
    rw [htext] at hstray
    obtain ⟨hstrayFirst, hstrayRest⟩ := scheme.strayMark_append hstray
    rw [htext, List.splitOn_append_cons_self_of_not_mem hfirst, List.map_cons, joined_cons,
      scheme.escape_unescape hfirst hstrayFirst, joined_unescape_splitOn rest hstrayRest]
  · rw [List.splitOn_eq_singleton hmem, List.map_singleton, joined_cons,
      scheme.escape_unescape hmem hstray]
    rw [show scheme.joined [] = [] from rfl, List.append_nil]
termination_by text.length
decreasing_by
  rw [htext, List.length_append, List.length_cons]
  omega

theorem splitOn_eq_map_escape {text : List α} (hstray : scheme.strayMark text = false) :
    ((text.splitOn scheme.separator).map scheme.unescape).map scheme.escape =
      text.splitOn scheme.separator := by
  have hjoined := scheme.joined_unescape_splitOn text hstray
  generalize hparts : (text.splitOn scheme.separator).map scheme.unescape = parts at hjoined
  cases parts with
  | nil => cases hjoined
  | cons first rest =>
    rw [joined_cons] at hjoined
    rw [← (List.cons.inj hjoined).2, splitOn_joined]

theorem joined_injective {first second : List (List α)}
    (h : scheme.joined first = scheme.joined second) : first = second := by
  cases first with
  | nil =>
    cases second with
    | nil => rfl
    | cons text texts => cases h
  | cons text texts =>
    cases second with
    | nil => cases h
    | cons text' texts' =>
      rw [joined_cons, joined_cons] at h
      have hsplit := congrArg (List.splitOn scheme.separator) (List.cons.inj h).2
      rw [splitOn_joined, splitOn_joined] at hsplit
      have hback := congrArg (List.map scheme.unescape) hsplit
      rw [List.map_map, List.map_map] at hback
      simpa only [Function.comp_def, unescape_escape, List.map_id'] using hback

end EscapeScheme

end RefundStudy.Foundation
