/-
  Replacing every match of a pattern, from left to right.
-/
import Mathlib.Data.List.Basic

set_option autoImplicit false

namespace RefundStudy.Foundation

variable {α : Type} [BEq α] [LawfulBEq α]

/-- Whether a text starts with a word of classes. -/
def matchesWord : List (α → Bool) → List α → Bool
  | [], _ => true
  | _ :: _, [] => false
  | accepts :: word, unit :: text => accepts unit && matchesWord word text

/-- One alternative: `front` and `back` are kept, what `body` matches is replaced. -/
structure Alternative (α : Type) where
  front : List α
  body : List (α → Bool)
  back : List α

def Alternative.word (choice : Alternative α) : List (α → Bool) :=
  choice.front.map (fun unit => (unit == ·)) ++ choice.body ++
    choice.back.map (fun unit => (unit == ·))

/-- `text.replace(pattern, replacement)` with the global flag. -/
structure TextRule (α : Type) where
  choices : List (Alternative α)
  mark : α
  marker : List α

namespace TextRule

/-- The alternative that matches at the start of a text. -/
def find? (rule : TextRule α) (text : List α) : Option (Alternative α) :=
  rule.choices.find? fun choice => matchesWord choice.word text

def replacement (rule : TextRule α) (choice : Alternative α) : List α :=
  choice.front ++ rule.mark :: rule.marker ++ choice.back

/-- The units of a match that are not passed yet are skipped. -/
def rewriteFrom (rule : TextRule α) : Nat → List α → List α
  | _, [] => []
  | skip + 1, _ :: rest => rule.rewriteFrom skip rest
  | 0, unit :: rest =>
    match rule.find? (unit :: rest) with
    | some choice => rule.replacement choice ++ rule.rewriteFrom (choice.word.length - 1) rest
    | none => unit :: rule.rewriteFrom 0 rest

def rewrite (rule : TextRule α) (text : List α) : List α := rule.rewriteFrom 0 text

/-- The pattern matches nowhere in the text. -/
def clean (rule : TextRule α) : List α → Bool
  | [] => true
  | unit :: rest => (rule.find? (unit :: rest)).isNone && rule.clean rest

omit [LawfulBEq α] in
theorem rewrite_of_clean {rule : TextRule α} {text : List α} (h : rule.clean text = true) :
    rule.rewrite text = text := by
  induction text with
  | nil => rfl
  | cons unit rest ih =>
    rw [clean, Bool.and_eq_true, Option.isNone_iff_eq_none] at h
    rw [rewrite, rewriteFrom, h.1]
    exact congrArg (unit :: ·) (ih h.2)

/-! ## Matches of a rewritten text -/

omit [BEq α] [LawfulBEq α] in
theorem matchesWord_append {word : List (α → Bool)} {text : List α} (rest : List α)
    (h : matchesWord word text = true) : matchesWord word (text ++ rest) = true := by
  induction word generalizing text with
  | nil => rfl
  | cons accepts word ih =>
    cases text with
    | nil => cases h
    | cons unit text =>
      rw [matchesWord, Bool.and_eq_true] at h
      rw [List.cons_append, matchesWord, h.1, ih h.2, Bool.and_self]

omit [BEq α] [LawfulBEq α] in
/-- A word does not reach over a unit none of its classes accepts. -/
theorem matchesWord_before {word : List (α → Bool)} {mark : α}
    (hmark : ∀ accepts ∈ word, accepts mark = false) {text rest : List α}
    (h : matchesWord word (text ++ mark :: rest) = true) : matchesWord word text = true := by
  induction word generalizing text with
  | nil => rfl
  | cons accepts word ih =>
    rw [List.forall_mem_cons] at hmark
    cases text with
    | nil =>
      rw [List.nil_append, matchesWord, hmark.1] at h
      cases h
    | cons unit text =>
      rw [List.cons_append, matchesWord, Bool.and_eq_true] at h
      rw [matchesWord, h.1, ih hmark.2 h.2, Bool.and_self]

/-- A text that starts with kept units and more is those units and the rest. -/
theorem eq_append_of_matchesWord {front text : List α} {word : List (α → Bool)}
    (h : matchesWord (front.map (fun unit => (unit == ·)) ++ word) text = true) :
    ∃ rest, text = front ++ rest := by
  induction front generalizing text with
  | nil => exact ⟨text, rfl⟩
  | cons first front ih =>
    cases text with
    | nil => cases h
    | cons unit text =>
      rw [List.map_cons, List.cons_append, matchesWord, Bool.and_eq_true, beq_iff_eq] at h
      obtain ⟨rest, rfl⟩ := ih h.2
      exact ⟨rest, by rw [h.1, List.cons_append]⟩

theorem matches_rewrite {rule : TextRule α} {word : List (α → Bool)}
    (hmark : ∀ accepts ∈ word, accepts rule.mark = false) {text : List α}
    (h : matchesWord word (rule.rewrite text) = true) : matchesWord word text = true := by
  induction text generalizing word with
  | nil => exact h
  | cons unit rest ih =>
    cases hfind : rule.find? (unit :: rest) with
    | some choice =>
      rw [rewrite, rewriteFrom, hfind] at h
      dsimp only at h
      rw [replacement, List.append_assoc, List.append_assoc, List.cons_append] at h
      have hmatch := List.find?_some hfind
      rw [Alternative.word, List.append_assoc] at hmatch
      obtain ⟨behind, hbehind⟩ := eq_append_of_matchesWord hmatch
      rw [hbehind]
      exact matchesWord_append behind (matchesWord_before hmark h)
    | none =>
      rw [rewrite, rewriteFrom, hfind] at h
      cases word with
      | nil => rfl
      | cons accepts word =>
        rw [List.forall_mem_cons] at hmark
        rw [matchesWord, Bool.and_eq_true] at h ⊢
        exact ⟨h.1, ih hmark.2 h.2⟩

/-! ## Rewriting leaves no match behind -/

/-- The word fails within the text, whatever comes behind it. -/
def conflicts : List (α → Bool) → List α → Bool
  | accepts :: word, unit :: text => !accepts unit || conflicts word text
  | _, _ => false

omit [BEq α] [LawfulBEq α] in
theorem matchesWord_of_conflicts {word : List (α → Bool)} {text : List α}
    (h : conflicts word text = true) (rest : List α) : matchesWord word (text ++ rest) = false := by
  induction word generalizing text with
  | nil => cases h
  | cons accepts word ih =>
    cases text with
    | nil => cases h
    | cons unit text =>
      rw [conflicts, Bool.or_eq_true, Bool.not_eq_true'] at h
      rw [List.cons_append, matchesWord, Bool.and_eq_false_iff]
      exact h.imp id ih

/-- No match starts inside the text, whatever comes behind it. -/
def bars (rule : TextRule α) : List α → Bool
  | [] => true
  | unit :: text =>
    rule.choices.all (fun choice => conflicts choice.word (unit :: text)) && rule.bars text

omit [LawfulBEq α] in
theorem clean_append {rule : TextRule α} {text rest : List α} (h : rule.bars text = true)
    (hrest : rule.clean rest = true) : rule.clean (text ++ rest) = true := by
  induction text with
  | nil => exact hrest
  | cons unit text ih =>
    rw [bars, Bool.and_eq_true, List.all_eq_true] at h
    rw [List.cons_append, clean, ih h.2, Bool.and_true, Option.isNone_iff_eq_none, find?,
      List.find?_eq_none]
    intro choice hchoice
    rw [← List.cons_append, matchesWord_of_conflicts (h.1 choice hchoice)]
    exact Bool.false_ne_true

/-- After rewriting by `other`, the pattern of `rule` matches nowhere: it is that rule, or it
matched nowhere before. -/
theorem clean_rewriteFrom {rule other : TextRule α}
    (hmark : ∀ choice ∈ rule.choices, ∀ accepts ∈ choice.word, accepts other.mark = false)
    (hbars : ∀ choice ∈ other.choices, rule.bars (other.replacement choice) = true)
    (skip : Nat) (text : List α) (h : rule = other ∨ rule.clean text = true) :
    rule.clean (other.rewriteFrom skip text) = true := by
  induction text generalizing skip with
  | nil => exact h.elim (fun _ => by cases skip <;> rfl) fun _ => by cases skip <;> rfl
  | cons unit rest ih =>
    have hrest : rule = other ∨ rule.clean rest = true :=
      h.imp id fun hclean => (Bool.and_eq_true _ _ ▸ hclean).2
    cases skip with
    | succ skip => exact ih skip hrest
    | zero =>
      cases hfind : other.find? (unit :: rest) with
      | some choice =>
        rw [rewriteFrom, hfind]
        exact clean_append (hbars choice (List.mem_of_find?_eq_some hfind)) (ih _ hrest)
      | none =>
        have hnone : rule.find? (unit :: rest) = none := by
          rcases h with rfl | hclean
          · exact hfind
          · rw [clean, Bool.and_eq_true, Option.isNone_iff_eq_none] at hclean
            exact hclean.1
        have hsame : other.rewriteFrom 0 (unit :: rest) = unit :: other.rewriteFrom 0 rest := by
          rw [rewriteFrom, hfind]
        rw [hsame, clean, ih 0 hrest, Bool.and_true, Option.isNone_iff_eq_none, ← hsame, find?,
          List.find?_eq_none]
        intro choice hchoice hmatch
        rw [find?, List.find?_eq_none] at hnone
        exact hnone choice hchoice (matches_rewrite (hmark choice hchoice) hmatch)

end TextRule

end RefundStudy.Foundation
