/-
  A rendered condition means what the condition means.
-/
import RefundStudy.Store.ConditionExpression
import RefundStudy.Store.ExpressionGrammar

set_option autoImplicit false

namespace RefundStudy.Store

open Foundation

/-- Induction on a condition: an `all` follows from its members. -/
theorem Condition.nested_induction {P : Condition → Prop} (itemAbsent : P .itemAbsent)
    (attributeEquals : ∀ name value, P (.attributeEquals name value))
    (attributeIn : ∀ name values, P (.attributeIn name values))
    (all : ∀ conditions, (∀ condition ∈ conditions, P condition) → P (.all conditions))
    (condition : Condition) : P condition := by
  apply @Condition.rec P (fun conditions => ∀ condition ∈ conditions, P condition)
  all_goals grind

/-- Every `all` in the condition has a member. -/
inductive NonEmptyAlls : Condition → Prop where
  | itemAbsent : NonEmptyAlls .itemAbsent
  | attributeEquals (name : String) (value : Scalar) : NonEmptyAlls (.attributeEquals name value)
  | attributeIn (name : String) (values : List String) : NonEmptyAlls (.attributeIn name values)
  | all {conditions : List Condition} (nonempty : conditions ≠ [])
      (nested : ∀ condition ∈ conditions, NonEmptyAlls condition) :
      NonEmptyAlls (.all conditions)

/-! ## Placeholders -/

def nameMark (number : Nat) : String := "#c" ++ toString number

def valueMark (number : Nat) : String := ":c" ++ toString number

theorem mark_injective {start : String} {first second : Nat}
    (h : start ++ toString first = start ++ toString second) : first = second := by
  have hchars : (start ++ toString first).toList = (start ++ toString second).toList := by rw [h]
  rw [String.toList_append, String.toList_append, List.append_cancel_left_eq] at hchars
  have hdigits : Nat.toDigits 10 first = Nat.toDigits 10 second := by
    rw [← Nat.toList_repr, ← Nat.toList_repr]
    exact hchars
  rw [← @Nat.ofDigitChars_ten_toDigits first, hdigits, Nat.ofDigitChars_ten_toDigits]

/-- The entries whose keys are the placeholders of their positions. -/
def marked {α : Type} (mark : Nat → String) (entries : List α) : InsertionMap String α :=
  entries.zipIdx.map fun entry => (mark entry.2, entry.1)

theorem keys_marked {α : Type} (mark : Nat → String) (entries : List α) :
    (marked mark entries).map Prod.fst = (List.range entries.length).map mark := by
  rw [marked, List.map_map, List.range_eq_range', ← List.zipIdx_map_snd 0 entries, List.map_map]
  rfl

theorem nodup_marked {α : Type} {mark : Nat → String} (hmark : Function.Injective mark)
    (entries : List α) : ((marked mark entries).map Prod.fst).Nodup := by
  rw [keys_marked]
  exact List.nodup_range.map hmark

theorem set_marked {α : Type} {mark : Nat → String} (hmark : Function.Injective mark)
    (entries : List α) (entry : α) :
    (marked mark entries).set (mark entries.length) entry = marked mark (entries ++ [entry]) := by
  have hfresh : mark entries.length ∉ (marked mark entries).map Prod.fst := by
    rw [keys_marked, List.mem_map]
    intro h
    obtain ⟨number, hnumber, hsame⟩ := h
    rw [List.mem_range] at hnumber
    have := hmark hsame
    omega
  rw [InsertionMap.set_of_not_mem hfresh, marked, marked, List.zipIdx_append, List.map_append]
  simp

theorem get?_marked {α : Type} {mark : Nat → String} (hmark : Function.Injective mark)
    {entries : List α} {number : Nat} {entry : α} (h : entries[number]? = some entry) :
    (marked mark entries).get? (mark number) = some entry := by
  apply InsertionMap.get?_of_mem (nodup_marked hmark entries)
  rw [marked, List.mem_map]
  exact ⟨(entry, number), List.mk_mem_zipIdx_iff_getElem?.mpr h, rfl⟩

theorem nameMark_injective : Function.Injective nameMark := fun _ _ h => mark_injective h

theorem valueMark_injective : Function.Injective valueMark := fun _ _ h => mark_injective h

/-! ## The text of a condition, recursively -/

mutual

/-- The attribute names a condition mentions, in the order of its text. -/
def conditionNames : Condition → List String
  | .itemAbsent => ["pk"]
  | .attributeEquals name _ => [name]
  | .attributeIn name _ => [name]
  | .all conditions => allNames conditions

/-- The attribute names of the members of an `all`. -/
def allNames : List Condition → List String
  | [] => []
  | condition :: rest => conditionNames condition ++ allNames rest

end

section Spelling

variable (text : NumberText)

mutual

/-- The operand values a condition mentions, in the order of its text. -/
def conditionValues : Condition → List AttributeValue
  | .itemAbsent => []
  | .attributeEquals _ value => [scalarAttributeValue text value]
  | .attributeIn _ values => values.map .s
  | .all conditions => allValues conditions

/-- The operand values of the members of an `all`. -/
def allValues : List Condition → List AttributeValue
  | [] => []
  | condition :: rest => conditionValues condition ++ allValues rest

end

def operandMarks (number count : Nat) : List String := (List.range' number count).map valueMark

mutual

/-- The text of a condition whose first placeholders have these numbers. -/
def spelled (names values : Nat) : Condition → String
  | .itemAbsent => "attribute_not_exists(" ++ nameMark names ++ ")"
  | .attributeEquals _ _ => nameMark names ++ " = " ++ valueMark values
  | .attributeIn _ operands =>
    nameMark names ++ " IN (" ++
      String.intercalate ", " (operandMarks values operands.length) ++ ")"
  | .all conditions => spelledAll 0 names values conditions

/-- The text of the members of an `all` from the one of this index on. -/
def spelledAll (index names values : Nat) : List Condition → String
  | [] => ""
  | condition :: rest =>
    (if index = 0 then "(" else " AND (") ++ spelled names values condition ++ ")" ++
      spelledAll (index + 1) (names + (conditionNames condition).length)
        (values + (conditionValues text condition).length) rest

end

/-- The allocator after these names and values. -/
def numbered (names : List String) (values : List AttributeValue) : PlaceholderAllocator :=
  ⟨marked nameMark names, marked valueMark values, names.length, values.length⟩

variable (names : List String) (values : List AttributeValue)

theorem namePlaceholder_numbered (name : String) :
    namePlaceholder (numbered names values) name =
      (nameMark names.length, numbered (names ++ [name]) values) := by
  have hset := set_marked nameMark_injective names name
  simp only [numbered, List.length_append, List.length_singleton, ← hset]
  rfl

theorem valuePlaceholder_numbered (value : AttributeValue) :
    valuePlaceholder (numbered names values) value =
      (valueMark values.length, numbered names (values ++ [value])) := by
  have hset := set_marked valueMark_injective values value
  simp only [numbered, List.length_append, List.length_singleton, ← hset]
  rfl

theorem valuePlaceholders_numbered (operands : List AttributeValue) :
    valuePlaceholders (numbered names values) operands =
      (operandMarks values.length operands.length, numbered names (values ++ operands)) := by
  induction operands generalizing values with
  | nil => simp [valuePlaceholders, operandMarks]
  | cons operand rest ih =>
    rw [valuePlaceholders, valuePlaceholder_numbered]
    simp only [ih]
    simp [operandMarks, List.range'_succ]

theorem renderLoop_text (expression piece : String) (allocator : PlaceholderAllocator)
    (pending : List RenderPiece) :
    renderLoop text expression allocator (.text piece :: pending) =
      renderLoop text (expression ++ piece) allocator pending := by
  rw [renderLoop]

theorem renderLoop_all (expression : String) (allocator : PlaceholderAllocator)
    (conditions : List Condition) (pending : List RenderPiece) :
    renderLoop text expression allocator (.condition (.all conditions) :: pending) =
      renderLoop text expression allocator (piecesFrom 0 conditions ++ pending) := by
  rw [renderLoop]
  split
  · rename_i found hfound
    cases hfound
    rw [pushEach_allPieces]
  · rename_i hfound
    cases hfound

theorem renderLoop_leaf {condition : Condition} (h : condition.members = none)
    (expression : String) (allocator : PlaceholderAllocator) (pending : List RenderPiece) :
    renderLoop text expression allocator (.condition condition :: pending) =
      renderLoop text (expression ++ (renderLeaf text condition allocator).1)
        (renderLeaf text condition allocator).2 pending := by
  rw [renderLoop]
  split
  · rename_i found hfound
    rw [h] at hfound
    cases hfound
  · rfl

theorem renderLeaf_itemAbsent :
    renderLeaf text .itemAbsent (numbered names values) =
      (spelled text names.length values.length .itemAbsent, numbered (names ++ ["pk"]) values) := by
  unfold renderLeaf spelled
  dsimp only
  rw [namePlaceholder_numbered]

theorem renderLeaf_attributeEquals (name : String) (value : Scalar) :
    renderLeaf text (.attributeEquals name value) (numbered names values) =
      (spelled text names.length values.length (.attributeEquals name value),
        numbered (names ++ [name]) (values ++ [scalarAttributeValue text value])) := by
  unfold renderLeaf spelled
  dsimp only
  rw [namePlaceholder_numbered]
  dsimp only
  rw [valuePlaceholder_numbered]

theorem renderLeaf_attributeIn (name : String) (operands : List String) :
    renderLeaf text (.attributeIn name operands) (numbered names values) =
      (spelled text names.length values.length (.attributeIn name operands),
        numbered (names ++ [name]) (values ++ operands.map .s)) := by
  unfold renderLeaf spelled
  dsimp only
  rw [namePlaceholder_numbered]
  dsimp only
  rw [valuePlaceholders_numbered, List.length_map]

theorem renderLoop_condition (condition : Condition) : ∀ (names : List String)
    (values : List AttributeValue) (expression : String) (pending : List RenderPiece),
    renderLoop text expression (numbered names values) (.condition condition :: pending) =
      renderLoop text (expression ++ spelled text names.length values.length condition)
        (numbered (names ++ conditionNames condition) (values ++ conditionValues text condition))
        pending := by
  induction condition using Condition.nested_induction with
  | itemAbsent =>
    intro names values expression pending
    rw [@renderLoop_leaf text .itemAbsent rfl, renderLeaf_itemAbsent, conditionNames,
      conditionValues, List.append_nil]
  | attributeEquals name value =>
    intro names values expression pending
    rw [@renderLoop_leaf text (.attributeEquals name value) rfl, renderLeaf_attributeEquals,
      conditionNames, conditionValues]
  | attributeIn name operands =>
    intro names values expression pending
    rw [@renderLoop_leaf text (.attributeIn name operands) rfl, renderLeaf_attributeIn,
      conditionNames, conditionValues]
  | all conditions ih =>
    intro names values expression pending
    -- the members of the `all`, from any index on
    have hmembers : ∀ (rest : List Condition) (index : Nat) (names : List String)
        (values : List AttributeValue) (expression : String),
        (∀ condition ∈ rest, condition ∈ conditions) →
        renderLoop text expression (numbered names values) (piecesFrom index rest ++ pending) =
          renderLoop text
            (expression ++ spelledAll text index names.length values.length rest)
            (numbered (names ++ allNames rest) (values ++ allValues text rest)) pending := by
      intro rest
      induction rest with
      | nil =>
        intro index names values expression _
        simp [piecesFrom, spelledAll, allNames, allValues]
      | cons condition rest ihrest =>
        intro index names values expression hmem
        rw [List.forall_mem_cons] at hmem
        have hfirst := ih condition hmem.1 names values
          (expression ++ (if index = 0 then "(" else " AND ("))
          (.text ")" :: (piecesFrom (index + 1) rest ++ pending))
        have hrest := ihrest (index + 1) (names ++ conditionNames condition)
          (values ++ conditionValues text condition)
          (expression ++ (if index = 0 then "(" else " AND (") ++
            spelled text names.length values.length condition ++ ")") hmem.2
        rw [List.length_append, List.length_append, List.append_assoc, List.append_assoc] at hrest
        refine ((renderLoop_text text _ _ _ _).trans
          (hfirst.trans ((renderLoop_text text _ _ _ _).trans hrest))).trans ?_
        simp only [spelledAll, allNames, allValues, String.append_assoc]
    exact (renderLoop_all text expression (numbered names values) conditions pending).trans
      (hmembers conditions 0 names values expression fun _ h => h)

theorem toConditionExpression_eq (condition : Condition) :
    toConditionExpression text condition =
      ⟨spelled text 0 0 condition, marked nameMark (conditionNames condition),
        marked valueMark (conditionValues text condition)⟩ := by
  have hloop := renderLoop_condition text condition [] [] "" []
  simp only [List.length_nil, List.nil_append, String.empty_append] at hloop
  have hempty : PlaceholderAllocator.empty = numbered [] [] := rfl
  rw [toConditionExpression, hempty, hloop, renderLoop]
  rfl

end Spelling

end RefundStudy.Store
