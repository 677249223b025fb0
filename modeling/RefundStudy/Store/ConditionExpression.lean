/-
  The expressions of a write request: a condition and an update as text, with the names
  and values their placeholders stand for.

  The second half is the other side of the wire: the grammar in which the service reads the text,
  and what a condition of that grammar says about an item.
-/
import Mathlib.Data.List.Sort
import RefundStudy.Store.AttributeRoundTrip

set_option autoImplicit false

namespace RefundStudy.Store

open Foundation
open Record (codeUnitsLe)

/-! ## Conditions -/

inductive Scalar where
  | string (value : String)
  | number (value : Double)
  | bool (value : Bool)

inductive Condition where
  | itemAbsent
  | attributeEquals (name : String) (value : Scalar)
  | attributeIn (name : String) (values : List String)
  | all (conditions : List Condition)

/-- The attribute has exactly this JSON type and value; a number is no number's equal when it is
not a number, and the two zeros are equal. -/
def hasScalar : JsonValue → Scalar → Bool
  | .string found, .string value => decide (found = value)
  | .number found, .number value =>
    decide (found ≠ .nan) && decide (found.positiveZero = value.positiveZero)
  | .bool found, .bool value => decide (found = value)
  | _, _ => false

mutual

/-- The recursive meaning of a condition, on the item found under the key. -/
def Condition.holds (item : Option JsonObject) : Condition → Bool
  | .itemAbsent => item.isNone
  | .attributeEquals name value =>
    match item.bind fun members => InsertionMap.get? members name with
    | some found => hasScalar found value
    | none => false
  | .attributeIn name values =>
    match item.bind fun members => InsertionMap.get? members name with
    | some found => values.any fun value => hasScalar found (.string value)
    | none => false
  | .all conditions => allHold item conditions

def allHold (item : Option JsonObject) : List Condition → Bool
  | [] => true
  | condition :: rest => condition.holds item && allHold item rest

end

/-! ## Rendering -/

structure ExpressionParts where
  expression : String
  names : InsertionMap String String
  values : InsertionMap String AttributeValue

structure PlaceholderAllocator where
  names : InsertionMap String String
  values : InsertionMap String AttributeValue
  nameCount : Nat
  valueCount : Nat

def PlaceholderAllocator.empty : PlaceholderAllocator := ⟨[], [], 0, 0⟩

def namePlaceholder (allocator : PlaceholderAllocator) (name : String) :
    String × PlaceholderAllocator :=
  let placeholder := "#c" ++ toString allocator.nameCount
  (placeholder, { allocator with
    names := allocator.names.set placeholder name
    nameCount := allocator.nameCount + 1 })

def valuePlaceholder (allocator : PlaceholderAllocator) (value : AttributeValue) :
    String × PlaceholderAllocator :=
  let placeholder := ":c" ++ toString allocator.valueCount
  (placeholder, { allocator with
    values := allocator.values.set placeholder value
    valueCount := allocator.valueCount + 1 })

def valuePlaceholders (allocator : PlaceholderAllocator) :
    List AttributeValue → List String × PlaceholderAllocator
  | [] => ([], allocator)
  | value :: rest =>
    let first := valuePlaceholder allocator value
    let others := valuePlaceholders first.2 rest
    (first.1 :: others.1, others.2)

inductive RenderPiece where
  | text (literal : String)
  | condition (condition : Condition)

section Rendering

variable (text : NumberText)

def scalarAttributeValue : Scalar → AttributeValue
  | .string value => .s value
  | .number value => .n (text.print value)
  | .bool value => .bool value

/-- The branch of `all` is not reached. -/
def renderLeaf (condition : Condition) (allocator : PlaceholderAllocator) :
    String × PlaceholderAllocator :=
  match condition with
  | .itemAbsent =>
    let name := namePlaceholder allocator "pk"
    ("attribute_not_exists(" ++ name.1 ++ ")", name.2)
  | .attributeEquals named operand =>
    let name := namePlaceholder allocator named
    let value := valuePlaceholder name.2 (scalarAttributeValue text operand)
    (name.1 ++ " = " ++ value.1, value.2)
  | .attributeIn named operands =>
    let name := namePlaceholder allocator named
    let values := valuePlaceholders name.2 (operands.map .s)
    (name.1 ++ " IN (" ++ String.intercalate ", " values.1 ++ ")", values.2)
  | .all _ => ("", allocator)

/-- The pieces of `allPieces` before they are reversed, counted from `index`. -/
def piecesFrom (index : Nat) : List Condition → List RenderPiece
  | [] => []
  | nested :: rest =>
    .text (if index = 0 then "(" else " AND (") :: .condition nested :: .text ")" ::
      piecesFrom (index + 1) rest

/-- `(c0) AND (c1) AND …`, reversed for the stack. -/
def allPieces (conditions : List Condition) : List RenderPiece := (piecesFrom 0 conditions).reverse

/-- `pushEach` onto a stack. -/
def pushEach {α : Type} (stack items : List α) : List α :=
  items.foldl (fun pushed item => item :: pushed) stack

theorem pushEach_allPieces (stack : List RenderPiece) (conditions : List Condition) :
    pushEach stack (allPieces conditions) = piecesFrom 0 conditions ++ stack := by
  unfold pushEach allPieces
  rw [List.foldl_reverse]
  induction piecesFrom 0 conditions with
  | nil => rfl
  | cons piece rest ih => rw [List.foldr_cons, ih, List.cons_append]

mutual

def Condition.pieces : Condition → Nat
  | .all conditions => piecesOfAll conditions + 1
  | _ => 1

/-- The number of pieces the loop pops for the members of an `all`. -/
def piecesOfAll : List Condition → Nat
  | [] => 0
  | condition :: rest => condition.pieces + 2 + piecesOfAll rest

end

def RenderPiece.pops : RenderPiece → Nat
  | .text _ => 1
  | .condition nested => nested.pieces

theorem pops_piecesFrom (index : Nat) (conditions : List Condition) :
    ((piecesFrom index conditions).map RenderPiece.pops).sum = piecesOfAll conditions := by
  induction conditions generalizing index with
  | nil => rfl
  | cons condition rest ih =>
    simp only [piecesFrom, List.map_cons, List.sum_cons, RenderPiece.pops, piecesOfAll, ih]
    omega

theorem Condition.pieces_pos (condition : Condition) : 0 < condition.pieces := by
  cases condition <;> simp [Condition.pieces]

def Condition.members : Condition → Option (List Condition)
  | .all conditions => some conditions
  | _ => none

theorem Condition.pieces_of_members {condition : Condition} {conditions : List Condition}
    (h : condition.members = some conditions) :
    condition.pieces = piecesOfAll conditions + 1 := by
  cases condition with
  | all found =>
    cases h
    rw [Condition.pieces]
  | _ => cases h

def renderLoop (expression : String) (allocator : PlaceholderAllocator) :
    List RenderPiece → String × PlaceholderAllocator
  | [] => (expression, allocator)
  | .text piece :: pending => renderLoop (expression ++ piece) allocator pending
  | .condition condition :: pending =>
    match _hmembers : condition.members with
    | some conditions => renderLoop expression allocator (pushEach pending (allPieces conditions))
    | none =>
      let rendered := renderLeaf text condition allocator
      renderLoop (expression ++ rendered.1) rendered.2 pending
termination_by pending => (pending.map RenderPiece.pops).sum
decreasing_by
  · simp [RenderPiece.pops]
  · rw [pushEach_allPieces, List.map_append, List.sum_append, pops_piecesFrom, List.map_cons,
      List.sum_cons, RenderPiece.pops, condition.pieces_of_members _hmembers]
    omega
  · rw [List.map_cons, List.sum_cons, RenderPiece.pops]
    have := condition.pieces_pos
    omega

def toConditionExpression (condition : Condition) : ExpressionParts :=
  let rendered := renderLoop text "" .empty [.condition condition]
  ⟨rendered.1, rendered.2.names, rendered.2.values⟩

/-! ## Updates -/

def sortedEntries {α : Type} (record : InsertionMap String α) : List (String × α) :=
  record.insertionSort fun first second => codeUnitsLe first.1 second.1

def placeholderPair (names : InsertionMap String String) (values : InsertionMap String AttributeValue)
    (name : String) (value : JsonValue) :
    Except String ((String × String) × InsertionMap String String ×
      InsertionMap String AttributeValue) := do
  let index := toString names.length
  let written ← encodeAttributeValue text (memberPath "$" name) value
  return (("#u" ++ index, ":u" ++ index), names.set ("#u" ++ index) name,
    values.set (":u" ++ index) written)

/-- The terms of one clause, each a pair of placeholders joined by `separator`. -/
def updateTerms (separator : String) (names : InsertionMap String String)
    (values : InsertionMap String AttributeValue) :
    List (String × JsonValue) →
      Except String (List String × InsertionMap String String × InsertionMap String AttributeValue)
  | [] => .ok ([], names, values)
  | (name, value) :: rest => do
    let (pair, nextNames, nextValues) ← placeholderPair text names values name value
    let (terms, lastNames, lastValues) ← updateTerms separator nextNames nextValues rest
    return ((pair.1 ++ separator ++ pair.2) :: terms, lastNames, lastValues)

def clause (keyword : String) (terms : List String) : String :=
  if terms.length = 0 then "" else keyword ++ " " ++ String.intercalate ", " terms

/-- An unencodable value is the error of the encoder. -/
def toUpdateExpression (set : JsonObject) (increment : InsertionMap String Double) :
    Except String ExpressionParts := do
  let (setTerms, setNames, setValues) ← updateTerms text " = " [] [] (sortedEntries set)
  let (addTerms, names, values) ← updateTerms text " " setNames setValues
    ((sortedEntries increment).map fun entry => (entry.1, .number entry.2))
  let clauses := [clause "SET" setTerms, clause "ADD" addTerms].filter (· ≠ "")
  return ⟨String.intercalate " " clauses, names, values⟩

end Rendering

structure ConditionFields where
  conditionExpression : String
  expressionAttributeNames : InsertionMap String String
  expressionAttributeValues : Option (InsertionMap String AttributeValue)

/-- The members of a second object over those of a first. -/
def spread {α : Type} (first second : InsertionMap String α) : InsertionMap String α :=
  second.foldl (fun merged entry => merged.set entry.1 entry.2) first

/-- An empty map of values is left out. -/
def mergedExpressionFields (condition : ExpressionParts) (update : Option ExpressionParts) :
    ConditionFields :=
  let names := spread condition.names ((update.map ExpressionParts.names).getD [])
  let values := spread condition.values ((update.map ExpressionParts.values).getD [])
  ⟨condition.expression, names, if values.length = 0 then none else some values⟩

end RefundStudy.Store
