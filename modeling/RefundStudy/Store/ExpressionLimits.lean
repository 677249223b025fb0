/-
  What the store measures of a condition before it sends it
  (`durable-store/expression-limits.ts`, `conditionViolations` of
  `durable-store/write-action-validation.ts`).
-/
import RefundStudy.Foundation.WorkList
import RefundStudy.Store.ConditionMeaning

set_option autoImplicit false

namespace RefundStudy.Store

open Foundation

def maxExpressionBytes : Nat := 4 * 1024

def maxExpressionOperators : Nat := 300

/-- `SHORTEST_LEAF_BYTES`: `#c0 = :c0`. -/
def shortestLeafBytes : Nat := 9

def maxConditionNesting : Nat := (maxExpressionBytes - shortestLeafBytes) / 2

def maxInOperands : Nat := 100

def maxAttributeNameBytes : Nat := 64 * 1024

/-! ## The loops -/

def Condition.nested (condition : Condition) : List Condition := condition.members.getD []

variable (condition : Condition)

theorem pieces_nested : (condition.nested.map Condition.pieces).sum < condition.pieces := by
  cases condition with
  | all conditions =>
    have hsum : ∀ members : List Condition,
        (members.map Condition.pieces).sum ≤ piecesOfAll members := by
      intro members
      induction members with
      | nil => exact Nat.zero_le _
      | cons member rest ih =>
        rw [List.map_cons, List.sum_cons, piecesOfAll]
        omega
    exact Nat.lt_succ_of_le (hsum conditions)
  | itemAbsent => exact Nat.one_pos
  | attributeEquals name value => exact Nat.one_pos
  | attributeIn name values => exact Nat.one_pos

/-- A condition with something that is carried down to the conditions inside it. -/
def nestedWork {α : Type} (down : α → List Condition → List (Condition × α))
    (hdown : ∀ carried members, ((down carried members).map Prod.fst).Perm members) :
    WorkList (Condition × α) where
  opened task := down task.2 task.1.nested
  size task := task.1.pieces
  smaller task := by
    have hsizes := ((hdown task.2 task.1.nested).map Condition.pieces).sum_eq
    rw [List.map_map] at hsizes
    have hsmaller := pieces_nested task.1
    exact hsizes.trans_lt hsmaller

theorem map_pair_perm {α : Type} (carried : α) (members : List Condition) :
    ((members.map fun nested => (nested, carried)).map Prod.fst).Perm members := by
  rw [List.map_map]
  exact .of_eq (List.map_id members)

def conditionNesting (condition : Condition) : Nat :=
  (nestedWork (fun depth members => members.map fun nested => (nested, depth + 1))
    fun depth => map_pair_perm (depth + 1)).run (fun deepest task => max deepest task.2) 0
    [(condition, 0)]

def conditionNodes (condition : Condition) : List Condition :=
  (nestedWork (fun (_ : Unit) members => members.map fun nested => (nested, ()))
    map_pair_perm).run (fun nodes task => nodes ++ [task.1]) [] [(condition, ())]

def Condition.ownOperators : Condition → Nat
  | .all conditions => conditions.length - 1
  | _ => 1

def conditionOperatorCount (condition : Condition) : Nat :=
  (conditionNodes condition).foldl (fun count node => count + node.ownOperators) 0

section Validation

variable (text : NumberText)

def attributeNameViolation (name location : String) : List String :=
  if name = "" then [location ++ ": attribute name is \"\"; expected a non-empty attribute name"]
  else if maxAttributeNameBytes < name.utf8ByteSize then
    [location ++ ": attribute name is " ++ toString name.utf8ByteSize ++
      " UTF-8 bytes long; expected at most " ++ toString maxAttributeNameBytes ++
      " bytes (DynamoDB limit)"]
  else []

def conditionNodeViolations (location : String) : Condition → List String
  | .itemAbsent => []
  | .attributeEquals name value =>
      attributeNameViolation name location ++
        match value with
        | .number value => storableValueViolations text (.number value) (location ++ ".value")
        | _ => []
  | .attributeIn name values =>
      attributeNameViolation name location ++
        if values.length = 0 ∨ maxInOperands < values.length then
          [location ++ ": attribute_in has " ++ toString values.length ++
            " values; expected 1 to " ++ toString maxInOperands]
        else []
  | .all conditions =>
      if conditions.length = 0 then
        [location ++ ": all has no conditions; expected at least one"]
      else []

/-- The members of an `all` with their locations, from the one of this index on. -/
def locatedMembers (location : String) (index : Nat) : List Condition → List (Condition × String)
  | [] => []
  | condition :: rest =>
      (condition, location ++ ".conditions[" ++ toString index ++ "]") ::
        locatedMembers location (index + 1) rest

theorem locatedMembers_perm (location : String) (members : List Condition) :
    ((locatedMembers location 0 members).reverse.map Prod.fst).Perm members := by
  refine ((locatedMembers location 0 members).reverse_perm.map Prod.fst).trans (.of_eq ?_)
  generalize 0 = index
  induction members generalizing index with
  | nil => rfl
  | cons condition rest ih => rw [locatedMembers, List.map_cons, ih]

/-- The walk of `conditionViolations`, depth first and left to right. -/
def conditionWalk (condition : Condition) (location : String) : List String :=
  (nestedWork (fun location members => (locatedMembers location 0 members).reverse)
    locatedMembers_perm).run
    (fun violations task => violations ++ conditionNodeViolations text task.2 task.1) []
    [(condition, location)]

def conditionViolations (condition : Condition) (location : String) : List String :=
  let nesting := conditionNesting condition
  if maxConditionNesting < nesting then
    [location ++ " nests all " ++ toString nesting ++ " levels deep; expected at most " ++
      toString maxConditionNesting ++
      " (deeper conditions cannot fit the 4 KB DynamoDB expression limit)"]
  else conditionWalk text condition location

def expressionLengthViolation (parts : ExpressionParts) (location : String) : List String :=
  let bytes := parts.expression.utf8ByteSize
  if bytes ≤ maxExpressionBytes then []
  else
    [location ++ " expression is " ++ toString bytes ++ " bytes long; expected at most " ++
      toString maxExpressionBytes ++ " bytes (DynamoDB expression limit)"]

def conditionLimitViolations (condition : Condition) (location : String) : List String :=
  let operators := conditionOperatorCount condition
  expressionLengthViolation (toConditionExpression text condition) location ++
    if maxExpressionOperators < operators then
      [location ++ " has " ++ toString operators ++ " operators or functions; expected at most " ++
        toString maxExpressionOperators ++ " (DynamoDB expression limit)"]
    else []

end Validation

/-! ## The recursive measures -/

mutual

/-- How deeply the `all` nodes of a condition are nested. -/
def Condition.nesting : Condition → Nat
  | .all conditions => nestingInAll conditions
  | _ => 0

def nestingInAll : List Condition → Nat
  | [] => 0
  | condition :: rest => max (condition.nesting + 1) (nestingInAll rest)

end

mutual

def Condition.operators : Condition → Nat
  | .all conditions => conditions.length - 1 + operatorsInAll conditions
  | _ => 1

def operatorsInAll : List Condition → Nat
  | [] => 0
  | condition :: rest => condition.operators + operatorsInAll rest

end

mutual

/-- The nodes of a condition, the members of an `all` from the last to the first. -/
def nodesOf : Condition → List Condition
  | .all conditions => .all conditions :: nodesInAll conditions
  | condition => [condition]

def nodesInAll : List Condition → List Condition
  | [] => []
  | condition :: rest => nodesInAll rest ++ nodesOf condition

end

section Recursive

variable (text : NumberText)

mutual

def violationsOf (location : String) : Condition → List String
  | .all conditions =>
      conditionNodeViolations text location (.all conditions) ++
        violationsInAll location 0 conditions
  | condition => conditionNodeViolations text location condition

def violationsInAll (location : String) (index : Nat) : List Condition → List String
  | [] => []
  | condition :: rest =>
      violationsOf (location ++ ".conditions[" ++ toString index ++ "]") condition ++
        violationsInAll location (index + 1) rest

end

end Recursive

theorem conditionNesting_eq : conditionNesting condition = condition.nesting := by
  have hwhole : ∀ members depth start, depth ≤ start →
      (members.map fun nested : Condition => (nested, depth + 1)).reverse.foldl
        (fun deepest task => max deepest (task.2 + task.1.nesting)) start =
      max start (depth + nestingInAll members) := by
    intro members depth start hstart
    rw [List.foldl_reverse]
    induction members with
    | nil => simp [nestingInAll, hstart]
    | cons member rest ih =>
      rw [List.map_cons, List.foldr_cons, ih, nestingInAll]
      dsimp only
      omega
  unfold conditionNesting
  rw [WorkList.run_eq_foldl _ _ fun deepest task => max deepest (task.2 + task.1.nesting)]
  · simp
  · rintro deepest ⟨condition, depth⟩
    have hmembers := hwhole condition.nested depth (max deepest depth) (le_max_right _ _)
    refine Eq.trans ?_ hmembers.symm
    cases condition with
    | all conditions =>
      simp only [Condition.nesting, Condition.nested, Condition.members, Option.getD_some]
      omega
    | _ =>
      simp only [Condition.nesting, Condition.nested, Condition.members, Option.getD_none,
        nestingInAll]
      omega

theorem conditionNodes_eq : conditionNodes condition = nodesOf condition := by
  have hwhole : ∀ (members : List Condition) start,
      (members.map fun nested : Condition => (nested, ())).reverse.foldl
        (fun nodes task => nodes ++ nodesOf task.1) start = start ++ nodesInAll members := by
    intro members start
    rw [List.foldl_reverse]
    induction members with
    | nil => simp [nodesInAll]
    | cons member rest ih =>
      rw [List.map_cons, List.foldr_cons, ih, nodesInAll, List.append_assoc]
  unfold conditionNodes
  rw [WorkList.run_eq_foldl _ _ fun nodes task => nodes ++ nodesOf task.1]
  · simp
  · rintro nodes ⟨condition, -⟩
    refine Eq.trans ?_ (hwhole condition.nested (nodes ++ [condition])).symm
    cases condition <;> simp [nodesOf, Condition.nested, Condition.members, nodesInAll]

theorem conditionWalk_eq (text : NumberText) (condition : Condition) (location : String) :
    conditionWalk text condition location = violationsOf text location condition := by
  have hwhole : ∀ (members : List Condition) location index start,
      (locatedMembers location index members).foldl
        (fun violations task => violations ++ violationsOf text task.2 task.1) start =
      start ++ violationsInAll text location index members := by
    intro members location
    induction members with
    | nil => simp [locatedMembers, violationsInAll]
    | cons member rest ih =>
      intro index start
      rw [locatedMembers, List.foldl_cons, ih, violationsInAll, List.append_assoc]
  unfold conditionWalk
  rw [WorkList.run_eq_foldl _ _ fun violations task =>
    violations ++ violationsOf text task.2 task.1]
  · simp
  · rintro violations ⟨condition, location⟩
    have hmembers := hwhole condition.nested location 0
      (violations ++ conditionNodeViolations text location condition)
    simp only [nestedWork, List.reverse_reverse]
    refine Eq.trans ?_ hmembers.symm
    cases condition <;>
      simp [violationsOf, Condition.nested, Condition.members, violationsInAll]

/-! ## The bound on the nesting -/

theorem operators_eq :
    ((nodesOf condition).map Condition.ownOperators).sum = condition.operators := by
  induction condition using Condition.nested_induction with
  | itemAbsent => rfl
  | attributeEquals name value => rfl
  | attributeIn name values => rfl
  | all conditions ih =>
    have hmembers : ((nodesInAll conditions).map Condition.ownOperators).sum =
        operatorsInAll conditions := by
      induction conditions with
      | nil => rfl
      | cons condition rest ihrest =>
        rw [nodesInAll, List.map_append, List.sum_append, ih condition List.mem_cons_self,
          ihrest fun other hmem => ih other (List.mem_cons_of_mem _ hmem), operatorsInAll,
          Nat.add_comm]
    rw [nodesOf, List.map_cons, List.sum_cons, hmembers, Condition.operators,
      Condition.ownOperators]

theorem conditionOperatorCount_eq : conditionOperatorCount condition = condition.operators := by
  have hfold : ∀ (nodes : List Condition) (start : Nat),
      nodes.foldl (fun count node => count + node.ownOperators) start =
        start + (nodes.map Condition.ownOperators).sum := by
    intro nodes
    induction nodes with
    | nil => intro start; rfl
    | cons node rest ih =>
      intro start
      rw [List.foldl_cons, ih, List.map_cons, List.sum_cons, Nat.add_assoc]
  rw [conditionOperatorCount, conditionNodes_eq, hfold, Nat.zero_add, operators_eq]

/-- A condition the walk does not refuse has a member in every `all`. -/
theorem nonEmptyAlls_of_violationsOf {text : NumberText} :
    ∀ location, violationsOf text location condition = [] → NonEmptyAlls condition := by
  induction condition using Condition.nested_induction with
  | itemAbsent => exact fun _ _ => .itemAbsent
  | attributeEquals name value => exact fun _ _ => .attributeEquals name value
  | attributeIn name values => exact fun _ _ => .attributeIn name values
  | all conditions ih =>
    intro location h
    rw [violationsOf, List.append_eq_nil_iff] at h
    refine .all ?_ ?_
    · rintro rfl
      cases h.1
    · have hmembers : ∀ index, violationsInAll text location index conditions = [] →
          ∀ condition ∈ conditions, NonEmptyAlls condition := by
        clear h
        induction conditions with
        | nil => exact fun _ _ _ hmem => absurd hmem List.not_mem_nil
        | cons first rest ihrest =>
          intro index hnone condition hmem
          rw [violationsInAll, List.append_eq_nil_iff] at hnone
          rcases List.mem_cons.mp hmem with rfl | hmem
          · exact ih condition List.mem_cons_self _ hnone.1
          · exact ihrest (fun other hother => ih other (List.mem_cons_of_mem _ hother))
              (index + 1) hnone.2 condition hmem
      exact hmembers 0 h.2

theorem piece_bytes : "attribute_not_exists(".utf8ByteSize = 21 ∧ "#c".utf8ByteSize = 2 ∧
    ":c".utf8ByteSize = 2 ∧ " = ".utf8ByteSize = 3 ∧ " IN (".utf8ByteSize = 5 ∧
    "(".utf8ByteSize = 1 ∧ " AND (".utf8ByteSize = 6 ∧ ")".utf8ByteSize = 1 := by
  decide +kernel

theorem number_bytes (number : Nat) : 1 ≤ (toString number).utf8ByteSize := by
  refine Nat.one_le_iff_ne_zero.mpr fun hzero => ?_
  exact Nat.repr_ne_empty (String.utf8ByteSize_eq_zero_iff.mp hzero)

theorem mark_bytes (number : Nat) :
    3 ≤ (nameMark number).utf8ByteSize ∧ 3 ≤ (valueMark number).utf8ByteSize := by
  have hnumber := number_bytes number
  simp only [nameMark, valueMark, String.utf8ByteSize_append, piece_bytes]
  omega

theorem spelled_length (text : NumberText) {condition : Condition} (h : NonEmptyAlls condition) :
    ∀ names values, shortestLeafBytes + 2 * condition.nesting ≤
      (spelled text names values condition).utf8ByteSize := by
  unfold shortestLeafBytes
  induction h with
  | itemAbsent =>
    intro names values
    have htext : spelled text names values .itemAbsent =
      "attribute_not_exists(" ++ nameMark names ++ ")" := rfl
    simp only [htext, String.utf8ByteSize_append, Condition.nesting, piece_bytes]
    omega
  | attributeEquals name value =>
    intro names values
    have hname := (mark_bytes names).1
    have hvalue := (mark_bytes values).2
    have htext : spelled text names values (.attributeEquals name value) =
      nameMark names ++ " = " ++ valueMark values := rfl
    simp only [htext, String.utf8ByteSize_append, Condition.nesting, piece_bytes]
    omega
  | attributeIn name operands =>
    intro names values
    have hname := (mark_bytes names).1
    have htext : spelled text names values (.attributeIn name operands) = nameMark names ++ " IN (" ++
      String.intercalate ", " (operandMarks values operands.length) ++ ")" := rfl
    simp only [htext, String.utf8ByteSize_append, Condition.nesting, piece_bytes]
    omega
  | @all conditions filled inside ih =>
    have hmembers : ∀ index names values, conditions ≠ [] →
        9 + 2 * nestingInAll conditions ≤
          (spelledAll text index names values conditions).utf8ByteSize := by
      clear filled inside
      induction conditions with
      | nil => exact fun _ _ _ hne => absurd rfl hne
      | cons first rest ihrest =>
        intro index names values _
        have hfirst := ih first List.mem_cons_self names values
        have hopen : 1 ≤ (if index = 0 then "(" else " AND (").utf8ByteSize := by
          split <;> simp only [piece_bytes] <;> omega
        simp only [spelledAll, String.utf8ByteSize_append, nestingInAll, piece_bytes]
        generalize (if index = 0 then "(" else " AND (").utf8ByteSize = opened at hopen ⊢
        by_cases hrest : rest = []
        · subst hrest
          simp only [nestingInAll]
          omega
        · have hothers := ihrest (fun other hmem => ih other (List.mem_cons_of_mem _ hmem))
            (index + 1) (names + (conditionNames first).length)
            (values + (conditionValues text first).length) hrest
          omega
    intro names values
    have htext : spelled text names values (.all conditions) =
      spelledAll text 0 names values conditions := rfl
    rw [htext, Condition.nesting]
    exact hmembers 0 names values filled

theorem nesting_of_short_text {text : NumberText} {condition : Condition} (h : NonEmptyAlls condition)
    (hshort : (toConditionExpression text condition).expression.utf8ByteSize ≤ maxExpressionBytes) :
    conditionNesting condition ≤ maxConditionNesting := by
  rw [toConditionExpression_eq] at hshort
  have hlength := spelled_length text h 0 0
  rw [conditionNesting_eq, maxConditionNesting]
  unfold shortestLeafBytes at hlength ⊢
  dsimp only at hshort
  omega

/-- The loops measure what the recursive definitions say, and refusing a deep condition before its
nodes are looked at refuses nothing the other checks let pass. -/
theorem expression_limits_agree (text : NumberText) (condition : Condition) :
    conditionNesting condition = condition.nesting ∧
      conditionOperatorCount condition = condition.operators ∧
      (NonEmptyAlls condition →
        (toConditionExpression text condition).expression.utf8ByteSize ≤ maxExpressionBytes →
        ∀ location, conditionViolations text condition location =
          conditionWalk text condition location) ∧
      ∀ location, conditionWalk text condition location = [] →
        conditionLimitViolations text condition location = [] →
        conditionViolations text condition location = [] := by
  have hunrefused : NonEmptyAlls condition →
      (toConditionExpression text condition).expression.utf8ByteSize ≤ maxExpressionBytes →
      ∀ location, conditionViolations text condition location =
        conditionWalk text condition location := by
    intro hfilled hshort location
    have hnesting := nesting_of_short_text hfilled hshort
    unfold conditionViolations
    rw [if_neg (by omega)]
  refine ⟨conditionNesting_eq condition, conditionOperatorCount_eq condition, hunrefused, ?_⟩
  intro location hwalk hlimits
  have hfilled := nonEmptyAlls_of_violationsOf condition location
    ((conditionWalk_eq text condition location).symm.trans hwalk)
  have hlength := (List.append_eq_nil_iff.mp hlimits).1
  unfold expressionLengthViolation at hlength
  dsimp only at hlength
  split at hlength
  · rename_i hshort
    rw [hunrefused hfilled hshort location]
    exact hwalk
  · cases hlength

end RefundStudy.Store
