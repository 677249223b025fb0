/-
  The text of a condition, read back by the grammar.
-/
import RefundStudy.Store.ConditionMeaning

set_option autoImplicit false

namespace RefundStudy.Store

open Foundation

/-! ## Tokens of a text -/

/-- The text ends, or goes on with a character of no word. -/
def Delimited (rest : List Char) : Prop := ∀ c tail, rest = c :: tail → isWordChar c = false

/-- The characters read as these tokens, whatever follows. -/
def Lexes (chars : List Char) (tokens : List Token) : Prop :=
  ∀ rest, lexFrom [] (chars ++ rest) = (lexFrom [] rest).map (tokens ++ ·)

/-- The characters read as these tokens before the end of a word. -/
def LexesBefore (chars : List Char) (tokens : List Token) : Prop :=
  ∀ rest, Delimited rest → lexFrom [] (chars ++ rest) = (lexFrom [] rest).map (tokens ++ ·)

theorem lexFrom_word {word : List Char} (h : ∀ c ∈ word, isWordChar c = true)
    (current rest : List Char) : lexFrom current (word ++ rest) = lexFrom (current ++ word) rest := by
  induction word generalizing current with
  | nil => simp
  | cons c word ih =>
    rw [List.forall_mem_cons] at h
    rw [List.cons_append, lexFrom, if_pos h.1, ih h.2, List.append_assoc]
    rfl

variable {c : Char} {tokens : List Token}

theorem lexFrom_separator (hword : isWordChar c = false) (hmark : ¬ (c = '#' ∨ c = ':'))
    (htokens : separatorTokens c = some tokens) (current rest : List Char) :
    lexFrom current (c :: rest) = (lexFrom [] rest).map (wordToken current ++ tokens ++ ·) := by
  rw [lexFrom, if_neg (by simp [hword]), if_neg hmark, htokens]
  rfl

theorem lexFrom_flush {rest : List Char} (h : Delimited rest) (current : List Char) :
    lexFrom current rest = (lexFrom [] rest).map (wordToken current ++ ·) := by
  cases rest with
  | nil => simp [lexFrom, wordToken]
  | cons c rest =>
    have hword := h c rest rfl
    simp only [lexFrom, hword, Bool.false_eq_true, if_false]
    split
    · simp [wordToken]
    · cases separatorTokens c with
      | none => rfl
      | some tokens => simp [Option.map_map, Function.comp_def, wordToken]

variable {second : List Char}

theorem Lexes.append {first : List Char} {others : List Token} (hfirst : Lexes first tokens)
    (hsecond : Lexes second others) : Lexes (first ++ second) (tokens ++ others) := by
  intro rest
  rw [List.append_assoc, hfirst, hsecond, Option.map_map]
  simp [Function.comp_def]

theorem Lexes.appendBefore {first : List Char} {others : List Token} (hfirst : Lexes first tokens)
    (hsecond : LexesBefore second others) : LexesBefore (first ++ second) (tokens ++ others) := by
  intro rest hrest
  rw [List.append_assoc, hfirst, hsecond rest hrest, Option.map_map]
  simp [Function.comp_def]

theorem LexesBefore.append {first : List Char} {others : List Token}
    (hfirst : LexesBefore first tokens) (hsecond : Lexes second others)
    (hdelimited : ∀ rest, Delimited (second ++ rest)) :
    Lexes (first ++ second) (tokens ++ others) := by
  intro rest
  rw [List.append_assoc, hfirst _ (hdelimited rest), hsecond, Option.map_map]
  simp [Function.comp_def]

theorem Lexes.before {chars : List Char} (h : Lexes chars tokens) :
    LexesBefore chars tokens := fun rest _ => h rest

theorem lexes_separator (hword : isWordChar c = false) (hmark : ¬ (c = '#' ∨ c = ':'))
    (htokens : separatorTokens c = some tokens) : Lexes [c] tokens := by
  intro rest
  exact lexFrom_separator hword hmark htokens [] rest

theorem lexes_word {word : List Char} (hchars : ∀ c ∈ word, isWordChar c = true)
    (hword : isWordChar c = false) (hmark : ¬ (c = '#' ∨ c = ':'))
    (htokens : separatorTokens c = some tokens) :
    Lexes (word ++ [c]) (wordToken word ++ tokens) := by
  intro rest
  rw [List.append_assoc, lexFrom_word hchars, List.nil_append, List.singleton_append,
    lexFrom_separator hword hmark htokens]

theorem lexes_space : Lexes [' '] [] :=
  @lexes_separator ' ' [] (by decide) (by decide) (by decide)

theorem lexes_lparen : Lexes "(".toList [.lparen] :=
  @lexes_separator '(' [.lparen] (by decide) (by decide) (by decide)

theorem lexes_rparen : Lexes ")".toList [.rparen] :=
  @lexes_separator ')' [.rparen] (by decide) (by decide) (by decide)

theorem lexes_equals : Lexes " = ".toList [.equals] :=
  (lexes_space.append
    (@lexes_separator '=' [.equals] (by decide) (by decide) (by decide))).append lexes_space

theorem lexes_comma : Lexes ", ".toList [.comma] :=
  (@lexes_separator ',' [.comma] (by decide) (by decide) (by decide)).append lexes_space

theorem lexes_in : Lexes " IN (".toList [.word "IN", .lparen] :=
  (lexes_space.append (@lexes_word ' ' [] ['I', 'N'] (List.all_eq_true.mp (by decide)) (by decide)
    (by decide) (by decide))).append lexes_lparen

theorem lexes_and : Lexes " AND (".toList [.word "AND", .lparen] :=
  (lexes_space.append (@lexes_word ' ' [] ['A', 'N', 'D'] (List.all_eq_true.mp (by decide))
    (by decide) (by decide) (by decide))).append lexes_lparen

theorem lexes_notExists :
    Lexes "attribute_not_exists(".toList [.word "attribute_not_exists", .lparen] :=
  @lexes_word '(' [.lparen] "attribute_not_exists".toList (List.all_eq_true.mp (by decide))
    (by decide) (by decide) (by decide)

theorem isWordChar_digits (number : Nat) :
    ∀ c ∈ 'c' :: (toString number).toList, isWordChar c = true := by
  rw [List.forall_mem_cons]
  refine ⟨by decide, fun c hc => ?_⟩
  have hdigit := toDigits_isDigit number c (by rwa [← Nat.toList_repr])
  simp [isWordChar, Char.isAlphanum, hdigit]

theorem lexes_nameMark (number : Nat) :
    LexesBefore (nameMark number).toList [.name (nameMark number)] := by
  intro rest hrest
  have hchars : (nameMark number).toList = '#' :: ('c' :: (toString number).toList) := by
    rw [nameMark, String.toList_append]
    rfl
  have htoken : wordToken ('#' :: ('c' :: (toString number).toList)) =
      [.name (nameMark number)] := by
    rw [wordToken, ← hchars, String.ofList_toList]
  rw [hchars, List.cons_append, lexFrom, if_neg (by decide), if_pos (.inl rfl),
    lexFrom_word (isWordChar_digits number), lexFrom_flush hrest, List.singleton_append, htoken,
    Option.map_map]
  simp [Function.comp_def, wordToken]

theorem lexes_valueMark (number : Nat) :
    LexesBefore (valueMark number).toList [.value (valueMark number)] := by
  intro rest hrest
  have hchars : (valueMark number).toList = ':' :: ('c' :: (toString number).toList) := by
    rw [valueMark, String.toList_append]
    rfl
  have htoken : wordToken (':' :: ('c' :: (toString number).toList)) =
      [.value (valueMark number)] := by
    rw [wordToken, ← hchars, String.ofList_toList]
  rw [hchars, List.cons_append, lexFrom, if_neg (by decide), if_pos (.inr rfl),
    lexFrom_word (isWordChar_digits number), lexFrom_flush hrest, List.singleton_append, htoken,
    Option.map_map]
  simp [Function.comp_def, wordToken]

/-! ## The tokens of a condition -/

/-- Value placeholders between commas. -/
def operandTokens : List String → List Token
  | [] => []
  | [placeholder] => [.value placeholder]
  | placeholder :: rest => .value placeholder :: .comma :: operandTokens rest

section Reading

variable (text : NumberText)

mutual

/-- The tokens of a condition whose first placeholders have these numbers. -/
def tokensAt (names values : Nat) : Condition → List Token
  | .itemAbsent => [.word "attribute_not_exists", .lparen, .name (nameMark names), .rparen]
  | .attributeEquals _ _ => [.name (nameMark names), .equals, .value (valueMark values)]
  | .attributeIn _ operands =>
    [.name (nameMark names), .word "IN", .lparen] ++
      operandTokens (operandMarks values operands.length) ++ [.rparen]
  | .all conditions => tokensOfAll 0 names values conditions

/-- The tokens of the members of an `all` from the one of this index on. -/
def tokensOfAll (index names values : Nat) : List Condition → List Token
  | [] => []
  | condition :: rest =>
    (if index = 0 then [.lparen] else [.word "AND", .lparen]) ++
      tokensAt names values condition ++ [.rparen] ++
        tokensOfAll (index + 1) (names + (conditionNames condition).length)
          (values + (conditionValues text condition).length) rest

end

theorem delimited_rparen (rest : List Char) : Delimited (")".toList ++ rest) := by
  intro c tail h
  have hc : c = ')' := by
    have : ')' :: rest = c :: tail := h
    exact (List.cons.inj this).1.symm
  rw [hc]
  decide

theorem delimited_comma (rest : List Char) : Delimited (", ".toList ++ rest) := by
  intro c tail h
  have hc : c = ',' := by
    have : ',' :: ' ' :: rest = c :: tail := h
    exact (List.cons.inj this).1.symm
  rw [hc]
  decide

theorem delimited_space {chars : List Char} (rest : List Char) : Delimited (' ' :: chars ++ rest) := by
  intro c tail h
  have hc : c = ' ' := by
    have : ' ' :: (chars ++ rest) = c :: tail := h
    exact (List.cons.inj this).1.symm
  rw [hc]
  decide

theorem lexes_operands (number count : Nat) :
    LexesBefore (String.intercalate ", " (operandMarks number count)).toList
      (operandTokens (operandMarks number count)) := by
  induction count generalizing number with
  | zero =>
    intro rest _
    simp [operandMarks, operandTokens]
  | succ count ih =>
    cases count with
    | zero => simpa [operandMarks, operandTokens] using lexes_valueMark number
    | succ count =>
      have hmarks : operandMarks number (count + 2) =
          valueMark number :: operandMarks (number + 1) (count + 1) := by
        simp [operandMarks, List.range'_succ]
      have hne : operandMarks (number + 1) (count + 1) ≠ [] := by
        simp [operandMarks]
      obtain ⟨next, rest, hrest⟩ := List.exists_cons_of_ne_nil hne
      have hothers := ih (number + 1)
      rw [hmarks, hrest, String.intercalate_cons_cons, String.toList_append,
        String.toList_append, operandTokens]
      · rw [hrest] at hothers
        exact ((lexes_valueMark number).append lexes_comma delimited_comma).appendBefore hothers
      · simp

variable (names values : Nat)

theorem lexes_itemAbsent :
    LexesBefore (spelled text names values .itemAbsent).toList
      (tokensAt text names values .itemAbsent) := by
  unfold spelled tokensAt
  rw [String.toList_append, String.toList_append]
  exact ((lexes_notExists.appendBefore (lexes_nameMark names)).append lexes_rparen
    delimited_rparen).before

variable (name : String)

theorem lexes_attributeEquals (value : Scalar) :
    LexesBefore (spelled text names values (.attributeEquals name value)).toList
      (tokensAt text names values (.attributeEquals name value)) := by
  unfold spelled tokensAt
  rw [String.toList_append, String.toList_append]
  exact ((lexes_nameMark names).append lexes_equals fun _ => delimited_space _).appendBefore
    (lexes_valueMark values)

theorem lexes_attributeIn (operands : List String) :
    LexesBefore (spelled text names values (.attributeIn name operands)).toList
      (tokensAt text names values (.attributeIn name operands)) := by
  unfold spelled tokensAt
  rw [String.toList_append, String.toList_append, String.toList_append]
  exact ((((lexes_nameMark names).append lexes_in fun _ => delimited_space _).appendBefore
    (lexes_operands values operands.length)).append lexes_rparen delimited_rparen).before

theorem lexes_spelled (condition : Condition) : ∀ names values : Nat,
    LexesBefore (spelled text names values condition).toList
      (tokensAt text names values condition) := by
  induction condition using Condition.nested_induction with
  | itemAbsent => exact lexes_itemAbsent text
  | attributeEquals name value =>
    intro names values
    exact lexes_attributeEquals text names values name value
  | attributeIn name operands =>
    intro names values
    exact lexes_attributeIn text names values name operands
  | all conditions ih =>
    intro names values
    have hmembers : ∀ (rest : List Condition) (index names values : Nat),
        (∀ condition ∈ rest, condition ∈ conditions) →
        Lexes (spelledAll text index names values rest).toList
          (tokensOfAll text index names values rest) := by
      intro rest
      induction rest with
      | nil =>
        intro index names values _ rest
        simp [spelledAll, tokensOfAll]
      | cons condition rest ihrest =>
        intro index names values hmem
        rw [List.forall_mem_cons] at hmem
        simp only [spelledAll, String.toList_append, tokensOfAll]
        have hopen : Lexes (if index = 0 then "(" else " AND (").toList
            (if index = 0 then [.lparen] else [.word "AND", .lparen]) := by
          split
          · exact lexes_lparen
          · exact lexes_and
        exact ((hopen.appendBefore (ih condition hmem.1 names values)).append lexes_rparen
          delimited_rparen).append (ihrest _ _ _ hmem.2)
    exact (hmembers conditions 0 names values fun _ h => h).before

theorem tokensOf_spelled (condition : Condition) :
    tokensOf (spelled text 0 0 condition) = some (tokensAt text 0 0 condition) := by
  have h := lexes_spelled text condition 0 0 [] (by intro c tail h; cases h)
  rw [List.append_nil] at h
  rw [tokensOf, h]
  simp [lexFrom, wordToken]

/-! ## The expression of a condition -/

/-- Two expressions joined, when both are there. -/
def joined (left right : Option Expression) : Option Expression :=
  left.bind fun first => right.map (.and first)

mutual

/-- The expression of a condition whose first placeholders have these numbers; `none` when the
text is no expression. -/
def expressionAt (names values : Nat) : Condition → Option Expression
  | .itemAbsent => some (.attributeNotExists (nameMark names))
  | .attributeEquals _ _ => some (.equals (.name (nameMark names)) (.value (valueMark values)))
  | .attributeIn _ operands =>
    if operands.length = 0 then none
    else
      some (.isIn (.name (nameMark names)) ((operandMarks values operands.length).map .value))
  | .all [] => none
  | .all (condition :: rest) =>
    joinedAll (expressionAt names values condition)
      (names + (conditionNames condition).length)
      (values + (conditionValues text condition).length) rest

/-- The members of an `all` joined to the expression before them. -/
def joinedAll (left : Option Expression) (names values : Nat) :
    List Condition → Option Expression
  | [] => left
  | condition :: rest =>
    joinedAll (joined left (expressionAt names values condition))
      (names + (conditionNames condition).length)
      (values + (conditionValues text condition).length) rest

end

/-- No keyword joins another factor to what was read. -/
def EndsConjunction (rest : List Token) : Prop :=
  ∀ token tail, rest = token :: tail → isAnd token = false

theorem joinedAll_none (rest : List Condition) : joinedAll text none names values rest = none := by
  induction rest generalizing names values with
  | nil => simp [joinedAll]
  | cons condition rest ih =>
    rw [joinedAll, joined, Option.bind_none, ih]

variable {fuel : Nat}

theorem parseAnds_ends (hfuel : 0 < fuel) (left : Expression) {rest : List Token}
    (h : EndsConjunction rest) : parseAnds fuel left rest = some (left, rest) := by
  obtain ⟨fuel, rfl⟩ := Nat.exists_eq_succ_of_ne_zero (Nat.ne_of_gt hfuel)
  cases rest with
  | nil => rw [parseAnds]
  | cons token tail => rw [parseAnds, h token tail rfl]; rfl

theorem parseOperands_tokens (marks : List String) (rest : List Token) :
    parseOperands (operandTokens marks ++ .rparen :: rest) =
      if marks.length = 0 then none else some (marks.map .value, rest) := by
  induction marks with
  | nil =>
    rw [operandTokens, List.nil_append, if_pos (by rfl)]
    cases rest with
    | nil => rfl
    | cons token tail => cases token <;> rfl
  | cons mark marks ih =>
    cases marks with
    | nil => simp [operandTokens, parseOperands, operandOf]
    | cons next marks =>
      rw [operandTokens]
      · simp only [List.cons_append, parseOperands, operandOf, ih]
        simp
      · simp

theorem parseLeaf_itemAbsent (rest : List Token) :
    parseLeaf (tokensAt text names values .itemAbsent ++ rest) =
      (expressionAt text names values .itemAbsent).map (·, rest) := by
  unfold tokensAt expressionAt
  rfl

theorem parseLeaf_attributeEquals (value : Scalar) (rest : List Token) :
    parseLeaf (tokensAt text names values (.attributeEquals name value) ++ rest) =
      (expressionAt text names values (.attributeEquals name value)).map (·, rest) := by
  unfold tokensAt expressionAt
  rfl

theorem parseLeaf_attributeIn (operands : List String) (rest : List Token) :
    parseLeaf (tokensAt text names values (.attributeIn name operands) ++ rest) =
      (expressionAt text names values (.attributeIn name operands)).map (·, rest) := by
  have hlist := parseOperands_tokens (operandMarks values operands.length) rest
  have hlength : (operandMarks values operands.length).length = operands.length := by
    simp [operandMarks]
  rw [hlength] at hlist
  unfold tokensAt expressionAt
  rw [List.append_assoc, List.append_assoc]
  simp only [List.cons_append, List.nil_append, parseLeaf, operandOf, Option.bind_some, hlist]
  rw [if_pos (show isKeyword "IN" "IN" = true by decide)]
  by_cases hnone : operands.length = 0
  · rw [if_pos hnone, if_pos hnone]
    rfl
  · rw [if_neg hnone, if_neg hnone]
    rfl

theorem parseConjunction_leaf (hfuel : 2 ≤ fuel) {token : Token} {tokens rest : List Token}
    {parsed : Option Expression} (htoken : token ≠ .lparen)
    (hleaf : parseLeaf (token :: tokens ++ rest) = parsed.map (·, rest))
    (hrest : EndsConjunction rest) :
    parseConjunction fuel (token :: tokens ++ rest) = parsed.map (·, rest) := by
  obtain ⟨fuel, rfl⟩ := Nat.exists_eq_add_of_le' hfuel
  rw [List.cons_append] at hleaf ⊢
  rw [parseConjunction, parseFactor, if_neg htoken, hleaf]
  cases parsed with
  | none => rfl
  | some expression => exact parseAnds_ends (by omega) expression hrest

theorem parseFactor_parenthesis {tokens rest : List Token} {parsed : Option Expression}
    (h : parseConjunction fuel (tokens ++ .rparen :: rest) = parsed.map (·, .rparen :: rest)) :
    parseFactor (fuel + 1) (.lparen :: (tokens ++ .rparen :: rest)) = parsed.map (·, rest) := by
  rw [parseFactor, if_pos rfl, h]
  cases parsed with
  | none => rfl
  | some expression => rfl

theorem endsConjunction_rparen (rest : List Token) : EndsConjunction (.rparen :: rest) := by
  intro token tail h
  cases h
  rfl

theorem parseConjunction_tokens {condition : Condition} (h : NonEmptyAlls condition) :
    ∀ (names values fuel : Nat) (rest : List Token),
      (tokensAt text names values condition).length + 2 ≤ fuel → EndsConjunction rest →
      parseConjunction fuel (tokensAt text names values condition ++ rest) =
        (expressionAt text names values condition).map (·, rest) := by
  induction h with
  | itemAbsent =>
    intro names values fuel rest hfuel hrest
    have hleaf := parseLeaf_itemAbsent text names values rest
    unfold tokensAt at hfuel hleaf ⊢
    exact parseConjunction_leaf (by omega) (by decide) hleaf hrest
  | attributeEquals name value =>
    intro names values fuel rest hfuel hrest
    have hleaf := parseLeaf_attributeEquals text names values name value rest
    unfold tokensAt at hfuel hleaf ⊢
    exact parseConjunction_leaf (by omega) (by simp) hleaf hrest
  | attributeIn name operands =>
    intro names values fuel rest hfuel hrest
    have hleaf := parseLeaf_attributeIn text names values name operands rest
    unfold tokensAt at hfuel hleaf ⊢
    exact parseConjunction_leaf (by omega) (by simp) hleaf hrest
  | @all conditions nonempty nested ih =>
    intro names values fuel rest hfuel hrest
    -- the members after the first, each behind its keyword
    have hmembers : ∀ (others : List Condition) (index names values fuel : Nat)
        (left : Expression), (∀ condition ∈ others, condition ∈ conditions) →
        (tokensOfAll text (index + 1) names values others).length + 2 ≤ fuel →
        parseAnds fuel left (tokensOfAll text (index + 1) names values others ++ rest) =
          (joinedAll text (some left) names values others).map (·, rest) := by
      intro others
      induction others with
      | nil =>
        intro index names values fuel left _ hfuel
        simp only [tokensOfAll, List.nil_append, joinedAll]
        exact parseAnds_ends (by omega) left hrest
      | cons condition others ihothers =>
        intro index names values fuel left hmem hfuel
        rw [List.forall_mem_cons] at hmem
        simp only [tokensOfAll, Nat.add_eq_zero_iff, Nat.one_ne_zero, and_false, if_false,
          List.length_append, List.length_cons, List.length_nil] at hfuel
        obtain ⟨fuel, rfl⟩ := Nat.exists_eq_add_of_le' (show 2 ≤ fuel by omega)
        simp only [tokensOfAll, Nat.add_eq_zero_iff, Nat.one_ne_zero, and_false, if_false,
          List.append_assoc, List.cons_append, List.nil_append]
        have hinner := ih condition hmem.1 names values fuel
          (.rparen :: (tokensOfAll text (index + 1 + 1)
            (names + (conditionNames condition).length)
            (values + (conditionValues text condition).length) others ++ rest))
          (by omega) (endsConjunction_rparen _)
        rw [parseAnds, if_pos (by decide), parseFactor_parenthesis hinner, joinedAll]
        cases hexpression : expressionAt text names values condition with
        | none =>
          rw [joined, Option.bind_some, Option.map_none, Option.map_none, joinedAll_none]
          rfl
        | some expression =>
          exact ihothers (index + 1) _ _ (fuel + 1) (.and left expression) hmem.2 (by omega)
    cases conditions with
    | nil => exact absurd rfl nonempty
    | cons condition others =>
      rw [tokensAt, tokensOfAll] at hfuel ⊢
      simp only [if_true, List.length_append, List.length_cons, List.length_nil] at hfuel
      obtain ⟨fuel, rfl⟩ := Nat.exists_eq_add_of_le' (show 2 ≤ fuel by omega)
      simp only [if_true, List.append_assoc, List.cons_append, List.nil_append]
      have hinner := ih condition List.mem_cons_self names values fuel
        (.rparen :: (tokensOfAll text (0 + 1) (names + (conditionNames condition).length)
          (values + (conditionValues text condition).length) others ++ rest))
        (by omega) (endsConjunction_rparen _)
      rw [parseConjunction, parseFactor_parenthesis hinner, expressionAt]
      cases hexpression : expressionAt text names values condition with
      | none =>
        rw [joinedAll_none]
        rfl
      | some expression =>
        exact hmembers others 0 _ _ (fuel + 1) expression
          (fun found hfound => List.mem_cons_of_mem _ hfound) (by omega)

theorem readExpression_spelled {condition : Condition} (h : NonEmptyAlls condition) :
    readExpression (spelled text 0 0 condition) = expressionAt text 0 0 condition := by
  have hparsed := parseConjunction_tokens text h 0 0
    ((tokensAt text 0 0 condition).length + 2) [] (Nat.le_refl _) (by intro _ _ h; cases h)
  rw [List.append_nil] at hparsed
  rw [readExpression, tokensOf_spelled, Option.bind_some, hparsed]
  cases expressionAt text 0 0 condition with
  | none => rfl
  | some expression => rfl

end Reading

end RefundStudy.Store
