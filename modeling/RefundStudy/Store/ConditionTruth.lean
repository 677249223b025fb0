/-
  A rendered condition is true of an item exactly when the condition holds of it.
-/
import RefundStudy.Store.ConditionReading

set_option autoImplicit false

namespace RefundStudy.Store

open Foundation

variable {start : Nat} {name : String}

/-- The item found under a key and the attribute map the service holds for it. -/
inductive HeldAs (text : NumberText) : Option JsonObject → Option AttributeMap → Prop where
  | absent : HeldAs text none none
  | present (item : StoredItem) {attributes : AttributeMap}
      (written : encodeAttributeMap text item.members = .ok attributes) :
      HeldAs text (some item.members) (some attributes)

section Truth

variable {text : NumberText}

/-! ## Attributes -/

theorem get?_encodeMembers {members : List (String × JsonValue)} :
    ∀ {path : String} {start written : AttributeMap},
      encodeMembers text path start members = .ok written → (members.map Prod.fst).Nodup →
      ∀ name, (name ∈ members.map Prod.fst → ∃ value out, InsertionMap.get? members name = some value ∧
          written.get? name = some out ∧ WrittenAs text value out) ∧
        (name ∉ members.map Prod.fst → written.get? name = start.get? name) := by
  induction members with
  | nil =>
    intro path start written h _ name
    cases h
    simp
  | cons entry rest ih =>
    obtain ⟨first, value⟩ := entry
    intro path start written h hnames name
    rw [encodeMembers] at h
    obtain ⟨out, hout, h⟩ := exists_of_bind_eq_ok h
    rw [List.map_cons, List.nodup_cons] at hnames
    have hrest := ih h hnames.2 name
    rw [List.map_cons, List.mem_cons]
    by_cases hname : name = first
    · subst hname
      refine ⟨fun _ => ⟨value, out, by simp [InsertionMap.get?], ?_, _, hout⟩,
        fun habsent => absurd (.inl rfl) habsent⟩
      rw [hrest.2 hnames.1, InsertionMap.get?_set_self]
    · refine ⟨fun hmem => ?_, fun habsent => ?_⟩
      · obtain ⟨found, written', hfound, hwritten⟩ := hrest.1 (hmem.resolve_left hname)
        exact ⟨found, written', by simp [InsertionMap.get?, Ne.symm hname, hfound], hwritten⟩
      · rw [hrest.2 fun hmem => habsent (.inr hmem), InsertionMap.get?_set_of_ne _ hname]

theorem attributeNamed_held {item : Option JsonObject} {attributes : Option AttributeMap}
    (h : HeldAs text item attributes) (name : String) :
    (∃ value out, (item.bind fun members => InsertionMap.get? members name) = some value ∧
      attributeNamed attributes name = some out ∧ WrittenAs text value out) ∨
    ((item.bind fun members => InsertionMap.get? members name) = none ∧
      attributeNamed attributes name = none) := by
  cases h with
  | absent => exact .inr ⟨rfl, rfl⟩
  | @present stored found written =>
    cases hdistinct : stored.distinct with
    | object hnames _ =>
      have hget := get?_encodeMembers written hnames name
      by_cases hname : name ∈ stored.members.map Prod.fst
      · exact .inl (hget.1 hname)
      · exact .inr ⟨InsertionMap.get?_of_not_mem hname, hget.2 hname⟩

/-- The service compares an attribute with an operand as the item's value compares. -/
theorem sameAttribute_written (law : text.Lawful) {value : JsonValue} {out : AttributeValue}
    (h : WrittenAs text value out) (operand : Scalar) :
    sameAttribute out (scalarAttributeValue text operand) = hasScalar value operand := by
  obtain ⟨path, h⟩ := h
  cases value with
  | null =>
    cases h
    cases operand <;> rfl
  | bool value =>
    cases h
    cases operand <;> rfl
  | string value =>
    cases h
    cases operand <;> rfl
  | array items =>
    rw [encodeAttributeValue] at h
    obtain ⟨written, -, h⟩ := exists_of_bind_eq_ok h
    cases h
    cases operand <;> rfl
  | object members =>
    rw [encodeAttributeValue] at h
    obtain ⟨written, -, h⟩ := exists_of_bind_eq_ok h
    cases h
    cases operand <;> rfl
  | number value =>
    obtain ⟨finite, rfl, -⟩ := encodable_finite (encodable_of_written ⟨path, h⟩)
    have hout : out = .n (text.print (.finite finite)) := by
      rw [encodeAttributeValue, encodeNumber,
        @encodable_of_written text _ out ⟨path, h⟩] at h
      cases h
      rfl
    subst hout
    cases operand with
    | string other => rfl
    | bool other => rfl
    | number other =>
      have hsome : (decimalValue (text.print (.finite finite))).isSome = true := by
        rw [decimalValue, Option.isSome_map]
        exact law.print_decimal finite
      have hspecial : other.isFinite = false →
          decimalValue (text.print (.finite finite)) ≠ decimalValue (text.print other) := by
        intro hother hsame
        have hnone := law.print_special other hother
        rw [isDecimalNumber, ← Option.isSome_map (f := DecimalText.value)] at hnone
        rw [hsame] at hsome
        exact absurd hsome (by rw [decimalValue, hnone]; decide)
      simp only [scalarAttributeValue, sameAttribute, hasScalar, hsome, true_and]
      cases other with
      | finite second =>
        simp only [law.print_value_eq_iff]
        simp [Double.positiveZero]
      | nan =>
        simp [hspecial rfl, Double.positiveZero]
      | infinite negative =>
        simp [hspecial rfl, Double.positiveZero]

/-! ## Placeholders at their places -/

/-- The part stands in the whole from this place on. -/
def Located {α : Type} (whole : List α) (start : Nat) (part : List α) : Prop :=
  ∀ place entry, part[place]? = some entry → whole[start + place]? = some entry

variable {α : Type}

theorem Located.left {whole first second : List α}
    (h : Located whole start (first ++ second)) : Located whole start first := by
  intro place entry hentry
  apply h place entry
  rw [List.getElem?_append_left]
  · exact hentry
  · exact (List.getElem?_eq_some_iff.mp hentry).1

theorem Located.right {whole first second : List α}
    (h : Located whole start (first ++ second)) : Located whole (start + first.length) second := by
  intro place entry hentry
  rw [Nat.add_assoc]
  apply h (first.length + place) entry
  rw [List.getElem?_append_right (by omega), Nat.add_sub_cancel_left]
  exact hentry

theorem Located.head {whole rest : List α} {first : α}
    (h : Located whole start (first :: rest)) : whole[start]? = some first := h 0 first rfl

theorem Located.tail {whole rest : List α} {start : Nat} {first : α}
    (h : Located whole start (first :: rest)) : Located whole (start + 1) rest := by
  intro place entry hentry
  rw [Nat.add_assoc, Nat.add_comm 1 place]
  exact h (place + 1) entry hentry

section Evaluation

variable {item : Option JsonObject} {attributes : Option AttributeMap} {wholeNames : List String}
  {wholeValues : List AttributeValue}

theorem operandValue_name
    (h : wholeNames[start]? = some name) :
    operandValue (marked nameMark wholeNames) (marked valueMark wholeValues) attributes
      (.name (nameMark start)) = some (attributeNamed attributes name) := by
  rw [operandValue, get?_marked nameMark_injective h]
  rfl

theorem operandValue_value {value : AttributeValue}
    (h : wholeValues[start]? = some value) :
    operandValue (marked nameMark wholeNames) (marked valueMark wholeValues) attributes
      (.value (valueMark start)) = some (some value) := by
  rw [operandValue, get?_marked valueMark_injective h]
  rfl

theorem operandValues_list {operands : List String}
    (h : Located wholeValues start (operands.map AttributeValue.s)) :
    ((operandMarks start operands.length).map Operand.value).mapM
      (operandValue (marked nameMark wholeNames) (marked valueMark wholeValues) attributes) =
      some (operands.map fun operand => some (.s operand)) := by
  induction operands generalizing start with
  | nil => simp [operandMarks]
  | cons operand rest ih =>
    rw [List.map_cons] at h
    have hmarks : operandMarks start (operand :: rest).length =
        valueMark start :: operandMarks (start + 1) rest.length := by
      simp [operandMarks, List.range'_succ]
    rw [hmarks, List.map_cons, List.mapM_cons, operandValue_value h.head, ih h.tail]
    rfl

/-- An expression has this truth value; where there is no expression, the value is false. -/
def HasTruth (wholeNames : List String) (wholeValues : List AttributeValue)
    (attributes : Option AttributeMap) (parsed : Option Expression) (holds : Bool) : Prop :=
  (∀ expression, parsed = some expression →
    expression.evaluate (marked nameMark wholeNames) (marked valueMark wholeValues) attributes =
      some holds) ∧
  (parsed = none → holds = false)

theorem HasTruth.joined {left right : Option Expression} {first second : Bool}
    (hleft : HasTruth wholeNames wholeValues attributes left first)
    (hright : HasTruth wholeNames wholeValues attributes right second) :
    HasTruth wholeNames wholeValues attributes (joined left right) (first && second) := by
  cases left with
  | none => exact ⟨fun _ h => (by cases h), fun _ => (by rw [hleft.2 rfl]; rfl)⟩
  | some left =>
    cases right with
    | none => exact ⟨fun _ h => (by cases h), fun _ => (by rw [hright.2 rfl, Bool.and_false])⟩
    | some right =>
      refine ⟨fun expression h => ?_, fun h => by cases h⟩
      cases h
      rw [Expression.evaluate, hleft.1 left rfl, hright.1 right rfl]
      rfl

theorem truth_itemAbsent (held : HeldAs text item attributes) {names : Nat}
    (hname : wholeNames[names]? = some "pk") :
    HasTruth wholeNames wholeValues attributes (some (.attributeNotExists (nameMark names)))
      (Condition.holds item .itemAbsent) := by
  refine ⟨fun expression h => ?_, fun h => by cases h⟩
  cases h
  rw [Expression.evaluate, get?_marked nameMark_injective hname, Option.map_some,
    Condition.holds]
  cases held with
  | absent => rfl
  | present stored written =>
    rcases attributeNamed_held (.present stored written) "pk" with ⟨value, out, -, hout, -⟩ | h
    · rw [hout]
      rfl
    · have hfound : InsertionMap.get? stored.members "pk" = none := h.1
      rw [stored.pk_found] at hfound
      cases hfound

theorem truth_attributeEquals (law : text.Lawful) (held : HeldAs text item attributes)
    {names values : Nat} {operand : Scalar}
    (hname : wholeNames[names]? = some name)
    (hvalue : wholeValues[values]? = some (scalarAttributeValue text operand)) :
    HasTruth wholeNames wholeValues attributes
      (some (.equals (.name (nameMark names)) (.value (valueMark values))))
      (Condition.holds item (.attributeEquals name operand)) := by
  refine ⟨fun expression h => ?_, fun h => by cases h⟩
  cases h
  rw [Expression.evaluate, operandValue_name hname, operandValue_value hvalue, Option.bind_some,
    Option.map_some, Condition.holds]
  rcases attributeNamed_held held name with ⟨value, out, hvalue, hout, hwritten⟩ | h
  · rw [hvalue, hout, sameOperand, sameAttribute_written law hwritten]
  · rw [h.1, h.2]
    rfl

theorem truth_attributeIn (law : text.Lawful) (held : HeldAs text item attributes)
    {names values : Nat} {operands : List String}
    (hname : wholeNames[names]? = some name)
    (hvalues : Located wholeValues values (operands.map AttributeValue.s)) :
    HasTruth wholeNames wholeValues attributes
      (some (.isIn (.name (nameMark names)) ((operandMarks values operands.length).map .value)))
      (Condition.holds item (.attributeIn name operands)) := by
  refine ⟨fun expression h => ?_, fun h => by cases h⟩
  cases h
  rw [Expression.evaluate, operandValue_name hname, operandValues_list hvalues, Option.bind_some,
    Option.map_some, Condition.holds, List.any_map]
  rcases attributeNamed_held held name with ⟨value, out, hvalue, hout, hwritten⟩ | h
  · have hsame : (sameOperand (some out) ∘ fun operand => some (AttributeValue.s operand)) =
        fun operand => hasScalar value (.string operand) :=
      funext fun operand => sameAttribute_written law hwritten (.string operand)
    rw [hvalue, hout, hsame]
  · rw [h.1, h.2]
    simp [Function.comp_def, sameOperand]

theorem truth_expressionAt (law : text.Lawful) (held : HeldAs text item attributes)
    {condition : Condition} (h : NonEmptyAlls condition) : ∀ names values : Nat,
      Located wholeNames names (conditionNames condition) →
      Located wholeValues values (conditionValues text condition) →
      HasTruth wholeNames wholeValues attributes (expressionAt text names values condition)
        (condition.holds item) := by
  induction h with
  | itemAbsent =>
    intro names values hnames _
    unfold conditionNames at hnames
    unfold expressionAt
    exact truth_itemAbsent held hnames.head
  | attributeEquals name operand =>
    intro names values hnames hvalues
    unfold conditionNames at hnames
    unfold conditionValues at hvalues
    unfold expressionAt
    exact truth_attributeEquals law held hnames.head hvalues.head
  | attributeIn name operands =>
    intro names values hnames hvalues
    unfold conditionNames at hnames
    unfold conditionValues at hvalues
    unfold expressionAt
    split
    · rename_i hnone
      refine ⟨fun expression h => (by cases h), fun _ => ?_⟩
      have hempty : operands = [] := List.eq_nil_of_length_eq_zero hnone
      subst hempty
      rw [Condition.holds]
      split <;> rfl
    · exact truth_attributeIn law held hnames.head hvalues
  | @all conditions nonempty nested ih =>
    intro names values hnames hvalues
    have hmembers : ∀ (others : List Condition) (names values : Nat) (left : Option Expression)
        (first : Bool), (∀ condition ∈ others, condition ∈ conditions) →
        HasTruth wholeNames wholeValues attributes left first →
        Located wholeNames names (allNames others) →
        Located wholeValues values (allValues text others) →
        HasTruth wholeNames wholeValues attributes (joinedAll text left names values others)
          (first && allHold item others) := by
      intro others
      induction others with
      | nil =>
        intro names values left first _ hleft _ _
        rw [joinedAll, allHold, Bool.and_true]
        exact hleft
      | cons condition others ihothers =>
        intro names values left first hmem hleft hnames hvalues
        rw [List.forall_mem_cons] at hmem
        rw [allNames] at hnames
        rw [allValues] at hvalues
        rw [joinedAll, allHold, ← Bool.and_assoc]
        exact ihothers _ _ _ _ hmem.2
          (hleft.joined (ih condition hmem.1 names values hnames.left hvalues.left))
          hnames.right hvalues.right
    rw [conditionNames] at hnames
    rw [conditionValues] at hvalues
    cases conditions with
    | nil => exact absurd rfl nonempty
    | cons condition others =>
      rw [allNames] at hnames
      rw [allValues] at hvalues
      rw [expressionAt, Condition.holds, allHold]
      exact hmembers others _ _ _ _ (fun found hfound => List.mem_cons_of_mem _ hfound)
        (ih condition List.mem_cons_self names values hnames.left hvalues.left)
        hnames.right hvalues.right

end Evaluation

/-- A rendered condition is true of the service's item exactly when the condition holds of the
item. -/
theorem expressionTrue_rendered (law : text.Lawful) {item : Option JsonObject}
    {attributes : Option AttributeMap} (held : HeldAs text item attributes)
    {condition : Condition} (h : NonEmptyAlls condition) :
    expressionTrue (toConditionExpression text condition).names
        (toConditionExpression text condition).values attributes
        (toConditionExpression text condition).expression ↔
      condition.holds item = true := by
  have htruth := truth_expressionAt law held h 0 0
    (fun place entry hentry => by rwa [Nat.zero_add])
    (fun place entry hentry => by rwa [Nat.zero_add])
  rw [toConditionExpression_eq, expressionTrue]
  dsimp only
  rw [readExpression_spelled text h]
  cases hparsed : expressionAt text 0 0 condition with
  | none =>
    rw [htruth.2 hparsed]
    simp
  | some expression =>
    rw [Option.bind_some, htruth.1 expression hparsed]
    simp

/-! ## Every placeholder, once -/

theorem namesAmong_append (first second : List Token) :
    namesAmong (first ++ second) = namesAmong first ++ namesAmong second :=
  List.filterMap_append

theorem valuesAmong_append (first second : List Token) :
    valuesAmong (first ++ second) = valuesAmong first ++ valuesAmong second :=
  List.filterMap_append

theorem among_operandTokens (marks : List String) :
    namesAmong (operandTokens marks) = [] ∧ valuesAmong (operandTokens marks) = marks := by
  induction marks with
  | nil => exact ⟨rfl, rfl⟩
  | cons mark rest ih =>
    cases rest with
    | nil => exact ⟨rfl, rfl⟩
    | cons next rest =>
      rw [operandTokens]
      · exact ⟨ih.1, congrArg (mark :: ·) ih.2⟩
      · simp

theorem among_opening (index : Nat) :
    namesAmong (if index = 0 then [.lparen] else [.word "AND", .lparen]) = [] ∧
      valuesAmong (if index = 0 then [.lparen] else [.word "AND", .lparen]) = [] := by
  split <;> exact ⟨rfl, rfl⟩

theorem among_tokensAt (condition : Condition) : ∀ names values : Nat,
    namesAmong (tokensAt text names values condition) =
      (List.range' names (conditionNames condition).length).map nameMark ∧
    valuesAmong (tokensAt text names values condition) =
      (List.range' values (conditionValues text condition).length).map valueMark := by
  induction condition using Condition.nested_induction with
  | itemAbsent =>
    intro names values
    unfold tokensAt conditionNames conditionValues
    exact ⟨rfl, rfl⟩
  | attributeEquals name value =>
    intro names values
    unfold tokensAt conditionNames conditionValues
    exact ⟨rfl, rfl⟩
  | attributeIn name operands =>
    intro names values
    unfold tokensAt conditionNames conditionValues
    have hoperands := among_operandTokens (operandMarks values operands.length)
    rw [namesAmong_append, namesAmong_append, valuesAmong_append, valuesAmong_append,
      hoperands.1, hoperands.2, List.length_map]
    refine ⟨rfl, ?_⟩
    have hrparen : valuesAmong [Token.rparen] = [] := rfl
    rw [hrparen, List.append_nil]
    rfl
  | all conditions ih =>
    intro names values
    have hmembers : ∀ (rest : List Condition) (index names values : Nat),
        (∀ condition ∈ rest, condition ∈ conditions) →
        namesAmong (tokensOfAll text index names values rest) =
          (List.range' names (allNames rest).length).map nameMark ∧
        valuesAmong (tokensOfAll text index names values rest) =
          (List.range' values (allValues text rest).length).map valueMark := by
      intro rest
      induction rest with
      | nil =>
        intro index names values _
        unfold tokensOfAll allNames allValues
        exact ⟨rfl, rfl⟩
      | cons condition rest ihrest =>
        intro index names values hmem
        rw [List.forall_mem_cons] at hmem
        obtain ⟨hnames, hvalues⟩ := ih condition hmem.1 names values
        obtain ⟨hotherNames, hotherValues⟩ := ihrest (index + 1)
          (names + (conditionNames condition).length)
          (values + (conditionValues text condition).length) hmem.2
        obtain ⟨hopenNames, hopenValues⟩ := among_opening index
        have hrparen : namesAmong [Token.rparen] = [] ∧ valuesAmong [Token.rparen] = [] :=
          ⟨rfl, rfl⟩
        rw [tokensOfAll, allNames, allValues, List.length_append, List.length_append]
        simp only [namesAmong_append, valuesAmong_append, hnames, hvalues, hotherNames,
          hotherValues, hopenNames, hopenValues, hrparen, List.nil_append, List.append_nil]
        rw [← List.map_append, ← List.map_append, List.range'_append_1,
          List.range'_append_1]
        exact ⟨rfl, rfl⟩
    have hall := hmembers conditions 0 names values fun _ h => h
    unfold tokensAt conditionNames conditionValues
    exact hall

/-! ## Requests with an update -/

def KeysStart {α : Type} (start : String) (entries : InsertionMap String α) : Prop :=
  ∀ key ∈ entries.map Prod.fst, ∃ number : Nat, key = start ++ toString number

theorem KeysStart.set {start : String} {entries : InsertionMap String α}
    (h : KeysStart start entries) (number : Nat) (entry : α) :
    KeysStart start (entries.set (start ++ toString number) entry) := by
  intro key hkey
  rw [InsertionMap.keys_set] at hkey
  split at hkey
  · exact h key hkey
  · rcases List.mem_append.mp hkey with hkey | hkey
    · exact h key hkey
    · exact ⟨number, List.mem_singleton.mp hkey⟩

def UpdateMaps (names : InsertionMap String String) (values : InsertionMap String AttributeValue) :
    Prop :=
  (KeysStart "#u" names ∧ (names.map Prod.fst).Nodup) ∧
    (KeysStart ":u" values ∧ (values.map Prod.fst).Nodup)

theorem updateTerms_maps {separator : String} {entries : List (String × JsonValue)} :
    ∀ {names lastNames : InsertionMap String String}
      {values lastValues : InsertionMap String AttributeValue} {terms : List String},
      updateTerms text separator names values entries = .ok (terms, lastNames, lastValues) →
      UpdateMaps names values → UpdateMaps lastNames lastValues := by
  induction entries with
  | nil =>
    intro names lastNames values lastValues terms h hmaps
    cases h
    exact hmaps
  | cons entry rest ih =>
    obtain ⟨name, value⟩ := entry
    intro names lastNames values lastValues terms h hmaps
    rw [updateTerms] at h
    obtain ⟨⟨pair, nextNames, nextValues⟩, hpair, h⟩ := exists_of_bind_eq_ok h
    dsimp only at h
    obtain ⟨⟨others, otherNames, otherValues⟩, hothers, hlast⟩ := exists_of_bind_eq_ok h
    rw [placeholderPair] at hpair
    obtain ⟨written, -, hpair⟩ := exists_of_bind_eq_ok hpair
    cases hpair
    cases hlast
    exact ih hothers ⟨⟨hmaps.1.1.set _ _, InsertionMap.nodup_set hmaps.1.2 _ _⟩,
      hmaps.2.1.set _ _, InsertionMap.nodup_set hmaps.2.2 _ _⟩

theorem toUpdateExpression_maps {set : JsonObject} {increment : InsertionMap String Double}
    {update : ExpressionParts} (h : toUpdateExpression text set increment = .ok update) :
    UpdateMaps update.names update.values := by
  rw [toUpdateExpression] at h
  obtain ⟨⟨setTerms, setNames, setValues⟩, hset, h⟩ := exists_of_bind_eq_ok h
  obtain ⟨⟨addTerms, names, values⟩, hadd, h⟩ := exists_of_bind_eq_ok h
  cases h
  have hempty : UpdateMaps [] [] := by
    refine ⟨⟨fun _ h => ?_, List.nodup_nil⟩, fun _ h => ?_, List.nodup_nil⟩ <;> cases h
  exact updateTerms_maps hadd (updateTerms_maps hset hempty)

theorem disjoint_of_starts {β : Type} {mark first second : Char} {entries : InsertionMap String α}
    {others : InsertionMap String β} (hne : first ≠ second)
    (hfirst : KeysStart (String.ofList [mark, first]) entries)
    (hsecond : KeysStart (String.ofList [mark, second]) others) :
    (entries.map Prod.fst).Disjoint (others.map Prod.fst) := by
  intro key hkey hother
  obtain ⟨number, rfl⟩ := hfirst key hkey
  obtain ⟨other, hsame⟩ := hsecond _ hother
  have hchars := congrArg String.toList hsame
  rw [String.toList_append, String.toList_append, String.toList_ofList, String.toList_ofList] at hchars
  simp only [List.cons_append, List.cons.injEq, true_and] at hchars
  exact hne hchars.1

theorem keysStart_marked {start : String} (entries : List α) :
    KeysStart start (marked (fun number => start ++ toString number) entries) := by
  intro key hkey
  rw [keys_marked, List.mem_map] at hkey
  obtain ⟨number, -, rfl⟩ := hkey
  exact ⟨number, rfl⟩

/-- With distinct and new keys, the members of the second object follow those of the first. -/
theorem spread_of_disjoint {first second : InsertionMap String α}
    (hnodup : (second.map Prod.fst).Nodup)
    (hdisjoint : (first.map Prod.fst).Disjoint (second.map Prod.fst)) :
    spread first second = first ++ second := by
  induction second generalizing first with
  | nil => simp [spread]
  | cons entry rest ih =>
    rw [List.map_cons, List.nodup_cons] at hnodup
    rw [List.map_cons, List.disjoint_cons_right] at hdisjoint
    have hstep : spread first (entry :: rest) = spread (first.set entry.1 entry.2) rest := rfl
    rw [hstep, InsertionMap.set_of_not_mem hdisjoint.1, ih hnodup.2, List.append_assoc]
    · rfl
    · rw [List.map_append, List.disjoint_append_left]
      refine ⟨hdisjoint.2, ?_⟩
      simpa using hnodup.1

/-- A rendered condition, read under the grammar of the service, is true of an item exactly when
the condition holds of it; the placeholders of its text are the keys of its maps, each there once;
and an update in the same request uses none of them, so the maps of the request are the two
together. -/
theorem rendered_condition_faithful (text : NumberText) (law : text.Lawful)
    (condition : Condition) (h : NonEmptyAlls condition) :
    (∀ (item : Option JsonObject) (attributes : Option AttributeMap), HeldAs text item attributes →
      (expressionTrue (toConditionExpression text condition).names
          (toConditionExpression text condition).values attributes
          (toConditionExpression text condition).expression ↔
        condition.holds item = true)) ∧
    (∃ tokens, tokensOf (toConditionExpression text condition).expression = some tokens ∧
      namesAmong tokens = (toConditionExpression text condition).names.map Prod.fst ∧
      valuesAmong tokens = (toConditionExpression text condition).values.map Prod.fst ∧
      ((toConditionExpression text condition).names.map Prod.fst).Nodup ∧
      ((toConditionExpression text condition).values.map Prod.fst).Nodup) ∧
    (∀ (set : JsonObject) (increment : InsertionMap String Double) (update : ExpressionParts),
      toUpdateExpression text set increment = .ok update →
      ((toConditionExpression text condition).names.map Prod.fst).Disjoint
        (update.names.map Prod.fst) ∧
      ((toConditionExpression text condition).values.map Prod.fst).Disjoint
        (update.values.map Prod.fst) ∧
      (mergedExpressionFields (toConditionExpression text condition)
        (some update)).expressionAttributeNames =
          (toConditionExpression text condition).names ++ update.names) := by
  have hparts := toConditionExpression_eq text condition
  refine ⟨fun item attributes held => expressionTrue_rendered law held h, ?_, ?_⟩
  · obtain ⟨hnames, hvalues⟩ := @among_tokensAt text condition 0 0
    rw [hparts]
    refine ⟨tokensAt text 0 0 condition, tokensOf_spelled text condition, ?_, ?_,
      nodup_marked nameMark_injective _, nodup_marked valueMark_injective _⟩
    · rw [hnames, keys_marked, List.range_eq_range']
    · rw [hvalues, keys_marked, List.range_eq_range']
  · intro set increment update hupdate
    have hmaps := toUpdateExpression_maps hupdate
    have hnames : ((toConditionExpression text condition).names.map Prod.fst).Disjoint
        (update.names.map Prod.fst) := by
      rw [hparts]
      exact @disjoint_of_starts _ _ '#' 'c' 'u' _ _ (by decide) (keysStart_marked _) hmaps.1.1
    have hvalues : ((toConditionExpression text condition).values.map Prod.fst).Disjoint
        (update.values.map Prod.fst) := by
      rw [hparts]
      exact @disjoint_of_starts _ _ ':' 'c' 'u' _ _ (by decide) (keysStart_marked _) hmaps.2.1
    exact ⟨hnames, hvalues, spread_of_disjoint hmaps.1.2 hnames⟩

def waitingCondition : Condition :=
  .all [.attributeEquals "state" (.string "ARMED"), .attributeIn "kind" ["trial", "probe"],
    .all [.attributeEquals "version" (.number (.finite tenThousand))]]

def waitingItem : StoredItem where
  members := [("pk", .string "run#trial"), ("sk", .string "treatment"), ("state", .string "ARMED"),
    ("kind", .string "probe"), ("version", .number (.finite tenThousand))]
  distinct := by
    refine .object (by decide) ?_
    simp only [List.forall_mem_cons, List.not_mem_nil, false_imp_iff, implies_true, and_true]
    exact ⟨.string _, .string _, .string _, .string _, .number _⟩
  pk := "run#trial"
  sk := "treatment"
  pk_found := rfl
  sk_found := rfl

theorem waitingCondition_faithful :
    NonEmptyAlls waitingCondition ∧
    ∃ attributes, encodeAttributeMap exactText waitingItem.members = .ok attributes ∧
      expressionTrue (toConditionExpression exactText waitingCondition).names
        (toConditionExpression exactText waitingCondition).values (some attributes)
        (toConditionExpression exactText waitingCondition).expression := by
  have hnonempty : NonEmptyAlls waitingCondition := by
    refine .all (by simp) ?_
    simp only [List.forall_mem_cons, List.not_mem_nil, false_imp_iff, implies_true, and_true]
    refine ⟨.attributeEquals _ _, .attributeIn _ _, .all (by simp) ?_⟩
    simpa using .attributeEquals _ _
  obtain ⟨attributes, hwritten⟩ : ∃ attributes,
      encodeAttributeMap exactText waitingItem.members = .ok attributes := by
    simp [waitingItem, encodeAttributeMap, encodeMembers, encodeAttributeValue, encodeNumber,
      tenThousand_encodable, pure, bind, Except.pure, Except.bind]
  have hholds : waitingCondition.holds (some waitingItem.members) = true := by decide +kernel
  exact ⟨hnonempty, attributes, hwritten, ((rendered_condition_faithful exactText exactText_lawful
    waitingCondition hnonempty).1 _ _ (.present waitingItem hwritten)).mpr hholds⟩

end Truth

end RefundStudy.Store
