/-
  Structural equivalence of JSON values (`structurallyEqual` of
  `record-contract/canonical-json.ts`, BR-RUA-034).

  A finite number has to print as a JSON number (`PrintsJson`).
-/
import RefundStudy.Foundation.Sorting
import RefundStudy.Record.CanonicalJson
import RefundStudy.Record.ParsedDocument

set_option autoImplicit false

namespace RefundStudy.Record

open Foundation Store

variable {value : JsonDocument}

/-! ## Numbers -/

/-- The text of a finite number is a JSON number. -/
def PrintsJson (text : NumberText) : Prop :=
  ∀ (value : FiniteDouble) (rest : List Char), EndsNumber rest →
    parseNumber ((text.print (.finite value)).toList ++ rest) =
      some ((text.print (.finite value)).toList, rest)

theorem numberHead_of_isDecimalNumber {decimal : String} (h : isDecimalNumber decimal = true) :
    ∃ first rest, decimal.toList = first :: rest ∧ NumberHead first := by
  unfold isDecimalNumber readDecimal at h
  cases hchars : decimal.toList with
  | nil =>
    rw [hchars] at h
    simp [splitMinus] at h
  | cons first rest =>
    refine ⟨first, rest, rfl, ?_⟩
    by_cases hminus : first = '-'
    · exact .inr hminus
    · by_cases hdigit : first.isDigit = true
      · exact .inl hdigit
      · have hsplit : splitMinus (first :: rest) = (false, first :: rest) := by
          unfold splitMinus
          split
          · rename_i heq
            exact absurd (List.cons.inj heq).1 hminus
          · rfl
        rw [hchars, hsplit] at h
        simp [hdigit] at h

theorem finite_numberReads {text : NumberText} (law : text.Lawful) (hprints : PrintsJson text)
    (value : Double) (h : value.isFinite = true) : NumberReads text value := by
  cases value with
  | nan => cases h
  | infinite negative => cases h
  | finite value =>
    refine ⟨numberHead_of_isDecimalNumber (law.print_decimal value), hprints value, ?_⟩
    exact law.read_print value

theorem exactText_printsJson : PrintsJson exactText := by
  intro value rest hrest
  simp only [exactText, exactPrint, exactDigits, String.toList_ofList]
  by_cases hinteger : value.units % FiniteDouble.unitsOfOne = 0
  · rw [if_pos hinteger]
    have hnone : optionalPart ['e', 'E'] true ([] ++ rest) = some ([], rest) :=
      optionalPart_none true fun c hc => by simp [(hrest c hc).2.2.1, (hrest c hc).2.2.2]
    have hparsed := parseNumber_exponent value.positiveZero.negative
      (value.units / FiniteDouble.unitsOfOne) hnone (.inl hrest)
    rwa [List.append_nil] at hparsed
  · rw [if_neg hinteger]
    apply parseNumber_exponent _ _ _ (.inr rfl)
    have hdigits : ∀ c ∈ ['1', '0', '7', '4'], c.isDigit = true :=
      List.all_eq_true.mp (by decide)
    have htake := takeDigits_digits (by decide) hdigits hrest
    simp only [optionalPart, List.cons_append, List.nil_append] at htake ⊢
    rw [htake]
    rfl

/-! ## What a canonical text shows -/

def Representable (value : JsonDocument) : Prop :=
  Built (fun number => number.isFinite = true) value

/-- The value with the members of every object in order and without the signs of zeros. -/
def structuralForm (value : JsonDocument) : JsonDocument := zeroed (canonicalDocument value)

def structurallyEqual (text : NumberText) (first second : JsonDocument) : Bool :=
  canonicalJson text first == canonicalJson text second

section Forms

theorem zeroedItems_eq_map (items : List JsonDocument) : zeroedItems items = items.map zeroed := by
  induction items with
  | nil => rfl
  | cons item rest ih => rw [zeroedItems, ih, List.map_cons]

theorem zeroedMembers_eq_map (members : List (JsString × JsonDocument)) :
    zeroedMembers members = members.map fun member => (member.1, zeroed member.2) := by
  induction members with
  | nil => rfl
  | cons member rest ih => rw [zeroedMembers, ih, List.map_cons]

theorem Built.zeroed {numbers : Double → Prop}
    (hnumbers : ∀ value, numbers value → numbers value.positiveZero)
    (h : Built numbers value) : Built numbers (Record.zeroed value) := by
  induction h with
  | null => exact .null
  | bool flag => exact .bool flag
  | number hnumber => exact .number (hnumbers _ hnumber)
  | string chars => exact .string chars
  | array _ ih =>
    rw [Record.zeroed, zeroedItems_eq_map]
    refine .array fun item hmem => ?_
    obtain ⟨original, horiginal, rfl⟩ := List.mem_map.mp hmem
    exact ih original horiginal
  | @object members hdistinct _ ih =>
    rw [Record.zeroed]
    refine .object (by rwa [zeroedMembers_names]) fun member hmem => ?_
    rw [zeroedMembers_eq_map] at hmem
    obtain ⟨original, horiginal, rfl⟩ := List.mem_map.mp hmem
    exact ih original horiginal

theorem Representable.structuralForm (h : Representable value) :
    Representable (structuralForm value) := by
  apply Built.zeroed _ h.canonical
  intro number hfinite
  rw [Double.isFinite_positiveZero]
  exact hfinite

end Forms

section Texts

variable {text : NumberText}

mutual

theorem jsonText_zeroed (law : text.Lawful) :
    ∀ value : JsonDocument, jsonText text (zeroed value) = jsonText text value
  | .null => rfl
  | .bool true => rfl
  | .bool false => rfl
  | .number .nan => rfl
  | .number (.infinite _) => rfl
  | .number (.finite value) => by
    simp only [zeroed, jsonText, Double.positiveZero, law.print_zero]
  | .string _ => rfl
  | .array items => by
    simp only [zeroed, jsonText, itemsText_zeroed law items]
  | .object members => by
    simp only [zeroed, jsonText, membersText_zeroed law members]

theorem itemsText_zeroed (law : text.Lawful) :
    ∀ items : List JsonDocument, itemsText text (zeroedItems items) = itemsText text items
  | [] => rfl
  | item :: rest => by
    simp only [zeroedItems, itemsText, jsonText_zeroed law item, moreItemsText_zeroed law rest]

theorem moreItemsText_zeroed (law : text.Lawful) :
    ∀ items : List JsonDocument, moreItemsText text (zeroedItems items) = moreItemsText text items
  | [] => rfl
  | item :: rest => by
    simp only [zeroedItems, moreItemsText, jsonText_zeroed law item,
      moreItemsText_zeroed law rest]

theorem membersText_zeroed (law : text.Lawful) :
    ∀ members : List (JsString × JsonDocument),
      membersText text (zeroedMembers members) = membersText text members
  | [] => rfl
  | (name, value) :: rest => by
    simp only [zeroedMembers, membersText, jsonText_zeroed law value,
      moreMembersText_zeroed law rest]

theorem moreMembersText_zeroed (law : text.Lawful) :
    ∀ members : List (JsString × JsonDocument),
      moreMembersText text (zeroedMembers members) = moreMembersText text members
  | [] => rfl
  | (name, value) :: rest => by
    simp only [zeroedMembers, moreMembersText, jsonText_zeroed law value,
      moreMembersText_zeroed law rest]

end

/-- `JSON.parse` of a canonical text. -/
theorem parseJson_canonicalJson (law : text.Lawful) (hprints : PrintsJson text)
    (h : Representable value) :
    parseJson text (canonicalJson text value) = some (structuralForm value) :=
  parseJson_built (finite_numberReads law hprints) h.canonical

/-- The canonical texts of two values are equal exactly when the values are, up to the order of
members and the signs of zeros. -/
theorem canonicalJson_eq_iff (law : text.Lawful) (hprints : PrintsJson text)
    {first second : JsonDocument} (hfirst : Representable first) (hsecond : Representable second) :
    canonicalJson text first = canonicalJson text second ↔
      structuralForm first = structuralForm second := by
  constructor
  · intro h
    have hread := parseJson_canonicalJson law hprints hfirst
    rw [h, parseJson_canonicalJson law hprints hsecond] at hread
    exact (Option.some.inj hread).symm
  · intro h
    have htext : ∀ value, jsonText text (structuralForm value) = canonicalJson text value :=
      fun value => jsonText_zeroed law (canonicalDocument value)
    rw [← htext first, ← htext second, h]

theorem canonicalJson_ne_bracket (law : text.Lawful)
    (h : Representable value) (rest : List Char) : canonicalJson text value ≠ '<' :: rest := by
  have hhead : ∀ first others, jsonText text (canonicalDocument value) = first :: others →
      first ≠ '<' → canonicalJson text value ≠ '<' :: rest := by
    intro first others hfirst hne heq
    rw [canonicalJson, hfirst] at heq
    exact hne (List.cons.inj heq).1
  cases h with
  | null => exact hhead _ _ rfl (by decide)
  | bool flag => cases flag <;> exact hhead _ _ rfl (by decide)
  | string chars => exact hhead _ _ rfl (by decide)
  | array => exact hhead _ _ rfl (by decide)
  | object => exact hhead _ _ rfl (by decide)
  | @number number hfinite =>
    cases number with
    | nan => cases hfinite
    | infinite negative => cases hfinite
    | finite number =>
      obtain ⟨first, others, hfirst, hnumber⟩ :=
        numberHead_of_isDecimalNumber (law.print_decimal number)
      exact hhead first others hfirst (hnumber.ne (by decide) (by decide))

end Texts

/-! ## Members of a form -/

section Members

abbrev MemberLe (first second : JsString × JsonDocument) : Prop := unitsLe first.1 second.1 = true

instance : IsTrans (JsString × JsonDocument) MemberLe where
  trans first second third h hnext := by
    unfold MemberLe unitsLe at h hnext ⊢
    rw [decide_eq_true_eq] at h hnext ⊢
    exact List.le_trans h hnext

instance : Std.Total MemberLe where
  total first second := by
    unfold MemberLe unitsLe
    rw [decide_eq_true_eq, decide_eq_true_eq]
    exact List.le_total _ _

def structuralMembers (members : List (JsString × JsonDocument)) : List (JsString × JsonDocument) :=
  zeroedMembers (sortMembers (canonicalMembers members))

variable (members : List (JsString × JsonDocument))

@[simp] theorem structuralForm_object :
    structuralForm (.object members) = .object (structuralMembers members) := by
  rw [structuralForm, canonicalDocument, zeroed, structuralMembers]

@[simp] theorem structuralForm_array (items : List JsonDocument) :
    structuralForm (.array items) = .array (items.map structuralForm) := by
  rw [structuralForm, canonicalDocument, zeroed, canonicalItems_eq_map, zeroedItems_eq_map,
    List.map_map]
  rfl

theorem structuralMembers_eq :
    structuralMembers members =
      sortMembers (members.map fun member => (member.1, structuralForm member.2)) := by
  have hmap : ∀ sorted : List (JsString × JsonDocument), sortMembers
      (sorted.map fun member => (member.1, zeroed member.2)) =
        (sortMembers sorted).map fun member => (member.1, zeroed member.2) := by
    intro sorted
    unfold sortMembers
    exact (List.map_insertionSort MemberLe MemberLe
      (fun member : JsString × JsonDocument => (member.1, zeroed member.2)) sorted
      fun _ _ _ _ => Iff.rfl).symm
  rw [structuralMembers, zeroedMembers_eq_map, canonicalMembers_eq_map, ← hmap, List.map_map]
  rfl

theorem structuralMembers_names :
    ((structuralMembers members).map Prod.fst).Perm (members.map Prod.fst) := by
  rw [structuralMembers_eq]
  have hperm := (sortMembers_perm
    (members.map fun member => (member.1, structuralForm member.2))).map Prod.fst
  rwa [List.map_map] at hperm

theorem structuralMembers_filter (keep : JsString → Bool) :
    structuralMembers (members.filter fun member => keep member.1) =
      (structuralMembers members).filter fun member => keep member.1 := by
  rw [structuralMembers_eq, structuralMembers_eq]
  unfold sortMembers
  have hsort := @filter_insertionSort _ MemberLe _ _ _ (fun member => keep member.1)
    (members.map fun member => (member.1, structuralForm member.2))
  rw [hsort, List.filter_map]
  rfl

theorem get?_structuralMembers {members : InsertionMap JsString JsonDocument}
    (hdistinct : (members.map Prod.fst).Nodup) (name : JsString) :
    InsertionMap.get? (structuralMembers members) name =
      (members.get? name).map structuralForm := by
  rw [structuralMembers_eq, get?_of_perm (sortMembers_perm _) (by rwa [List.map_map]),
    InsertionMap.get?_map]

theorem structuralForm_structuralForm (h : Representable value) :
    structuralForm (structuralForm value) = structuralForm value := by
  induction h with
  | null => rfl
  | bool flag => rfl
  | number hnumber => simp [structuralForm, canonicalDocument, zeroed]
  | string chars => rfl
  | @array items _ ih =>
    rw [structuralForm_array, structuralForm_array, List.map_map]
    congr 1
    exact List.map_congr_left ih
  | @object members _ _ ih =>
    rw [structuralForm_object, structuralForm_object]
    congr 1
    rw [structuralMembers_eq (structuralMembers members)]
    have hsame : (structuralMembers members).map (fun member => (member.1, structuralForm member.2)) =
        structuralMembers members := by
      conv => rhs; rw [← List.map_id (structuralMembers members)]
      apply List.map_congr_left
      intro member hmem
      rw [structuralMembers_eq, (sortMembers_perm _).mem_iff] at hmem
      obtain ⟨original, horiginal, rfl⟩ := List.mem_map.mp hmem
      simp only [ih original horiginal, id]
    rw [hsame, structuralMembers_eq]
    unfold sortMembers
    exact (List.pairwise_insertionSort MemberLe _).insertionSort_eq

end Members

/-! ## Files -/

section Files

variable {text : NumberText}

theorem representable_of_finite (hdistinct : DistinctNames value)
    (hfinite : hasNonFinite value = false) : Representable value := by
  induction hdistinct with
  | null => exact .null
  | bool flag => exact .bool flag
  | number number => exact .number (by simpa [hasNonFinite] using hfinite)
  | string chars => exact .string chars
  | array _ ih =>
    rw [hasNonFinite, itemsNonFinite_eq_false] at hfinite
    exact .array fun item hmem => ih item hmem (hfinite item hmem)
  | object distinct _ ih =>
    rw [hasNonFinite, membersNonFinite_eq_false] at hfinite
    exact .object distinct fun member hmem => ih member hmem (hfinite member hmem)

theorem parseJsonDocument_representable {bytes : List UInt8}
    (h : parseJsonDocument text bytes = some value) : Representable value := by
  unfold parseJsonDocument at h
  obtain ⟨chars, -, hparsed⟩ := Option.bind_eq_some_iff.mp h
  obtain ⟨document, hdocument, hfinite⟩ := Option.bind_eq_some_iff.mp hparsed
  split at hfinite
  · cases hfinite
  · rename_i hnumbers
    obtain rfl := Option.some.inj hfinite
    exact representable_of_finite (parseJson_distinctNames hdocument) (by simpa using hnumbers)

theorem hasNonFinite_of_representable (h : Representable value) :
    hasNonFinite value = false :=
  hasNonFinite_of_built (fun _ hfinite => hfinite) h

/-- The bytes of a record file: canonical JSON and a line break. -/
def recordFileBytes (text : NumberText) (value : JsonDocument) : List UInt8 :=
  utf8 (canonicalJson text value ++ ['\n'])

theorem parseJsonDocument_recordFile (law : text.Lawful) (hprints : PrintsJson text)
    (h : Representable value) :
    parseJsonDocument text (recordFileBytes text value) = some (structuralForm value) := by
  have hread := built_readsZeroed (finite_numberReads law hprints) h.canonical
    (2 * (canonicalJson text value ++ ['\n']).length + 2) ['\n']
    (by rw [List.length_append, canonicalJson]; omega) (.cons (by decide))
  have hparsed : parseJson text (canonicalJson text value ++ ['\n']) =
      some (structuralForm value) := by
    rw [parseJson]
    change (parseValue text _ (jsonText text (canonicalDocument value) ++ ['\n'])).bind _ = _
    rw [hread]
    rfl
  rw [recordFileBytes, parseJsonDocument, decodeUtf8Strict_utf8, Option.bind_some, hparsed,
    Option.bind_some, hasNonFinite_of_representable h.structuralForm]
  rfl

end Files

end RefundStudy.Record
