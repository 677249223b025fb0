/-
  The encoder, the decoder and the validator of stored items agree.

  The sign of a zero is not written, so a value is read back up to it (`JsonValue.positiveZeros`).
-/
import RefundStudy.Foundation.Program
import RefundStudy.Store.AttributeValue

set_option autoImplicit false

namespace RefundStudy.Store

open Foundation

variable {members : List (String × JsonValue)} {items : List JsonValue} {value : JsonValue}
  {path : String}

/-! ## Induction on nested values -/

theorem JsonValue.nested_induction {P : JsonValue → Prop}
    (null : P .null) (bool : ∀ value, P (.bool value)) (number : ∀ value, P (.number value))
    (string : ∀ value, P (.string value))
    (array : ∀ items, (∀ item ∈ items, P item) → P (.array items))
    (object : ∀ members : List (String × JsonValue), (∀ entry ∈ members, P entry.2) →
      P (.object members))
    (value : JsonValue) : P value := by
  apply @JsonValue.rec P (fun items => ∀ item ∈ items, P item)
    (fun members => ∀ entry ∈ members, P entry.2) (fun entry => P entry.2)
  all_goals grind

theorem Unknown.nested_induction {P : Unknown → Prop}
    (flat : ∀ value, (∀ items, value ≠ .array items) → (∀ members, value ≠ .object members) →
      P value)
    (array : ∀ items, (∀ item ∈ items, P item) → P (.array items))
    (object : ∀ members : List (String × Unknown), (∀ entry ∈ members, P entry.2) →
      P (.object members))
    (value : Unknown) : P value := by
  apply @Unknown.rec P (fun items => ∀ item ∈ items, P item)
    (fun members => ∀ entry ∈ members, P entry.2) (fun entry => P entry.2)
  all_goals grind

theorem except_ok_bind {ε α β : Type} (value : α) (rest : α → Except ε β) :
    (Except.ok value >>= rest) = rest value := rfl

/-! ## What a stored value is -/

/-- Every object in the value has one member for each name. -/
inductive DistinctNames : JsonValue → Prop where
  | null : DistinctNames .null
  | bool (value : Bool) : DistinctNames (.bool value)
  | number (value : Double) : DistinctNames (.number value)
  | string (value : String) : DistinctNames (.string value)
  | array {items : List JsonValue} (nested : ∀ item ∈ items, DistinctNames item) :
      DistinctNames (.array items)
  | object {members : List (String × JsonValue)} (names : (members.map Prod.fst).Nodup)
      (nested : ∀ entry ∈ members, DistinctNames entry.2) : DistinctNames (.object members)

/-- The value can be stored with `depth` lists and maps around it. -/
inductive Storable (text : NumberText) : Nat → JsonValue → Prop where
  | null (depth : Nat) : Storable text depth .null
  | bool (depth : Nat) (value : Bool) : Storable text depth (.bool value)
  | string (depth : Nat) (value : String) : Storable text depth (.string value)
  | number (depth : Nat) {value : Double} (encodable : unencodableNumberReason text value = none) :
      Storable text depth (.number value)
  | array {depth : Nat} {items : List JsonValue} (shallow : depth < maxNestingDepth)
      (nested : ∀ item ∈ items, Storable text (depth + 1) item) :
      Storable text depth (.array items)
  | object {depth : Nat} {members : List (String × JsonValue)} (shallow : depth < maxNestingDepth)
      (nested : ∀ entry ∈ members, Storable text (depth + 1) entry.2) :
      Storable text depth (.object members)

/-- A stored item: its key and its JSON attributes, one for each name. -/
structure StoredItem where
  members : JsonObject
  distinct : DistinctNames (.object members)
  pk : String
  sk : String
  pk_found : InsertionMap.get? members "pk" = some (.string pk)
  sk_found : InsertionMap.get? members "sk" = some (.string sk)

mutual

def JsonValue.positiveZeros : JsonValue → JsonValue
  | .null => .null
  | .bool value => .bool value
  | .number value => .number value.positiveZero
  | .string value => .string value
  | .array items => .array (positiveZerosOfItems items)
  | .object members => .object (positiveZerosOfMembers members)

/-- The elements of a list without the signs of their zeros. -/
def positiveZerosOfItems : List JsonValue → List JsonValue
  | [] => []
  | item :: rest => item.positiveZeros :: positiveZerosOfItems rest

def positiveZerosOfMembers : List (String × JsonValue) → List (String × JsonValue)
  | [] => []
  | (name, value) :: rest => (name, value.positiveZeros) :: positiveZerosOfMembers rest

end

@[simp] theorem positiveZerosOfItems_eq (items : List JsonValue) :
    positiveZerosOfItems items = items.map JsonValue.positiveZeros := by
  induction items with
  | nil => rfl
  | cons item rest ih => simp only [positiveZerosOfItems, ih, List.map_cons]

@[simp] theorem positiveZerosOfMembers_eq (members : List (String × JsonValue)) :
    positiveZerosOfMembers members =
      members.map fun entry => (entry.1, entry.2.positiveZeros) := by
  induction members with
  | nil => rfl
  | cons entry rest ih => simp only [positiveZerosOfMembers, ih, List.map_cons]

/-! ## The validator accepts the storable values -/

section Codec

variable {text : NumberText}

variable {depth : Nat}

theorem elementViolations_eq_nil
    (h : ∀ item ∈ items, ∀ path, valueViolations text path depth item = [] ↔
      Storable text depth item) (path : String) (index : Nat) :
    elementViolations text path depth index items = [] ↔
      ∀ item ∈ items, Storable text depth item := by
  induction items generalizing index with
  | nil => simp [elementViolations]
  | cons item rest ih =>
    have hrest := ih (fun found hfound => h found (List.mem_cons_of_mem _ hfound)) (index + 1)
    rw [elementViolations, List.append_eq_nil_iff, h item List.mem_cons_self, hrest,
      List.forall_mem_cons]

theorem memberViolations_eq_nil
    (h : ∀ entry ∈ members, ∀ path, valueViolations text path depth entry.2 = [] ↔
      Storable text depth entry.2) (path : String) :
    memberViolations text path depth members = [] ↔
      ∀ entry ∈ members, Storable text depth entry.2 := by
  induction members with
  | nil => simp [memberViolations]
  | cons entry rest ih =>
    obtain ⟨name, value⟩ := entry
    have hvalue := h (name, value) List.mem_cons_self
    have hrest := ih fun found hfound => h found (List.mem_cons_of_mem _ hfound)
    rw [memberViolations, List.append_eq_nil_iff, hvalue, hrest, List.forall_mem_cons]

theorem storable_array_iff :
    Storable text depth (.array items) ↔
      depth < maxNestingDepth ∧ ∀ item ∈ items, Storable text (depth + 1) item := by
  constructor
  · intro h
    cases h with
    | array shallow nested => exact ⟨shallow, nested⟩
  · intro h
    exact .array h.1 h.2

theorem storable_object_iff :
    Storable text depth (.object members) ↔
      depth < maxNestingDepth ∧ ∀ entry ∈ members, Storable text (depth + 1) entry.2 := by
  constructor
  · intro h
    cases h with
    | object shallow nested => exact ⟨shallow, nested⟩
  · intro h
    exact .object h.1 h.2

theorem storable_number_iff {value : Double} :
    Storable text depth (.number value) ↔ unencodableNumberReason text value = none := by
  constructor
  · intro h
    cases h with
    | number _ encodable => exact encodable
  · intro h
    exact .number depth h

theorem valueViolations_eq_nil (value : JsonValue) : ∀ (path : String) (depth : Nat),
    valueViolations text path depth value = [] ↔ Storable text depth value := by
  induction value using JsonValue.nested_induction with
  | null => exact fun _ depth => iff_of_true rfl (.null depth)
  | bool value => exact fun _ depth => iff_of_true rfl (.bool depth value)
  | string value => exact fun _ depth => iff_of_true rfl (.string depth value)
  | number value =>
    intro path depth
    rw [valueViolations, storable_number_iff]
    cases unencodableNumberReason text value <;> simp
  | array items ih =>
    intro path depth
    rw [valueViolations, storable_array_iff]
    split
    · rename_i hdeep
      exact iff_of_false (List.cons_ne_nil _ _) fun h => absurd h.1 (Nat.not_lt.mpr hdeep)
    · rename_i hshallow
      rw [elementViolations_eq_nil fun item hitem path => ih item hitem path (depth + 1)]
      exact ⟨fun h => ⟨Nat.lt_of_not_le hshallow, h⟩, fun h => h.2⟩
  | object members ih =>
    intro path depth
    rw [valueViolations, storable_object_iff]
    split
    · rename_i hdeep
      exact iff_of_false (List.cons_ne_nil _ _) fun h => absurd h.1 (Nat.not_lt.mpr hdeep)
    · rename_i hshallow
      rw [memberViolations_eq_nil fun entry hentry path => ih entry hentry path (depth + 1)]
      exact ⟨fun h => ⟨Nat.lt_of_not_le hshallow, h⟩, fun h => h.2⟩

/-! ## Reading what was written

One equation for each member of an attribute value. -/

@[simp] theorem decodeAtDepth_null (path : String) (depth : Nat) :
    decodeAtDepth text path depth AttributeValue.null.plain = .ok .null := by
  simp [AttributeValue.plain, decodeAtDepth, decodeOnlyMember, decodeMember, decodeFlatMember,
    decodeNull]

@[simp] theorem decodeAtDepth_bool (path : String) (depth : Nat) (value : Bool) :
    decodeAtDepth text path depth (AttributeValue.bool value).plain = .ok (.bool value) := by
  simp [AttributeValue.plain, decodeAtDepth, decodeOnlyMember, decodeMember, decodeFlatMember,
    decodeBoolean]

@[simp] theorem decodeAtDepth_s (path : String) (depth : Nat) (value : String) :
    decodeAtDepth text path depth (AttributeValue.s value).plain = .ok (.string value) := by
  simp [AttributeValue.plain, decodeAtDepth, decodeOnlyMember, decodeMember, decodeFlatMember,
    decodeString]

theorem decodeAtDepth_n (path : String) (depth : Nat) (digits : String) :
    decodeAtDepth text path depth (AttributeValue.n digits).plain =
      decodeNumber text (.string digits) path := by
  simp [AttributeValue.plain, decodeAtDepth, decodeOnlyMember, decodeMember, decodeFlatMember]

theorem decodeAtDepth_l (path : String) (depth : Nat) (items : List AttributeValue) :
    decodeAtDepth text path depth (AttributeValue.l items).plain =
      if depth < maxNestingDepth then
        decodeElements text path (depth + 1) 0 (plainItems items) >>= fun values => .ok (.array values)
      else .error (.refused (nestingViolation path)) := by
  simp only [AttributeValue.plain, decodeAtDepth, decodeOnlyMember, decodeMember, List.length_nil,
    if_true, true_and]
  split
  · rfl
  · rename_i hdeep
    simp [decodeFlatMember, hdeep]

theorem decodeAtDepth_m (path : String) (depth : Nat) (members : List (String × AttributeValue)) :
    decodeAtDepth text path depth (AttributeValue.m members).plain =
      if depth < maxNestingDepth then
        decodeMembers text path (depth + 1) [] (plainMembers members) >>= fun values =>
          .ok (.object values)
      else .error (.refused (nestingViolation path)) := by
  simp only [AttributeValue.plain, decodeAtDepth, decodeOnlyMember, decodeMember, List.length_nil,
    if_true, true_and]
  split
  · rfl
  · rename_i hdeep
    simp [decodeFlatMember, hdeep]

theorem encodable_finite {value : Double} (h : unencodableNumberReason text value = none) :
    ∃ finite, value = .finite finite ∧
      unencodableNumberReason text (.finite finite.positiveZero) = none := by
  cases value with
  | nan => simp [unencodableNumberReason, Double.isFinite] at h
  | infinite negative => simp [unencodableNumberReason, Double.isFinite] at h
  | finite finite =>
    refine ⟨finite, rfl, ?_⟩
    have hsame : Double.finite finite.positiveZero = (Double.finite finite).positiveZero := rfl
    unfold unencodableNumberReason at h ⊢
    rw [hsame]
    simp only [Double.isFinite_positiveZero, Double.isInteger_positiveZero,
      Double.isSafeInteger_positiveZero, Double.isZero_positiveZero,
      Double.magnitudeBelow_positiveZero]
    grind

theorem decodeNumber_print (law : text.Lawful) {value : Double}
    (h : unencodableNumberReason text value = none) (path : String) :
    decodeNumber text (.string (text.print value)) path = .ok (.number value.positiveZero) := by
  obtain ⟨finite, rfl, hread⟩ := encodable_finite h
  simp only [decodeNumber, law.print_decimal finite, if_true, law.read_print finite, hread]
  rfl

/-- The encoder writes the value, and the decoder reads it back at this depth. -/
def ReadsBack (text : NumberText) (depth : Nat) (value : JsonValue) : Prop :=
  ∀ path, ∃ written, encodeAttributeValue text path value = .ok written ∧
    ∀ path, decodeAtDepth text path depth written.plain = .ok value.positiveZeros

theorem elements_read_back (h : ∀ item ∈ items, ReadsBack text depth item)
    (path : String) (index : Nat) :
    ∃ written, encodeElements text path index items = .ok written ∧
      ∀ path index, decodeElements text path depth index (plainItems written) =
        .ok (items.map JsonValue.positiveZeros) := by
  induction items generalizing index with
  | nil => exact ⟨[], rfl, fun _ _ => rfl⟩
  | cons item rest ih =>
    obtain ⟨first, hfirst, hread⟩ := h item List.mem_cons_self (elementPath path index)
    obtain ⟨others, hothers, hreads⟩ :=
      ih (fun found hfound => h found (List.mem_cons_of_mem _ hfound)) (index + 1)
    refine ⟨first :: others, ?_, fun path index => ?_⟩
    · rw [encodeElements, hfirst, except_ok_bind, hothers]
      rfl
    · rw [plainItems, decodeElements, hread, except_ok_bind, hreads]
      rfl

theorem members_read_back
    (h : ∀ entry ∈ members, ReadsBack text depth entry.2) (names : (members.map Prod.fst).Nodup)
    (path : String) (encoded : AttributeMap)
    (fresh : ∀ name ∈ members.map Prod.fst, name ∉ encoded.map Prod.fst) :
    ∃ written, encodeMembers text path encoded members = .ok (encoded ++ written) ∧
      ∀ path (values : JsonObject), (∀ name ∈ members.map Prod.fst, name ∉ values.map Prod.fst) →
        decodeMembers text path depth values (plainMembers written) =
          .ok (values ++ members.map fun entry => (entry.1, entry.2.positiveZeros)) := by
  induction members generalizing encoded with
  | nil => exact ⟨[], by simp [encodeMembers], fun _ values _ => by simp [plainMembers, decodeMembers]⟩
  | cons entry rest ih =>
    obtain ⟨name, value⟩ := entry
    rw [List.map_cons, List.nodup_cons] at names
    rw [List.map_cons, List.forall_mem_cons] at fresh
    obtain ⟨first, hfirst, hread⟩ := h (name, value) List.mem_cons_self (memberPath path name)
    have hfresh : ∀ other ∈ rest.map Prod.fst,
        other ∉ (encoded ++ [(name, first)]).map Prod.fst := by
      intro other hother hmem
      rw [List.map_append, List.mem_append] at hmem
      rcases hmem with hmem | hmem
      · exact fresh.2 other hother hmem
      · exact names.1 ((List.mem_singleton.mp hmem) ▸ hother)
    obtain ⟨others, hothers, hreads⟩ :=
      ih (fun found hfound => h found (List.mem_cons_of_mem _ hfound)) names.2
        (encoded ++ [(name, first)]) hfresh
    refine ⟨(name, first) :: others, ?_, fun path values hvalues => ?_⟩
    · rw [encodeMembers, hfirst, except_ok_bind, InsertionMap.set_of_not_mem fresh.1, hothers,
        List.append_assoc]
      rfl
    · rw [List.map_cons, List.forall_mem_cons] at hvalues
      rw [plainMembers, decodeMembers, hread, except_ok_bind,
        InsertionMap.set_of_not_mem hvalues.1, hreads]
      · simp
      · intro other hother hmem
        rw [List.map_append, List.mem_append] at hmem
        rcases hmem with hmem | hmem
        · exact hvalues.2 other hother hmem
        · exact names.1 ((List.mem_singleton.mp hmem) ▸ hother)

theorem storable_reads_back (law : text.Lawful) (value : JsonValue) : ∀ depth : Nat,
    Storable text depth value → DistinctNames value → ReadsBack text depth value := by
  induction value using JsonValue.nested_induction with
  | null => exact fun _ _ _ _ => ⟨.null, rfl, fun path => decodeAtDepth_null path _⟩
  | bool value => exact fun _ _ _ _ => ⟨.bool value, rfl, fun path => decodeAtDepth_bool path _ value⟩
  | string value => exact fun _ _ _ _ => ⟨.s value, rfl, fun path => decodeAtDepth_s path _ value⟩
  | number value =>
    intro depth hstorable _ path
    rw [storable_number_iff] at hstorable
    refine ⟨.n (text.print value), ?_, fun path => ?_⟩
    · rw [encodeAttributeValue, encodeNumber, hstorable]
      rfl
    · rw [decodeAtDepth_n, decodeNumber_print law hstorable]
      rfl
  | array items ih =>
    intro depth hstorable hdistinct path
    rw [storable_array_iff] at hstorable
    cases hdistinct with
    | array hnested =>
      obtain ⟨written, hwritten, hread⟩ := elements_read_back
        (fun item hitem => ih item hitem (depth + 1) (hstorable.2 item hitem)
          (hnested item hitem)) path 0
      refine ⟨.l written, ?_, fun path => ?_⟩
      · rw [encodeAttributeValue, hwritten]
        rfl
      · rw [decodeAtDepth_l, if_pos hstorable.1, hread, JsonValue.positiveZeros,
          positiveZerosOfItems_eq]
        rfl
  | object members ih =>
    intro depth hstorable hdistinct path
    rw [storable_object_iff] at hstorable
    cases hdistinct with
    | object hnames hnested =>
      obtain ⟨written, hwritten, hread⟩ := members_read_back
        (fun entry hentry => ih entry hentry (depth + 1) (hstorable.2 entry hentry)
          (hnested entry hentry)) hnames path [] (by simp)
      refine ⟨.m written, ?_, fun path => ?_⟩
      · rw [encodeAttributeValue, hwritten]
        rfl
      · rw [decodeAtDepth_m, if_pos hstorable.1, hread path [] (by simp),
          JsonValue.positiveZeros, positiveZerosOfMembers_eq]
        rfl

/-! ## What the decoder returns is storable -/

def Sound (text : NumberText) (depth : Nat) (value : JsonValue) : Prop :=
  Storable text depth value ∧ DistinctNames value

variable {content : Unknown}

theorem memberError_ne_ok {α : Type} {path member expected : String} {value : α} :
    memberError text path member content expected ≠ .ok value := by
  intro h
  unfold memberError at h
  cases hdescribed : describeUnknown text content with
  | error fault => rw [hdescribed] at h; cases h
  | ok described => rw [hdescribed] at h; cases h

theorem decodeNumber_sound
    (h : decodeNumber text content path = .ok value) : Sound text depth value := by
  unfold decodeNumber at h
  split at h
  · split at h
    · split at h
      · exact absurd h memberError_ne_ok
      · rename_i hencodable
        cases h
        exact ⟨.number depth hencodable, .number _⟩
    · exact absurd h memberError_ne_ok
  · exact absurd h memberError_ne_ok

theorem decodeString_sound
    (h : decodeString text path content = .ok value) : Sound text depth value := by
  unfold decodeString at h
  split at h
  · cases h
    exact ⟨.string depth _, .string _⟩
  · exact absurd h memberError_ne_ok

theorem decodeBoolean_sound
    (h : decodeBoolean text path content = .ok value) : Sound text depth value := by
  unfold decodeBoolean at h
  split at h
  · cases h
    exact ⟨.bool depth _, .bool _⟩
  · exact absurd h memberError_ne_ok

theorem decodeNull_sound
    (h : decodeNull text path content = .ok value) : Sound text depth value := by
  unfold decodeNull at h
  split at h
  · cases h
    exact ⟨.null depth, .null⟩
  · exact absurd h memberError_ne_ok

theorem decodeFlatMember_sound {path member : String}
    (h : decodeFlatMember text path depth member content = .ok value) : Sound text depth value := by
  unfold decodeFlatMember at h
  split at h
  · exact decodeString_sound h
  split at h
  · exact decodeNumber_sound h
  split at h
  · exact decodeBoolean_sound h
  split at h
  · exact decodeNull_sound h
  split at h
  · split at h
    · exact absurd h memberError_ne_ok
    · cases h
  split at h
  · split at h
    · exact absurd h memberError_ne_ok
    · cases h
  · cases h

theorem decodeElements_sound {items : List Unknown}
    (ih : ∀ item ∈ items, ∀ path value, decodeAtDepth text path depth item = .ok value →
      Sound text depth value) :
    ∀ {path : String} {index : Nat} {values : List JsonValue},
      decodeElements text path depth index items = .ok values →
        ∀ value ∈ values, Sound text depth value := by
  induction items with
  | nil =>
    intro path index values h
    cases h
    simp
  | cons item rest ihrest =>
    intro path index values h
    rw [decodeElements] at h
    obtain ⟨first, hfirst, h⟩ := exists_of_bind_eq_ok h
    obtain ⟨others, hothers, h⟩ := exists_of_bind_eq_ok h
    cases h
    rw [List.forall_mem_cons]
    exact ⟨ih item List.mem_cons_self _ _ hfirst,
      ihrest (fun found hfound => ih found (List.mem_cons_of_mem _ hfound)) hothers⟩

theorem set_sound {values : JsonObject} {name : String}
    (h : ∀ entry ∈ values, Sound text depth entry.2) (hvalue : Sound text depth value) :
    ∀ entry ∈ values.set name value, Sound text depth entry.2 := by
  induction values with
  | nil => simpa [InsertionMap.set] using hvalue
  | cons entry rest ih =>
    rw [List.forall_mem_cons] at h
    by_cases hname : entry.1 = name
    · simp only [InsertionMap.set, if_pos hname, List.forall_mem_cons]
      exact ⟨hvalue, h.2⟩
    · simp only [InsertionMap.set, if_neg hname, List.forall_mem_cons]
      exact ⟨h.1, ih h.2⟩

theorem decodeMembers_sound {members : List (String × Unknown)}
    (ih : ∀ entry ∈ members, ∀ path value, decodeAtDepth text path depth entry.2 = .ok value →
      Sound text depth value) :
    ∀ {path : String} {start values : JsonObject},
      decodeMembers text path depth start members = .ok values →
      (start.map Prod.fst).Nodup → (∀ entry ∈ start, Sound text depth entry.2) →
        (values.map Prod.fst).Nodup ∧ ∀ entry ∈ values, Sound text depth entry.2 := by
  induction members with
  | nil =>
    intro path start values h hnames hsound
    cases h
    exact ⟨hnames, hsound⟩
  | cons entry rest ihrest =>
    intro path start values h hnames hsound
    rw [decodeMembers] at h
    obtain ⟨first, hfirst, h⟩ := exists_of_bind_eq_ok h
    exact ihrest (fun found hfound => ih found (List.mem_cons_of_mem _ hfound)) h
      (InsertionMap.nodup_set hnames _ _)
      (set_sound hsound (ih entry List.mem_cons_self _ _ hfirst))

/-- What the decoder accepts is storable at its depth, with distinct names.  The induction also
speaks of the value as the content of a member, because a list or a map is two steps down. -/
theorem decode_sound (input : Unknown) :
    (∀ path depth value, decodeAtDepth text path depth input = .ok value →
      Sound text depth value) ∧
    (∀ path depth member value, decodeMember text path depth member input = .ok value →
      Sound text depth value) := by
  induction input using Unknown.nested_induction with
  | flat input harray hobject =>
    constructor
    · intro path depth value h
      cases input <;> first | cases h | exact absurd rfl (hobject _)
    · intro path depth member value h
      cases input with
      | array items => exact absurd rfl (harray items)
      | object members => exact absurd rfl (hobject members)
      | _ => exact decodeFlatMember_sound h
  | array items ih =>
    constructor
    · intro path depth value h
      cases h
    · intro path depth member value h
      rw [decodeMember] at h
      split at h
      · rename_i hlist
        obtain ⟨values, hvalues, h⟩ := exists_of_bind_eq_ok h
        cases h
        have hsound := decodeElements_sound
          (fun item hitem path value => (ih item hitem).1 path (depth + 1) value) hvalues
        exact ⟨.array hlist.2 fun value hvalue => (hsound value hvalue).1,
          .array fun value hvalue => (hsound value hvalue).2⟩
      · exact decodeFlatMember_sound h
  | object members ih =>
    constructor
    · intro path depth value h
      rw [decodeAtDepth] at h
      cases members with
      | nil => cases h
      | cons entry rest =>
        rw [decodeOnlyMember] at h
        split at h
        · exact (ih entry List.mem_cons_self).2 path depth entry.1 value h
        · cases h
    · intro path depth member value h
      rw [decodeMember] at h
      split at h
      · rename_i hmap
        obtain ⟨values, hvalues, h⟩ := exists_of_bind_eq_ok h
        cases h
        have hsound := decodeMembers_sound
          (fun entry hentry path value => (ih entry hentry).1 path (depth + 1) value) hvalues
          List.nodup_nil (by simp)
        exact ⟨.object hmap.2 fun entry hentry => (hsound.2 entry hentry).1,
          .object hsound.1 fun entry hentry => (hsound.2 entry hentry).2⟩
      · exact decodeFlatMember_sound h

/-! ## The depth the three agree on -/

mutual

def JsonValue.levels : JsonValue → Nat
  | .array items => levelsOfItems items + 1
  | .object members => levelsOfMembers members + 1
  | _ => 0

def levelsOfItems : List JsonValue → Nat
  | [] => 0
  | item :: rest => max item.levels (levelsOfItems rest)

def levelsOfMembers : List (String × JsonValue) → Nat
  | [] => 0
  | (_, value) :: rest => max value.levels (levelsOfMembers rest)

end

theorem levelsOfItems_le {bound : Nat} :
    levelsOfItems items ≤ bound ↔ ∀ item ∈ items, item.levels ≤ bound := by
  induction items with
  | nil => simp [levelsOfItems]
  | cons item rest ih => rw [levelsOfItems, Nat.max_le, ih, List.forall_mem_cons]

theorem levelsOfMembers_le {bound : Nat} :
    levelsOfMembers members ≤ bound ↔ ∀ entry ∈ members, entry.2.levels ≤ bound := by
  induction members with
  | nil => simp [levelsOfMembers]
  | cons entry rest ih => rw [levelsOfMembers, Nat.max_le, ih, List.forall_mem_cons]

/-- The value is written as this attribute value, under some path. -/
def WrittenAs (text : NumberText) (value : JsonValue) (written : AttributeValue) : Prop :=
  ∃ path, encodeAttributeValue text path value = .ok written

/-- Some path reads the attribute value at this depth. -/
def Readable (text : NumberText) (depth : Nat) (written : AttributeValue) : Prop :=
  ∃ path value, decodeAtDepth text path depth written.plain = .ok value

theorem encodable_of_written {value : Double} {written : AttributeValue}
    (h : WrittenAs text (.number value) written) : unencodableNumberReason text value = none := by
  obtain ⟨path, h⟩ := h
  rw [encodeAttributeValue] at h
  obtain ⟨digits, hdigits, -⟩ := exists_of_bind_eq_ok h
  unfold encodeNumber at hdigits
  split at hdigits
  · cases hdigits
  · assumption

theorem elements_written :
    ∀ {path : String} {index : Nat} {written : List AttributeValue},
      encodeElements text path index items = .ok written →
        ∀ item ∈ items, ∃ out ∈ written, WrittenAs text item out := by
  induction items with
  | nil => simp
  | cons item rest ih =>
    intro path index written h
    rw [encodeElements] at h
    obtain ⟨first, hfirst, h⟩ := exists_of_bind_eq_ok h
    obtain ⟨others, hothers, h⟩ := exists_of_bind_eq_ok h
    cases h
    rw [List.forall_mem_cons]
    refine ⟨⟨first, List.mem_cons_self, _, hfirst⟩, fun found hfound => ?_⟩
    obtain ⟨out, hout, hwritten⟩ := ih hothers found hfound
    exact ⟨out, List.mem_cons_of_mem _ hout, hwritten⟩

theorem members_written :
    ∀ {path : String} {start written : AttributeMap},
      encodeMembers text path start members = .ok written → (members.map Prod.fst).Nodup →
      (∀ name ∈ members.map Prod.fst, name ∉ start.map Prod.fst) →
        (∀ out ∈ start, out ∈ written) ∧
          ∀ entry ∈ members, ∃ out ∈ written, WrittenAs text entry.2 out.2 := by
  induction members with
  | nil =>
    intro path start written h _ _
    cases h
    simp
  | cons entry rest ih =>
    obtain ⟨name, value⟩ := entry
    intro path start written h hnames hfresh
    rw [encodeMembers] at h
    obtain ⟨first, hfirst, h⟩ := exists_of_bind_eq_ok h
    rw [List.map_cons, List.nodup_cons] at hnames
    rw [List.map_cons, List.forall_mem_cons] at hfresh
    rw [InsertionMap.set_of_not_mem hfresh.1] at h
    obtain ⟨hkept, heach⟩ := ih h hnames.2 (by
      intro other hother hmem
      rw [List.map_append, List.mem_append] at hmem
      rcases hmem with hmem | hmem
      · exact hfresh.2 other hother hmem
      · exact hnames.1 ((List.mem_singleton.mp hmem) ▸ hother))
    rw [List.forall_mem_cons]
    exact ⟨fun out hout => hkept out (List.mem_append_left _ hout),
      ⟨(name, first), hkept _ (List.mem_append_right _ List.mem_cons_self), _, hfirst⟩, heach⟩

/-- A value that the encoder writes is storable exactly at the depths that leave room for its
levels. -/
theorem storable_iff_levels (value : JsonValue) :
    ∀ {depth : Nat} {written : AttributeValue}, DistinctNames value → WrittenAs text value written →
      depth ≤ maxNestingDepth →
      (Storable text depth value ↔ depth + value.levels ≤ maxNestingDepth) := by
  induction value using JsonValue.nested_induction with
  | null => exact fun _ _ hdepth => iff_of_true (.null _) hdepth
  | bool value => exact fun _ _ hdepth => iff_of_true (.bool _ value) hdepth
  | string value => exact fun _ _ hdepth => iff_of_true (.string _ value) hdepth
  | number value =>
    intro depth written _ hwritten hdepth
    exact iff_of_true (.number depth (encodable_of_written hwritten)) hdepth
  | array items ih =>
    intro depth written hdistinct hwritten hdepth
    have hfits : ∀ item ∈ items, ∀ depth, depth ≤ maxNestingDepth →
        (Storable text depth item ↔ depth + item.levels ≤ maxNestingDepth) := by
      obtain ⟨path, hwritten⟩ := hwritten
      rw [encodeAttributeValue] at hwritten
      obtain ⟨elements, helements, -⟩ := exists_of_bind_eq_ok hwritten
      cases hdistinct with
      | array hnested =>
        intro item hitem depth hdepth
        obtain ⟨out, -, hout⟩ := elements_written helements item hitem
        exact ih item hitem (hnested item hitem) hout hdepth
    rw [storable_array_iff, JsonValue.levels]
    constructor
    · intro h
      have hlevels : levelsOfItems items ≤ maxNestingDepth - (depth + 1) := by
        rw [levelsOfItems_le]
        intro item hitem
        have := (hfits item hitem (depth + 1) h.1).mp (h.2 item hitem)
        omega
      have := h.1
      omega
    · intro h
      have hlevels := levelsOfItems_le.mp (Nat.le_refl (levelsOfItems items))
      refine ⟨by omega, fun item hitem => ?_⟩
      rw [hfits item hitem (depth + 1) (by omega)]
      have := hlevels item hitem
      omega
  | object members ih =>
    intro depth written hdistinct hwritten hdepth
    have hfits : ∀ entry ∈ members, ∀ depth, depth ≤ maxNestingDepth →
        (Storable text depth entry.2 ↔ depth + entry.2.levels ≤ maxNestingDepth) := by
      obtain ⟨path, hwritten⟩ := hwritten
      rw [encodeAttributeValue] at hwritten
      obtain ⟨encoded, hencoded, -⟩ := exists_of_bind_eq_ok hwritten
      cases hdistinct with
      | object hnames hnested =>
        intro entry hentry depth hdepth
        obtain ⟨out, -, hout⟩ := (members_written hencoded hnames (by simp)).2 entry hentry
        exact ih entry hentry (hnested entry hentry) hout hdepth
    rw [storable_object_iff, JsonValue.levels]
    constructor
    · intro h
      have hlevels : levelsOfMembers members ≤ maxNestingDepth - (depth + 1) := by
        rw [levelsOfMembers_le]
        intro entry hentry
        have := (hfits entry hentry (depth + 1) h.1).mp (h.2 entry hentry)
        omega
      have := h.1
      omega
    · intro h
      have hlevels := levelsOfMembers_le.mp (Nat.le_refl (levelsOfMembers members))
      refine ⟨by omega, fun entry hentry => ?_⟩
      rw [hfits entry hentry (depth + 1) (by omega)]
      have := hlevels entry hentry
      omega

theorem elements_readable {written : List AttributeValue} :
    ∀ {path : String} {index : Nat} {values : List JsonValue},
      decodeElements text path depth index (plainItems written) = .ok values →
        ∀ item ∈ written, Readable text depth item := by
  induction written with
  | nil => simp
  | cons item rest ih =>
    intro path index values h
    rw [plainItems, decodeElements] at h
    obtain ⟨first, hfirst, h⟩ := exists_of_bind_eq_ok h
    obtain ⟨others, hothers, -⟩ := exists_of_bind_eq_ok h
    rw [List.forall_mem_cons]
    exact ⟨⟨_, first, hfirst⟩, ih hothers⟩

theorem members_readable {written : List (String × AttributeValue)} :
    ∀ {path : String} {start values : JsonObject},
      decodeMembers text path depth start (plainMembers written) = .ok values →
        ∀ entry ∈ written, Readable text depth entry.2 := by
  induction written with
  | nil => simp
  | cons entry rest ih =>
    intro path start values h
    rw [plainMembers, decodeMembers] at h
    obtain ⟨first, hfirst, h⟩ := exists_of_bind_eq_ok h
    rw [List.forall_mem_cons]
    exact ⟨⟨_, first, hfirst⟩, ih h⟩

theorem storable_of_readable (value : JsonValue) :
    ∀ {depth : Nat} {written : AttributeValue}, DistinctNames value → WrittenAs text value written →
      Readable text depth written → Storable text depth value := by
  induction value using JsonValue.nested_induction with
  | null => exact fun _ _ _ => .null _
  | bool value => exact fun _ _ _ => .bool _ value
  | string value => exact fun _ _ _ => .string _ value
  | number value => exact fun _ hwritten _ => .number _ (encodable_of_written hwritten)
  | array items ih =>
    intro depth written hdistinct hwritten hreadable
    obtain ⟨path, hwritten⟩ := hwritten
    rw [encodeAttributeValue] at hwritten
    obtain ⟨elements, helements, hwritten⟩ := exists_of_bind_eq_ok hwritten
    cases hwritten
    obtain ⟨path', decoded, hdecoded⟩ := hreadable
    rw [decodeAtDepth_l] at hdecoded
    split at hdecoded
    · rename_i hshallow
      obtain ⟨values, hvalues, -⟩ := exists_of_bind_eq_ok hdecoded
      have hread := elements_readable hvalues
      cases hdistinct with
      | array hnested =>
        refine .array hshallow fun item hitem => ?_
        obtain ⟨out, hout, hwritten⟩ := elements_written helements item hitem
        exact ih item hitem (hnested item hitem) hwritten (hread out hout)
    · cases hdecoded
  | object members ih =>
    intro depth written hdistinct hwritten hreadable
    obtain ⟨path, hwritten⟩ := hwritten
    rw [encodeAttributeValue] at hwritten
    obtain ⟨encoded, hencoded, hwritten⟩ := exists_of_bind_eq_ok hwritten
    cases hwritten
    obtain ⟨path', decoded, hdecoded⟩ := hreadable
    rw [decodeAtDepth_m] at hdecoded
    split at hdecoded
    · rename_i hshallow
      obtain ⟨values, hvalues, -⟩ := exists_of_bind_eq_ok hdecoded
      have hread := members_readable hvalues
      cases hdistinct with
      | object hnames hnested =>
        refine .object hshallow fun entry hentry => ?_
        obtain ⟨out, hout, hwritten⟩ :=
          (members_written hencoded hnames (by simp)).2 entry hentry
        exact ih entry hentry (hnested entry hentry) hwritten (hread out hout)
    · cases hdecoded

/-! ## Items -/

theorem readSafely_eq_ok {α : Type} {result : Except DecodeFault α} {value : α} :
    readSafely path result = .ok value ↔ result = .ok value := by
  cases result with
  | ok found => simp [readSafely]
  | error fault => cases fault <;> simp [readSafely]

theorem storable_item_reads_back (law : text.Lawful) (item : StoredItem)
    (h : ∀ entry ∈ item.members, Storable text 0 entry.2) :
    ∃ written, encodeAttributeMap text item.members = .ok written ∧
      decodeStoredItem text (AttributeMap.plain written) =
        .ok (positiveZerosOfMembers item.members) := by
  cases hdistinct : item.distinct with
  | object hnames hnested =>
    obtain ⟨written, hwritten, hread⟩ := members_read_back
      (fun entry hentry => storable_reads_back law entry.2 0 (h entry hentry)
        (hnested entry hentry)) hnames "$" [] (by simp)
    refine ⟨written, hwritten, readSafely_eq_ok.mpr ?_⟩
    have hmap : decodeItemMap text (AttributeMap.plain written) =
        .ok (positiveZerosOfMembers item.members) := by
      rw [AttributeMap.plain, decodeItemMap, hread "$" [] (by simp), positiveZerosOfMembers_eq]
      rfl
    have hpk : InsertionMap.get? (positiveZerosOfMembers item.members) "pk" =
        some (.string item.pk) := by
      rw [positiveZerosOfMembers_eq, InsertionMap.get?_map, item.pk_found]
      rfl
    have hsk : InsertionMap.get? (positiveZerosOfMembers item.members) "sk" =
        some (.string item.sk) := by
      rw [positiveZerosOfMembers_eq, InsertionMap.get?_map, item.sk_found]
      rfl
    rw [decodeItem, hmap, except_ok_bind]
    simp only [hpk, hsk, InsertionMap.set_of_get? hpk, InsertionMap.set_of_get? hsk]
    rfl

theorem decodeStoredItem_storable {input : Unknown} {members : JsonObject}
    (h : decodeStoredItem text input = .ok members) :
    ∃ item : StoredItem, item.members = members ∧
      ∀ entry ∈ members, Storable text 0 entry.2 := by
  have hitem := readSafely_eq_ok.mp h
  rw [decodeItem] at hitem
  obtain ⟨decoded, hdecoded, hitem⟩ := exists_of_bind_eq_ok hitem
  have hsound : (decoded.map Prod.fst).Nodup ∧ ∀ entry ∈ decoded, Sound text 0 entry.2 := by
    unfold decodeItemMap at hdecoded
    split at hdecoded
    · rename_i fields
      exact decodeMembers_sound (fun entry _ path value => (decode_sound entry.2).1 path 0 value)
        hdecoded List.nodup_nil (by simp)
    · exact absurd hdecoded memberError_ne_ok
  split at hitem
  · rename_i pk sk hpk hsk
    rw [InsertionMap.set_of_get? hpk, InsertionMap.set_of_get? hsk] at hitem
    have hsame : decoded = members := Except.ok.inj hitem
    subst hsame
    exact ⟨⟨decoded, .object hsound.1 fun entry hentry => (hsound.2 entry hentry).2, pk, sk, hpk,
      hsk⟩, rfl, fun entry hentry => (hsound.2 entry hentry).1⟩
  · cases hitem

end Codec

/-- The validator, the encoder and the decoder agree: an item the validator accepts is written
and read back; an item the decoder accepts passes the validator, is written and read back; and a
value that can be written passes the validator, and can be read, exactly when its lists and maps
have at most `maxNestingDepth` levels. -/
theorem stored_items_round_trip (text : NumberText) (law : text.Lawful) :
    (∀ (item : StoredItem) (location : String),
      (∀ entry ∈ item.members,
        storableValueViolations text entry.2 (memberPath location entry.1) = []) →
      ∃ written, encodeAttributeMap text item.members = .ok written ∧
        decodeStoredItem text (AttributeMap.plain written) =
          .ok (positiveZerosOfMembers item.members)) ∧
    (∀ (input : Unknown) (members : JsonObject), decodeStoredItem text input = .ok members →
      (∀ entry ∈ members, ∀ path, storableValueViolations text entry.2 path = []) ∧
      ∃ written, encodeAttributeMap text members = .ok written ∧
        decodeStoredItem text (AttributeMap.plain written) =
          .ok (positiveZerosOfMembers members)) ∧
    (∀ (value : JsonValue) (path : String) (written : AttributeValue), DistinctNames value →
      encodeAttributeValue text path value = .ok written →
      (storableValueViolations text value path = [] ↔ value.levels ≤ maxNestingDepth) ∧
      ((∃ decoded, decodeAttributeValue text written.plain path = .ok decoded) ↔
        value.levels ≤ maxNestingDepth)) := by
  refine ⟨fun item location h => ?_, fun input members h => ?_,
    fun value path written hdistinct hwritten => ?_⟩
  · exact storable_item_reads_back law item fun entry hentry =>
      (valueViolations_eq_nil entry.2 _ 0).mp (h entry hentry)
  · obtain ⟨item, rfl, hstorable⟩ := decodeStoredItem_storable h
    exact ⟨fun entry hentry path =>
        (valueViolations_eq_nil entry.2 path 0).mpr (hstorable entry hentry),
      storable_item_reads_back law item hstorable⟩
  · have hlevels := @storable_iff_levels text value 0 written hdistinct ⟨path, hwritten⟩ (Nat.zero_le _)
    rw [Nat.zero_add] at hlevels
    refine ⟨(valueViolations_eq_nil value path 0).trans hlevels, ?_⟩
    rw [← hlevels]
    constructor
    · intro h
      obtain ⟨decoded, hdecoded⟩ := h
      exact storable_of_readable value hdistinct ⟨path, hwritten⟩
        ⟨path, decoded, readSafely_eq_ok.mp hdecoded⟩
    · intro h
      obtain ⟨out, hout, hread⟩ := storable_reads_back law value 0 h hdistinct path
      rw [hwritten] at hout
      cases hout
      exact ⟨value.positiveZeros, readSafely_eq_ok.mpr (hread path)⟩

def tenThousand : FiniteDouble where
  negative := false
  significand := 10000 * 2 ^ 39
  exponent := -39
  significand_lt := by decide
  exponent_ge := by decide
  exponent_le := by decide
  canonical := by decide

def ledgerMembers : JsonObject :=
  [("pk", .string "run#trial"), ("sk", .string "tx#1"),
    ("amount_minor", .number (.finite tenThousand)), ("tags", .array [.string "a"])]

def ledgerItem : StoredItem where
  members := ledgerMembers
  distinct := by
    refine .object (by decide) ?_
    simp only [ledgerMembers, List.forall_mem_cons, List.not_mem_nil, false_imp_iff, implies_true,
      and_true]
    exact ⟨.string _, .string _, .number _, .array (by simpa using .string "a")⟩
  pk := "run#trial"
  sk := "tx#1"
  pk_found := rfl
  sk_found := rfl

theorem tenThousand_encodable : unencodableNumberReason exactText (.finite tenThousand) = none := by
  rw [unencodableNumberReason, if_neg (by decide +kernel), if_neg (by decide +kernel),
    if_neg (by decide +kernel)]

theorem ledgerItem_reads_back :
    (∀ entry ∈ ledgerItem.members,
      storableValueViolations exactText entry.2 (memberPath "action.item" entry.1) = []) ∧
    ∃ written, encodeAttributeMap exactText ledgerItem.members = .ok written ∧
      decodeStoredItem exactText (AttributeMap.plain written) =
        .ok (positiveZerosOfMembers ledgerItem.members) := by
  have hstorable : ∀ entry ∈ ledgerItem.members,
      storableValueViolations exactText entry.2 (memberPath "action.item" entry.1) = [] := by
    intro entry hentry
    refine (valueViolations_eq_nil entry.2 _ 0).mpr ?_
    revert entry
    simp only [ledgerItem, ledgerMembers, List.forall_mem_cons, List.not_mem_nil, false_imp_iff,
      implies_true, and_true]
    exact ⟨.string 0 _, .string 0 _, .number 0 tenThousand_encodable,
      .array (by decide) (by simpa using .string 1 "a")⟩
  exact ⟨hstorable, (stored_items_round_trip exactText exactText_lawful).1 ledgerItem "action.item"
    hstorable⟩

end RefundStudy.Store
