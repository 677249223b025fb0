/-
  Normalization of selected template values
  (`transport-qualification/scope/cfn-value-normalization.ts`; BR-RUA-028).
-/
import Mathlib.Algebra.Order.BigOperators.Group.List
import RefundStudy.Foundation.TextRules
import RefundStudy.Foundation.WorkList
import RefundStudy.Record.TextWriter

set_option autoImplicit false

namespace RefundStudy.Scope

open Foundation Store Record

/-! ## Strings -/

def strippedPropertyKeys : List JsString :=
  ["Tags", "FunctionName", "TableName", "RoleName", "QueueName", "LogGroupName", "PolicyName",
    "ManagedPolicyName", "TopicName", "BucketName", "StreamName"].map jsString

/-- `[0-9a-f]`. -/
def isLowerHex (unit : UInt16) : Bool :=
  decide (0x30 ≤ unit ∧ unit ≤ 0x39) || decide (0x61 ≤ unit ∧ unit ≤ 0x66)

/-- `[0-9a-fA-F]`. -/
def isHexDigit (unit : UInt16) : Bool := isLowerHex unit || decide (0x41 ≤ unit ∧ unit ≤ 0x46)

/-- A rule whose marker stands in angle brackets. -/
def markedBy (marker : String) (choices : List (Alternative UInt16)) : TextRule UInt16 :=
  ⟨choices, 0x3c, jsString marker ++ [0x3e]⟩

/-- The replacement of `UUID_PATTERN`. -/
def uuidRule : TextRule UInt16 :=
  let hyphen : UInt16 → Bool := (0x2d == ·)
  let four := List.replicate 4 isHexDigit
  markedBy "uuid" [⟨[], List.replicate 8 isHexDigit ++ hyphen :: four ++ hyphen :: four ++
    hyphen :: four ++ hyphen :: List.replicate 12 isHexDigit, []⟩]

/-- The replacement of `RESOURCE_PREFIX_PATTERN`. -/
def resourcePrefixRule : TextRule UInt16 :=
  markedBy "p" [⟨jsString "suc1-", List.replicate 8 isLowerHex, jsString "-"⟩]

/-- The replacement of `STACK_NAME_PATTERN`. -/
def stackNameRule : TextRule UInt16 :=
  markedBy "p" (["run", "probe", "validation"].map fun kind =>
    ⟨jsString ("SucRua-" ++ kind ++ "-"), List.replicate 8 isLowerHex, []⟩)

def arnPrefix : JsString := jsString "arn:"

def normalizeCfnString (text : JsString) : JsString :=
  if arnPrefix.isPrefixOf text then jsString "<arn>"
  else stackNameRule.rewrite (resourcePrefixRule.rewrite (uuidRule.rewrite text))

/-! ## The walk -/

/-- `references`: the identity of each logical id. -/
abbrev References : Type := InsertionMap JsString JsString

def referencedName (references : References) (logicalId : JsString) : JsString :=
  match references.get? logicalId with
  | none => logicalId
  | some identity => 0x3c :: identity ++ [0x3e]

/-- The path to the place of its result stands for the function `place`. -/
structure PendingValue where
  source : JsonDocument
  place : List MemberPlace
  getAttOperand : Bool

def placeAt : JsonDocument → List MemberPlace → JsonDocument → JsonDocument
  | _, [], value => value
  | .array items, .index index :: place, value =>
    .array (items.modify index fun item => placeAt item place value)
  | .object members, .key name :: place, value =>
    .object (InsertionMap.set members name
      (placeAt ((InsertionMap.get? members name).getD .null) place value))
  | other, _, _ => other

def keptMembers (members : List (JsString × JsonDocument)) : List (JsString × JsonDocument) :=
  members.filter fun member => !strippedPropertyKeys.contains member.1

def refKey : JsString := jsString "Ref"

/-- The logical id where the only key is `Ref` and its value a string. -/
def soleReference : List (JsString × JsonDocument) → Option JsString
  | [(name, .string logicalId)] => if name = refKey then some logicalId else none
  | _ => none

/-- `onlyKey === 'Fn::GetAtt'`. -/
def isGetAtt : List (JsString × JsonDocument) → Bool
  | [(name, _)] => name == jsString "Fn::GetAtt"
  | _ => false

section Walk

variable (references : References)

/-- The array `normalizeArray` returns; the operand's first string is a logical id. -/
def shallowItems : Bool → List JsonDocument → List JsonDocument
  | true, .string logicalId :: rest =>
    .string (referencedName references logicalId) :: rest.map fun _ => .null
  | _, items => items.map fun _ => .null

def normalizeShallow (pending : PendingValue) : JsonDocument :=
  match pending.source with
  | .string text => .string (normalizeCfnString text)
  | .array items => .array (shallowItems references pending.getAttOperand items)
  | .object members =>
    match soleReference (keptMembers members) with
    | some logicalId => .object [(refKey, .string (referencedName references logicalId))]
    | none => .object ((keptMembers members).map fun member => (member.1, .null))
  | other => other

def itemTasks (place : List MemberPlace) : Nat → List JsonDocument → List PendingValue
  | _, [] => []
  | index, item :: rest => ⟨item, place ++ [.index index], false⟩ :: itemTasks place (index + 1) rest

/-- The members `normalizeShallow` schedules, in that order. -/
def scheduled (pending : PendingValue) : List PendingValue :=
  match pending.source with
  | .array items =>
    match pending.getAttOperand, items with
    | true, .string _ :: rest => itemTasks pending.place 1 rest
    | _, items => itemTasks pending.place 0 items
  | .object members =>
    match soleReference (keptMembers members) with
    | some _ => []
    | none => (keptMembers members).map fun member =>
      ⟨member.2, pending.place ++ [.key member.1], isGetAtt (keptMembers members)⟩
  | _ => []

theorem itemTasks_size (place : List MemberPlace) (index : Nat) (items : List JsonDocument) :
    ((itemTasks place index items).map fun task => documentSize task.source).sum =
      itemsSize items := by
  induction items generalizing index with
  | nil => rfl
  | cons item rest ih => rw [itemTasks, List.map_cons, List.sum_cons, ih, itemsSize]

theorem scheduled_smaller (pending : PendingValue) :
    ((scheduled pending).map fun task => documentSize task.source).sum <
      documentSize pending.source := by
  obtain ⟨source, place, operand⟩ := pending
  unfold scheduled
  cases source with
  | array items =>
    dsimp only
    split
    · rw [itemTasks_size, documentSize, itemsSize]
      omega
    · rw [itemTasks_size, documentSize]
      omega
  | object members =>
    dsimp only
    split
    · exact documentSize_pos _
    · have hkept : ((keptMembers members).map fun member => documentSize member.2).sum ≤
          membersSize members := by
        rw [membersSize_eq_sum]
        exact (List.filter_sublist.map _).sum_le_sum fun _ _ => Nat.zero_le _
      rw [List.map_map, documentSize]
      exact Nat.lt_of_le_of_lt hkept (by omega)
  | _ => exact documentSize_pos _

def cfnWork : WorkList PendingValue where
  opened := scheduled
  size pending := documentSize pending.source
  smaller := scheduled_smaller

def normalizeCfnValue (value : JsonDocument) : JsonDocument :=
  cfnWork.run (fun root pending => placeAt root pending.place (normalizeShallow references pending))
    .null [⟨value, [], false⟩]

end Walk

/-! ## The recursion -/

section Recursion

variable (references : References)

mutual

/-- The normalized value, as the operand of an `Fn::GetAtt` or not. -/
def normalizedValue : Bool → JsonDocument → JsonDocument
  | _, .string text => .string (normalizeCfnString text)
  | operand, .array items => .array (normalizedItems operand items)
  | _, .object members =>
    match soleReference (keptMembers members) with
    | some logicalId => .object [(refKey, .string (referencedName references logicalId))]
    | none => .object (normalizedMembers (isGetAtt (keptMembers members)) members)
  | _, other => other

def normalizedItems : Bool → List JsonDocument → List JsonDocument
  | _, [] => []
  | true, .string logicalId :: rest =>
    .string (referencedName references logicalId) :: normalizedItems false rest
  | _, item :: rest => normalizedValue false item :: normalizedItems false rest

def normalizedMembers : Bool → List (JsString × JsonDocument) → List (JsString × JsonDocument)
  | _, [] => []
  | operand, (name, value) :: rest =>
    if strippedPropertyKeys.contains name then normalizedMembers operand rest
    else (name, normalizedValue operand value) :: normalizedMembers operand rest

end

variable {references}

theorem normalizedItems_false (items : List JsonDocument) :
    normalizedItems references false items = items.map (normalizedValue references false) := by
  induction items with
  | nil => rfl
  | cons item rest ih => rw [normalizedItems, ih, List.map_cons]; exact nofun

theorem normalizedMembers_eq (operand : Bool) (members : List (JsString × JsonDocument)) :
    normalizedMembers references operand members =
      (keptMembers members).map fun member => (member.1, normalizedValue references operand member.2) := by
  induction members with
  | nil => rfl
  | cons member rest ih =>
    rw [normalizedMembers, ih, keptMembers, keptMembers, List.filter_cons]
    cases strippedPropertyKeys.contains member.1 <;> rfl

theorem set_set (members : InsertionMap JsString JsonDocument) (name : JsString)
    (first second : JsonDocument) :
    (members.set name first).set name second = members.set name second := by
  induction members with
  | nil => simp [InsertionMap.set]
  | cons member rest ih =>
    by_cases hname : member.1 = name <;> simp [InsertionMap.set, hname, ih]

theorem placeAt_placeAt (root : JsonDocument) (place more : List MemberPlace)
    (container value : JsonDocument) :
    placeAt (placeAt root place container) (place ++ more) value =
      placeAt root place (placeAt container more value) := by
  induction place generalizing root with
  | nil => simp [placeAt]
  | cons step place ih =>
    cases step with
    | index index =>
      cases root with
      | array items =>
        simp only [placeAt, List.cons_append, List.modify_modify_eq]
        congr 2
        funext item
        exact ih item
      | _ => rfl
    | key name =>
      cases root with
      | object members =>
        simp only [placeAt, List.cons_append, InsertionMap.get?_set_self, Option.getD_some, set_set, ih]
      | _ => rfl

/-- The results of some tasks, placed from the last to the first. -/
def placeAll (references : References) (container : JsonDocument) (tasks : List PendingValue) :
    JsonDocument :=
  tasks.foldr (fun task container => placeAt container task.place
    (normalizedValue references task.getAttOperand task.source)) container

theorem placeAll_below (root container : JsonDocument) (place : List MemberPlace)
    (tasks : List PendingValue) :
    placeAll references (placeAt root place container)
        (tasks.map fun task => { task with place := place ++ task.place }) =
      placeAt root place (placeAll references container tasks) := by
  induction tasks with
  | nil => rfl
  | cons task tasks ih =>
    rw [List.map_cons, placeAll, List.foldr_cons, ← placeAll, ih, placeAt_placeAt]
    rfl

theorem itemTasks_place (place : List MemberPlace) (index : Nat) (items : List JsonDocument) :
    itemTasks place index items =
      (itemTasks [] index items).map fun task => { task with place := place ++ task.place } := by
  induction items generalizing index with
  | nil => rfl
  | cons item rest ih => rw [itemTasks, itemTasks, List.map_cons, ih]; rfl

theorem modify_middle {front rest : List JsonDocument} (old : JsonDocument)
    (change : JsonDocument → JsonDocument) :
    (front ++ old :: rest).modify front.length change = front ++ change old :: rest := by
  induction front with
  | nil => rfl
  | cons first front ih => rw [List.cons_append, List.length_cons, List.modify_succ_cons, ih]; rfl

theorem set_middle {front rest : InsertionMap JsString JsonDocument} {name : JsString}
    (h : name ∉ front.map Prod.fst) (old value : JsonDocument) :
    InsertionMap.set (front ++ (name, old) :: rest) name value = front ++ (name, value) :: rest := by
  induction front with
  | nil => simp [InsertionMap.set]
  | cons first front ih =>
    rw [List.map_cons, List.mem_cons, not_or] at h
    rw [List.cons_append, InsertionMap.set, if_neg (Ne.symm h.1), ih h.2]
    rfl

theorem placeAll_items (front items : List JsonDocument) :
    placeAll references (.array (front ++ items.map fun _ => .null))
        (itemTasks [] front.length items) =
      .array (front ++ items.map (normalizedValue references false)) := by
  induction items generalizing front with
  | nil => rfl
  | cons item rest ih =>
    have hrest := ih (front ++ [.null])
    rw [List.append_assoc, List.append_assoc, List.length_append, List.length_singleton] at hrest
    refine (congrArg (fun container => placeAt container _ _) hrest).trans ?_
    exact congrArg JsonDocument.array (modify_middle _ _)

theorem placeAll_members (operand : Bool) (front members : List (JsString × JsonDocument))
    (hdistinct : ((front ++ members).map Prod.fst).Nodup) :
    placeAll references (.object (front ++ members.map fun member => (member.1, .null)))
        (members.map fun member => ⟨member.2, [.key member.1], operand⟩) =
      .object (front ++ members.map fun member =>
        (member.1, normalizedValue references operand member.2)) := by
  induction members generalizing front with
  | nil => rfl
  | cons member rest ih =>
    have hrest := ih (front ++ [(member.1, .null)]) (by simpa using hdistinct)
    rw [List.append_assoc, List.append_assoc] at hrest
    have hname : member.1 ∉ front.map Prod.fst := by
      rw [List.map_append, List.map_cons] at hdistinct
      exact fun hmem => (List.nodup_append.mp hdistinct).2.2 _ hmem _ List.mem_cons_self rfl
    refine (congrArg (fun container => placeAt container _ _) hrest).trans ?_
    exact congrArg JsonDocument.object (set_middle hname _ _)

theorem placeAll_scheduled {pending : PendingValue} (hsource : Parsed pending.source)
    (root : JsonDocument) :
    placeAll references (placeAt root pending.place (normalizeShallow references pending))
        (scheduled pending) =
      placeAt root pending.place
        (normalizedValue references pending.getAttOperand pending.source) := by
  obtain ⟨source, place, operand⟩ := pending
  cases hsource with
  | @array items _ =>
    have hitems : ∀ front items : List JsonDocument,
        placeAll references (placeAt root place (.array (front ++ items.map fun _ => .null)))
            (itemTasks place front.length items) =
          placeAt root place (.array (front ++ items.map (normalizedValue references false))) := by
      intro front items
      rw [itemTasks_place, placeAll_below, placeAll_items]
    unfold normalizeShallow scheduled
    dsimp only
    rw [normalizedValue]
    split
    · rename_i logicalId rest _
      rw [shallowItems, normalizedItems, normalizedItems_false]
      exact hitems [.string (referencedName references logicalId)] rest
    · rename_i hplain
      have hshallow : shallowItems references operand items = items.map fun _ => .null := by
        unfold shallowItems
        split
        · exact absurd rfl (hplain _ _ rfl)
        · rfl
      have hdeep : normalizedItems references operand items =
          items.map (normalizedValue references false) := by
        cases items with
        | nil => cases operand <;> rfl
        | cons item rest =>
          rw [normalizedItems, normalizedItems_false, List.map_cons]
          exact fun logicalId ho hi => hplain logicalId rest ho (congrArg (· :: rest) hi)
      rw [hshallow, hdeep]
      exact hitems [] items
  | @object members hdistinct _ =>
    unfold normalizeShallow scheduled
    dsimp only
    rw [normalizedValue]
    split
    · rfl
    · rw [normalizedMembers_eq]
      have hkept : ((keptMembers members).map Prod.fst).Nodup :=
        hdistinct.sublist (List.filter_sublist.map _)
      have hplaced := @placeAll_below references root (.object ((keptMembers members).map fun member =>
        (member.1, .null))) place ((keptMembers members).map fun member =>
          ⟨member.2, [.key member.1], isGetAtt (keptMembers members)⟩)
      rw [List.map_map] at hplaced
      refine hplaced.trans ?_
      exact congrArg _ (placeAll_members _ [] _ hkept)
  | _ => rfl

theorem scheduled_parsed {pending : PendingValue} (hsource : Parsed pending.source) :
    ∀ task ∈ scheduled pending, Parsed task.source := by
  have hitems : ∀ (place : List MemberPlace) (index : Nat) (items : List JsonDocument),
      (∀ item ∈ items, Parsed item) → ∀ task ∈ itemTasks place index items, Parsed task.source := by
    intro place index items
    induction items generalizing index with
    | nil => exact fun _ task hmem => absurd hmem List.not_mem_nil
    | cons item rest ih =>
      intro h
      rw [List.forall_mem_cons] at h
      rw [itemTasks, List.forall_mem_cons]
      exact ⟨h.1, ih (index + 1) h.2⟩
  obtain ⟨source, place, operand⟩ := pending
  unfold scheduled
  cases hsource with
  | array h =>
    dsimp only
    split
    · exact hitems place 1 _ (List.forall_mem_cons.mp h).2
    · exact hitems place 0 _ h
  | @object members _ h =>
    dsimp only
    split
    · exact fun task hmem => absurd hmem List.not_mem_nil
    · intro task hmem
      obtain ⟨member, hmember, rfl⟩ := List.mem_map.mp hmem
      exact h member (List.mem_filter.mp hmember).1
  | _ => exact fun task hmem => absurd hmem List.not_mem_nil

theorem normalizeCfnValue_eq {value : JsonDocument} (h : Parsed value) :
    normalizeCfnValue references value = normalizedValue references false value := by
  have hwalk := cfnWork.run_eq_foldl_of
    (fun root pending => placeAt root pending.place (normalizeShallow references pending))
    (fun task htask => scheduled_parsed htask)
    (fun root pending => placeAt root pending.place
      (normalizedValue references pending.getAttOperand pending.source))
    (fun root task htask => by
      rw [List.foldl_reverse]
      exact (placeAll_scheduled htask root).symm)
    .null [⟨value, [], false⟩] (List.forall_mem_singleton.mpr h)
  exact hwalk

end Recursion

/-! ## Normalizing twice -/

/-- The three rules, of which none accepts the bracket of a marker and none matches inside what
another one writes. -/
theorem clean_rule {rule other : TextRule UInt16} {text : JsString}
    (hmark : (rule.choices.all fun choice => choice.word.all fun accepts => !accepts other.mark) = true)
    (hbars : (other.choices.all fun choice => rule.bars (other.replacement choice)) = true)
    (h : rule = other ∨ rule.clean text = true) : rule.clean (other.rewrite text) = true := by
  refine TextRule.clean_rewriteFrom ?_ (List.all_eq_true.mp hbars) 0 text h
  intro choice hchoice accepts haccepts
  have hrejects := List.all_eq_true.mp (List.all_eq_true.mp hmark choice hchoice) accepts haccepts
  rwa [Bool.not_eq_true'] at hrejects

theorem isPrefixOf_rewrite {rule : TextRule UInt16} (hmark : rule.mark = 0x3c) {text : JsString}
    (h : arnPrefix.isPrefixOf (rule.rewrite text) = true) : arnPrefix.isPrefixOf text = true := by
  have hword : ∀ text : JsString,
      matchesWord (arnPrefix.map fun unit => (unit == ·)) text = arnPrefix.isPrefixOf text := by
    intro text
    generalize arnPrefix = front
    induction front generalizing text with
    | nil => rfl
    | cons first front ih =>
      cases text with
      | nil => rfl
      | cons unit text => exact congrArg (first == unit && ·) (ih text)
  rw [← hword] at h ⊢
  refine TextRule.matches_rewrite ?_ h
  intro accepts haccepts
  obtain ⟨unit, hunit, rfl⟩ := List.mem_map.mp haccepts
  have hrejects := List.all_eq_true.mp
    (by decide : (arnPrefix.all fun unit => !(unit == 0x3c)) = true) unit hunit
  rwa [Bool.not_eq_true', ← hmark] at hrejects

theorem normalizeCfnString_idempotent (text : JsString) :
    normalizeCfnString (normalizeCfnString text) = normalizeCfnString text := by
  by_cases harn : arnPrefix.isPrefixOf text = true
  · rw [normalizeCfnString, normalizeCfnString, if_pos harn]
    decide +kernel
  · generalize hfirst : uuidRule.rewrite text = first
    generalize hsecond : resourcePrefixRule.rewrite first = second
    generalize hthird : stackNameRule.rewrite second = third
    have hnormal : normalizeCfnString text = third := by
      rw [normalizeCfnString, if_neg harn, hfirst, hsecond, hthird]
    have huuid : uuidRule.clean third = true := by
      rw [← hthird, ← hsecond, ← hfirst]
      refine clean_rule (by decide +kernel) (by decide +kernel) (.inr ?_)
      refine clean_rule (by decide +kernel) (by decide +kernel) (.inr ?_)
      exact clean_rule (by decide +kernel) (by decide +kernel) (.inl rfl)
    have hresource : resourcePrefixRule.clean third = true := by
      rw [← hthird, ← hsecond]
      refine clean_rule (by decide +kernel) (by decide +kernel) (.inr ?_)
      exact clean_rule (by decide +kernel) (by decide +kernel) (.inl rfl)
    have hstack : stackNameRule.clean third = true := by
      rw [← hthird]
      exact clean_rule (by decide +kernel) (by decide +kernel) (.inl rfl)
    have harn' : ¬ arnPrefix.isPrefixOf third = true := by
      intro h
      rw [← hthird, ← hsecond, ← hfirst] at h
      exact harn (isPrefixOf_rewrite rfl (isPrefixOf_rewrite rfl (isPrefixOf_rewrite rfl h)))
    rw [hnormal, normalizeCfnString, if_neg harn', TextRule.rewrite_of_clean huuid,
      TextRule.rewrite_of_clean hresource, TextRule.rewrite_of_clean hstack]

section Twice

variable {references : References}

/-- No identity in angle brackets is itself a logical id. -/
def IdentitiesApart (references : References) : Prop :=
  ∀ logicalId identity, references.get? logicalId = some identity →
    references.get? (0x3c :: identity ++ [0x3e]) = none

theorem referencedName_idempotent (h : IdentitiesApart references) (logicalId : JsString) :
    referencedName references (referencedName references logicalId) =
      referencedName references logicalId := by
  cases hget : references.get? logicalId with
  | none =>
    have hname : referencedName references logicalId = logicalId := by rw [referencedName, hget]
    rw [hname, hname]
  | some identity =>
    have hname : referencedName references logicalId = 0x3c :: identity ++ [0x3e] := by
      rw [referencedName, hget]
    rw [hname, referencedName, h logicalId identity hget]

theorem keptMembers_normalized (operand : Bool) (members : List (JsString × JsonDocument)) :
    keptMembers (normalizedMembers references operand members) =
      normalizedMembers references operand members := by
  rw [normalizedMembers_eq, keptMembers, List.filter_map, List.filter_eq_self.mpr]
  intro member hmem
  exact (List.mem_filter.mp hmem).2

theorem isGetAtt_normalized (operand : Bool) (kept : List (JsString × JsonDocument)) :
    isGetAtt (kept.map fun member => (member.1, normalizedValue references operand member.2)) =
      isGetAtt kept := by
  match kept with
  | [] => rfl
  | [_] => rfl
  | _ :: _ :: _ => rfl

theorem normalizedValue_ne_string {value : JsonDocument} (h : ∀ text, value ≠ .string text)
    (operand : Bool) (text : JsString) : normalizedValue references operand value ≠ .string text := by
  cases value with
  | string text => exact absurd rfl (h text)
  | object members =>
    rw [normalizedValue]
    split <;> exact nofun
  | _ => exact nofun

theorem soleReference_eq_none {name : JsString} {value : JsonDocument}
    (h : ∀ text, value ≠ .string text) : soleReference [(name, value)] = none := by
  cases value with
  | string text => exact absurd rfl (h text)
  | _ => rfl

theorem soleReference_normalized {operand : Bool} {kept : List (JsString × JsonDocument)}
    (h : soleReference kept = none) :
    soleReference (kept.map fun member =>
      (member.1, normalizedValue references operand member.2)) = none := by
  match kept with
  | [] => rfl
  | first :: second :: rest => simp [soleReference]
  | [(name, value)] =>
    by_cases hstring : ∃ text, value = .string text
    · obtain ⟨text, rfl⟩ := hstring
      have hname : name ≠ refKey := fun hname => by simp [soleReference, hname] at h
      simp [soleReference, normalizedValue, hname]
    · rw [not_exists] at hstring
      exact soleReference_eq_none (normalizedValue_ne_string hstring operand)

theorem normalizedItems_cons {item : JsonDocument} {operand : Bool}
    (h : operand = true → ∀ text, item ≠ .string text) (rest : List JsonDocument) :
    normalizedItems references operand (item :: rest) =
      normalizedValue references false item :: normalizedItems references false rest := by
  rw [normalizedItems]
  exact fun text hoperand => h hoperand text

mutual

theorem normalizedValue_idempotent (h : IdentitiesApart references) :
    ∀ (operand : Bool) (value : JsonDocument),
      normalizedValue references operand (normalizedValue references operand value) =
        normalizedValue references operand value
  | _, .string text => congrArg JsonDocument.string (normalizeCfnString_idempotent text)
  | operand, .array items => congrArg JsonDocument.array (normalizedItems_idempotent h operand items)
  | _, .object members => by
    rw [normalizedValue]
    cases hsole : soleReference (keptMembers members) with
    | some logicalId =>
      have hkept : ∀ name : JsString, soleReference (keptMembers [(refKey, .string name)]) =
          some name := fun _ => rfl
      dsimp only
      rw [normalizedValue, hkept]
      exact congrArg (fun name => JsonDocument.object [(refKey, .string name)])
        (referencedName_idempotent h logicalId)
    | none =>
      have hnone := @soleReference_normalized references (isGetAtt (keptMembers members)) _ hsole
      have hgetAtt := @isGetAtt_normalized references (isGetAtt (keptMembers members))
        (keptMembers members)
      rw [← normalizedMembers_eq] at hnone hgetAtt
      dsimp only
      rw [normalizedValue, keptMembers_normalized, hnone, hgetAtt]
      exact congrArg JsonDocument.object (normalizedMembers_idempotent h _ members)
  | _, .null | _, .bool _ | _, .number _ => rfl

theorem normalizedItems_idempotent (h : IdentitiesApart references) :
    ∀ (operand : Bool) (items : List JsonDocument),
      normalizedItems references operand (normalizedItems references operand items) =
        normalizedItems references operand items
  | _, [] => rfl
  | operand, item :: rest => by
    have hitem := normalizedValue_idempotent h false item
    have hrest := normalizedItems_idempotent h false rest
    by_cases hlogical : operand = true ∧ ∃ text, item = .string text
    · obtain ⟨rfl, text, rfl⟩ := hlogical
      rw [normalizedItems, normalizedItems, referencedName_idempotent h, hrest]
    · rw [not_and, not_exists] at hlogical
      rw [normalizedItems_cons hlogical, normalizedItems_cons fun hoperand =>
        normalizedValue_ne_string (hlogical hoperand) false, hitem, hrest]

theorem normalizedMembers_idempotent (h : IdentitiesApart references) :
    ∀ (operand : Bool) (members : List (JsString × JsonDocument)),
      normalizedMembers references operand (normalizedMembers references operand members) =
        normalizedMembers references operand members
  | _, [] => rfl
  | operand, (name, value) :: rest => by
    have hrest := normalizedMembers_idempotent h operand rest
    rw [normalizedMembers]
    split_ifs with hstripped
    · exact hrest
    · rw [normalizedMembers, if_neg hstripped, normalizedValue_idempotent h operand value, hrest]

end

theorem normalizedValue_parsed {value : JsonDocument} (h : Parsed value) (operand : Bool) :
    Parsed (normalizedValue references operand value) := by
  induction h generalizing operand with
  | @array items _ ih =>
    rw [normalizedValue]
    refine .array ?_
    cases items with
    | nil => exact fun item hmem => absurd hmem (by simp [normalizedItems])
    | cons item rest =>
      rw [List.forall_mem_cons] at ih
      have hrest : ∀ other ∈ normalizedItems references false rest, Parsed other := by
        rw [normalizedItems_false, List.forall_mem_map]
        exact fun other hmem => ih.2 other hmem false
      by_cases hlogical : operand = true ∧ ∃ text, item = .string text
      · obtain ⟨rfl, text, rfl⟩ := hlogical
        rw [normalizedItems, List.forall_mem_cons]
        exact ⟨.string _, hrest⟩
      · rw [not_and, not_exists] at hlogical
        rw [normalizedItems_cons hlogical, List.forall_mem_cons]
        exact ⟨ih.1 false, hrest⟩
  | @object members hdistinct _ ih =>
    rw [normalizedValue]
    split
    · refine .object (List.nodup_singleton _) (List.forall_mem_singleton.mpr (.string _))
    · rw [normalizedMembers_eq]
      refine .object ?_ ?_
      · rw [List.map_map]
        exact hdistinct.sublist (List.filter_sublist.map _)
      · rw [List.forall_mem_map]
        exact fun member hmem => ih member (List.mem_filter.mp hmem).1 _
  | number hnumber => exact .number hnumber
  | null => exact .null
  | bool flag => exact .bool flag
  | string text => exact .string _

/-- The walk is the recursion over the value, and normalizing a normalized value changes nothing. -/
theorem normalization_is_recursive_and_idempotent (hidentities : IdentitiesApart references)
    {value : JsonDocument} (hvalue : Parsed value) :
    normalizeCfnValue references value = normalizedValue references false value ∧
      normalizeCfnValue references (normalizeCfnValue references value) =
        normalizeCfnValue references value := by
  have hfirst := @normalizeCfnValue_eq references value hvalue
  refine ⟨hfirst, ?_⟩
  rw [hfirst, normalizeCfnValue_eq (normalizedValue_parsed hvalue false),
    normalizedValue_idempotent hidentities]

def ledgerReferences : References :=
  [(jsString "LedgerA1B2", jsString "ExperimentCore/LedgerTable/Resource")]

/-- An attribute of the ledger table whose only other key is stripped. -/
def taggedAttribute : JsonDocument :=
  .object [(jsString "Tags", .array []),
    (jsString "Fn::GetAtt", .array [.string (jsString "LedgerA1B2"), .string (jsString "Arn")])]

theorem tagged_attribute_normalizes :
    normalizeCfnValue ledgerReferences taggedAttribute =
        .object [(jsString "Fn::GetAtt", .array
          [.string (jsString "<ExperimentCore/LedgerTable/Resource>"), .string (jsString "Arn")])] ∧
      normalizeCfnValue ledgerReferences (normalizeCfnValue ledgerReferences taggedAttribute) =
        normalizeCfnValue ledgerReferences taggedAttribute := by
  have hidentities : IdentitiesApart ledgerReferences := by
    intro logicalId identity hget
    rw [ledgerReferences, InsertionMap.get?] at hget
    split_ifs at hget
    · rw [← Option.some.inj hget]
      decide +kernel
    · exact absurd hget (by simp [InsertionMap.get?])
  have hvalue : Parsed taggedAttribute := by
    refine .object (by decide +kernel) (List.forall_mem_cons.mpr ⟨.array (by simp), ?_⟩)
    refine List.forall_mem_singleton.mpr (.array (List.forall_mem_cons.mpr ⟨.string _, ?_⟩))
    exact List.forall_mem_singleton.mpr (.string _)
  obtain ⟨hwalk, htwice⟩ := normalization_is_recursive_and_idempotent hidentities hvalue
  exact ⟨hwalk.trans rfl, htwice⟩

end Twice

end RefundStudy.Scope
