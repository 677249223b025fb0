/-
  Which re-read records are late (`evidence-collection/late-record-identity.ts`, BR-RUA-043).
-/
import RefundStudy.Foundation.FreshItems
import RefundStudy.Record.StructuralEquality

set_option autoImplicit false

namespace RefundStudy.Collection

open Foundation Record Store

/-! ## Kinds -/

inductive DocumentItemKind where
  | ledgerTransaction
  | dlqMessage
  | durableExecution

inductive LateItemKind where
  | journalEvent
  | document (kind : DocumentItemKind)

def DocumentItemKind.listMember : DocumentItemKind → JsString
  | .ledgerTransaction => jsString "transactions"
  | .dlqMessage => jsString "messages"
  | .durableExecution => jsString "executions"

def DocumentItemKind.identityMember : DocumentItemKind → JsString
  | .ledgerTransaction => jsString "provider_transaction_id"
  | .dlqMessage => jsString "message_id"
  | .durableExecution => jsString "durable_execution_arn"

def LateItemKind.name : LateItemKind → JsString
  | .journalEvent => jsString "journal_event"
  | .document .ledgerTransaction => jsString "ledger_transaction"
  | .document .dlqMessage => jsString "dlq_message"
  | .document .durableExecution => jsString "durable_execution"

/-! ## Members -/

def ownValue (holder : JsonDocument) (key : JsString) : Option JsonDocument :=
  match holder with
  | .object members => InsertionMap.get? members key
  | _ => none

def nonEmptyString : Option JsonDocument → Option JsString
  | some (.string value) => if value.isEmpty then none else some value
  | _ => none

def safeCount (least : Nat) : Option JsonDocument → Option Double
  | some (.number value) =>
    match naturalOf value with
    | some number => if least ≤ number ∧ number < 2 ^ 53 then some value else none
    | none => none
  | _ => none

def eventIdentity (item : JsonDocument) : Option (List JsonDocument) :=
  (nonEmptyString (ownValue item (jsString "event_id"))).bind fun eventId =>
    (nonEmptyString (ownValue item (jsString "source"))).bind fun source =>
      (nonEmptyString (ownValue item (jsString "source_instance_id"))).bind fun sourceInstance =>
        (safeCount 1 (ownValue item (jsString "source_sequence"))).map fun sequence =>
          [.string eventId, .string source, .string sourceInstance, .number sequence]

def documentItemIdentity (kind : DocumentItemKind) (item : JsonDocument) :
    Option (List JsonDocument) :=
  (nonEmptyString (ownValue item kind.identityMember)).map fun identity => [.string identity]

def identityMembers : LateItemKind → JsonDocument → Option (List JsonDocument)
  | .journalEvent, item => eventIdentity item
  | .document kind, item => documentItemIdentity kind item

/-! ## Keys -/

section Keys

variable (text : NumberText)

def canonicalJsonIfRepresentable (value : JsonDocument) : Option (List Char) :=
  if hasNonFinite value then none else some (canonicalJson text value)

def unrepresentableKey : List Char := "[\"unrepresentable\"]".toList

def itemIdentity (kind : LateItemKind) (item : JsonDocument) : List Char :=
  let members := match identityMembers kind item with
    | some members => .string kind.name :: members
    | none => [.string (jsString "content"), item]
  (canonicalJsonIfRepresentable text (.array members)).getD unrepresentableKey

def absentItems (kind : LateItemKind) (known : List (List Char)) (items : List JsonDocument) :
    List JsonDocument :=
  fresh (itemIdentity text kind) known items

def listMember (kind : DocumentItemKind) (document : JsonDocument) : Option (List JsonDocument) :=
  match ownValue document kind.listMember with
  | some (.array items) => some items
  | _ => none

def documentItems (kind : DocumentItemKind) (document : JsonDocument) : List JsonDocument :=
  (listMember kind document).getD []

/-- Why a frozen artifact cannot be read. -/
inductive BaselineProblem where
  | unreadableLine (lineNumber : Nat)
  | unreadableDocument
  | noList (kind : DocumentItemKind)

def journalLines (bytes : List UInt8) : Except BaselineProblem (List JsonDocument) :=
  (parseJsonl text bytes).mapM fun line =>
    match line.parsed with
    | .ok value => .ok value
    | .error _ => .error (.unreadableLine line.lineNumber)

def frozenDocumentItems (kind : DocumentItemKind) (bytes : List UInt8) :
    Except BaselineProblem (List JsonDocument) :=
  match parseJsonDocument text bytes with
  | none => .error .unreadableDocument
  | some document =>
    match listMember kind document with
    | none => .error (.noList kind)
    | some items => .ok items

def frozenRecords (kind : LateItemKind) (bytes : List UInt8) :
    Except BaselineProblem (List JsonDocument) :=
  match kind with
  | .journalEvent => journalLines text bytes
  | .document kind => frozenDocumentItems text kind bytes

def frozenIdentities (kind : LateItemKind) (bytes : List UInt8) :
    Except BaselineProblem (List (List Char)) :=
  (frozenRecords text kind bytes).map fun records => records.map (itemIdentity text kind)

end Keys

/-! ## Identity -/

/-- Two records of a kind are one record to the capture: their identity members agree, or, where
both lack them, their contents do; contents that JSON cannot write all count as one. -/
def SameIdentity (kind : LateItemKind) (first second : JsonDocument) : Prop :=
  match identityMembers kind first, identityMembers kind second with
  | some members, some others => members.map structuralForm = others.map structuralForm
  | none, none =>
    hasNonFinite first = hasNonFinite second ∧
      (hasNonFinite first = false → structuralForm first = structuralForm second)
  | _, _ => False

section Identity

variable {text : NumberText} {kind : LateItemKind} {first second : JsonDocument}

def keyParts (kind : LateItemKind) (item : JsonDocument) : List JsonDocument :=
  match identityMembers kind item with
  | some members => .string kind.name :: members
  | none =>
    if hasNonFinite item then [.string (jsString "unrepresentable")]
    else [.string (jsString "content"), item]

theorem safeCount_finite {least : Nat} {value : Option JsonDocument} {count : Double}
    (h : safeCount least value = some count) : count.isFinite = true := by
  unfold safeCount at h
  split at h
  · rename_i number
    split at h
    · rename_i natural hnatural
      split at h
      · rw [← Option.some.inj h]
        cases number with
        | finite number => rfl
        | _ => cases hnatural
      · cases h
    · cases h
  · cases h

theorem identityMembers_representable {members : List JsonDocument}
    (h : identityMembers kind first = some members) : ∀ member ∈ members, Representable member := by
  cases kind with
  | journalEvent =>
    obtain ⟨eventId, -, h⟩ := Option.bind_eq_some_iff.mp h
    obtain ⟨source, -, h⟩ := Option.bind_eq_some_iff.mp h
    obtain ⟨sourceInstance, -, h⟩ := Option.bind_eq_some_iff.mp h
    obtain ⟨sequence, hsequence, rfl⟩ := Option.map_eq_some_iff.mp h
    simp only [List.forall_mem_cons, List.not_mem_nil, false_imp_iff, implies_true, and_true]
    exact ⟨.string _, .string _, .string _, .number (safeCount_finite hsequence)⟩
  | document kind =>
    obtain ⟨identity, -, rfl⟩ := Option.map_eq_some_iff.mp h
    intro member hmem
    rw [List.mem_singleton.mp hmem]
    exact .string _

theorem keyParts_representable (h : Record.DistinctNames first) :
    ∀ part ∈ keyParts kind first, Representable part := by
  unfold keyParts
  cases hmembers : identityMembers kind first with
  | some members =>
    intro part hmem
    rcases List.mem_cons.mp hmem with rfl | hmember
    · exact .string _
    · exact identityMembers_representable hmembers part hmember
  | none =>
    simp only
    split
    · intro part hmem
      rw [List.mem_singleton.mp hmem]
      exact .string _
    · rename_i hfinite
      have hitem := representable_of_finite h (Bool.eq_false_of_not_eq_true hfinite)
      simp only [List.forall_mem_cons, List.not_mem_nil, false_imp_iff, implies_true, and_true]
      exact ⟨.string _, hitem⟩

theorem unrepresentableKey_eq (text : NumberText) :
    unrepresentableKey =
      canonicalJson text (.array [.string (jsString "unrepresentable")]) := rfl

theorem itemIdentity_eq (text : NumberText) (kind : LateItemKind) (item : JsonDocument) :
    itemIdentity text kind item = canonicalJson text (.array (keyParts kind item)) := by
  unfold itemIdentity keyParts canonicalJsonIfRepresentable
  cases hmembers : identityMembers kind item with
  | some members =>
    have hfinite : hasNonFinite (.array (.string kind.name :: members)) = false := by
      refine hasNonFinite_of_representable (.array fun part hmem => ?_)
      rcases List.mem_cons.mp hmem with rfl | hmember
      · exact .string _
      · exact identityMembers_representable hmembers part hmember
    simp only [hfinite]
    rfl
  | none =>
    have hparts : hasNonFinite (.array [.string (jsString "content"), item]) =
        hasNonFinite item := by
      simp [hasNonFinite, itemsNonFinite]
    simp only [hparts]
    cases hasNonFinite item with
    | true => exact unrepresentableKey_eq text
    | false => rfl

theorem name_ne_content (kind : LateItemKind) : kind.name ≠ jsString "content" := by
  cases kind with
  | journalEvent => decide
  | document kind => cases kind <;> decide

theorem name_ne_unrepresentable (kind : LateItemKind) :
    kind.name ≠ jsString "unrepresentable" := by
  cases kind with
  | journalEvent => decide
  | document kind => cases kind <;> decide

theorem keyParts_forms_iff : (keyParts kind first).map structuralForm =
    (keyParts kind second).map structuralForm ↔ SameIdentity kind first second := by
  have hstring : ∀ value, structuralForm (.string value) = .string value := fun _ => rfl
  have hunlike : jsString "content" ≠ jsString "unrepresentable" := by decide
  have hcontent := name_ne_content kind
  have hunrepresentable := name_ne_unrepresentable kind
  unfold keyParts SameIdentity
  cases identityMembers kind first with
  | some members =>
    cases identityMembers kind second with
    | some others => simp [hstring]
    | none =>
      cases hasNonFinite second with
      | true => simp [hstring, hunrepresentable]
      | false => simp [hstring, hcontent]
  | none =>
    cases identityMembers kind second with
    | some others =>
      cases hasNonFinite first with
      | true => simp [hstring, hunrepresentable.symm]
      | false => simp [hstring, hcontent.symm]
    | none =>
      cases hasNonFinite first with
      | true =>
        cases hasNonFinite second with
        | true => simp
        | false => simp [hstring, hunlike.symm]
      | false =>
        cases hasNonFinite second with
        | true => simp [hstring, hunlike]
        | false => simp [hstring]

theorem itemIdentity_eq_iff (law : text.Lawful) (hprints : PrintsJson text)
    (hfirst : Record.DistinctNames first) (hsecond : Record.DistinctNames second) :
    itemIdentity text kind first = itemIdentity text kind second ↔ SameIdentity kind first second := by
  rw [itemIdentity_eq, itemIdentity_eq, canonicalJson_eq_iff law hprints
    (.array (keyParts_representable hfirst)) (.array (keyParts_representable hsecond)),
    structuralForm_array, structuralForm_array, JsonDocument.array.injEq]
  exact keyParts_forms_iff

end Identity

/-! ## What is late -/

section Late

open Classical in
/-- The re-read records whose identity neither a frozen record has nor an earlier re-read one. -/
noncomputable def lateItems (kind : LateItemKind) (frozen items : List JsonDocument) :
    List JsonDocument :=
  (items.zipIdx.filter fun entry => decide ((∀ record ∈ frozen, ¬ SameIdentity kind entry.1 record) ∧
    ∀ earlier ∈ items.take entry.2, ¬ SameIdentity kind entry.1 earlier)).map Prod.fst

theorem absentItems_eq_lateItems {text : NumberText} (law : text.Lawful) (hprints : PrintsJson text)
    (kind : LateItemKind) {frozen items : List JsonDocument}
    (hfrozen : ∀ record ∈ frozen, Record.DistinctNames record)
    (hitems : ∀ item ∈ items, Record.DistinctNames item) :
    absentItems text kind (frozen.map (itemIdentity text kind)) items =
      lateItems kind frozen items := by
  have hfilter := @fresh_eq_filter _ _ _ (itemIdentity text kind)
    (frozen.map (itemIdentity text kind)) items []
  rw [List.map_nil, List.append_nil, List.nil_append, List.length_nil] at hfilter
  unfold absentItems lateItems
  rw [hfilter]
  congr 1
  refine List.filter_congr fun entry hmem => ?_
  have hentry := hitems entry.1 (List.mem_of_getElem? (List.mem_zipIdx_iff_getElem?.mp hmem))
  have hkeys : ∀ others : List JsonDocument, (∀ other ∈ others, Record.DistinctNames other) →
      (itemIdentity text kind entry.1 ∉ others.map (itemIdentity text kind) ↔
        ∀ other ∈ others, ¬ SameIdentity kind entry.1 other) := by
    intro others hothers
    rw [List.mem_map]
    constructor
    · intro h other hother hsame
      exact h ⟨other, hother,
        ((itemIdentity_eq_iff law hprints hentry (hothers other hother)).mpr hsame).symm⟩
    · rintro h ⟨other, hother, heq⟩
      exact h other hother ((itemIdentity_eq_iff law hprints hentry (hothers other hother)).mp
        heq.symm)
  rw [decide_eq_decide, hkeys frozen hfrozen,
    hkeys (items.take entry.2) fun other hother => hitems other (List.mem_of_mem_take hother)]

end Late

end RefundStudy.Collection
