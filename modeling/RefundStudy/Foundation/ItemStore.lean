/-
  A keyed store with conditional writes that apply together or not at all.

  A transaction applies every action when all conditions hold on the store before it, and changes
  nothing otherwise. Every proof about a transaction is a case analysis on the relation
  `Transacted`.
-/
import Mathlib.Data.List.AList

set_option autoImplicit false

namespace RefundStudy.Foundation

variable {K : Type} {β : K → Type}

/-- One conditional write: the key, the condition on the item found there, and
the item written over it.  `storable` says whether the service can represent the
written values at all; a request holding an unstorable value is refused. -/
structure WriteAction (β : K → Type) where
  key : K
  condition : Option (β key) → Bool
  effect : Option (β key) → β key
  storable : Bool := true

/-- How a write ended, as the caller learns it. -/
inductive WriteOutcome (β : K → Type) where
  /-- every action took effect -/
  | applied
  /-- nothing took effect; the first action whose condition failed, and the item there -/
  | conditionFailed (failedActionIndex : Nat) (existing : Option (Sigma β))
  /-- the service rejected the request; nothing took effect -/
  | definitiveFailure (code : String)
  /-- the write may or may not have taken effect -/
  | ambiguous (code : String)

/-- Which permitted outcome the service picks for one request. -/
inductive Fate where
  | answered
  | refused (code : String)
  | lost (code : String) (reached : Bool)

/-- The code of a request the service cannot represent. -/
def validationException : String := "ValidationException"

/-! ## Conditions -/

def itemAbsent {α : Type} : Option α → Bool
  | none => true
  | some _ => false

/-- The item exists and its attribute has exactly this value. -/
def attributeEquals {α γ : Type} [DecidableEq γ] (field : α → γ) (value : γ) :
    Option α → Bool
  | none => false
  | some item => decide (field item = value)

/-- The item exists and its attribute is one of these values. -/
def attributeIn {α γ : Type} [DecidableEq γ] (field : α → γ) (values : List γ) :
    Option α → Bool
  | none => false
  | some item => decide (field item ∈ values)

def allConditions {α : Type} (conditions : List (Option α → Bool)) (item : Option α) : Bool :=
  conditions.all fun condition => condition item

@[simp] theorem itemAbsent_iff {α : Type} (item : Option α) :
    itemAbsent item = true ↔ item = none := by
  cases item <;> simp [itemAbsent]

@[simp] theorem attributeEquals_iff {α γ : Type} [DecidableEq γ] (field : α → γ)
    (value : γ) (item : Option α) :
    attributeEquals field value item = true ↔
      ∃ found, item = some found ∧ field found = value := by
  cases item <;> simp [attributeEquals]

@[simp] theorem attributeIn_iff {α γ : Type} [DecidableEq γ] (field : α → γ)
    (values : List γ) (item : Option α) :
    attributeIn field values item = true ↔
      ∃ found, item = some found ∧ field found ∈ values := by
  cases item <;> simp [attributeIn]

/-! ## Transactions -/

variable [DecidableEq K]

def WriteAction.holds (action : WriteAction β) (store : AList β) : Bool :=
  action.condition (store.lookup action.key)

def WriteAction.apply (action : WriteAction β) (store : AList β) : AList β :=
  store.insert action.key (action.effect (store.lookup action.key))

/-- The store after every action took effect. -/
def applyAll (actions : List (WriteAction β)) (store : AList β) : AList β :=
  actions.foldl (fun current action => action.apply current) store

@[simp] theorem applyAll_nil (store : AList β) :
    applyAll ([] : List (WriteAction β)) store = store := rfl

@[simp] theorem applyAll_cons (action : WriteAction β) (rest : List (WriteAction β))
    (store : AList β) :
    applyAll (action :: rest) store = applyAll rest (action.apply store) := rfl

/-- The first action whose condition does not hold, counted from `index`, and
the item found under its key. -/
def firstFailing (store : AList β) : Nat → List (WriteAction β) →
    Option (Nat × Option (Sigma β))
  | _, [] => none
  | index, action :: rest =>
    if action.holds store then firstFailing store (index + 1) rest
    else some (index, (store.lookup action.key).map fun item => ⟨action.key, item⟩)

/-- The transaction can take effect: the service can represent it and every
condition holds. -/
def Applies (actions : List (WriteAction β)) (store : AList β) : Prop :=
  (∀ action ∈ actions, action.storable = true) ∧ firstFailing store 0 actions = none

def transact (store : AList β) (actions : List (WriteAction β)) (fate : Fate) :
    WriteOutcome β × AList β :=
  if actions.all (fun action => action.storable) then
    match fate with
    | .refused code => (.definitiveFailure code, store)
    | .lost code reached =>
      (.ambiguous code, if reached && (firstFailing store 0 actions).isNone
        then applyAll actions store else store)
    | .answered =>
      match firstFailing store 0 actions with
      | none => (.applied, applyAll actions store)
      | some (index, existing) => (.conditionFailed index existing, store)
  else (.definitiveFailure validationException, store)

/-- What a truthful outcome says about the store before and after. -/
inductive Transacted (actions : List (WriteAction β)) (store : AList β) :
    WriteOutcome β → AList β → Prop where
  | applied (happlies : Applies actions store) :
      Transacted actions store .applied (applyAll actions store)
  | conditionFailed {index : Nat} {existing : Option (Sigma β)}
      (hfailing : firstFailing store 0 actions = some (index, existing)) :
      Transacted actions store (.conditionFailed index existing) store
  | refused (code : String) :
      Transacted actions store (.definitiveFailure code) store
  | lost (code : String) : Transacted actions store (.ambiguous code) store
  | lostApplied (code : String) (happlies : Applies actions store) :
      Transacted actions store (.ambiguous code) (applyAll actions store)

theorem transact_transacted {store store' : AList β} {actions : List (WriteAction β)}
    {fate : Fate} {outcome : WriteOutcome β}
    (h : transact store actions fate = (outcome, store')) :
    Transacted actions store outcome store' := by
  unfold transact at h
  split at h
  · rename_i hstorable
    have hall : ∀ action ∈ actions, action.storable = true := by
      simpa [List.all_eq_true] using hstorable
    cases fate with
    | refused code =>
      obtain ⟨rfl, rfl⟩ := Prod.mk.inj h
      exact .refused code
    | lost code reached =>
      obtain ⟨rfl, rfl⟩ := Prod.mk.inj h
      split
      · rename_i hreached
        simp only [Bool.and_eq_true, Option.isNone_iff_eq_none] at hreached
        exact .lostApplied code ⟨hall, hreached.2⟩
      · exact .lost code
    | answered =>
      simp only at h
      split at h
      · rename_i hnone
        obtain ⟨rfl, rfl⟩ := Prod.mk.inj h
        exact .applied ⟨hall, hnone⟩
      · rename_i index existing hsome
        obtain ⟨rfl, rfl⟩ := Prod.mk.inj h
        exact .conditionFailed hsome
  · obtain ⟨rfl, rfl⟩ := Prod.mk.inj h
    exact .refused _

theorem firstFailing_cons_eq_none {store : AList β} {index : Nat}
    {action : WriteAction β} {rest : List (WriteAction β)} :
    firstFailing store index (action :: rest) = none ↔
      action.condition (store.lookup action.key) = true ∧
        firstFailing store (index + 1) rest = none := by
  change _ ↔ action.holds store = true ∧ _
  cases hholds : action.holds store <;> simp [firstFailing, hholds]

theorem firstFailing_cons_eq_some {store : AList β} {index found : Nat}
    {action : WriteAction β} {rest : List (WriteAction β)}
    {existing : Option (Sigma β)} :
    firstFailing store index (action :: rest) = some (found, existing) ↔
      (action.condition (store.lookup action.key) = false ∧ found = index ∧
        existing = (store.lookup action.key).map fun item => ⟨action.key, item⟩) ∨
      (action.condition (store.lookup action.key) = true ∧
        firstFailing store (index + 1) rest = some (found, existing)) := by
  change _ ↔ (action.holds store = false ∧ _) ∨ (action.holds store = true ∧ _)
  cases hholds : action.holds store with
  | true => simp [firstFailing, hholds]
  | false =>
    simp only [firstFailing, hholds, Bool.false_eq_true, if_false, Option.some.injEq,
      Prod.mk.injEq, true_and, false_and, or_false]
    constructor
    · rintro ⟨rfl, rfl⟩
      exact ⟨rfl, rfl⟩
    · rintro ⟨rfl, rfl⟩
      exact ⟨rfl, rfl⟩

theorem Applies.condition {store : AList β} {actions : List (WriteAction β)}
    (happlies : Applies actions store) {action : WriteAction β} (hmem : action ∈ actions) :
    action.condition (store.lookup action.key) = true := by
  have hnone : ∀ index, firstFailing store index actions = none →
      action.condition (store.lookup action.key) = true := by
    clear happlies
    induction actions with
    | nil => cases hmem
    | cons head rest ih =>
      intro index hindex
      obtain ⟨hhead, hrest⟩ := firstFailing_cons_eq_none.mp hindex
      rcases List.mem_cons.mp hmem with rfl | hmem
      · exact hhead
      · exact ih hmem _ hrest
  exact hnone 0 happlies.2

/-- The failing action of a transaction: its condition is false, and what the
store returns is the item under its key. -/
theorem firstFailing_get {store : AList β} {actions : List (WriteAction β)}
    {index found : Nat} {existing : Option (Sigma β)}
    (h : firstFailing store index actions = some (found, existing)) :
    ∃ offset action, found = index + offset ∧ actions[offset]? = some action ∧
      action.condition (store.lookup action.key) = false ∧
      existing = (store.lookup action.key).map fun item => ⟨action.key, item⟩ := by
  induction actions generalizing index with
  | nil => cases h
  | cons head rest ih =>
    rcases firstFailing_cons_eq_some.mp h with ⟨hfalse, rfl, hexisting⟩ | ⟨-, hrest⟩
    · exact ⟨0, head, rfl, rfl, hfalse, hexisting⟩
    · obtain ⟨offset, action, hfound, hget, hfalse, hexisting⟩ := ih hrest
      refine ⟨offset + 1, action, ?_, ?_, hfalse, hexisting⟩
      · omega
      · simpa using hget

end RefundStudy.Foundation
