/-
  JSON pointers (`evidence-package/json-pointer.ts`, and the pointers `findNonFiniteNumber` builds
  in `record-contract/parsing.ts`).

  `Number(token)` is exact here: an array has fewer than 2 ^ 32 items.
-/
import RefundStudy.Foundation.Escaping
import RefundStudy.Record.ParsedDocument
import Mathlib.Data.List.Induction
import Mathlib.Tactic.IntervalCases

set_option autoImplicit false

namespace RefundStudy.Package

open Foundation Record Store

/-! ## Tokens -/

/-- `~` and `/`, and the digits that stand for them after a `~`. -/
def pointerScheme : EscapeScheme UInt16 where
  mark := 0x7e
  separator := 0x2f
  forMark := 0x30
  forSeparator := 0x31
  separator_ne_mark := by decide
  forMark_ne_mark := by decide
  forSeparator_ne_mark := by decide
  forMark_ne_separator := by decide
  forSeparator_ne_separator := by decide
  forMark_ne_forSeparator := by decide

def isDecimalUnit (unit : UInt16) : Bool := decide (0x30 ≤ unit.toNat ∧ unit.toNat ≤ 0x39)

def digitsValue (digits : JsString) : Nat :=
  digits.foldl (fun value unit => value * 10 + (unit.toNat - 0x30)) 0

/-- `ARRAY_INDEX_PATTERN` and `Number(token)`. -/
def arrayIndex (token : JsString) : Option Nat :=
  match token with
  | [] => none
  | first :: rest =>
    if isDecimalUnit first ∧ rest.all isDecimalUnit ∧ (rest = [] ∨ first ≠ 0x30) then
      some (digitsValue (first :: rest))
    else none

/-! ## Resolution -/

def childOf (container : JsonDocument) (token : JsString) : Option JsonDocument :=
  match container with
  | .array items => (arrayIndex token).bind fun index => items[index]?
  | .object members => InsertionMap.get? members token
  | _ => none

/-- The loop of `resolveJsonPointer`. -/
def resolveTokens (current : JsonDocument) : List JsString → Option JsonDocument
  | [] => some current
  | token :: rest =>
    (childOf current (pointerScheme.unescape token)).bind fun next => resolveTokens next rest

def resolveJsonPointer (document : JsonDocument) (pointer : JsString) : Option JsonDocument :=
  match pointer with
  | [] => some document
  | first :: rest =>
    if first ≠ 0x2f ∨ pointerScheme.strayMark (first :: rest) then none
    else resolveTokens document (rest.splitOn 0x2f)

/-! ## The encoding of paths -/

/-- The decimal text of a position, without leading zeros. -/
def indexText (index : Nat) : JsString :=
  (Nat.toDigits 10 index).map fun c => UInt16.ofNat c.toNat

inductive PathStep where
  | member (name : JsString)
  | position (index : Nat)

def PathStep.token : PathStep → JsString
  | .member name => name
  | .position index => indexText index

def encodePath (path : List PathStep) : JsString :=
  path.flatMap fun step => 0x2f :: step.token.flatMap pointerScheme.escapeUnit

/-- A path of own members and existing positions, and the value it leads to. -/
inductive Leads : JsonDocument → List PathStep → JsonDocument → Prop where
  | here (document : JsonDocument) : Leads document [] document
  | member {members : List (JsString × JsonDocument)} {name : JsString}
      {child value : JsonDocument} {path : List PathStep}
      (own : InsertionMap.get? members name = some child) (rest : Leads child path value) :
      Leads (.object members) (.member name :: path) value
  | position {items : List JsonDocument} {index : Nat} {child value : JsonDocument}
      {path : List PathStep} (there : items[index]? = some child) (rest : Leads child path value) :
      Leads (.array items) (.position index :: path) value

/-! ## Positions as decimal texts -/

theorem indexText_of_lt {index : Nat} (h : index < 10) :
    indexText index = [UInt16.ofNat (0x30 + index)] := by
  rw [indexText, Nat.toDigits_of_lt_base h, List.map_singleton]
  congr 2
  interval_cases index <;> rfl

theorem indexText_of_le {index : Nat} (h : 10 ≤ index) :
    indexText index = indexText (index / 10) ++ [UInt16.ofNat (0x30 + index % 10)] := by
  have hlast := indexText_of_lt (Nat.mod_lt index (by decide : 0 < 10))
  rw [indexText, Nat.toDigits_of_base_le (by decide) h, List.map_append]
  rw [indexText, Nat.toDigits_of_lt_base (Nat.mod_lt index (by decide : 0 < 10))] at hlast
  rw [← hlast]
  rfl

theorem toNat_digitUnit {digit : Nat} (h : digit < 10) :
    (UInt16.ofNat (0x30 + digit)).toNat = 0x30 + digit := by
  rw [UInt16.toNat_ofNat']
  exact Nat.mod_eq_of_lt (by omega)

theorem digitsValue_concat (digits : JsString) (unit : UInt16) :
    digitsValue (digits ++ [unit]) = digitsValue digits * 10 + (unit.toNat - 0x30) := by
  rw [digitsValue, List.foldl_append]
  rfl

structure IsIndexText (token : JsString) : Prop where
  digits : token.all isDecimalUnit = true
  nonempty : token ≠ []
  noLeadingZero : token.length = 1 ∨ token.head? ≠ some 0x30

theorem arrayIndex_eq_some {token : JsString} {index : Nat} :
    arrayIndex token = some index ↔ IsIndexText token ∧ digitsValue token = index := by
  cases token with
  | nil => exact ⟨fun h => (by cases h), fun h => absurd rfl h.1.nonempty⟩
  | cons first rest =>
    unfold arrayIndex
    dsimp only
    constructor
    · intro h
      split at h
      · rename_i hpattern
        refine ⟨⟨?_, by simp, ?_⟩, Option.some.inj h⟩
        · simp only [List.all_cons, hpattern.1, hpattern.2.1, Bool.and_self]
        · rcases hpattern.2.2 with hrest | hfirst
          · exact .inl (by rw [hrest, List.length_singleton])
          · exact .inr (by simpa using hfirst)
      · cases h
    · intro h
      obtain ⟨⟨hdigits, -, hzero⟩, hvalue⟩ := h
      rw [List.all_cons, Bool.and_eq_true_iff] at hdigits
      have hleading : rest = [] ∨ first ≠ 0x30 := by
        rcases hzero with hlength | hhead
        · exact .inl (List.length_eq_zero_iff.mp (by simpa using hlength))
        · exact .inr (by simpa using hhead)
      rw [if_pos ⟨hdigits.1, hdigits.2, hleading⟩, hvalue]

theorem indexText_accepted (index : Nat) :
    IsIndexText (indexText index) ∧ digitsValue (indexText index) = index ∧
      (0 < index → (indexText index).head? ≠ some 0x30) := by
  induction index using Nat.strong_induction_on with
  | _ index ih =>
    by_cases hsmall : index < 10
    · rw [indexText_of_lt hsmall]
      have hunit := toNat_digitUnit hsmall
      refine ⟨⟨?_, by simp, .inl rfl⟩, ?_, ?_⟩
      · simp only [List.all_cons, List.all_nil, Bool.and_true, isDecimalUnit, hunit,
          decide_eq_true_eq]
        omega
      · simp only [digitsValue, List.foldl_cons, List.foldl_nil, hunit]
        omega
      · intro hpos hhead
        have hzero := congrArg UInt16.toNat (Option.some.inj hhead)
        rw [hunit] at hzero
        simp at hzero
        omega
    · obtain ⟨⟨hdigits, hnonempty, -⟩, hvalue, hhead⟩ := ih (index / 10) (by omega)
      have hunit := toNat_digitUnit (Nat.mod_lt index (by decide : 0 < 10))
      rw [indexText_of_le (by omega)]
      have hheadEq : (indexText (index / 10) ++ [UInt16.ofNat (0x30 + index % 10)]).head? =
          (indexText (index / 10)).head? := List.head?_append_of_ne_nil _ hnonempty
      refine ⟨⟨?_, by simp, .inr ?_⟩, ?_, ?_⟩
      · rw [List.all_append, hdigits, Bool.true_and]
        simp only [List.all_cons, List.all_nil, Bool.and_true, isDecimalUnit, hunit,
          decide_eq_true_eq]
        omega
      · rw [hheadEq]
        exact hhead (by omega)
      · rw [digitsValue_concat, hvalue, hunit]
        omega
      · intro _
        rw [hheadEq]
        exact hhead (by omega)

theorem indexText_digitsValue {token : JsString} (h : IsIndexText token) :
    indexText (digitsValue token) = token := by
  induction token using List.reverseRecOn with
  | nil => exact absurd rfl h.nonempty
  | append_singleton digits unit ih =>
    have hdigits := h.digits
    rw [List.all_append, Bool.and_eq_true_iff] at hdigits
    have hunit : 0x30 ≤ unit.toNat ∧ unit.toNat ≤ 0x39 := by
      simpa [isDecimalUnit] using hdigits.2
    have hback : UInt16.ofNat (0x30 + (unit.toNat - 0x30)) = unit := by
      rw [show 0x30 + (unit.toNat - 0x30) = unit.toNat by omega]
      exact UInt16.ofNat_toNat
    rw [digitsValue_concat]
    cases digits with
    | nil =>
      rw [show digitsValue [] = 0 from rfl, Nat.zero_mul, Nat.zero_add,
        indexText_of_lt (by omega), hback]
      rfl
    | cons first rest =>
      have hhead : first ≠ 0x30 := by
        rcases h.noLeadingZero with hlength | hhead
        · simp at hlength
        · simpa using hhead
      have hprefix : IsIndexText (first :: rest) :=
        ⟨hdigits.1, by simp, .inr (by simpa using hhead)⟩
      have hback' := ih hprefix
      have hpos : 0 < digitsValue (first :: rest) := by
        rcases Nat.eq_zero_or_pos (digitsValue (first :: rest)) with hzero | hpos
        · rw [hzero, indexText_of_lt (by decide)] at hback'
          exact absurd (List.cons.inj hback').1.symm hhead
        · exact hpos
      rw [indexText_of_le (by omega),
        show (digitsValue (first :: rest) * 10 + (unit.toNat - 0x30)) / 10 =
          digitsValue (first :: rest) by omega,
        show (digitsValue (first :: rest) * 10 + (unit.toNat - 0x30)) % 10 =
          unit.toNat - 0x30 by omega, hback', hback]

/-- The pattern accepts the decimal texts, and `Number` reads them. -/
theorem arrayIndex_iff {token : JsString} {index : Nat} :
    arrayIndex token = some index ↔ token = indexText index := by
  rw [arrayIndex_eq_some]
  constructor
  · intro h
    rw [← h.2, indexText_digitsValue h.1]
  · intro h
    obtain ⟨haccepted, hvalue, -⟩ := indexText_accepted index
    rw [h]
    exact ⟨haccepted, hvalue⟩

/-! ## Reading is the inverse of encoding -/

theorem encodePath_eq_joined (path : List PathStep) :
    encodePath path = pointerScheme.joined (path.map PathStep.token) := by
  rw [encodePath, EscapeScheme.joined, List.flatMap_map]
  simp only [EscapeScheme.escape_eq_flatMap]
  rfl

theorem childOf_iff {container child : JsonDocument} {token : JsString} :
    childOf container token = some child ↔
      ∃ step : PathStep, step.token = token ∧ Leads container [step] child := by
  constructor
  · intro h
    cases container with
    | array items =>
      obtain ⟨index, hindex, hitem⟩ := Option.bind_eq_some_iff.mp h
      exact ⟨.position index, (arrayIndex_iff.mp hindex).symm, .position hitem (.here child)⟩
    | object members => exact ⟨.member token, rfl, .member h (.here child)⟩
    | null => cases h
    | bool _ => cases h
    | number _ => cases h
    | string _ => cases h
  · intro h
    obtain ⟨step, rfl, hleads⟩ := h
    cases hleads with
    | member own rest =>
      cases rest
      exact own
    | position there rest =>
      cases rest
      exact Option.bind_eq_some_iff.mpr ⟨_, arrayIndex_iff.mpr rfl, there⟩

/-- The loop over escaped tokens follows the paths with these texts. -/
theorem resolveTokens_iff {tokens : List JsString} {document value : JsonDocument} :
    resolveTokens document (tokens.map pointerScheme.escape) = some value ↔
      ∃ path : List PathStep, path.map PathStep.token = tokens ∧ Leads document path value := by
  induction tokens generalizing document with
  | nil =>
    constructor
    · intro h
      obtain rfl := Option.some.inj h
      exact ⟨[], rfl, .here document⟩
    · intro h
      obtain ⟨path, hpath, hleads⟩ := h
      obtain rfl := List.map_eq_nil_iff.mp hpath
      cases hleads
      rfl
  | cons token tokens ih =>
    rw [List.map_cons, resolveTokens, Option.bind_eq_some_iff, EscapeScheme.unescape_escape]
    constructor
    · intro h
      obtain ⟨child, hchild, hrest⟩ := h
      obtain ⟨step, hstep, hleads⟩ := childOf_iff.mp hchild
      obtain ⟨path, hpath, hrest⟩ := ih.mp hrest
      refine ⟨step :: path, by rw [List.map_cons, hstep, hpath], ?_⟩
      cases hleads with
      | member own here =>
        cases here
        exact .member own hrest
      | position there here =>
        cases here
        exact .position there hrest
    · intro h
      obtain ⟨path, hpath, hleads⟩ := h
      obtain ⟨step, rest, rfl, hstep, hrest⟩ := List.map_eq_cons_iff.mp hpath
      cases hleads with
      | member own below =>
        exact ⟨_, childOf_iff.mpr ⟨_, hstep, .member own (.here _)⟩, ih.mpr ⟨rest, hrest, below⟩⟩
      | position there below =>
        exact ⟨_, childOf_iff.mpr ⟨_, hstep, .position there (.here _)⟩,
          ih.mpr ⟨rest, hrest, below⟩⟩

theorem resolveJsonPointer_iff {document value : JsonDocument} {pointer : JsString} :
    resolveJsonPointer document pointer = some value ↔
      ∃ path : List PathStep, encodePath path = pointer ∧ Leads document path value := by
  constructor
  · intro h
    cases pointer with
    | nil =>
      obtain rfl := Option.some.inj h
      exact ⟨[], rfl, .here document⟩
    | cons first rest =>
      unfold resolveJsonPointer at h
      dsimp only at h
      split at h
      · cases h
      · rename_i hwell
        rw [not_or, not_not, Bool.not_eq_true] at hwell
        obtain ⟨rfl, hstray⟩ := hwell
        have hrest : pointerScheme.strayMark rest = false :=
          (EscapeScheme.strayMark_cons_of_ne pointerScheme pointerScheme.separator_ne_mark
            rest).symm.trans hstray
        have htokens : ((rest.splitOn 0x2f).map pointerScheme.unescape).map
            pointerScheme.escape = rest.splitOn 0x2f :=
          pointerScheme.splitOn_eq_map_escape hrest
        rw [← htokens] at h
        obtain ⟨path, hpath, hleads⟩ := resolveTokens_iff.mp h
        refine ⟨path, ?_, hleads⟩
        rw [encodePath_eq_joined, hpath]
        exact pointerScheme.joined_unescape_splitOn rest hrest
  · intro h
    obtain ⟨path, rfl, hleads⟩ := h
    cases path with
    | nil =>
      cases hleads
      rfl
    | cons step path =>
      have hstray := pointerScheme.strayMark_joined ((step :: path).map PathStep.token)
      have hsplit := pointerScheme.splitOn_joined step.token (path.map PathStep.token)
      rw [encodePath_eq_joined, List.map_cons, EscapeScheme.joined_cons]
      rw [List.map_cons, EscapeScheme.joined_cons] at hstray
      have hwell : ¬ (pointerScheme.separator ≠ 0x2f ∨ pointerScheme.strayMark
          (pointerScheme.separator :: (pointerScheme.escape step.token ++
            pointerScheme.joined (path.map PathStep.token))) = true) := by
        rw [hstray]
        simp [pointerScheme]
      unfold resolveJsonPointer
      dsimp only
      rw [if_neg hwell]
      rw [show (0x2f : UInt16) = pointerScheme.separator from rfl, hsplit]
      exact resolveTokens_iff.mpr ⟨step :: path, rfl, hleads⟩

theorem Leads.unique {document value other : JsonDocument} {first second : List PathStep}
    (hfirst : Leads document first value) (hsecond : Leads document second other)
    (htexts : first.map PathStep.token = second.map PathStep.token) : first = second := by
  induction hfirst generalizing second with
  | here document => exact (List.map_eq_nil_iff.mp htexts.symm).symm
  | member own rest ih =>
    cases hsecond with
    | here => cases htexts
    | member own' rest' =>
      obtain ⟨hname, hrest⟩ := List.cons.inj htexts
      simp only [PathStep.token] at hname
      subst hname
      obtain rfl := Option.some.inj (own.symm.trans own')
      rw [ih rest' hrest]
  | position there rest ih =>
    cases hsecond with
    | here => cases htexts
    | position there' rest' =>
      obtain ⟨hindex, hrest⟩ := List.cons.inj htexts
      have hindex := Option.some.inj ((arrayIndex_iff.mpr rfl).symm.trans
        (arrayIndex_iff.mpr hindex))
      subst hindex
      obtain rfl := Option.some.inj (there.symm.trans there')
      rw [ih rest' hrest]

theorem encodePath_tokens {first second : List PathStep}
    (h : encodePath first = encodePath second) :
    first.map PathStep.token = second.map PathStep.token := by
  rw [encodePath_eq_joined, encodePath_eq_joined] at h
  exact pointerScheme.joined_injective h

/-! ## The pointers of `findNonFiniteNumber` -/

/-- A name that is an array index: such names come first, in the order of their numbers. -/
def isIndexName (name : JsString) : Bool :=
  (arrayIndex name).any fun index => decide (index < 2 ^ 32 - 1)

variable (members : List (JsString × JsonDocument))

/-- The order in which `Object.entries` lists members. -/
def enumerationOrder : List (JsString × JsonDocument) :=
  (members.filter fun member => isIndexName member.1).insertionSort
      (fun first second => (arrayIndex first.1).getD 0 ≤ (arrayIndex second.1).getD 0) ++
    members.filter fun member => !isIndexName member.1

/-- `Object.entries`; a value that is no container has none. -/
def objectEntries : JsonDocument → List (JsString × JsonDocument)
  | .array items => items.zipIdx.map fun item => (indexText item.2, item.1)
  | .object members => enumerationOrder members
  | _ => []

structure PendingValue where
  value : JsonDocument
  pointer : JsString

def pushChildren (pending : List PendingValue) (next : PendingValue) : List PendingValue :=
  ((objectEntries next.value).map fun entry =>
    ⟨entry.2, next.pointer ++ 0x2f :: pointerScheme.escape entry.1⟩).reverse ++ pending

/-- `typeof value === 'number' && !Number.isFinite(value)`. -/
def isNonFiniteNumber : JsonDocument → Bool
  | .number value => !value.isFinite
  | _ => false

/-- The loop of `findNonFiniteNumber`; `fuel` bounds the values it looks at. -/
def findFrom : Nat → List PendingValue → Option JsString
  | 0, _ => none
  | _ + 1, [] => none
  | fuel + 1, next :: pending =>
    if isNonFiniteNumber next.value then some next.pointer
    else findFrom fuel (pushChildren pending next)

mutual

def valueCount : JsonDocument → Nat
  | .array items => itemsCount items + 1
  | .object members => membersCount members + 1
  | _ => 1

def itemsCount : List JsonDocument → Nat
  | [] => 0
  | item :: rest => valueCount item + itemsCount rest

def membersCount : List (JsString × JsonDocument) → Nat
  | [] => 0
  | (_, value) :: rest => valueCount value + membersCount rest

end

def findNonFiniteNumber (root : JsonDocument) : Option JsString :=
  findFrom (valueCount root) [⟨root, []⟩]

inductive PendingStack (root : JsonDocument) : List PendingValue → Prop where
  | start : PendingStack root [⟨root, []⟩]
  | next {entry : PendingValue} {pending : List PendingValue}
      (before : PendingStack root (entry :: pending))
      (finite : isNonFiniteNumber entry.value = false) :
      PendingStack root (pushChildren pending entry)

theorem enumerationOrder_perm : (enumerationOrder members).Perm members := by
  refine List.Perm.trans (List.Perm.append_right _ (List.perm_insertionSort _ _)) ?_
  exact List.filter_append_perm _ _

theorem objectEntries_lead {document : JsonDocument} (hdistinct : DistinctNames document)
    {entry : JsString × JsonDocument} (hmem : entry ∈ objectEntries document) :
    DistinctNames entry.2 ∧
      ∃ step : PathStep, step.token = entry.1 ∧ Leads document [step] entry.2 := by
  cases hdistinct with
  | null => cases hmem
  | bool _ => cases hmem
  | number _ => cases hmem
  | string _ => cases hmem
  | array inside =>
    obtain ⟨item, hitem, rfl⟩ := List.mem_map.mp hmem
    have hat := List.mem_zipIdx_iff_getElem?.mp hitem
    exact ⟨inside _ (List.mem_of_getElem? hat), .position item.2, rfl, .position hat (.here _)⟩
  | object distinct inside =>
    have hmember := (enumerationOrder_perm _).mem_iff.mp hmem
    exact ⟨inside entry hmember, .member entry.1, rfl,
      .member (InsertionMap.get?_of_mem distinct hmember) (.here _)⟩

theorem Leads.trans {document middle value : JsonDocument} {path rest : List PathStep}
    (h : Leads document path middle) (hrest : Leads middle rest value) :
    Leads document (path ++ rest) value := by
  induction h with
  | here _ => exact hrest
  | member own _ ih => exact .member own (ih hrest)
  | position there _ ih => exact .position there (ih hrest)

theorem PendingStack.leads {root : JsonDocument} (hroot : DistinctNames root)
    {pending : List PendingValue} (h : PendingStack root pending) :
    ∀ entry ∈ pending, DistinctNames entry.value ∧
      ∃ path, encodePath path = entry.pointer ∧ Leads root path entry.value := by
  induction h with
  | start =>
    intro entry hmem
    rw [List.mem_singleton.mp hmem]
    exact ⟨hroot, [], rfl, .here root⟩
  | @next top pending _ _ ih =>
    intro entry hmem
    rcases List.mem_append.mp hmem with hmem | hmem
    · obtain ⟨child, hchild, rfl⟩ := List.mem_map.mp (List.mem_reverse.mp hmem)
      obtain ⟨htop, path, hpath, hleads⟩ := ih top (by simp)
      obtain ⟨hdistinct, step, hstep, hbelow⟩ := objectEntries_lead htop hchild
      refine ⟨hdistinct, path ++ [step], ?_, hleads.trans hbelow⟩
      rw [encodePath, List.flatMap_append, ← encodePath, hpath, List.flatMap_singleton, hstep,
        EscapeScheme.escape_eq_flatMap]
    · exact ih entry (by simp [hmem])

theorem findFrom_some {root : JsonDocument} {fuel : Nat} {pending : List PendingValue}
    (h : PendingStack root pending) {pointer : JsString} (hfound : findFrom fuel pending = some pointer) :
    ∃ stack, PendingStack root stack ∧ ∃ entry ∈ stack,
      entry.pointer = pointer ∧ isNonFiniteNumber entry.value = true := by
  induction fuel generalizing pending with
  | zero => cases hfound
  | succ fuel ih =>
    cases pending with
    | nil => cases hfound
    | cons next pending =>
      rw [findFrom] at hfound
      split at hfound
      · rename_i hnonFinite
        exact ⟨_, h, next, by simp, Option.some.inj hfound, hnonFinite⟩
      · rename_i hfinite
        exact ih (h.next (Bool.eq_false_of_not_eq_true hfinite)) hfound

theorem itemsCount_eq (items : List JsonDocument) : itemsCount items = (items.map valueCount).sum := by
  induction items with
  | nil => rfl
  | cons item rest ih => rw [itemsCount, ih, List.map_cons, List.sum_cons]

theorem membersCount_eq :
    membersCount members = (members.map fun member => valueCount member.2).sum := by
  induction members with
  | nil => rfl
  | cons member rest ih =>
    obtain ⟨name, value⟩ := member
    rw [membersCount, ih, List.map_cons, List.sum_cons]

theorem itemsNonFinite_eq (items : List JsonDocument) :
    itemsNonFinite items = items.any hasNonFinite := by
  induction items with
  | nil => rfl
  | cons item rest ih => rw [itemsNonFinite, ih, List.any_cons]

theorem membersNonFinite_eq :
    membersNonFinite members = members.any fun member => hasNonFinite member.2 := by
  induction members with
  | nil => rfl
  | cons member rest ih =>
    obtain ⟨name, value⟩ := member
    rw [membersNonFinite, ih, List.any_cons]

theorem valueCount_eq (document : JsonDocument) :
    valueCount document =
      ((objectEntries document).map fun entry => valueCount entry.2).sum + 1 := by
  cases document with
  | array items =>
    rw [valueCount, itemsCount_eq, objectEntries, List.map_map]
    congr 2
    rw [show ((fun entry : JsString × JsonDocument => valueCount entry.2) ∘
      fun item : JsonDocument × Nat => (indexText item.2, item.1)) = valueCount ∘ Prod.fst from rfl,
      ← List.map_map, List.zipIdx_map_fst]
  | object members =>
    rw [valueCount, membersCount_eq, objectEntries,
      ((enumerationOrder_perm members).map _).sum_nat]
  | null => rfl
  | bool _ => rfl
  | number _ => rfl
  | string _ => rfl

theorem hasNonFinite_eq (document : JsonDocument) :
    hasNonFinite document = (isNonFiniteNumber document ||
      (objectEntries document).any fun entry => hasNonFinite entry.2) := by
  cases document with
  | array items =>
    rw [hasNonFinite, itemsNonFinite_eq, objectEntries, List.any_map]
    rw [show ((fun entry : JsString × JsonDocument => hasNonFinite entry.2) ∘
      fun item : JsonDocument × Nat => (indexText item.2, item.1)) = hasNonFinite ∘ Prod.fst from rfl,
      ← List.any_map, List.zipIdx_map_fst]
    rfl
  | object members =>
    rw [hasNonFinite, membersNonFinite_eq, objectEntries,
      List.Perm.any_eq (enumerationOrder_perm members)]
    rfl
  | null => rfl
  | bool _ => rfl
  | number value => simp [hasNonFinite, isNonFiniteNumber, objectEntries]
  | string _ => rfl

/-- With enough fuel the loop finds a number that is not finite if there is one. -/
theorem findFrom_isSome {fuel : Nat} {pending : List PendingValue}
    (hfuel : (pending.map fun entry => valueCount entry.value).sum ≤ fuel) :
    (findFrom fuel pending).isSome = pending.any fun entry => hasNonFinite entry.value := by
  induction fuel generalizing pending with
  | zero =>
    cases pending with
    | nil => rfl
    | cons next pending =>
      rw [List.map_cons, List.sum_cons, valueCount_eq] at hfuel
      omega
  | succ fuel ih =>
    cases pending with
    | nil => rfl
    | cons next pending =>
      rw [List.any_cons, hasNonFinite_eq, findFrom]
      split
      · rename_i hnonFinite
        rw [hnonFinite]
        rfl
      · rename_i hfinite
        rw [Bool.eq_false_of_not_eq_true hfinite, Bool.false_or, ih]
        · rw [pushChildren, List.any_append, List.any_reverse, List.any_map]
          rfl
        · rw [List.map_cons, List.sum_cons, valueCount_eq] at hfuel
          rw [pushChildren, List.map_append, List.sum_append, List.map_reverse,
            List.sum_reverse, List.map_map]
          simp only [Function.comp_def] at hfuel ⊢
          omega

/-- `findNonFiniteNumber` finds a number exactly when there is one. -/
theorem findNonFiniteNumber_isSome (root : JsonDocument) :
    (findNonFiniteNumber root).isSome = hasNonFinite root := by
  rw [findNonFiniteNumber, findFrom_isSome (by simp)]
  simp

/-! ## The whole law -/

/-- Reading a pointer is the inverse of encoding a path, the path is unique, and the pointers the
walk for non-finite numbers builds resolve to the values they are built for. -/
theorem json_pointer_resolves_encoded_path (document : ParsedDocument) :
    (∀ (pointer : JsString) (value : JsonDocument),
      resolveJsonPointer document.1 pointer = some value ↔
        ∃ path, encodePath path = pointer ∧ Leads document.1 path value) ∧
    (∀ (first second : List PathStep) (value other : JsonDocument),
      encodePath first = encodePath second → Leads document.1 first value →
        Leads document.1 second other → first = second) ∧
    (∀ pending, PendingStack document.1 pending →
      ∀ entry ∈ pending, resolveJsonPointer document.1 entry.pointer = some entry.value) ∧
    (∀ pointer, findNonFiniteNumber document.1 = some pointer →
      ∃ number : Double, number.isFinite = false ∧
        resolveJsonPointer document.1 pointer = some (.number number)) ∧
    ((findNonFiniteNumber document.1).isSome = hasNonFinite document.1) := by
  have hpending : ∀ pending, PendingStack document.1 pending →
      ∀ entry ∈ pending, resolveJsonPointer document.1 entry.pointer = some entry.value := by
    intro pending hstack entry hmem
    exact resolveJsonPointer_iff.mpr (hstack.leads document.2 entry hmem).2
  refine ⟨fun pointer value => resolveJsonPointer_iff, ?_, hpending, ?_,
    findNonFiniteNumber_isSome document.1⟩
  · intro first second value other htext hfirst hsecond
    exact hfirst.unique hsecond (encodePath_tokens htext)
  · intro pointer hfound
    obtain ⟨stack, hstack, entry, hmem, rfl, hnonFinite⟩ := findFrom_some .start hfound
    have hresolves := hpending stack hstack entry hmem
    cases hvalue : entry.value with
    | number number =>
      rw [hvalue] at hnonFinite hresolves
      exact ⟨number, by simpa [isNonFiniteNumber] using hnonFinite, hresolves⟩
    | null => simp [hvalue, isNonFiniteNumber] at hnonFinite
    | bool _ => simp [hvalue, isNonFiniteNumber] at hnonFinite
    | string _ => simp [hvalue, isNonFiniteNumber] at hnonFinite
    | array _ => simp [hvalue, isNonFiniteNumber] at hnonFinite
    | object _ => simp [hvalue, isNonFiniteNumber] at hnonFinite

end RefundStudy.Package
