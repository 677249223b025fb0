/-
  Structural equality of JSON values, and the walk that decides it (`sameJsonValue`
  of `record-contract/json-value.ts`).
-/
import RefundStudy.Record.StructuralEquality

set_option autoImplicit false

namespace RefundStudy.Record

open Foundation Store

/-! ## Structural equality -/

mutual

def SameValue : JsonDocument → JsonDocument → Prop
  | .null, .null => True
  | .bool first, .bool second => first = second
  | .number first, .number second => first.positiveZero = second.positiveZero
  | .string first, .string second => first = second
  | .array items, .array others => SameItems items others
  | .object members, .object others =>
    (∀ name ∈ others.map Prod.fst, name ∈ members.map Prod.fst) ∧ SameMembers members others
  | _, _ => False

def SameItems : List JsonDocument → List JsonDocument → Prop
  | [], [] => True
  | item :: items, other :: others => SameValue item other ∧ SameItems items others
  | _, _ => False

def SameMembers : List (JsString × JsonDocument) → List (JsString × JsonDocument) → Prop
  | [], _ => True
  | (name, value) :: members, others =>
    (∃ other, InsertionMap.get? others name = some other ∧ SameValue value other) ∧
      SameMembers members others

end

theorem sameItems_iff (items : List JsonDocument) : ∀ others,
    SameItems items others ↔ List.Forall₂ SameValue items others := by
  induction items with
  | nil =>
    intro others
    cases others <;> simp [SameItems]
  | cons item items ih =>
    intro others
    cases others with
    | nil => simp [SameItems]
    | cons other others => rw [SameItems, ih, List.forall₂_cons]

theorem sameMembers_iff (members others : List (JsString × JsonDocument)) :
    SameMembers members others ↔ ∀ member ∈ members,
      ∃ other, InsertionMap.get? others member.1 = some other ∧ SameValue member.2 other := by
  induction members with
  | nil => simp [SameMembers]
  | cons member members ih => rw [SameMembers, ih, List.forall_mem_cons]

/-! ## What the canonical text shows -/

theorem unitsLe_antisymm {first second : JsString} (h : unitsLe first second = true)
    (hback : unitsLe second first = true) : first = second := by
  unfold unitsLe at h hback
  rw [decide_eq_true_eq] at h hback
  have hmap := List.le_antisymm h hback
  exact List.map_injective_iff.mpr (fun _ _ => UInt16.toNat_inj.mp) hmap

theorem structuralMembers_eq_iff {members others : InsertionMap JsString JsonDocument}
    (hmembers : (members.map Prod.fst).Nodup) (hothers : (others.map Prod.fst).Nodup) :
    structuralMembers members = structuralMembers others ↔
      ∀ name, (members.get? name).map structuralForm = (others.get? name).map structuralForm := by
  constructor
  · intro h name
    rw [← get?_structuralMembers hmembers, h, get?_structuralMembers hothers]
  · intro h
    have hsame : ∀ name, InsertionMap.get? (structuralMembers members) name =
        InsertionMap.get? (structuralMembers others) name := by
      intro name
      rw [get?_structuralMembers hmembers, h, get?_structuralMembers hothers]
    have hnodup : ((structuralMembers members).map Prod.fst).Nodup :=
      (structuralMembers_names members).nodup_iff.mpr hmembers
    have hnodup' : ((structuralMembers others).map Prod.fst).Nodup :=
      (structuralMembers_names others).nodup_iff.mpr hothers
    have hperm : (structuralMembers members).Perm (structuralMembers others) := by
      rw [List.perm_ext_iff_of_nodup hnodup.of_map hnodup'.of_map]
      intro member
      constructor
      · intro hmem
        have hget := InsertionMap.get?_of_mem hnodup hmem
        rw [hsame] at hget
        exact InsertionMap.mem_of_get? hget
      · intro hmem
        have hget := InsertionMap.get?_of_mem hnodup' hmem
        rw [← hsame] at hget
        exact InsertionMap.mem_of_get? hget
    have hsorted : ∀ list : List (JsString × JsonDocument),
        (structuralMembers list).Pairwise MemberLe := by
      intro list
      rw [structuralMembers_eq]
      exact List.pairwise_insertionSort MemberLe _
    refine hperm.eq_of_pairwise ?_ (hsorted members) (hsorted others)
    intro first second hfirst hsecond hle hge
    have hname : first.1 = second.1 := unitsLe_antisymm hle hge
    have hget := InsertionMap.get?_of_mem hnodup hfirst
    rw [hname, InsertionMap.get?_of_mem hnodup (hperm.mem_iff.mpr hsecond)] at hget
    exact Prod.ext hname (Option.some.inj hget).symm

theorem forall₂_iff_map_eq {items others : List JsonDocument}
    (h : ∀ item ∈ items, ∀ other ∈ others,
      (SameValue item other ↔ structuralForm item = structuralForm other)) :
    List.Forall₂ SameValue items others ↔
      items.map structuralForm = others.map structuralForm := by
  induction items generalizing others with
  | nil => cases others <;> simp
  | cons item items ih =>
    cases others with
    | nil => simp
    | cons other others =>
      rw [List.forall₂_cons, List.map_cons, List.map_cons, List.cons.injEq,
        h item List.mem_cons_self other List.mem_cons_self]
      refine and_congr_right fun _ => ih ?_
      intro x hx y hy
      exact h x (List.mem_cons_of_mem _ hx) y (List.mem_cons_of_mem _ hy)

theorem sameValue_iff {first : JsonDocument} (hfirst : Representable first) :
    ∀ {second : JsonDocument}, Representable second →
      (SameValue first second ↔ structuralForm first = structuralForm second) := by
  induction hfirst with
  | null =>
    intro second _
    cases second <;> simp [SameValue, structuralForm, canonicalDocument, zeroed]
  | bool flag =>
    intro second _
    cases second <;> simp [SameValue, structuralForm, canonicalDocument, zeroed]
  | @number number _ =>
    intro second _
    cases second <;> simp [SameValue, structuralForm, canonicalDocument, zeroed]
  | string chars =>
    intro second _
    cases second <;> simp [SameValue, structuralForm, canonicalDocument, zeroed]
  | @array items _ ih =>
    intro second hsecond
    cases hsecond with
    | @array others hothers =>
      rw [SameValue, sameItems_iff, structuralForm_array, structuralForm_array,
        JsonDocument.array.injEq]
      exact forall₂_iff_map_eq fun item hitem other hother => ih item hitem (hothers other hother)
    | _ => simp [SameValue, structuralForm, canonicalDocument, zeroed]
  | @object members hdistinct _ ih =>
    intro second hsecond
    cases hsecond with
    | @object others hothers hvalues =>
      rw [SameValue, sameMembers_iff, structuralForm_object, structuralForm_object,
        JsonDocument.object.injEq, structuralMembers_eq_iff hdistinct hothers]
      constructor
      · rintro ⟨hnames, hmembers⟩ name
        cases hget : InsertionMap.get? members name with
        | some value =>
          have hmem := InsertionMap.mem_of_get? hget
          obtain ⟨other, hother, hsame⟩ := hmembers _ hmem
          have hform := (ih _ hmem (hvalues _ (InsertionMap.mem_of_get? hother))).mp hsame
          rw [hother, Option.map_some, Option.map_some, hform]
        | none =>
          have habsent : name ∉ others.map Prod.fst := by
            intro hname
            obtain ⟨member, hmem, rfl⟩ := List.mem_map.mp (hnames name hname)
            rw [InsertionMap.get?_of_mem hdistinct hmem] at hget
            cases hget
          rw [InsertionMap.get?_of_not_mem habsent]
      · intro h
        constructor
        · intro name hname
          obtain ⟨member, hmem, rfl⟩ := List.mem_map.mp hname
          have hget := h member.1
          rw [InsertionMap.get?_of_mem hothers hmem, Option.map_some,
            Option.map_eq_some_iff] at hget
          obtain ⟨value, hvalue, -⟩ := hget
          exact List.mem_map.mpr ⟨_, InsertionMap.mem_of_get? hvalue, rfl⟩
        · intro member hmem
          have hget := h member.1
          rw [InsertionMap.get?_of_mem hdistinct hmem, Option.map_some, eq_comm,
            Option.map_eq_some_iff] at hget
          obtain ⟨other, hother, hform⟩ := hget
          have hrepresentable := hvalues _ (InsertionMap.mem_of_get? hother)
          exact ⟨other, hother, (ih member hmem hrepresentable).mpr hform.symm⟩
    | _ => simp [SameValue, structuralForm, canonicalDocument, zeroed]

/-! ## The walk -/

/-- `left === right`: two objects are the same only where they are one object, and then the walk
would find them equal. -/
def strictlyEqual : JsonDocument → JsonDocument → Bool
  | .null, .null => true
  | .bool left, .bool right => left == right
  | .number .nan, _ => false
  | .number left, .number right => decide (left.positiveZero = right.positiveZero)
  | .string left, .string right => left == right
  | _, _ => false

/-- One round: `none` where the walk returns `false`, and otherwise the pairs it pushes. -/
def comparePair (left right : JsonDocument) : Option (List (JsonDocument × JsonDocument)) :=
  if strictlyEqual left right then some []
  else
    match left, right with
    | .array items, .array others =>
      if items.length = others.length then some (items.zip others) else none
    | .object members, .object others =>
      if members.length = others.length ∧
          members.all (fun member => (others.map Prod.fst).contains member.1) then
        some (members.map fun member =>
          (member.2, (InsertionMap.get? others member.1).getD .null))
      else none
    | _, _ => none

/-- The loop, the pair pushed last in front; `none` where `bound` rounds do not end it. -/
def compareLoop : Nat → List (JsonDocument × JsonDocument) → Option Bool
  | _, [] => some true
  | 0, _ :: _ => none
  | bound + 1, (left, right) :: pending =>
    match comparePair left right with
    | none => some false
    | some pairs => compareLoop bound (pairs.reverse ++ pending)

mutual

/-- The number of values inside a value, itself included. -/
def documentSize : JsonDocument → Nat
  | .array items => 1 + itemsSize items
  | .object members => 1 + membersSize members
  | _ => 1

def itemsSize : List JsonDocument → Nat
  | [] => 0
  | item :: rest => documentSize item + itemsSize rest

def membersSize : List (JsString × JsonDocument) → Nat
  | [] => 0
  | (_, value) :: rest => documentSize value + membersSize rest

end

/-- Every value inside the first one is compared once. -/
def sameJsonValue (first second : JsonDocument) : Option Bool :=
  compareLoop (documentSize first) [(first, second)]

section Walk

/-- The values the walk still has to compare. -/
def pendingSize (pending : List (JsonDocument × JsonDocument)) : Nat :=
  (pending.map fun pair => documentSize pair.1).sum

/-- A value as `JSON.parse` gives it: a number too large for a double is infinite, none is `NaN`. -/
def Parsed (value : JsonDocument) : Prop := Built (· ≠ .nan) value

theorem Representable.parsed {value : JsonDocument} (h : Representable value) : Parsed value := by
  induction h with
  | null => exact .null
  | bool flag => exact .bool flag
  | @number number hfinite =>
    refine .number ?_
    rintro rfl
    exact Bool.false_ne_true hfinite
  | string chars => exact .string chars
  | array _ ih => exact .array ih
  | object hdistinct _ ih => exact .object hdistinct ih

/-- Both values of every pair are parsed values. -/
def AllParsed (pending : List (JsonDocument × JsonDocument)) : Prop :=
  ∀ pair ∈ pending, Parsed pair.1 ∧ Parsed pair.2

/-- A round decides the pair, or replaces it by smaller pairs that decide it. -/
def RoundDecides (left right : JsonDocument) : Prop :=
  (comparePair left right = none ∧ ¬ SameValue left right) ∨
    ∃ pairs, comparePair left right = some pairs ∧
      (SameValue left right ↔ ∀ pair ∈ pairs, SameValue pair.1 pair.2) ∧
      pendingSize pairs < documentSize left ∧ AllParsed pairs

theorem roundDecides_equal {left right : JsonDocument} (hequal : strictlyEqual left right = true)
    (hsame : SameValue left right) (hsize : 0 < documentSize left) : RoundDecides left right := by
  refine .inr ⟨[], ?_, ?_, hsize, ?_⟩
  · unfold comparePair
    rw [if_pos hequal]
  · exact iff_of_true hsame fun pair hmem => absurd hmem List.not_mem_nil
  · exact fun pair hmem => absurd hmem List.not_mem_nil

theorem documentSize_pos (value : JsonDocument) : 0 < documentSize value := by
  cases value with
  | array items =>
    rw [documentSize]
    omega
  | object members =>
    rw [documentSize]
    omega
  | _ => exact Nat.one_pos

theorem itemsSize_eq_sum (items : List JsonDocument) :
    itemsSize items = (items.map documentSize).sum := by
  induction items with
  | nil => rfl
  | cons item rest ih => rw [itemsSize, ih, List.map_cons, List.sum_cons]

theorem membersSize_eq_sum (members : List (JsString × JsonDocument)) :
    membersSize members = (members.map fun member => documentSize member.2).sum := by
  induction members with
  | nil => rfl
  | cons member rest ih => rw [membersSize, ih, List.map_cons, List.sum_cons]

theorem roundDecides_array {items others : List JsonDocument}
    (hitems : ∀ item ∈ items, Parsed item) (hothers : ∀ item ∈ others, Parsed item) :
    RoundDecides (.array items) (.array others) := by
  have hpair : comparePair (.array items) (.array others) =
      if items.length = others.length then some (items.zip others) else none := rfl
  by_cases hlength : items.length = others.length
  · refine .inr ⟨items.zip others, ?_, ?_, ?_, ?_⟩
    · rw [hpair, if_pos hlength]
    · rw [SameValue, sameItems_iff, List.forall₂_iff_zip]
      constructor
      · intro h pair hmem
        exact h.2 hmem
      · intro h
        exact ⟨hlength, fun hmem => h _ hmem⟩
    · have hfirst : (items.zip others).map (fun pair => documentSize pair.1) =
          items.map documentSize := by
        have hzip : (items.zip others).map Prod.fst = items := List.map_fst_zip (le_of_eq hlength)
        have hmap := congrArg (List.map documentSize) hzip
        rwa [List.map_map] at hmap
      rw [pendingSize, hfirst, ← itemsSize_eq_sum, documentSize]
      omega
    · intro pair hmem
      exact ⟨hitems _ (List.of_mem_zip hmem).1, hothers _ (List.of_mem_zip hmem).2⟩
  · refine .inl ⟨?_, ?_⟩
    · rw [hpair, if_neg hlength]
    · rw [SameValue, sameItems_iff]
      exact fun h => hlength h.length_eq

theorem roundDecides_object {members others : List (JsString × JsonDocument)}
    (hdistinct : (members.map Prod.fst).Nodup) (hdistinct' : (others.map Prod.fst).Nodup)
    (hmembers : ∀ member ∈ members, Parsed member.2)
    (hothers : ∀ member ∈ others, Parsed member.2) :
    RoundDecides (.object members) (.object others) := by
  have hpair : comparePair (.object members) (.object others) =
      if members.length = others.length ∧
          members.all (fun member => (others.map Prod.fst).contains member.1) then
        some (members.map fun member => (member.2, (InsertionMap.get? others member.1).getD .null))
      else none := rfl
  have hown : members.all (fun member => (others.map Prod.fst).contains member.1) = true ↔
      ∀ member ∈ members, ∃ other, InsertionMap.get? others member.1 = some other := by
    rw [List.all_eq_true]
    refine forall₂_congr fun member _ => ?_
    rw [List.contains_iff_mem]
    constructor
    · intro hname
      obtain ⟨other, hmem, hsame⟩ := List.mem_map.mp hname
      exact ⟨other.2, hsame ▸ InsertionMap.get?_of_mem hdistinct' hmem⟩
    · rintro ⟨other, hget⟩
      exact List.mem_map.mpr ⟨_, InsertionMap.mem_of_get? hget, rfl⟩
  rw [RoundDecides, hpair, SameValue, sameMembers_iff]
  by_cases hkeys : members.length = others.length ∧
      members.all (fun member => (others.map Prod.fst).contains member.1)
  · rw [if_pos hkeys]
    have hget := hown.mp hkeys.2
    refine .inr ⟨_, rfl, ?_, ?_, ?_⟩
    · constructor
      · rintro ⟨-, hsame⟩ pair hmem
        obtain ⟨member, hmember, rfl⟩ := List.mem_map.mp hmem
        obtain ⟨other, hother, hvalue⟩ := hsame member hmember
        rw [hother]
        exact hvalue
      · intro hpairs
        refine ⟨?_, fun member hmember => ?_⟩
        · -- as many names, all of them there: the names are the same
          have hsubset : members.map Prod.fst ⊆ others.map Prod.fst := by
            intro name hname
            obtain ⟨member, hmember, rfl⟩ := List.mem_map.mp hname
            obtain ⟨other, hother⟩ := hget member hmember
            exact List.mem_map.mpr ⟨_, InsertionMap.mem_of_get? hother, rfl⟩
          have hperm := (List.subperm_of_subset hdistinct hsubset).perm_of_length_le (by
            rw [List.length_map, List.length_map, hkeys.1])
          exact fun name hname => hperm.mem_iff.mpr hname
        · obtain ⟨other, hother⟩ := hget member hmember
          have hvalue := hpairs _ (List.mem_map.mpr ⟨member, hmember, rfl⟩)
          rw [hother] at hvalue
          exact ⟨other, hother, hvalue⟩
    · rw [pendingSize, List.map_map, documentSize, membersSize_eq_sum]
      exact Nat.lt_add_of_pos_left Nat.one_pos
    · intro pair hmem
      obtain ⟨member, hmember, rfl⟩ := List.mem_map.mp hmem
      obtain ⟨other, hother⟩ := hget member hmember
      rw [hother]
      exact ⟨hmembers member hmember, hothers _ (InsertionMap.mem_of_get? hother)⟩
  · rw [if_neg hkeys]
    refine .inl ⟨rfl, fun hsame => hkeys ?_⟩
    obtain ⟨hnames, hvalues⟩ := hsame
    have hget : ∀ member ∈ members, ∃ other, InsertionMap.get? others member.1 = some other :=
      fun member hmember => (hvalues member hmember).imp fun _ h => h.1
    refine ⟨?_, hown.mpr hget⟩
    have hsubset : members.map Prod.fst ⊆ others.map Prod.fst := by
      intro name hname
      obtain ⟨member, hmember, rfl⟩ := List.mem_map.mp hname
      obtain ⟨other, hother⟩ := hget member hmember
      exact List.mem_map.mpr ⟨_, InsertionMap.mem_of_get? hother, rfl⟩
    have hle := (List.subperm_of_subset hdistinct hsubset).length_le
    have hge := (List.subperm_of_subset hdistinct' fun name hname => hnames name hname).length_le
    rw [List.length_map, List.length_map] at hle hge
    exact Nat.le_antisymm hle hge

theorem roundDecides {left right : JsonDocument} (hleft : Parsed left)
    (hright : Parsed right) : RoundDecides left right := by
  cases hleft with
  | null =>
    cases hright with
    | null => exact roundDecides_equal rfl trivial Nat.one_pos
    | _ => exact .inl ⟨rfl, fun h => h⟩
  | bool flag =>
    cases hright with
    | bool other =>
      by_cases hequal : flag = other
      · exact roundDecides_equal (beq_iff_eq.mpr hequal) hequal Nat.one_pos
      · refine .inl ⟨?_, hequal⟩
        simp [comparePair, strictlyEqual, hequal]
    | _ => exact .inl ⟨rfl, fun h => h⟩
  | string chars =>
    cases hright with
    | string other =>
      by_cases hequal : chars = other
      · exact roundDecides_equal (beq_iff_eq.mpr hequal) hequal Nat.one_pos
      · refine .inl ⟨?_, hequal⟩
        simp [comparePair, strictlyEqual, hequal]
    | _ => exact .inl ⟨rfl, fun h => h⟩
  | @number number hnumber =>
    cases hright with
    | @number other _ =>
      have hstrict : strictlyEqual (.number number) (.number other) =
          decide (number.positiveZero = other.positiveZero) := by
        cases number with
        | nan => exact absurd rfl hnumber
        | _ => rfl
      by_cases hequal : number.positiveZero = other.positiveZero
      · exact roundDecides_equal (hstrict.trans (decide_eq_true hequal)) hequal Nat.one_pos
      · refine .inl ⟨?_, hequal⟩
        simp [comparePair, hstrict, hequal]
    | _ => exact .inl ⟨by cases number <;> rfl, fun h => h⟩
  | array hitems =>
    cases hright with
    | array hothers => exact roundDecides_array hitems hothers
    | _ => exact .inl ⟨rfl, fun h => h⟩
  | object hdistinct hmembers =>
    cases hright with
    | object hdistinct' hothers => exact roundDecides_object hdistinct hdistinct' hmembers hothers
    | _ => exact .inl ⟨rfl, fun h => h⟩

/-- The walk ends within its bound, and says whether all its pairs are equal. -/
theorem compareLoop_spec (bound : Nat) : ∀ pending : List (JsonDocument × JsonDocument),
    AllParsed pending → pendingSize pending ≤ bound →
    ∃ result, compareLoop bound pending = some result ∧
      (result = true ↔ ∀ pair ∈ pending, SameValue pair.1 pair.2) := by
  induction bound with
  | zero =>
    intro pending hpending hbound
    cases pending with
    | nil => exact ⟨true, rfl, iff_of_true rfl fun pair hmem => absurd hmem List.not_mem_nil⟩
    | cons pair pending =>
      have hpositive := documentSize_pos pair.1
      simp only [pendingSize, List.map_cons, List.sum_cons] at hbound
      omega
  | succ bound ih =>
    intro pending hpending hbound
    cases pending with
    | nil => exact ⟨true, rfl, iff_of_true rfl fun pair hmem => absurd hmem List.not_mem_nil⟩
    | cons pair pending =>
      obtain ⟨left, right⟩ := pair
      obtain ⟨hleft, hright⟩ := hpending _ List.mem_cons_self
      rw [compareLoop, List.forall_mem_cons]
      rcases roundDecides hleft hright with ⟨hnone, hdiffer⟩ | ⟨pairs, hpairs, hiff, hsize, hall⟩
      · rw [hnone]
        exact ⟨false, rfl, iff_of_false Bool.false_ne_true fun h => hdiffer h.1⟩
      · rw [hpairs]
        have hnext : AllParsed (pairs.reverse ++ pending) := by
          intro pair hmem
          rcases List.mem_append.mp hmem with hmem | hmem
          · exact hall pair (List.mem_reverse.mp hmem)
          · exact hpending pair (List.mem_cons_of_mem _ hmem)
        have hbound' : pendingSize (pairs.reverse ++ pending) ≤ bound := by
          simp only [pendingSize, List.map_append, List.map_reverse, List.sum_append,
            List.sum_reverse, List.map_cons, List.sum_cons] at hsize hbound ⊢
          omega
        obtain ⟨result, hresult, hsame⟩ := ih _ hnext hbound'
        refine ⟨result, hresult, hsame.trans ?_⟩
        rw [hiff]
        simp only [List.mem_append, List.mem_reverse, or_imp, forall_and]

theorem sameJsonValue_eq {first second : JsonDocument} (hfirst : Parsed first)
    (hsecond : Parsed second) :
    ∃ result, sameJsonValue first second = some result ∧
      (result = true ↔ SameValue first second) := by
  obtain ⟨result, hresult, hsame⟩ := compareLoop_spec (documentSize first) [(first, second)]
    (by
      intro pair hmem
      rw [List.mem_singleton.mp hmem]
      exact ⟨hfirst, hsecond⟩)
    (by simp [pendingSize])
  refine ⟨result, hresult, hsame.trans ?_⟩
  rw [List.forall_mem_singleton]

end Walk

end RefundStudy.Record
