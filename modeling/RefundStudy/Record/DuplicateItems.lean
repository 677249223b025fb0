/-
  Repeated items of an array (`findDuplicateItems` of `record-contract/json-value.ts`).
-/
import Mathlib.Data.List.Induction
import RefundStudy.Record.JsonRoundTrip

set_option autoImplicit false

namespace RefundStudy.Record

open Foundation Store

structure DuplicateItems where
  earlier : Nat
  later : Nat

/-! ## The two searches -/

def canonicalJsonIfRepresentable (text : NumberText) (value : JsonDocument) : Option (List Char) :=
  match canonicalPieces text value with
  | some (.ok written) => some written
  | _ => none

/-- The state of the keyed pass: `lastIndexOf` and `found`. -/
abbrev KeyedPass : Type := InsertionMap (List Char) Nat × Option DuplicateItems

def keyedRound (pass : KeyedPass) (entry : List Char × Nat) : KeyedPass :=
  (pass.1.set entry.1 entry.2,
    match pass.1.get? entry.1 with
    | none => pass.2
    | some earlier => some ⟨earlier, entry.2⟩)

def keyedPass (keys : List (List Char)) : KeyedPass := keys.zipIdx.foldl keyedRound ([], none)

def findLastIndex (holds : Nat → Bool) : Nat → Option Nat
  | 0 => none
  | bound + 1 => if holds bound then some bound else findLastIndex holds bound

/-- The loop of `findDuplicatePairwise` over the places before a bound, the last one first; nothing
stands before the first one. -/
def scanPairs (same : Nat → Nat → Bool) : Nat → Option DuplicateItems
  | 0 => none
  | later + 1 =>
    match findLastIndex (fun index => same index later) later with
    | some earlier => some ⟨earlier, later⟩
    | none => scanPairs same later

/-- `sameJsonValue(items[first], items[second])`. -/
def sameItemsAt (items : List JsonDocument) (first second : Nat) : Bool :=
  match items[first]?, items[second]? with
  | some left, some right => sameJsonValue left right == some true
  | _, _ => false

def findDuplicatePairwise (items : List JsonDocument) : Option DuplicateItems :=
  scanPairs (sameItemsAt items) items.length

def findDuplicateItems (text : NumberText) (items : List JsonDocument) : Option DuplicateItems :=
  match items.mapM (canonicalJsonIfRepresentable text) with
  | none => findDuplicatePairwise items
  | some keys => (keyedPass keys).2

/-! ## The keyed pass -/

theorem findLastIndex_congr {first second : Nat → Bool} {bound : Nat}
    (h : ∀ index < bound, first index = second index) :
    findLastIndex first bound = findLastIndex second bound := by
  induction bound with
  | zero => rfl
  | succ bound ih =>
    rw [findLastIndex, findLastIndex, h bound (Nat.lt_succ_self _),
      ih fun index hlt => h index (Nat.lt_succ_of_lt hlt)]

theorem scanPairs_congr {first second : Nat → Nat → Bool} {bound : Nat}
    (h : ∀ earlier later, earlier < later → later < bound →
      first earlier later = second earlier later) :
    scanPairs first bound = scanPairs second bound := by
  induction bound with
  | zero => rfl
  | succ bound ih =>
    rw [scanPairs, scanPairs, findLastIndex_congr fun index hlt => h index bound hlt (by omega),
      ih fun earlier later hlt hbound => h earlier later hlt (by omega)]

theorem keyedPass_eq (keys : List (List Char)) :
    (∀ key, (keyedPass keys).1.get? key =
      findLastIndex (fun index => keys[index]? == some key) keys.length) ∧
    (keyedPass keys).2 =
      scanPairs (fun earlier later => keys[earlier]? == keys[later]?) keys.length := by
  induction keys using List.reverseRecOn with
  | nil => exact ⟨fun key => rfl, rfl⟩
  | append_singleton keys key ih =>
    obtain ⟨hpositions, hfound⟩ := ih
    have hpass : keyedPass (keys ++ [key]) = keyedRound (keyedPass keys) (key, keys.length) := by
      simp [keyedPass, List.zipIdx_append]
    have hold : ∀ index < keys.length, (keys ++ [key])[index]? = keys[index]? :=
      fun index hlt => List.getElem?_append_left hlt
    have hkey : (keys ++ [key])[keys.length]? = some key := by simp
    have hlast : ∀ other, findLastIndex (fun index => (keys ++ [key])[index]? == some other)
        keys.length = (keyedPass keys).1.get? other := by
      intro other
      rw [hpositions]
      exact findLastIndex_congr fun index hlt => by rw [hold index hlt]
    rw [hpass, List.length_append, List.length_singleton]
    constructor
    · intro other
      rw [keyedRound, findLastIndex, hkey, hlast]
      by_cases hsame : key = other
      · subst hsame
        simp
      · rw [InsertionMap.get?_set_of_ne _ (Ne.symm hsame)]
        simp [hsame]
    · have hbefore : scanPairs (fun earlier later => (keys ++ [key])[earlier]? ==
          (keys ++ [key])[later]?) keys.length = (keyedPass keys).2 := by
        rw [hfound]
        exact scanPairs_congr fun earlier later hlt hbound => by
          rw [hold earlier (by omega), hold later hbound]
      rw [keyedRound, scanPairs, hkey, hlast, hbefore]
      cases (keyedPass keys).1.get? key <;> rfl

/-! ## What the scan finds -/

/-- The items at two places are structurally equal. -/
def SameAt (items : List JsonDocument) (first second : Nat) : Prop :=
  ∃ left right, items[first]? = some left ∧ items[second]? = some right ∧ SameValue left right

/-- The last item that repeats an earlier one, with the nearest such item. -/
structure LastRepeat (items : List JsonDocument) (found : DuplicateItems) : Prop where
  before : found.earlier < found.later
  equal : SameAt items found.earlier found.later
  last : ∀ earlier later, earlier < later → SameAt items earlier later → later ≤ found.later
  nearest : ∀ earlier, earlier < found.later → SameAt items earlier found.later →
    earlier ≤ found.earlier

theorem findLastIndex_spec (holds : Nat → Bool) (bound : Nat) :
    (findLastIndex holds bound = none → ∀ index < bound, holds index = false) ∧
      ∀ found, findLastIndex holds bound = some found →
        found < bound ∧ holds found = true ∧ ∀ index < bound, holds index = true → index ≤ found := by
  induction bound with
  | zero => exact ⟨fun _ index hlt => absurd hlt (Nat.not_lt_zero _), nofun⟩
  | succ bound ih =>
    rw [findLastIndex]
    split_ifs with hholds
    · refine ⟨nofun, ?_⟩
      rintro found ⟨⟩
      exact ⟨Nat.lt_succ_self _, hholds, fun index hlt _ => Nat.le_of_lt_succ hlt⟩
    · refine ⟨fun hnone index hlt => ?_, fun found hfound => ?_⟩
      · rcases Nat.lt_succ_iff_lt_or_eq.mp hlt with hlt | rfl
        · exact ih.1 hnone index hlt
        · exact Bool.not_eq_true _ ▸ hholds
      · obtain ⟨hbound, hfirst, hlast⟩ := ih.2 found hfound
        refine ⟨by omega, hfirst, fun index hlt htrue => ?_⟩
        rcases Nat.lt_succ_iff_lt_or_eq.mp hlt with hlt | rfl
        · exact hlast index hlt htrue
        · exact absurd htrue hholds

theorem scanPairs_spec (same : Nat → Nat → Bool) (bound : Nat) :
    (scanPairs same bound = none →
      ∀ earlier later, earlier < later → later < bound → same earlier later = false) ∧
    ∀ found, scanPairs same bound = some found →
      found.earlier < found.later ∧ found.later < bound ∧ same found.earlier found.later = true ∧
      (∀ earlier later, earlier < later → later < bound → same earlier later = true →
        later ≤ found.later) ∧
      ∀ earlier, earlier < found.later → same earlier found.later = true →
        earlier ≤ found.earlier := by
  induction bound with
  | zero => exact ⟨fun _ earlier later _ hlt => absurd hlt (Nat.not_lt_zero _), nofun⟩
  | succ bound ih =>
    obtain ⟨hnone, hsome⟩ := findLastIndex_spec (fun index => same index bound) bound
    rw [scanPairs]
    cases hlast : findLastIndex (fun index => same index bound) bound with
    | some earlier =>
      obtain ⟨hbound, hsame, hnearest⟩ := hsome earlier hlast
      refine ⟨nofun, ?_⟩
      rintro found ⟨⟩
      exact ⟨hbound, Nat.lt_succ_self _, hsame, fun _ later _ hlt _ => Nat.le_of_lt_succ hlt,
        hnearest⟩
    | none =>
      have hskip : ∀ earlier later, earlier < later → later < bound + 1 →
          same earlier later = true → later < bound := by
        intro earlier later hlt hbound hsame
        rcases Nat.lt_succ_iff_lt_or_eq.mp hbound with hbound | rfl
        · exact hbound
        · exact absurd hsame (by rw [hnone hlast earlier hlt]; exact Bool.false_ne_true)
      refine ⟨fun h earlier later hlt hbound => ?_, fun found hfound => ?_⟩
      · by_contra hsame
        rw [Bool.not_eq_false] at hsame
        have hfalse := ih.1 h earlier later hlt (hskip earlier later hlt hbound hsame)
        exact Bool.false_ne_true (hfalse.symm.trans hsame)
      · obtain ⟨hbefore, hbound, hsame, hlast, hnearest⟩ := ih.2 found hfound
        exact ⟨hbefore, by omega, hsame, fun earlier later hlt hbound hsame =>
          hlast earlier later hlt (hskip earlier later hlt hbound hsame) hsame, hnearest⟩

/-! ## Keys and items -/

section Items

variable {text : NumberText} {items : List JsonDocument}

theorem sameItemsAt_iff (hitems : ∀ item ∈ items, Parsed item) (first second : Nat) :
    sameItemsAt items first second = true ↔ SameAt items first second := by
  unfold sameItemsAt SameAt
  cases hfirst : items[first]? with
  | none => simp
  | some left =>
    cases hsecond : items[second]? with
    | none => simp
    | some right =>
      obtain ⟨result, hresult, hsame⟩ := sameJsonValue_eq
        (hitems left (List.mem_of_getElem? hfirst)) (hitems right (List.mem_of_getElem? hsecond))
      simp [hresult, hsame]

theorem canonicalJsonIfRepresentable_eq_some {value : JsonDocument} {key : List Char}
    (hvalue : Parsed value) (h : canonicalJsonIfRepresentable text value = some key) :
    Representable value ∧ canonicalJson text value = key := by
  unfold canonicalJsonIfRepresentable at h
  split at h
  · rename_i written hwritten
    have hrepresentable := representable_of_canonicalPieces hvalue hwritten
    rw [canonicalPieces_eq hrepresentable] at hwritten
    cases hwritten
    exact ⟨hrepresentable, Option.some.inj h⟩
  · cases h

theorem forall₂_of_mapM {α β : Type} {key : α → Option β} {items : List α} {keys : List β}
    (h : items.mapM key = some keys) :
    List.Forall₂ (fun item found => key item = some found) items keys := by
  induction items generalizing keys with
  | nil =>
    obtain rfl : [] = keys := by simpa using h
    exact .nil
  | cons item rest ih =>
    simp only [List.mapM_cons, Option.bind_eq_bind, Option.bind_eq_some_iff, Option.pure_def,
      Option.some.injEq] at h
    obtain ⟨first, hfirst, others, hothers, rfl⟩ := h
    exact .cons hfirst (ih hothers)

theorem sameKeys_eq (law : text.Lawful) (hprints : PrintsJson text)
    (hitems : ∀ item ∈ items, Parsed item) {keys : List (List Char)}
    (hkeys : items.mapM (canonicalJsonIfRepresentable text) = some keys) {first second : Nat}
    (hfirst : first < items.length) (hsecond : second < items.length) :
    (keys[first]? == keys[second]?) = sameItemsAt items first second := by
  obtain ⟨hlength, hkey⟩ := List.forall₂_iff_get.mp (forall₂_of_mapM hkeys)
  have hat : ∀ index (hlt : index < items.length), Representable items[index] ∧
      keys[index]? = some (canonicalJson text items[index]) := by
    intro index hlt
    obtain ⟨hrepresentable, hsame⟩ := canonicalJsonIfRepresentable_eq_some
      (hitems _ (List.getElem_mem hlt)) (hkey index hlt (hlength ▸ hlt))
    refine ⟨hrepresentable, ?_⟩
    rw [List.getElem?_eq_getElem (hlength ▸ hlt), Option.some.injEq]
    exact hsame.symm
  obtain ⟨hleft, hleftkey⟩ := hat first hfirst
  obtain ⟨hright, hrightkey⟩ := hat second hsecond
  rw [Bool.eq_iff_iff, beq_iff_eq, sameItemsAt_iff hitems, hleftkey, hrightkey, Option.some.injEq,
    canonicalJson_eq_iff law hprints hleft hright, ← sameValue_iff hleft hright, SameAt]
  simp [List.getElem?_eq_getElem hfirst, List.getElem?_eq_getElem hsecond]

/-- The keyed pass over an array of JSON values reports what the scan of pairs reports: nothing
exactly when all items differ, and otherwise the last item that repeats an earlier one with the
nearest such item. -/
theorem duplicate_items_found_pairwise (law : text.Lawful) (hprints : PrintsJson text)
    (hitems : ∀ item ∈ items, Parsed item) :
    findDuplicateItems text items = findDuplicatePairwise items ∧
      (findDuplicateItems text items = none ↔
        items.Pairwise fun first second => ¬ SameValue first second) ∧
      ∀ found, findDuplicateItems text items = some found → LastRepeat items found := by
  have hpairwise : findDuplicateItems text items = findDuplicatePairwise items := by
    unfold findDuplicateItems
    split
    · rfl
    · rename_i keys hkeys
      rw [(keyedPass_eq keys).2, findDuplicatePairwise, ← (forall₂_of_mapM hkeys).length_eq]
      exact scanPairs_congr fun earlier later hlt hbound =>
        sameKeys_eq law hprints hitems hkeys (by omega) hbound
  obtain ⟨hnone, hsome⟩ := scanPairs_spec (sameItemsAt items) items.length
  simp only [sameItemsAt_iff hitems] at hsome
  have hbound : ∀ {earlier later : Nat}, SameAt items earlier later → later < items.length := by
    rintro earlier later ⟨left, right, -, hright, -⟩
    exact (List.getElem?_eq_some_iff.mp hright).1
  rw [hpairwise]
  refine ⟨rfl, ?_, fun found hfound => ?_⟩
  · rw [List.pairwise_iff_getElem]
    constructor
    · intro h first second hfirst hsecond hlt hsame
      have hdiffer := hnone h first second hlt hsecond
      rw [(sameItemsAt_iff hitems _ _).mpr ⟨_, _, List.getElem?_eq_getElem hfirst,
        List.getElem?_eq_getElem hsecond, hsame⟩] at hdiffer
      cases hdiffer
    · intro hdiffer
      cases hfound : findDuplicatePairwise items with
      | none => rfl
      | some found =>
        obtain ⟨hlt, -, ⟨left, right, hleft, hright, hsame⟩, -⟩ := hsome found hfound
        obtain ⟨hfirst, rfl⟩ := List.getElem?_eq_some_iff.mp hleft
        obtain ⟨hsecond, rfl⟩ := List.getElem?_eq_some_iff.mp hright
        exact absurd hsame (hdiffer _ _ hfirst hsecond hlt)
  · obtain ⟨hlt, -, hsame, hlast, hnearest⟩ := hsome found hfound
    exact ⟨hlt, hsame, fun earlier later hlt hsame => hlast _ _ hlt (hbound hsame) hsame, hnearest⟩

end Items

theorem reordered_item_is_duplicate :
    findDuplicateItems exactText [unsortedValue, .null, sortedValue] =
        findDuplicatePairwise [unsortedValue, .null, sortedValue] ∧
      findDuplicatePairwise [unsortedValue, .null, sortedValue] = some ⟨0, 2⟩ := by
  have hitems : ∀ item ∈ [unsortedValue, .null, sortedValue], Parsed item := by
    rw [List.forall_mem_cons, List.forall_mem_cons, List.forall_mem_singleton]
    exact ⟨unsortedValue_representable.parsed, .null, sortedValue_representable.parsed⟩
  exact ⟨(duplicate_items_found_pairwise exactText_lawful exactText_printsJson hitems).1, rfl⟩

end RefundStudy.Record
