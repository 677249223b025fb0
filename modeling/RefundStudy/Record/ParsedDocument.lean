/-
  Parsed JSON (`JsonValue` of `record-contract/primitives.ts`).
-/
import RefundStudy.Store.CursorRoundTrip

set_option autoImplicit false

namespace RefundStudy.Record

open Foundation Store

/-! ## Strings -/

theorem jsString_toNat (text : String) : (jsString text).map UInt16.toNat = utf16Units text := by
  unfold jsString utf16Units
  rw [List.map_flatMap]
  refine List.flatMap_congr fun c _ => ?_
  have hvalid := char_scalar c
  have hcode : c.val.toNat = c.toNat := rfl
  rw [hcode] at hvalid
  unfold unitsOf
  split
  · rename_i hsmall
    rw [List.map_singleton, UInt16.toNat_ofNat_of_lt' (by simpa using hsmall)]
  · rw [List.map_cons, List.map_singleton, UInt16.toNat_ofNat_of_lt' (by norm_num; omega),
      UInt16.toNat_ofNat_of_lt' (by norm_num; omega)]

theorem jsString_injective : Function.Injective jsString := by
  intro first second h
  have hunits := congrArg (List.map UInt16.toNat) h
  rw [jsString_toNat, jsString_toNat] at hunits
  exact String.toList_inj.mp (utf16_chars_injective hunits)

/-! ## Documents -/

/-- The names of every object in a document are distinct, as the members of an object are. -/
inductive DistinctNames : JsonDocument → Prop where
  | null : DistinctNames .null
  | bool (value : Bool) : DistinctNames (.bool value)
  | number (value : Double) : DistinctNames (.number value)
  | string (value : JsString) : DistinctNames (.string value)
  | array {items : List JsonDocument} (inside : ∀ item ∈ items, DistinctNames item) :
      DistinctNames (.array items)
  | object {members : List (JsString × JsonDocument)} (distinct : (members.map Prod.fst).Nodup)
      (inside : ∀ member ∈ members, DistinctNames member.2) : DistinctNames (.object members)

theorem parseScalar_distinctNames {text : NumberText} {chars : List Char}
    {parsed : JsonDocument × List Char} (h : parseScalar text chars = some parsed) :
    DistinctNames parsed.1 := by
  unfold parseScalar at h
  split at h
  · rw [← Option.some.inj h]
    exact .null
  · split at h
    · rw [← Option.some.inj h]
      exact .bool true
    · split at h
      · rw [← Option.some.inj h]
        exact .bool false
      · obtain ⟨number, -, rfl⟩ := Option.map_eq_some_iff.mp h
        exact .number _

theorem DistinctNames.emptyObject : DistinctNames (.object []) :=
  .object List.nodup_nil fun _ hmem => absurd hmem List.not_mem_nil

theorem DistinctNames.set {members : List (JsString × JsonDocument)}
    (h : DistinctNames (.object members)) {value : JsonDocument} (hvalue : DistinctNames value)
    (name : JsString) : DistinctNames (.object (InsertionMap.set members name value)) := by
  cases h with
  | object distinct inside =>
    refine .object (InsertionMap.nodup_set distinct name value) ?_
    intro member hmem
    rcases InsertionMap.mem_set hmem with rfl | hmem
    · exact hvalue
    · exact inside member hmem

/-- What `JSON.parse` returns has distinct names: a repeated member replaces the earlier one. -/
theorem parse_distinctNames (text : NumberText) (fuel : Nat) :
    (∀ chars parsed, parseValue text fuel chars = some parsed → DistinctNames parsed.1) ∧
    (∀ members chars parsed, DistinctNames (.object members) →
      parseMembers text fuel members chars = some parsed → DistinctNames parsed.1) ∧
    (∀ items chars parsed, DistinctNames (.array items) →
      parseElements text fuel items chars = some parsed → DistinctNames parsed.1) := by
  induction fuel with
  | zero =>
    refine ⟨?_, ?_, ?_⟩
    · intro chars parsed h
      cases h
    · intro members chars parsed _ h
      cases h
    · intro items chars parsed _ h
      cases h
  | succ fuel ih =>
    obtain ⟨ihValue, ihMembers, ihElements⟩ := ih
    refine ⟨?_, ?_, ?_⟩
    · intro chars parsed h
      unfold parseValue at h
      split at h
      · obtain ⟨string, -, rfl⟩ := Option.map_eq_some_iff.mp h
        exact .string _
      · split at h
        · rw [← Option.some.inj h]
          exact .emptyObject
        · exact ihMembers _ _ _ .emptyObject h
      · split at h
        · rw [← Option.some.inj h]
          exact .array fun item hmem => absurd hmem List.not_mem_nil
        · exact ihElements _ _ _ (.array fun item hmem => absurd hmem List.not_mem_nil) h
      · exact parseScalar_distinctNames h
    · intro members chars parsed hmembers h
      unfold parseMembers at h
      obtain ⟨quoted, -, h⟩ := Option.bind_eq_some_iff.mp h
      obtain ⟨name, -, h⟩ := Option.bind_eq_some_iff.mp h
      obtain ⟨colon, -, h⟩ := Option.bind_eq_some_iff.mp h
      obtain ⟨value, hvalue, h⟩ := Option.bind_eq_some_iff.mp h
      have hset := hmembers.set (ihValue _ _ hvalue) name.1
      split at h
      · exact ihMembers _ _ _ hset h
      · obtain ⟨after, -, rfl⟩ := Option.map_eq_some_iff.mp h
        exact hset
    · intro items chars parsed hitems h
      unfold parseElements at h
      obtain ⟨value, hvalue, h⟩ := Option.bind_eq_some_iff.mp h
      have happend : DistinctNames (.array (items ++ [value.1])) := by
        cases hitems with
        | array inside =>
          refine .array fun item hmem => ?_
          rcases List.mem_append.mp hmem with hmem | hmem
          · exact inside item hmem
          · rw [List.mem_singleton.mp hmem]
            exact ihValue _ _ hvalue
      split at h
      · exact ihElements _ _ _ happend h
      · obtain ⟨after, -, rfl⟩ := Option.map_eq_some_iff.mp h
        exact happend

theorem parseJson_distinctNames {text : NumberText} {chars : List Char} {document : JsonDocument}
    (h : parseJson text chars = some document) : DistinctNames document := by
  obtain ⟨parsed, hparsed, h⟩ := Option.bind_eq_some_iff.mp h
  split at h
  · rw [← Option.some.inj h]
    exact (parse_distinctNames text _).1 _ _ hparsed
  · cases h

/-- A document of the program: a `JsonValue`. -/
abbrev ParsedDocument : Type := { document : JsonDocument // DistinctNames document }

end RefundStudy.Record
