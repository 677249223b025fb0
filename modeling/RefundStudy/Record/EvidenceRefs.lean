/-
  The canonical order of evidence references and the two checks of it
  (`record-contract/evidence-refs.ts`, `isCanonicalRefOrder` of
  `record-contract/schema-vocabulary.ts`; BR-RUA-035).
-/
import Mathlib.Data.List.Lex
import Mathlib.Order.WithBot
import RefundStudy.Record.CanonicalJson

set_option autoImplicit false

namespace RefundStudy.Record

open Foundation Store

structure EvidenceRef where
  artifactPath : JsString
  artifactSha256 : JsString
  eventId : Option JsString
  jsonPointer : Option JsString
  packageIndexSha256 : Option JsString
  deriving DecidableEq

/-- The values under `ORDER_KEYS`. -/
def EvidenceRef.orderMembers (ref : EvidenceRef) : List (Option JsString) :=
  [some ref.artifactPath, some ref.artifactSha256, ref.eventId, ref.jsonPointer,
    ref.packageIndexSha256]

/-- `a < b` for strings: by code units. -/
def unitsLt (a b : JsString) : Bool := decide (a.map UInt16.toNat < b.map UInt16.toNat)

def compareOptional (a b : Option JsString) : Int :=
  if a = b then 0
  else
    match a, b with
    | none, _ => -1
    | _, none => 1
    | some a, some b => if unitsLt a b then -1 else 1

/-- `compareEvidenceRefs`, on the ordering members. -/
def compareMembers : List (Option JsString) → List (Option JsString) → Int
  | a :: as, b :: bs => if compareOptional a b ≠ 0 then compareOptional a b else compareMembers as bs
  | _, _ => 0

def compareEvidenceRefs (a b : EvidenceRef) : Int :=
  compareMembers a.orderMembers b.orderMembers

variable (refs : List EvidenceRef)

def sortEvidenceRefs : List EvidenceRef :=
  refs.insertionSort fun a b => compareEvidenceRefs a b ≤ 0

/-- `EvidenceRefFinding` of the order check. -/
inductive OrderFinding where
  | duplicate (index earlier : Nat)
  | unsorted (index : Nat)

/-- `ref[key] ?? null`. -/
def memberDocument : Option JsString → JsonDocument
  | none => .null
  | some member => .string member

section Checks

variable (text : NumberText)

/-- The identity of a reference: the JSON text of its ordering members. -/
def refIdentity (ref : EvidenceRef) : List Char :=
  jsonText text (.array (ref.orderMembers.map memberDocument))

/-- The loop of `orderFindings`, from the reference of this index on. -/
def orderFindingsFrom (index : Nat) (previous : Option EvidenceRef)
    (firstIndexOf : InsertionMap (List Char) Nat) : List EvidenceRef → List OrderFinding
  | [] => []
  | ref :: rest =>
      let earlier := firstIndexOf.get? (refIdentity text ref)
      (earlier.map fun earlier => OrderFinding.duplicate index earlier).toList ++
        (if previous.any fun previous => decide (0 < compareEvidenceRefs previous ref) then
          [OrderFinding.unsorted index] else []) ++
        orderFindingsFrom (index + 1) (some ref)
          (firstIndexOf.set (refIdentity text ref) (earlier.getD index)) rest

def orderFindings (refs : List EvidenceRef) : List OrderFinding :=
  orderFindingsFrom text 0 none [] refs

end Checks

/-- The loop of `isCanonicalRefOrder`. -/
def ascendsFrom (previous : Option (List (Option JsString))) : List (List (Option JsString)) → Bool
  | [] => true
  | members :: rest =>
      if previous.any fun previous => decide (0 ≤ compareMembers previous members) then false
      else ascendsFrom (some members) rest

def isCanonicalRefOrder (items : List (Option (List (Option JsString)))) : Bool :=
  if items.all Option.isSome then ascendsFrom none (items.filterMap id) else true

/-! ## The order -/

def memberKey (member : Option JsString) : WithBot (List Nat) :=
  member.map (List.map UInt16.toNat)

def EvidenceRef.key (ref : EvidenceRef) : List (WithBot (List Nat)) :=
  ref.orderMembers.map memberKey

theorem memberKey_injective : Function.Injective memberKey :=
  Option.map_injective (List.map_injective_iff.mpr fun _ _ => UInt16.toNat_inj.mp)

theorem EvidenceRef.key_injective : Function.Injective EvidenceRef.key := by
  rintro ⟨path, sha, event, pointer, index⟩ ⟨path', sha', event', pointer', index'⟩ h
  have hmembers := List.map_injective_iff.mpr memberKey_injective h
  simpa [EvidenceRef.orderMembers] using hmembers

theorem compareOptional_sign (a b : Option JsString) :
    (compareOptional a b < 0 ↔ memberKey a < memberKey b) ∧
      (compareOptional a b = 0 ↔ memberKey a = memberKey b) := by
  unfold compareOptional
  by_cases hsame : a = b
  · subst hsame
    simp
  · have hkeys : memberKey a ≠ memberKey b := fun h => hsame (memberKey_injective h)
    rw [if_neg hsame]
    cases a with
    | none =>
      cases b with
      | none => exact absurd rfl hsame
      | some b => exact ⟨iff_of_true (by simp) (WithBot.bot_lt_coe _), by simp [hkeys]⟩
    | some a =>
      cases b with
      | none => exact ⟨iff_of_false (by simp) not_lt_bot, by simp [hkeys]⟩
      | some b =>
        have hunits : unitsLt a b = true ↔ memberKey (some a) < memberKey (some b) := by
          rw [unitsLt, decide_eq_true_eq]
          exact WithBot.coe_lt_coe.symm
        rw [← hunits]
        dsimp only
        cases unitsLt a b <;> simp [hkeys]

theorem compareMembers_sign {as : List (Option JsString)} : ∀ {bs : List (Option JsString)},
    as.length = bs.length →
    (compareMembers as bs < 0 ↔ as.map memberKey < bs.map memberKey) ∧
      (compareMembers as bs = 0 ↔ as.map memberKey = bs.map memberKey) := by
  induction as with
  | nil =>
    intro bs hlength
    obtain rfl := List.length_eq_zero_iff.mp hlength.symm
    simp [compareMembers]
  | cons a as ih =>
    intro bs hlength
    cases bs with
    | nil => cases hlength
    | cons b bs =>
      obtain ⟨hlt, heq⟩ := compareOptional_sign a b
      obtain ⟨ihlt, iheq⟩ := ih (Nat.succ.inj hlength)
      rw [List.map_cons, List.map_cons, List.cons_lt_cons_iff, List.cons.injEq, compareMembers]
      by_cases hzero : compareOptional a b = 0
      · rw [if_neg (not_not.mpr hzero), ihlt, iheq]
        simp [heq.mp hzero]
      · have hkeys := heq.not.mp hzero
        rw [if_pos hzero, hlt]
        simp [hkeys, hzero]

theorem compareEvidenceRefs_lt (a b : EvidenceRef) : compareEvidenceRefs a b < 0 ↔ a.key < b.key :=
  (@compareMembers_sign a.orderMembers b.orderMembers rfl).1

theorem compareEvidenceRefs_eq (a b : EvidenceRef) : compareEvidenceRefs a b = 0 ↔ a.key = b.key :=
  (@compareMembers_sign a.orderMembers b.orderMembers rfl).2

theorem compareEvidenceRefs_le (a b : EvidenceRef) : compareEvidenceRefs a b ≤ 0 ↔ a.key ≤ b.key := by
  rw [le_iff_lt_or_eq, compareEvidenceRefs_lt, compareEvidenceRefs_eq, ← le_iff_lt_or_eq]

/-! ## The checks -/

def Ascending : Prop :=
  refs.Pairwise fun a b => compareEvidenceRefs a b < 0

theorem ascending_iff : Ascending refs ↔ (refs.map EvidenceRef.key).Pairwise (· < ·) := by
  rw [List.pairwise_map, Ascending]
  exact List.Pairwise.iff fun {a b} => compareEvidenceRefs_lt a b

theorem refIdentity_injective (text : NumberText) : Function.Injective (refIdentity text) := by
  have hreads : ∀ ref : EvidenceRef, parseJson text (refIdentity text ref) =
      some (.array (ref.orderMembers.map memberDocument)) := by
    intro ref
    have hbuilt : Built (fun _ => False) (.array (ref.orderMembers.map memberDocument)) := by
      refine .array fun item hitem => ?_
      obtain ⟨member, -, rfl⟩ := List.mem_map.mp hitem
      cases member with
      | none => exact .null
      | some member => exact .string member
    have hparsed := @parseJson_built text _ (fun _ h => h.elim) _ hbuilt
    rw [zeroed_of_built (fun _ h => h.elim) hbuilt] at hparsed
    exact hparsed
  intro a b h
  have hsame := (hreads a).symm.trans ((congrArg (parseJson text) h).trans (hreads b))
  have hdocuments := JsonDocument.array.inj (Option.some.inj hsame)
  have hmember : Function.Injective memberDocument := by
    intro first second hfirst
    cases first <;> cases second <;> simp_all [memberDocument]
  have hmembers := List.map_injective_iff.mpr hmember hdocuments
  exact EvidenceRef.key_injective (congrArg (List.map memberKey) hmembers)

/-- The order check is silent exactly when no reference repeats one that was seen, and the
neighbours are in order. -/
theorem orderFindingsFrom_eq_nil (text : NumberText) (refs : List EvidenceRef) :
    ∀ (index : Nat) (previous : Option EvidenceRef) (seen : InsertionMap (List Char) Nat),
      orderFindingsFrom text index previous seen refs = [] ↔
        (∀ ref ∈ refs, seen.get? (refIdentity text ref) = none) ∧ refs.Nodup ∧
          ((previous.toList ++ refs).map EvidenceRef.key).IsChain (· ≤ ·) := by
  induction refs with
  | nil =>
    intro index previous seen
    refine iff_of_true rfl ⟨fun _ hmem => absurd hmem List.not_mem_nil, List.nodup_nil, ?_⟩
    cases previous <;> simp
  | cons ref rest ih =>
    intro index previous seen
    have hget : ∀ value other, (seen.set (refIdentity text ref) value).get? (refIdentity text other) =
        none ↔ other ≠ ref ∧ seen.get? (refIdentity text other) = none := by
      intro value other
      by_cases hsame : other = ref
      · subst hsame
        simp
      · rw [InsertionMap.get?_set_of_ne _ fun h => hsame (refIdentity_injective text h)]
        simp [hsame]
    have hchain : ((previous.toList ++ ref :: rest).map EvidenceRef.key).IsChain (· ≤ ·) ↔
        (∀ before ∈ previous, before.key ≤ ref.key) ∧
          ((ref :: rest).map EvidenceRef.key).IsChain (· ≤ ·) := by
      cases previous <;> simp
    have hsorted : (if previous.any fun previous => decide (0 < compareEvidenceRefs previous ref) then
        [OrderFinding.unsorted index] else []) = [] ↔ ∀ before ∈ previous, before.key ≤ ref.key := by
      cases previous with
      | none => simp
      | some before => simp [← compareEvidenceRefs_le, not_lt]
    rw [orderFindingsFrom, List.append_eq_nil_iff, List.append_eq_nil_iff, hsorted, ih, hchain,
      List.forall_mem_cons, List.nodup_cons]
    simp only [Option.toList_eq_nil_iff, Option.map_eq_none_iff, hget, Option.toList_some,
      List.singleton_append]
    constructor
    · rintro ⟨⟨hnew, hbefore⟩, hrest, hnodup, hchain⟩
      exact ⟨⟨hnew, fun other hmem => (hrest other hmem).2⟩,
        ⟨fun hmem => (hrest ref hmem).1 rfl, hnodup⟩, hbefore, hchain⟩
    · rintro ⟨⟨hnew, hrest⟩, ⟨hfresh, hnodup⟩, hbefore, hchain⟩
      refine ⟨⟨hnew, hbefore⟩, fun other hmem => ⟨?_, hrest other hmem⟩, hnodup, hchain⟩
      rintro rfl
      exact hfresh hmem

theorem orderFindings_eq_nil (text : NumberText) (refs : List EvidenceRef) :
    orderFindings text refs = [] ↔ Ascending refs := by
  rw [orderFindings, orderFindingsFrom_eq_nil, ascending_iff]
  have hnodup : refs.Nodup ↔ (refs.map EvidenceRef.key).Nodup :=
    (List.nodup_map_iff EvidenceRef.key_injective).symm
  rw [hnodup]
  constructor
  · rintro ⟨-, hdistinct, hchain⟩
    exact hchain.pairwise.imp₂ (fun _ _ hle hne => lt_of_le_of_ne hle hne) hdistinct
  · intro h
    exact ⟨fun _ _ => rfl, h.imp fun hlt => hlt.ne, (h.imp fun hlt => hlt.le).isChain⟩

theorem ascendsFrom_iff : ∀ previous : Option EvidenceRef,
    ascendsFrom (previous.map EvidenceRef.orderMembers) (refs.map EvidenceRef.orderMembers) = true ↔
      ((previous.toList ++ refs).map EvidenceRef.key).IsChain (· < ·) := by
  induction refs with
  | nil =>
    intro previous
    cases previous <;> simp [ascendsFrom]
  | cons ref rest ih =>
    intro previous
    have hrest := ih (some ref)
    rw [Option.map_some, Option.toList_some, List.singleton_append] at hrest
    rw [List.map_cons, ascendsFrom]
    cases previous with
    | none => simpa using hrest
    | some before =>
      have hbefore : 0 ≤ compareMembers before.orderMembers ref.orderMembers ↔
          ¬ before.key < ref.key := by
        rw [← compareEvidenceRefs_lt, not_lt]
        rfl
      simp only [Option.map_some, Option.any_some, decide_eq_true_eq, hbefore, ite_not,
        Option.toList_some, List.singleton_append, List.map_cons, List.isChain_cons_cons]
      split
      · rename_i hlt
        simpa [hlt] using hrest
      · rename_i hlt
        simp [hlt]

theorem isCanonicalRefOrder_iff :
    isCanonicalRefOrder (refs.map fun ref => some ref.orderMembers) = true ↔ Ascending refs := by
  have hitems : (refs.map fun ref => some ref.orderMembers).filterMap id =
      refs.map EvidenceRef.orderMembers := by
    simp
  have hchain := ascendsFrom_iff refs none
  rw [isCanonicalRefOrder, if_pos (by simp), hitems, ascending_iff]
  exact hchain.trans List.isChain_iff_pairwise

theorem ascending_sort {refs : List EvidenceRef} (h : refs.Nodup) :
    Ascending (sortEvidenceRefs refs) := by
  have htotal : Std.Total fun a b : EvidenceRef => compareEvidenceRefs a b ≤ 0 := ⟨fun a b => by
    rw [compareEvidenceRefs_le, compareEvidenceRefs_le]
    exact le_total _ _⟩
  have htrans : IsTrans EvidenceRef fun a b => compareEvidenceRefs a b ≤ 0 := ⟨fun a b c => by
    rw [compareEvidenceRefs_le, compareEvidenceRefs_le, compareEvidenceRefs_le]
    exact le_trans⟩
  have hsorted := List.pairwise_insertionSort (fun a b => compareEvidenceRefs a b ≤ 0) refs
  have hdistinct := (List.perm_insertionSort (fun a b => compareEvidenceRefs a b ≤ 0) refs).nodup_iff.mpr h
  refine hsorted.imp₂ (fun a b hle hne => ?_) hdistinct
  refine lt_of_le_of_ne hle fun heq => hne ?_
  exact EvidenceRef.key_injective ((compareEvidenceRefs_eq a b).mp heq)

/-- The comparison orders the references by their five members, both checks accept exactly the
ascending lists, and a sorted list of different references passes both. -/
theorem evidence_refs_canonical_order (text : NumberText) :
    ((∀ a b, compareEvidenceRefs a b = 0 ↔ a.orderMembers = b.orderMembers) ∧
      (∀ a b, compareEvidenceRefs a b < 0 ↔ 0 < compareEvidenceRefs b a) ∧
      ∀ a b c, compareEvidenceRefs a b < 0 → compareEvidenceRefs b c < 0 →
        compareEvidenceRefs a c < 0) ∧
    (∀ refs, (orderFindings text refs = [] ↔ Ascending refs) ∧
      (isCanonicalRefOrder (refs.map fun ref => some ref.orderMembers) = true ↔ Ascending refs)) ∧
    ∀ refs : List EvidenceRef, refs.Nodup →
      orderFindings text (sortEvidenceRefs refs) = [] ∧
      isCanonicalRefOrder ((sortEvidenceRefs refs).map fun ref => some ref.orderMembers) = true := by
  refine ⟨⟨?_, ?_, ?_⟩, ?_, ?_⟩
  · intro a b
    rw [compareEvidenceRefs_eq]
    exact (List.map_injective_iff.mpr memberKey_injective).eq_iff
  · intro a b
    rw [compareEvidenceRefs_lt, ← not_le, ← not_le, compareEvidenceRefs_le]
  · intro a b c hab hbc
    rw [compareEvidenceRefs_lt] at hab hbc ⊢
    exact hab.trans hbc
  · intro refs
    exact ⟨orderFindings_eq_nil text refs, isCanonicalRefOrder_iff refs⟩
  · intro refs h
    exact ⟨(orderFindings_eq_nil text _).mpr (ascending_sort h),
      (isCanonicalRefOrder_iff _).mpr (ascending_sort h)⟩

end RefundStudy.Record
