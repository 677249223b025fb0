/-
  Cleanup actions as the journal holds them: the texts a record may hold, and reasons made
  to conform before they are written (`cleanup/reason-conformance.ts`,
  `record-contract/identifiers.ts`, `timestamps.ts`).
-/
import RefundStudy.Cleanup.Ports
import RefundStudy.Package.Layout
import RefundStudy.Record.CanonicalJson
import RefundStudy.Record.ParsedDocument

set_option autoImplicit false

namespace RefundStudy.ActionJournal

open Foundation Record Store
open Cleanup (CleanupStep StepStatus CleanupMode OwnershipBasis)

/-! ## Texts -/

/-- `[A-Z]`. -/
def isUpperUnit (unit : UInt16) : Bool := decide (0x41 ≤ unit.toNat ∧ unit.toNat ≤ 0x5a)

/-- `[a-z]`. -/
def isLowerUnit (unit : UInt16) : Bool := decide (0x61 ≤ unit.toNat ∧ unit.toNat ≤ 0x7a)

def isDigitUnit (unit : UInt16) : Bool := decide (0x30 ≤ unit.toNat ∧ unit.toNat ≤ 0x39)

/-- `[0-9a-f]`. -/
def isHexDigitUnit (unit : UInt16) : Bool :=
  isDigitUnit unit || decide (0x61 ≤ unit.toNat ∧ unit.toNat ≤ 0x66)

def underscore : UInt16 := 0x5f

/-- The text has one code unit for each of these classes, in order. -/
def matchesUnits : List (UInt16 → Bool) → JsString → Bool
  | [], [] => true
  | isOne :: classes, unit :: rest => isOne unit && matchesUnits classes rest
  | _, _ => false

def exactly (c : Char) : UInt16 → Bool := fun unit => decide (unit.toNat = c.toNat)

/-- `UUID4_PATTERN`. -/
def isUuid4 (text : JsString) : Bool :=
  matchesUnits
    (List.replicate 8 isHexDigitUnit ++ [exactly '-'] ++ List.replicate 4 isHexDigitUnit ++
      [exactly '-', exactly '4'] ++ List.replicate 3 isHexDigitUnit ++
      [exactly '-', fun unit => ['8', '9', 'a', 'b'].any fun c => exactly c unit] ++
      List.replicate 3 isHexDigitUnit ++ [exactly '-'] ++ List.replicate 12 isHexDigitUnit) text

/-- `^[0-9a-f]{64}$`. -/
def isSha256 (text : JsString) : Bool := matchesUnits (List.replicate 64 isHexDigitUnit) text

def utcMillisPattern : List (UInt16 → Bool) :=
  List.replicate 4 isDigitUnit ++ [exactly '-', isDigitUnit, isDigitUnit, exactly '-', isDigitUnit,
    isDigitUnit, exactly 'T', isDigitUnit, isDigitUnit, exactly ':', isDigitUnit, isDigitUnit,
    exactly ':', isDigitUnit, isDigitUnit, exactly '.', isDigitUnit, isDigitUnit, isDigitUnit,
    exactly 'Z']

/-- The number of the digits from `start` on. -/
def digitsAt (text : JsString) (start width : Nat) : Nat :=
  ((text.drop start).take width).foldl (fun number unit => 10 * number + (unit.toNat - 0x30)) 0

def daysInMonth (year month : Nat) : Nat :=
  if month = 2 then
    if year % 4 = 0 ∧ (year % 100 ≠ 0 ∨ year % 400 = 0) then 29 else 28
  else if month = 4 ∨ month = 6 ∨ month = 9 ∨ month = 11 then 30
  else 31

/-- `toISOString()` gives an instant back exactly when its day and its time exist. -/
def isUtcMillis (text : JsString) : Bool :=
  matchesUnits utcMillisPattern text &&
    decide (1 ≤ digitsAt text 5 2 ∧ digitsAt text 5 2 ≤ 12 ∧ 1 ≤ digitsAt text 8 2 ∧
      digitsAt text 8 2 ≤ daysInMonth (digitsAt text 0 4) (digitsAt text 5 2) ∧
      digitsAt text 11 2 ≤ 23 ∧ digitsAt text 14 2 ≤ 59 ∧ digitsAt text 17 2 ≤ 59)

abbrev Uuid4Text : Type := { text : JsString // isUuid4 text = true }

/-- `Sha256Hex`. -/
abbrev Sha256Text : Type := { text : JsString // isSha256 text = true }

abbrev UtcMillisText : Type := { text : JsString // isUtcMillis text = true }

def isPackageRelativePath (path : JsString) : Bool :=
  path != [] && (Package.classifyArtifactPath path).isNone

/-! ## Reasons -/

structure StructuredReason where
  code : JsString
  subject : JsString
  artifactPath : Option JsString := none
  eventId : Option JsString := none
  detail : JsString

def isUpperSnake : JsString → Bool
  | [] => false
  | first :: rest =>
    isUpperUnit first && rest.all fun unit =>
      isUpperUnit unit || isDigitUnit unit || unit == underscore

/-- An underscore between a lower-case letter or digit and the capital after it. -/
def breakWords : JsString → JsString
  | first :: second :: rest =>
    if (isLowerUnit first || isDigitUnit first) && isUpperUnit second then
      first :: underscore :: breakWords (second :: rest)
    else first :: breakWords (second :: rest)
  | rest => rest

/-- A letter in upper case, a digit as it is, and an underscore for anything else. -/
def spellUnit (unit : UInt16) : UInt16 :=
  if isLowerUnit unit then UInt16.ofNat (unit.toNat - 0x20)
  else if isUpperUnit unit || isDigitUnit unit then unit
  else underscore

/-- A run of other characters leaves empty words, which are dropped. -/
def upperSnakeCode (code : JsString) : JsString :=
  if isUpperSnake code then code
  else
    let words := (((breakWords code).map spellUnit).splitOn underscore).filter (!·.isEmpty)
    let joined := [underscore].intercalate words
    match joined with
    | [] => jsString "CODE_UNNAMED"
    | first :: _ => if isUpperUnit first then joined else jsString "CODE_" ++ joined

def emptyField : JsString := jsString "(empty)"

def nonEmpty (text : JsString) : JsString := if text = [] then emptyField else text

def conformingReason (reason : StructuredReason) : StructuredReason where
  code := upperSnakeCode reason.code
  subject := nonEmpty reason.subject
  detail :=
    match reason.artifactPath with
    | none => nonEmpty reason.detail
    | some path => nonEmpty reason.detail ++ jsString " (artifact " ++ path ++ jsString ")"
  eventId := reason.eventId.filter isUuid4

/-- What the schema of a reason asks of it (`structured_reason`). -/
structure StructuredReason.Valid (reason : StructuredReason) : Prop where
  code : isUpperSnake reason.code = true
  subject : reason.subject ≠ []
  detail : reason.detail ≠ []
  artifactPath : ∀ path ∈ reason.artifactPath, isPackageRelativePath path = true
  eventId : ∀ id ∈ reason.eventId, isUuid4 id = true

def isCodeUnit (unit : UInt16) : Bool := isUpperUnit unit || isDigitUnit unit || unit == underscore

theorem isCodeUnit_spellUnit (unit : UInt16) : isCodeUnit (spellUnit unit) = true := by
  unfold spellUnit
  split
  · rename_i hlower
    simp only [isLowerUnit, decide_eq_true_eq] at hlower
    have hupper : isUpperUnit (UInt16.ofNat (unit.toNat - 0x20)) = true := by
      rw [isUpperUnit, UInt16.toNat_ofNat_of_lt' (by norm_num; omega)]
      simp only [decide_eq_true_eq]
      omega
    rw [isCodeUnit, hupper, Bool.true_or, Bool.true_or]
  · split
    · rename_i hkept
      rw [isCodeUnit, hkept, Bool.true_or]
    · rw [isCodeUnit, beq_self_eq_true, Bool.or_true]

theorem forall_mem_intercalate {α : Type} {P : α → Prop} {separator : α} (hseparator : P separator)
    {words : List (List α)} (h : ∀ word ∈ words, ∀ unit ∈ word, P unit) :
    ∀ unit ∈ [separator].intercalate words, P unit := by
  induction words with
  | nil => intro unit hmem; cases hmem
  | cons word rest ih =>
    have hrest := ih fun other hmem => h other (List.mem_cons_of_mem _ hmem)
    cases rest with
    | nil =>
      rw [List.intercalate_singleton]
      exact h word List.mem_cons_self
    | cons next others =>
      rw [List.intercalate_cons_cons]
      intro unit hmem
      rcases List.mem_append.mp hmem with hmem | hmem
      · rcases List.mem_append.mp hmem with hmem | hmem
        · exact h word List.mem_cons_self unit hmem
        · rw [List.mem_singleton.mp hmem]
          exact hseparator
      · exact hrest unit hmem

theorem mem_of_mem_splitOn {text : JsString} {separator : UInt16} {word : JsString}
    (hword : word ∈ text.splitOn separator) {unit : UInt16} (hunit : unit ∈ word) :
    unit ∈ text := by
  have hjoined : ∀ {words : List JsString}, word ∈ words → unit ∈ [separator].intercalate words := by
    intro words hmem
    induction words with
    | nil => cases hmem
    | cons first rest ih =>
      cases rest with
      | nil =>
        rw [List.intercalate_singleton]
        rwa [← List.mem_singleton.mp hmem]
      | cons next others =>
        rw [List.intercalate_cons_cons, List.mem_append, List.mem_append]
        rcases List.mem_cons.mp hmem with heq | hrest
        · exact .inl (.inl (heq ▸ hunit))
        · exact .inr (ih hrest)
  have htext : [separator].intercalate (text.splitOn separator) = text :=
    List.intercalate_splitOn separator
  rw [← htext]
  exact hjoined hword

theorem isUpperSnake_upperSnakeCode (code : JsString) : isUpperSnake (upperSnakeCode code) = true := by
  unfold upperSnakeCode
  split
  · assumption
  · dsimp only
    generalize hwords : (((breakWords code).map spellUnit).splitOn underscore).filter
      (!·.isEmpty) = words
    have hunits : ∀ unit ∈ [underscore].intercalate words, isCodeUnit unit = true := by
      refine forall_mem_intercalate (by decide) fun word hword unit hunit => ?_
      rw [← hwords] at hword
      have hspelled := mem_of_mem_splitOn (List.mem_filter.mp hword).1 hunit
      obtain ⟨original, _, rfl⟩ := List.mem_map.mp hspelled
      exact isCodeUnit_spellUnit original
    split
    · decide +kernel
    · rename_i first rest hjoined
      rw [hjoined] at hunits ⊢
      split
      · rename_i hupper
        rw [isUpperSnake, hupper, Bool.true_and, List.all_eq_true]
        exact fun unit hunit => hunits unit (List.mem_cons_of_mem _ hunit)
      · have hcode : jsString "CODE_" = [0x43, 0x4f, 0x44, 0x45, 0x5f] := by decide +kernel
        rw [hcode, List.cons_append, isUpperSnake, Bool.and_eq_true, List.all_eq_true]
        refine ⟨by decide, fun unit hunit => ?_⟩
        have hletters : ([0x4f, 0x44, 0x45, 0x5f] : JsString).all isCodeUnit = true := by decide
        rcases List.mem_append.mp hunit with hletter | hother
        · exact List.all_eq_true.mp hletters unit hletter
        · exact hunits unit hother

theorem nonEmpty_ne_nil (text : JsString) : nonEmpty text ≠ [] := by
  unfold nonEmpty
  split
  · decide +kernel
  · assumption

theorem conformingReason_valid (reason : StructuredReason) : (conformingReason reason).Valid where
  code := isUpperSnake_upperSnakeCode reason.code
  subject := nonEmpty_ne_nil reason.subject
  detail := by
    cases hpath : reason.artifactPath with
    | none =>
      simp only [conformingReason, hpath]
      exact nonEmpty_ne_nil reason.detail
    | some path =>
      simp only [conformingReason, hpath]
      intro hempty
      simp only [List.append_eq_nil_iff] at hempty
      exact nonEmpty_ne_nil reason.detail hempty.1.1.1
  artifactPath := by
    intro path hpath
    cases hpath
  eventId := by
    intro id hid
    exact (Option.mem_filter_iff.mp hid).2

end RefundStudy.ActionJournal
