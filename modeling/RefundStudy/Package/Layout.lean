/-
  The identity of an execution, the paths of its evidence package and the amendments next
  to it (`evidence-package/package-layout.ts`, `execution-correlation.ts`,
  `record-contract/evidence-refs.ts`; BR-RUA-035, BR-RUA-043, BR-RUA-044).
-/
import RefundStudy.Record.Text

set_option autoImplicit false

namespace RefundStudy.Package

open Record Store

abbrev Bytes : Type := List UInt8

abbrev Sha256Hex : Type := String

/-! ## Execution identity -/

structure ExecutionIdentity where
  kind : ExecutionKind
  id : Uuid4

/-- The three ids a record may carry. -/
structure IdentityCarrier where
  runId : Option Uuid4
  transportProbeId : Option Uuid4
  variantValidationId : Option Uuid4
  deriving DecidableEq

variable (identity : ExecutionIdentity)

def executionIdentityFields : IdentityCarrier :=
  match identity.kind with
  | .run => ⟨some identity.id, none, none⟩
  | .transportProbe => ⟨none, some identity.id, none⟩
  | .variantValidation => ⟨none, none, some identity.id⟩

def belongsToExecution (carried : IdentityCarrier) (identity : ExecutionIdentity) : Bool :=
  let expected := executionIdentityFields identity
  carried.runId == expected.runId && carried.transportProbeId == expected.transportProbeId &&
    carried.variantValidationId == expected.variantValidationId

theorem belongsToExecution_own :
    belongsToExecution (executionIdentityFields identity) identity = true := by
  simp [belongsToExecution]

/-! ## Paths -/

/-- `EvidenceRefViolation`, the members that concern a path, and the empty path. -/
inductive PathViolation where
  | empty
  | absolutePath
  | parentTraversal
  | nonNormalizedPath

def slashUnit : UInt16 := 0x2f

def dotUnit : UInt16 := 0x2e

def backslashUnit : UInt16 := 0x5c

/-- `WINDOWS_DRIVE_PATTERN`, `/^[A-Za-z]:[/\\]/`. -/
def startsWithDrive : JsString → Bool
  | drive :: colon :: slash :: _ =>
      ((0x41 ≤ drive && drive ≤ 0x5a) || (0x61 ≤ drive && drive ≤ 0x7a)) && colon == 0x3a &&
        (slash == slashUnit || slash == backslashUnit)
  | _ => false

/-- `EDGE_WHITESPACE_PATTERN`, `/^\s|\s$/u`. -/
def hasEdgeWhitespace (path : JsString) : Bool :=
  path.head?.any isSpace || path.getLast?.any isSpace

def isNonNormalized (path : JsString) (segments : List JsString) : Bool :=
  path.contains backslashUnit || path.contains 0 || hasEdgeWhitespace path ||
    segments.any fun segment => segment == [] || segment == [dotUnit]

/-- `none` for a normalized package-relative path. -/
def classifyArtifactPath (path : JsString) : Option PathViolation :=
  let segments := path.splitOn slashUnit
  if path.head? = some slashUnit || startsWithDrive path then some .absolutePath
  else if segments.contains [dotUnit, dotUnit] then some .parentTraversal
  else if isNonNormalized path segments then some .nonNormalizedPath
  else none

/-- Why a path is no normalized package-relative path. -/
def invalidPathReason (path : String) : Option PathViolation :=
  if path = "" then some .empty else classifyArtifactPath (jsString path)

/-- `EXECUTION_PATHS.packageIndex` and the other paths the verifier reads. -/
def packageIndexPath : String := "package-index.json"
def executionManifestPath : String := "admission/execution-manifest.json"
def runSummaryPath : String := "summary/run-summary.json"
def transportProbeSummaryPath : String := "summary/transport-probe-summary.json"
def validationSummaryPath : String := "summary/validation-summary.json"

def summaryPath : ExecutionKind → String
  | .run => runSummaryPath
  | .transportProbe => transportProbeSummaryPath
  | .variantValidation => validationSummaryPath

def amendmentIndexPath : String := "amendment-index.json"
def lateEvidenceStreamPath : String := "payload/late-evidence-stream.jsonl"
def lateEvidenceAssessmentPath : String := "payload/late-evidence-assessment.json"
def operationalRecoveryRecordPath : String := "payload/operational-recovery-record.json"
def preCleanupSnapshotPath : String := "payload/pre-cleanup-snapshot.json"
def cleanupJournalPath : String := "payload/cleanup-journal.jsonl"
def cleanupResultPath : String := "payload/cleanup-result.json"
def leakAuditResultPath : String := "payload/leak-audit-result.json"
def billingImportPath : String := "payload/billing-import.json"
def billingExportDirectory : String := "payload/billing-export/"

/-! ## Directories -/

def hexChar (digit : Nat) : Char :=
  if digit < 10 then Char.ofNat ('0'.toNat + digit) else Char.ofNat ('a'.toNat + (digit - 10))

/-- The hexadecimal digits of a number, most significant first. -/
def hexDigits (width number : Nat) : List Char :=
  (List.range width).map fun position => hexChar (number / 16 ^ (width - 1 - position) % 16)

def uuidText (id : Uuid4) : List Char :=
  let digits := hexDigits 32 id
  digits.take 8 ++ '-' :: (digits.drop 8).take 4 ++ '-' :: (digits.drop 12).take 4 ++
    '-' :: (digits.drop 16).take 4 ++ '-' :: digits.drop 20

def amendmentsDirectory : String :=
  String.ofList ("amendments/".toList ++ uuidText identity.id)

/-- The name of an amendment's directory: `<seq:4>-<amendment_id>`. -/
def amendmentDirectoryName (sequence : Nat) (amendmentId : Uuid4) : String :=
  String.ofList ((Nat.toDigits 10 sequence).leftpad 4 '0' ++ '-' :: uuidText amendmentId)

def amendmentDirectory (sequence : Nat) (amendmentId : Uuid4) : String :=
  amendmentsDirectory identity ++ "/" ++ amendmentDirectoryName sequence amendmentId

/-! ## Directory names -/

theorem leftpad_toDigits {sequence : Nat} (h : sequence < 10000) :
    (Nat.toDigits 10 sequence).leftpad 4 '0' =
      [Nat.digitChar (sequence / 1000), Nat.digitChar (sequence / 100 % 10),
        Nat.digitChar (sequence / 10 % 10), Nat.digitChar (sequence % 10)] := by
  have hstep : ∀ n, 10 ≤ n →
      Nat.toDigits 10 n = Nat.toDigits 10 (n / 10) ++ [Nat.digitChar (n % 10)] :=
    fun n hn => Nat.toDigits_of_base_le (by omega) hn
  have hone : ∀ n, n < 10 → Nat.toDigits 10 n = [Nat.digitChar n] :=
    fun n hn => Nat.toDigits_of_lt_base hn
  have hzero : Nat.digitChar 0 = '0' := rfl
  by_cases h1 : sequence < 10
  · rw [hone _ h1, Nat.div_eq_of_lt (by omega), Nat.div_eq_of_lt (by omega),
      Nat.div_eq_of_lt (by omega), Nat.mod_eq_of_lt h1]
    simp [List.leftpad, hzero, List.replicate]
  · rw [hstep _ (by omega)]
    by_cases h2 : sequence < 100
    · rw [hone _ (by omega), Nat.div_eq_of_lt (by omega : sequence < 1000),
        Nat.div_eq_of_lt (by omega : sequence < 100), Nat.mod_eq_of_lt (by omega : sequence / 10 < 10)]
      simp [List.leftpad, hzero, List.replicate]
    · rw [hstep _ (by omega), Nat.div_div_eq_div_mul]
      by_cases h3 : sequence < 1000
      · rw [hone _ (by omega), Nat.div_eq_of_lt (by omega : sequence < 1000),
          Nat.mod_eq_of_lt (by omega : sequence / 100 < 10)]
        simp [List.leftpad, hzero]
      · rw [hstep _ (by omega), Nat.div_div_eq_div_mul, hone _ (by omega)]
        simp [List.leftpad]

theorem digitChar_toNat {digit : Nat} (h : digit < 10) :
    (Nat.digitChar digit).toNat = 48 + digit := by
  have hall : ∀ digit < 10, (Nat.digitChar digit).toNat = 48 + digit := by decide
  exact hall digit h

theorem hexChar_ne_slash {digit : Nat} (h : digit < 16) : hexChar digit ≠ '/' := by
  have hall : ∀ digit < 16, hexChar digit ≠ '/' := by decide
  exact hall digit h

theorem slash_not_mem_hexDigits (width number : Nat) : '/' ∉ hexDigits width number := by
  intro hmem
  obtain ⟨position, -, hchar⟩ := List.mem_map.mp hmem
  exact hexChar_ne_slash (Nat.mod_lt _ (by omega)) hchar

theorem slash_not_mem_uuidText (id : Uuid4) : '/' ∉ uuidText id := by
  have hdigits := slash_not_mem_hexDigits 32 id
  have htake : ∀ (count skip : Nat), '/' ∉ ((hexDigits 32 id).drop skip).take count :=
    fun count skip hmem => hdigits (List.mem_of_mem_drop (List.mem_of_mem_take hmem))
  have h0 := htake 8 0
  rw [List.drop_zero] at h0
  have hdrop : '/' ∉ (hexDigits 32 id).drop 20 := fun hmem => hdigits (List.mem_of_mem_drop hmem)
  simp [uuidText, h0, htake, hdrop]

theorem amendmentDirectoryName_plain (sequence : Nat) (id : Uuid4) :
    '/' ∉ (amendmentDirectoryName sequence id).toList := by
  have hdigits : '/' ∉ Nat.toDigits 10 sequence := by
    intro hmem
    have hdigit := Nat.isDigit_of_mem_toDigits (by omega) (by omega) hmem
    exact absurd hdigit (by decide)
  simp [amendmentDirectoryName, List.leftpad, hdigits, slash_not_mem_uuidText]

theorem amendmentDirectoryName_units {sequence : Nat} (h : sequence < 10000) (id : Uuid4) :
    ∃ rest, utf16Units (amendmentDirectoryName sequence id) =
      (48 + sequence / 1000) :: (48 + sequence / 100 % 10) :: (48 + sequence / 10 % 10) ::
        (48 + sequence % 10) :: rest := by
  have hunit : ∀ digit, digit < 10 →
      (if (Nat.digitChar digit).toNat < 0x10000 then [(Nat.digitChar digit).toNat]
        else [0xd800 + ((Nat.digitChar digit).toNat - 0x10000) / 0x400,
          0xdc00 + ((Nat.digitChar digit).toNat - 0x10000) % 0x400]) = [48 + digit] := by
    intro digit hdigit
    rw [digitChar_toNat hdigit, if_pos (by omega)]
  unfold utf16Units amendmentDirectoryName
  rw [String.toList_ofList, leftpad_toDigits h]
  simp only [List.cons_append, List.nil_append, List.flatMap_cons]
  rw [hunit _ (by omega), hunit _ (by omega), hunit _ (by omega), hunit _ (by omega)]
  simp only [List.cons_append, List.nil_append, List.cons.injEq, true_and, exists_eq']

theorem amendmentDirectoryName_lt {first second : Nat} (hlt : first < second)
    (hbound : second < 10000) (firstId secondId : Uuid4) :
    codeUnitsLe (amendmentDirectoryName second secondId)
      (amendmentDirectoryName first firstId) = false := by
  obtain ⟨firstRest, hfirst⟩ := amendmentDirectoryName_units (by omega : first < 10000) firstId
  obtain ⟨secondRest, hsecond⟩ := amendmentDirectoryName_units hbound secondId
  rw [Bool.eq_false_iff]
  intro hle
  rw [codeUnitsLe_iff, hfirst, hsecond] at hle
  change @LE.le (List Nat) List.instLE _ _ at hle
  rw [List.cons_le_cons_iff, List.cons_le_cons_iff, List.cons_le_cons_iff,
    List.cons_le_cons_iff] at hle
  omega

end RefundStudy.Package
