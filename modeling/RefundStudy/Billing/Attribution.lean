/-
  The billing import of one export table (`billing-amendment/line-attribution.ts`,
  `billed-cost-check.ts`, `billing-import.ts`, `cur-export.ts`, `unverified-reasons.ts`;
  BR-RUA-047).

  The model starts from the parsed table and the checked context; the digests, the identity and
  the import time of the record are left out.
-/
import RefundStudy.Billing.Money
import RefundStudy.Billing.UsageWindow
import Mathlib.Data.List.Sort
import Mathlib.Data.List.Dedup

set_option autoImplicit false

namespace RefundStudy.Billing

open Record

/-! ## The export (`cur-export.ts`) -/

structure CurTable where
  columns : List String
  rows : List (List String)

/-- The cells of one record as exact text. -/
structure CurLine where
  lineId : String
  usageAccountId : String
  lineItemType : String
  resourceId : String
  productCode : String
  operation : String
  usageStart : String
  usageEnd : String
  currency : String
  cost : String
  runTag : String
  deriving DecidableEq

def curLineColumns : List String :=
  ["line_item_usage_account_id", "line_item_line_item_type", "line_item_resource_id",
    "line_item_product_code", "line_item_operation", "line_item_usage_start_date",
    "line_item_usage_end_date", "line_item_currency_code", "line_item_unblended_cost",
    "resource_tag_suc_run_id"]

/-- `BILLING_UNVERIFIED_CODES`, in catalogue order. -/
inductive BillingUnverifiedCode where
  | incompleteAttribution
  | nonUsdLine
  | mixedCurrency
  | incompletePeriod
  | sharedOrUnownedCharge
  deriving DecidableEq

def billingUnverifiedCodes : List BillingUnverifiedCode :=
  [.incompleteAttribution, .nonUsdLine, .mixedCurrency, .incompletePeriod, .sharedOrUnownedCharge]

/-- Its subject is always `BR-RUA-047`. -/
structure BillingUnverifiedReason where
  code : BillingUnverifiedCode
  detail : String
  deriving DecidableEq

/-- `columnIndexes.get`: the last column of this name. -/
def columnIndex (columns : List String) (name : String) : Option Nat :=
  (columns.zipIdx.reverse.find? fun entry => decide (entry.1 = name)).map Prod.snd

def cellAt (row : List String) (index : Nat) : String := row.getD index ""

def cellOf (columns row : List String) (name : String) : String :=
  cellAt row ((columnIndex columns name).getD 0)

def rowId (index : Nat) : String := "row:" ++ toString (index + 1)

def lineOf (columns : List String) (index : Nat) (row : List String) : CurLine where
  lineId := rowId index
  usageAccountId := cellOf columns row "line_item_usage_account_id"
  lineItemType := cellOf columns row "line_item_line_item_type"
  resourceId := cellOf columns row "line_item_resource_id"
  productCode := cellOf columns row "line_item_product_code"
  operation := cellOf columns row "line_item_operation"
  usageStart := cellOf columns row "line_item_usage_start_date"
  usageEnd := cellOf columns row "line_item_usage_end_date"
  currency := cellOf columns row "line_item_currency_code"
  cost := cellOf columns row "line_item_unblended_cost"
  runTag := cellOf columns row "resource_tag_suc_run_id"

variable (table : CurTable)

def readCurLines : Except BillingUnverifiedReason (List CurLine) :=
  let missing := curLineColumns.filter fun column => (columnIndex table.columns column).isNone
  if missing.isEmpty then .ok (table.rows.mapIdx (lineOf table.columns))
  else .error ⟨.incompleteAttribution, "the export lacks column(s) " ++
    String.intercalate ", " missing ++ "; expected every line column of " ++
    String.intercalate ", " curLineColumns⟩

structure ExportBillingPeriod where
  periodStart : UtcInstant
  periodEnd : UtcInstant
  periodFinal : Bool

def ExportBillingPeriod.interval (period : ExportBillingPeriod) : UsageInterval :=
  ⟨period.periodStart, period.periodEnd⟩

def isBlank (cell : String) : Bool := cell.toList.all isWhitespace

/-- Every record carries an invoice id. -/
def isFinal (invoiceIndex : Option Nat) : Bool :=
  match invoiceIndex with
  | none => false
  | some index => table.rows.all fun row => !isBlank (cellAt row index)

/-- The detail of `CUR_EXPORT_PERIOD_UNREADABLE`. -/
def periodReason (problem : String) : String :=
  problem ++ "; expected every record to name one billing period as " ++
    "bill_billing_period_start_date < bill_billing_period_end_date (YYYY-MM-DDTHH:mm:ssZ)"

/-- Its error is the detail of `CUR_EXPORT_PERIOD_UNREADABLE`. -/
def readExportPeriod : Except String ExportBillingPeriod :=
  match columnIndex table.columns "bill_billing_period_start_date",
      columnIndex table.columns "bill_billing_period_end_date" with
  | some startIndex, some endIndex =>
    let starts := (table.rows.map fun row => cellAt row startIndex).dedup
    let ends := (table.rows.map fun row => cellAt row endIndex).dedup
    match starts, ends with
    | [startText], [endText] =>
      match parseCurTimestamp startText.toList, parseCurTimestamp endText.toList with
      | some start, some stop =>
        if stop.millis ≤ start.millis then
          .error (periodReason ("the period " ++ boundedJsonText startText ++ " to " ++
            boundedJsonText endText ++ " is unreadable"))
        else .ok ⟨start, stop, isFinal table (columnIndex table.columns "bill_invoice_id")⟩
      | _, _ => .error (periodReason ("the period " ++ boundedJsonText startText ++ " to " ++
          boundedJsonText endText ++ " is unreadable"))
    | starts, ends => .error (periodReason ("the export names " ++ toString starts.length ++
        " period start(s) and " ++ toString ends.length ++ " end(s)"))
  | _, _ => .error (periodReason
      "the export lacks bill_billing_period_start_date or bill_billing_period_end_date")

/-! ## Lines (`line-attribution.ts`) -/

structure AttributionContext where
  accountId : String
  ownershipTagValue : String
  resourceIdentities : List String
  chargeAllowlist : List (String × List String)
  window : UsageInterval

/-- `BILLING_EXCLUSION_CODES`. -/
inductive BillingExclusionCode where
  | tax
  | credit
  | refund
  | discount
  | fee
  | savingsPlan
  | otherAccount
  | notRunOwned
  | outsideUsageWindow

structure AttributedBillingLine where
  lineId : String
  productCode : String
  operation : String
  resourceId : String
  usageStart : UtcInstant
  usageEnd : UtcInstant
  currency : String
  cost : MoneyDecimal

structure ExcludedBillingLine where
  lineId : String
  exclusion : BillingExclusionCode
  detail : String

structure UnattributableLine where
  lineId : String
  code : BillingUnverifiedCode
  cause : String

inductive LineDisposition where
  | attributed (line : AttributedBillingLine)
  | excluded (line : ExcludedBillingLine)
  | unattributable (line : UnattributableLine)

def excludedLineTypes : List (String × BillingExclusionCode) :=
  [("Tax", .tax), ("Credit", .credit), ("Refund", .refund), ("Discount", .discount),
    ("BundledDiscount", .discount), ("Fee", .fee), ("RIFee", .fee),
    ("SavingsPlanUpfrontFee", .savingsPlan), ("SavingsPlanRecurringFee", .savingsPlan),
    ("SavingsPlanNegation", .savingsPlan)]

def commitmentCoveredLineTypes : List String := ["SavingsPlanCoveredUsage", "DiscountedUsage"]

/-- `CURRENCY_PATTERN`, `/^[A-Z]{3}$/`. -/
def isCurrency (currency : String) : Bool :=
  currency.toList.length == 3 && currency.toList.all Char.isUpper

variable (line : CurLine)

variable (ctx : AttributionContext)

def isAllowlisted : Bool :=
  ((ctx.chargeAllowlist.lookup line.productCode).getD []).contains line.operation

def mayBeRunUsage : Bool :=
  decide (line.runTag = ctx.ownershipTagValue) || ctx.resourceIdentities.contains line.resourceId ||
    (isBlank line.resourceId && isAllowlisted line ctx)

def excluded (line : CurLine) (exclusion : BillingExclusionCode) (detail : String) :
    LineDisposition := .excluded ⟨line.lineId, exclusion, detail⟩

def unattributable (line : CurLine) (code : BillingUnverifiedCode) (cause : String) :
    LineDisposition := .unattributable ⟨line.lineId, code, cause⟩

def attributedLine (interval : UsageInterval) (cost : MoneyDecimal) : AttributedBillingLine where
  lineId := line.lineId
  productCode := line.productCode
  operation := line.operation
  resourceId := line.resourceId
  usageStart := interval.start
  usageEnd := interval.stop
  currency := line.currency
  cost := cost

def attributedUsage (interval : Option UsageInterval) : LineDisposition :=
  match interval with
  | none => unattributable line .incompleteAttribution "unreadable usage interval"
  | some interval =>
    if isContained interval ctx.window then
      match parseCurCost line.cost.toList with
      | none => unattributable line .incompleteAttribution
          ("unreadable cost " ++ boundedJsonText line.cost ++ " " ++ boundedJsonText line.currency)
      | some cost =>
        if isCurrency line.currency then .attributed (attributedLine line interval cost)
        else unattributable line .incompleteAttribution
          ("unreadable cost " ++ boundedJsonText line.cost ++ " " ++
            boundedJsonText line.currency)
    else unattributable line .incompleteAttribution "usage interval straddles the window"

def classifyUsage (interval : Option UsageInterval) : LineDisposition :=
  let tagged := decide (line.runTag = ctx.ownershipTagValue)
  if isBlank line.resourceId then
    if mayBeRunUsage line ctx then unattributable line .incompleteAttribution "blank resource id"
    else excluded line .notRunOwned "blank resource id, no run tag and no run-owned operation"
  else
    let owned := ctx.resourceIdentities.contains line.resourceId
    if !owned && !tagged then
      excluded line .notRunOwned
        ("resource " ++ boundedJsonText line.resourceId ++ " carries no run identity")
    else if !owned || !tagged then
      unattributable line .incompleteAttribution
        (if owned then "no matching suc:run_id tag" else "resource not in the resource manifest")
    else if !isAllowlisted line ctx then
      unattributable line .sharedOrUnownedCharge (boundedJsonText line.productCode ++ "/" ++
        boundedJsonText line.operation ++ " is not a run-owned operation")
    else attributedUsage line ctx interval

def classifyByLineType (interval : Option UsageInterval) : LineDisposition :=
  if line.lineItemType = "Usage" then classifyUsage line ctx interval
  else if !commitmentCoveredLineTypes.contains line.lineItemType then
    unattributable line .sharedOrUnownedCharge
      ("line type " ++ boundedJsonText line.lineItemType ++ " cannot be assigned")
  else if mayBeRunUsage line ctx then
    unattributable line .sharedOrUnownedCharge ("line type " ++
      boundedJsonText line.lineItemType ++ " is usage covered by a shared commitment")
  else excluded line .notRunOwned
    (boundedJsonText line.lineItemType ++ " line carries no run identity")

def classifyMissingAccount : LineDisposition :=
  if mayBeRunUsage line ctx then unattributable line .incompleteAttribution "blank usage account"
  else excluded line .notRunOwned "blank usage account and no run identity"

/-- The steps of `classifyLine` after the line type and the account were looked at. -/
def classifyInWindow (interval : Option UsageInterval) : LineDisposition :=
  if isBlank line.usageAccountId then classifyMissingAccount line ctx
  else classifyByLineType line ctx interval

def classifyLine : LineDisposition :=
  match excludedLineTypes.lookup line.lineItemType with
  | some exclusion => excluded line exclusion
      ("line type " ++ boundedJsonText line.lineItemType ++ " is not attributable usage")
  | none =>
    if !isBlank line.usageAccountId && decide (line.usageAccountId ≠ ctx.accountId) then
      excluded line .otherAccount
        ("usage account " ++ boundedJsonText line.usageAccountId ++ " is not " ++ ctx.accountId)
    else
      match parseCurInterval line.usageStart.toList line.usageEnd.toList with
      | some interval =>
        if isDisjoint interval ctx.window then
          excluded line .outsideUsageWindow ("usage " ++ String.ofList interval.start.text ++
            " to " ++ String.ofList interval.stop.text ++ " is outside the window")
        else classifyInWindow line ctx (some interval)
      | none => classifyInWindow line ctx none

/-! ## Reasons (`unverified-reasons.ts`) -/

def reasonSampleLimit : Nat := 5

def expectation : BillingUnverifiedCode → String
  | .incompleteAttribution => "expected exact account, resource-manifest identity, suc:run_id " ++
      "tag, run-owned operation, contained interval, currency and cost"
  | .nonUsdLine =>
    "expected every attributable line in USD; no exchange-rate conversion is made"
  | .mixedCurrency =>
    "expected one currency across attributable lines; no conversion is made"
  | .incompletePeriod =>
    "expected a final billing period that contains the attribution window"
  | .sharedOrUnownedCharge =>
    "expected only run-owned usage; no proportional allocation is made"

def unverifiedReason (code : BillingUnverifiedCode) (problem : String) : BillingUnverifiedReason :=
  ⟨code, problem ++ "; " ++ expectation code⟩

def sampledList (described : List String) : String :=
  let listed := String.intercalate ", " (described.take reasonSampleLimit)
  if reasonSampleLimit < described.length then
    listed ++ ", and " ++ toString (described.length - reasonSampleLimit) ++ " more"
  else listed

def aggregatedReason (code : BillingUnverifiedCode) (lines : List UnattributableLine) :
    BillingUnverifiedReason :=
  unverifiedReason code (toString lines.length ++ " line(s): " ++
    sampledList (lines.map fun line => line.lineId ++ " (" ++ line.cause ++ ")"))

def unverifiedReasons (lines : List UnattributableLine) : List BillingUnverifiedReason :=
  billingUnverifiedCodes.flatMap fun code =>
    let matching := lines.filter fun line => decide (line.code = code)
    if matching.isEmpty then [] else [aggregatedReason code matching]

def sortUnverifiedReasons (reasons : List BillingUnverifiedReason) :
    List BillingUnverifiedReason :=
  reasons.insertionSort fun first second =>
    billingUnverifiedCodes.idxOf first.code ≤ billingUnverifiedCodes.idxOf second.code

/-! ## The import -/

structure AttributionResult where
  window : UsageInterval
  linesUsed : List AttributedBillingLine
  exclusions : List ExcludedBillingLine
  reasons : List BillingUnverifiedReason

def LineDisposition.used : LineDisposition → Option AttributedBillingLine
  | .attributed line => some line
  | _ => none

def LineDisposition.left : LineDisposition → Option ExcludedBillingLine
  | .excluded line => some line
  | _ => none

def LineDisposition.open : LineDisposition → Option UnattributableLine
  | .unattributable line => some line
  | _ => none

/-- The lines that `correlateBillingLines` makes its reasons of. -/
def unattributableLines (lines : List CurLine) (ctx : AttributionContext) :
    List UnattributableLine :=
  (lines.map fun line => classifyLine line ctx).filterMap LineDisposition.open

def correlateBillingLines (lines : List CurLine) (ctx : AttributionContext) : AttributionResult :=
  let dispositions := lines.map fun line => classifyLine line ctx
  { window := ctx.window
    linesUsed := dispositions.filterMap LineDisposition.used
    exclusions := dispositions.filterMap LineDisposition.left
    reasons := unverifiedReasons (unattributableLines lines ctx) }

def periodReasons (period : ExportBillingPeriod) (window : UsageInterval) :
    List BillingUnverifiedReason :=
  let range := String.ofList period.periodStart.text ++ " to " ++ String.ofList period.periodEnd.text
  let problems :=
    (if period.periodFinal then []
      else ["billing period " ++ range ++ " is not final (blank bill_invoice_id)"]) ++
    (if isContained window period.interval then []
      else ["attribution window " ++ String.ofList window.start.text ++ " to " ++
        String.ofList window.stop.text ++ " is not inside billing period " ++ range])
  if problems.isEmpty then []
  else [unverifiedReason .incompletePeriod (String.intercalate "; " problems)]

def currencyReasons (attribution : AttributionResult) : List BillingUnverifiedReason :=
  let nonUsd := (attribution.linesUsed.filter fun line => decide (line.currency ≠ "USD")).map
    fun line => (⟨line.lineId, .nonUsdLine, "currency " ++ boundedJsonText line.currency⟩ :
      UnattributableLine)
  let currencies := (attribution.linesUsed.map AttributedBillingLine.currency).dedup.insertionSort
    fun first second => codeUnitsLe first second
  let mixed := if 1 < currencies.length then
      [unverifiedReason .mixedCurrency ("attributable lines use " ++ sampledList currencies)]
    else []
  unverifiedReasons nonUsd ++ mixed

inductive BilledCostOutcome where
  | withinLimit (attributedTotalUsd : MoneyDecimal)
  | breached (attributedTotalUsd : MoneyDecimal)
  | unverified (first : BillingUnverifiedReason) (rest : List BillingUnverifiedReason)
  deriving DecidableEq

def deriveBilledCostCheck (attribution : AttributionResult) (ceiling : MoneyDecimal) :
    BilledCostOutcome :=
  match sortUnverifiedReasons (attribution.reasons ++ currencyReasons attribution) with
  | first :: rest => .unverified first rest
  | [] =>
    let total := sumMoney (attribution.linesUsed.map AttributedBillingLine.cost)
    if compareMoney total ceiling ≠ .gt then .withinLimit total else .breached total

/-- An export without the line columns attributes nothing. -/
def attributeExport (period : ExportBillingPeriod) (ctx : AttributionContext) : AttributionResult :=
  let attribution :=
    match readCurLines table with
    | .ok lines => correlateBillingLines lines ctx
    | .error reason => { window := ctx.window, linesUsed := [], exclusions := [], reasons := [reason] }
  { attribution with reasons := attribution.reasons ++ periodReasons period ctx.window }

structure BillingImport where
  billingExport : ExportBillingPeriod
  attributionWindow : UsageInterval
  linesUsed : List AttributedBillingLine
  exclusions : List ExcludedBillingLine
  ceilingUsd : MoneyDecimal
  billedCostCheck : BilledCostOutcome

def buildBillingImport (ceiling : MoneyDecimal) : Except String BillingImport := do
  let period ← readExportPeriod table
  let attribution := attributeExport table period ctx
  pure
    { billingExport := period
      attributionWindow := attribution.window
      linesUsed := attribution.linesUsed
      exclusions := attribution.exclusions
      ceilingUsd := ceiling
      billedCostCheck := deriveBilledCostCheck attribution ceiling }

/-! ## Every line has one place -/

def LineDisposition.lineId : LineDisposition → String
  | .attributed line => line.lineId
  | .excluded line => line.lineId
  | .unattributable line => line.lineId

section Placement

variable {line : CurLine} {lines : List CurLine} {ctx : AttributionContext}
  {interval : Option UsageInterval}

theorem attributedUsage_lineId : (attributedUsage line ctx interval).lineId = line.lineId := by
  unfold attributedUsage
  split
  · rfl
  · split
    · split
      · rfl
      · split <;> rfl
    · rfl

theorem classifyUsage_lineId : (classifyUsage line ctx interval).lineId = line.lineId := by
  unfold classifyUsage
  simp only
  split
  · split <;> rfl
  · split
    · rfl
    · split
      · rfl
      · split
        · rfl
        · exact attributedUsage_lineId

theorem classifyInWindow_lineId : (classifyInWindow line ctx interval).lineId = line.lineId := by
  unfold classifyInWindow
  split
  · unfold classifyMissingAccount
    split <;> rfl
  · unfold classifyByLineType
    split
    · exact classifyUsage_lineId
    · split
      · rfl
      · split <;> rfl

theorem classifyLine_lineId (line : CurLine) (ctx : AttributionContext) :
    (classifyLine line ctx).lineId = line.lineId := by
  unfold classifyLine
  split
  · rfl
  · split
    · rfl
    · split
      · split
        · rfl
        · exact classifyInWindow_lineId
      · exact classifyInWindow_lineId

/-- The ids of the three kinds of lines, together. -/
def placedIds (attribution : AttributionResult) (unattributable : List UnattributableLine) :
    List String :=
  attribution.linesUsed.map AttributedBillingLine.lineId ++
    (attribution.exclusions.map ExcludedBillingLine.lineId ++
      unattributable.map UnattributableLine.lineId)

theorem placedIds_perm (lines : List CurLine) (ctx : AttributionContext) :
    (placedIds (correlateBillingLines lines ctx) (unattributableLines lines ctx)).Perm
      (lines.map CurLine.lineId) := by
  induction lines with
  | nil => exact .refl _
  | cons line rest ih =>
    have hid := classifyLine_lineId line ctx
    unfold placedIds correlateBillingLines unattributableLines at ih ⊢
    simp only [List.map_cons] at ih ⊢
    cases hcase : classifyLine line ctx with
    | attributed used =>
      rw [hcase] at hid
      simp only [List.filterMap_cons, LineDisposition.used, LineDisposition.left,
        LineDisposition.open, List.map_cons, List.cons_append]
      rw [← hid]
      exact ih.cons _
    | excluded found =>
      rw [hcase] at hid
      simp only [List.filterMap_cons, LineDisposition.used, LineDisposition.left,
        LineDisposition.open, List.map_cons, List.cons_append]
      rw [← hid]
      exact List.perm_middle.trans (ih.cons _)
    | unattributable found =>
      rw [hcase] at hid
      simp only [List.filterMap_cons, LineDisposition.used, LineDisposition.left,
        LineDisposition.open, List.map_cons]
      rw [← hid, ← List.append_assoc]
      refine List.perm_middle.trans (.cons _ ?_)
      rw [List.append_assoc]
      exact ih

theorem rowId_injective : Function.Injective rowId := by
  intro first second h
  have hchars := congrArg String.toList h
  simp only [rowId, String.toList_append, List.append_cancel_left_eq,
    Nat.toString_eq_ofList_toDigits, String.toList_ofList] at hchars
  have hvalue := congrArg (fun digits => Nat.ofDigitChars 10 digits 0) hchars
  simp only [Nat.ofDigitChars_ten_toDigits] at hvalue
  omega

theorem readCurLines_ids {table : CurTable} (h : readCurLines table = .ok lines) :
    lines.map CurLine.lineId = (List.range table.rows.length).map rowId ∧
      (lines.map CurLine.lineId).Nodup := by
  have hids : lines.map CurLine.lineId = (List.range table.rows.length).map rowId := by
    unfold readCurLines at h
    simp only at h
    split at h
    · obtain rfl := Except.ok.inj h
      apply List.ext_getElem
      · simp
      · intro index hleft hright
        simp [lineOf]
    · cases h
  rw [hids]
  exact ⟨rfl, List.nodup_range.map rowId_injective⟩

end Placement

/-! ## A check within the limit -/

/-- A line that may be the run's usage: its type is not an excluded one, its account is the
frozen one or blank, its interval is unreadable or meets the window, and it carries a run
identity. -/
structure MayBeRunUsage (line : CurLine) (ctx : AttributionContext) : Prop where
  type : excludedLineTypes.lookup line.lineItemType = none
  account : line.usageAccountId = ctx.accountId ∨ isBlank line.usageAccountId = true
  interval : ∀ interval, parseCurInterval line.usageStart.toList line.usageEnd.toList = some interval →
    Intersects interval ctx.window
  identity : line.runTag = ctx.ownershipTagValue ∨ line.resourceId ∈ ctx.resourceIdentities ∨
    isBlank line.resourceId = true ∧ isAllowlisted line ctx = true

/-- The disposition of a line that is attributed for this window, or cannot be. -/
def AttributedOrOpen (disposition : LineDisposition) : Prop :=
  (∃ left, disposition = .unattributable left) ∨
  ∃ interval cost, disposition = .attributed (attributedLine line interval cost) ∧
    parseCurInterval line.usageStart.toList line.usageEnd.toList = some interval ∧
    isContained interval ctx.window = true ∧ parseCurCost line.cost.toList = some cost

section Check

variable {line : CurLine} {lines : List CurLine} {ctx : AttributionContext}
  {interval : Option UsageInterval} {attribution : AttributionResult} {ceiling : MoneyDecimal}

theorem attributedUsage_attributedOrOpen
    (hinterval : parseCurInterval line.usageStart.toList line.usageEnd.toList = interval) :
    AttributedOrOpen line ctx (attributedUsage line ctx interval) := by
  unfold attributedUsage
  split
  · exact .inl ⟨_, rfl⟩
  · split
    · rename_i hcontained
      split
      · exact .inl ⟨_, rfl⟩
      · rename_i cost hcost
        split
        · exact .inr ⟨_, cost, rfl, hinterval, hcontained, hcost⟩
        · exact .inl ⟨_, rfl⟩
    · exact .inl ⟨_, rfl⟩

/-- A run identity is what `mayBeRunUsage` tests. -/
theorem MayBeRunUsage.mayBeRunUsage (h : MayBeRunUsage line ctx) : mayBeRunUsage line ctx = true := by
  rcases h.identity with htag | hresource | ⟨hblank, hallowed⟩
  · simp [Billing.mayBeRunUsage, htag]
  · simp [Billing.mayBeRunUsage, hresource]
  · simp [Billing.mayBeRunUsage, hblank, hallowed]

theorem classifyUsage_attributedOrOpen (h : MayBeRunUsage line ctx)
    (hinterval : parseCurInterval line.usageStart.toList line.usageEnd.toList = interval) :
    AttributedOrOpen line ctx (classifyUsage line ctx interval) := by
  unfold classifyUsage
  simp only
  split
  · rw [if_pos h.mayBeRunUsage]
    exact .inl ⟨_, rfl⟩
  · rename_i hblank
    split
    · -- neither tagged nor owned, and the resource is not blank: no identity is left
      rename_i hnone
      simp only [Bool.and_eq_true, Bool.not_eq_true', decide_eq_false_iff_not] at hnone
      rcases h.identity with htag | hresource | ⟨hresource, -⟩
      · exact absurd htag hnone.2
      · have howned := List.contains_iff_mem.mpr hresource
        rw [hnone.1] at howned
        cases howned
      · exact absurd hresource hblank
    · split
      · exact .inl ⟨_, rfl⟩
      · split
        · exact .inl ⟨_, rfl⟩
        · exact attributedUsage_attributedOrOpen hinterval

theorem classifyInWindow_attributedOrOpen (h : MayBeRunUsage line ctx)
    (hinterval : parseCurInterval line.usageStart.toList line.usageEnd.toList = interval) :
    AttributedOrOpen line ctx (classifyInWindow line ctx interval) := by
  unfold classifyInWindow
  split
  · rw [classifyMissingAccount, if_pos h.mayBeRunUsage]
    exact .inl ⟨_, rfl⟩
  · unfold classifyByLineType
    split
    · exact classifyUsage_attributedOrOpen h hinterval
    · split
      · exact .inl ⟨_, rfl⟩
      · rw [if_pos h.mayBeRunUsage]
        exact .inl ⟨_, rfl⟩

theorem classifyLine_attributedOrOpen (h : MayBeRunUsage line ctx) :
    AttributedOrOpen line ctx (classifyLine line ctx) := by
  unfold classifyLine
  rw [h.type]
  simp only
  split
  · rename_i hother
    simp only [Bool.and_eq_true, Bool.not_eq_true', decide_eq_true_eq] at hother
    rcases h.account with hframe | hblank
    · exact absurd hframe hother.2
    · rw [hblank] at hother
      cases hother.1
  · split
    · rename_i interval hinterval
      split
      · rename_i hdisjoint
        rw [not_isDisjoint_of_intersects (h.interval interval hinterval)] at hdisjoint
        cases hdisjoint
      · exact classifyInWindow_attributedOrOpen h hinterval
    · rename_i hinterval
      exact classifyInWindow_attributedOrOpen h hinterval

theorem unverifiedReasons_eq_nil {left : List UnattributableLine}
    (h : unverifiedReasons left = []) : left = [] := by
  cases left with
  | nil => rfl
  | cons first rest =>
    have hcode : first.code ∈ billingUnverifiedCodes := by
      cases first.code <;> decide
    have hnone := List.flatMap_eq_nil_iff.mp h first.code hcode
    simp at hnone

theorem withinLimit_clear {total : MoneyDecimal}
    (h : deriveBilledCostCheck attribution ceiling = .withinLimit total) :
    attribution.reasons = [] ∧ currencyReasons attribution = [] ∧
      (attribution.linesUsed.map fun used => used.cost.value).sum ≤ ceiling.value := by
  unfold deriveBilledCostCheck at h
  split at h
  · cases h
  · rename_i hsorted
    have hnil : attribution.reasons ++ currencyReasons attribution = [] := by
      have hperm := List.perm_insertionSort (fun first second : BillingUnverifiedReason =>
        billingUnverifiedCodes.idxOf first.code ≤ billingUnverifiedCodes.idxOf second.code)
        (attribution.reasons ++ currencyReasons attribution)
      rw [show List.insertionSort _ _ = [] from hsorted] at hperm
      exact hperm.nil_eq.symm
    obtain ⟨hreasons, hcurrency⟩ := List.append_eq_nil_iff.mp hnil
    refine ⟨hreasons, hcurrency, ?_⟩
    simp only at h
    split at h
    · rename_i hcompare
      have hle := (compareMoney_le_iff _ _).mp hcompare
      rw [sumMoney_value, List.map_map] at hle
      exact hle
    · cases h

theorem currencyReasons_usd (h : currencyReasons attribution = []) :
    ∀ used ∈ attribution.linesUsed, used.currency = "USD" := by
  intro used hmem
  by_contra hother
  have hnonUsd := unverifiedReasons_eq_nil (List.append_eq_nil_iff.mp h).1
  rw [List.map_eq_nil_iff, List.filter_eq_nil_iff] at hnonUsd
  exact hnonUsd used hmem (by simpa using hother)

theorem periodReasons_eq_nil {period : ExportBillingPeriod} {window : UsageInterval}
    (h : periodReasons period window = []) :
    period.periodFinal = true ∧ isContained window period.interval = true := by
  unfold periodReasons at h
  cases hfinal : period.periodFinal with
  | false => simp [hfinal] at h
  | true =>
    cases hcontained : isContained window period.interval with
    | false => simp [hfinal, hcontained] at h
    | true => exact ⟨rfl, rfl⟩

theorem periodReasons_cases (period : ExportBillingPeriod) (window : UsageInterval) :
    periodReasons period window = [] ∨
      ∃ problem, periodReasons period window = [unverifiedReason .incompletePeriod problem] :=
  (ite_eq_or_eq _ _ _).imp id fun h => ⟨_, h⟩

/-- Among lines with different ids, the ids of one line are its own disposition's. -/
theorem filter_linesUsed (hnodup : (lines.map CurLine.lineId).Nodup) (hline : line ∈ lines) :
    (correlateBillingLines lines ctx).linesUsed.filter
        (fun used => decide (used.lineId = line.lineId)) =
      (classifyLine line ctx).used.toList := by
  induction lines with
  | nil => cases hline
  | cons head rest ih =>
    rw [List.map_cons, List.nodup_cons] at hnodup
    have hsplit : (correlateBillingLines (head :: rest) ctx).linesUsed =
        (classifyLine head ctx).used.toList ++ (correlateBillingLines rest ctx).linesUsed := by
      unfold correlateBillingLines
      simp only [List.map_cons, List.filterMap_cons]
      cases (classifyLine head ctx).used <;> rfl
    have hid : ∀ other : CurLine, ∀ used ∈ (classifyLine other ctx).used.toList,
        used.lineId = other.lineId := by
      intro other used hused
      have hdisposition := classifyLine_lineId other ctx
      cases hcase : classifyLine other ctx with
      | attributed found =>
        rw [hcase] at hused hdisposition
        obtain rfl : used = found := by simpa [LineDisposition.used] using hused
        exact hdisposition
      | excluded found =>
        rw [hcase] at hused
        cases hused
      | unattributable found =>
        rw [hcase] at hused
        cases hused
    rw [hsplit, List.filter_append]
    rcases List.mem_cons.mp hline with rfl | htail
    · have hrest : (correlateBillingLines rest ctx).linesUsed.filter
          (fun used => decide (used.lineId = line.lineId)) = [] := by
        rw [List.filter_eq_nil_iff]
        intro used hused hsame
        obtain ⟨disposition, hdisposition, hfound⟩ := List.mem_filterMap.mp hused
        obtain ⟨other, hother, rfl⟩ := List.mem_map.mp hdisposition
        have hotherId := hid other used (by rw [hfound]; simp)
        refine hnodup.1 (List.mem_map.mpr ⟨other, hother, ?_⟩)
        rw [← hotherId]
        simpa using hsame
      rw [hrest, List.append_nil, List.filter_eq_self]
      intro used hused
      simpa using hid line used hused
    · rw [ih hnodup.2 htail]
      have hhead : ((classifyLine head ctx).used.toList).filter
          (fun used => decide (used.lineId = line.lineId)) = [] := by
        rw [List.filter_eq_nil_iff]
        intro used hused hsame
        refine hnodup.1 (List.mem_map.mpr ⟨line, htail, ?_⟩)
        rw [← hid head used hused]
        simpa using (of_decide_eq_true hsame).symm
      rw [hhead, List.nil_append]

end Check

/-- The rows of the export that the import leaves unattributable. -/
def openRows : List UnattributableLine :=
  match readCurLines table with
  | .ok lines => unattributableLines lines ctx
  | .error _ => []

theorem readCurLines_error {table : CurTable} {reason : BillingUnverifiedReason}
    (h : readCurLines table = .error reason) : reason.code = .incompleteAttribution := by
  unfold readCurLines at h
  simp only at h
  split at h
  · cases h
  · obtain rfl := Except.error.inj h
    rfl

/-- The one reason of an export without the line columns comes before that of the period. -/
theorem deriveBilledCostCheck_unread {table : CurTable} {reason : BillingUnverifiedReason}
    (h : readCurLines table = .error reason) (period : ExportBillingPeriod)
    (ctx : AttributionContext) (ceiling : MoneyDecimal) :
    ∃ rest, deriveBilledCostCheck (attributeExport table period ctx) ceiling =
        .unverified reason rest ∧ ∀ other ∈ rest, other.code = .incompletePeriod := by
  have hreasons : (attributeExport table period ctx).reasons ++
      currencyReasons (attributeExport table period ctx) =
        reason :: periodReasons period ctx.window := by
    simp only [attributeExport, h]
    exact List.append_nil _
  unfold deriveBilledCostCheck
  rw [hreasons]
  rcases periodReasons_cases period ctx.window with hnone | ⟨problem, hone⟩
  · rw [hnone]
    exact ⟨[], rfl, List.forall_mem_nil _⟩
  · have hle : billingUnverifiedCodes.idxOf reason.code ≤
        billingUnverifiedCodes.idxOf BillingUnverifiedCode.incompletePeriod := by
      rw [readCurLines_error h]
      decide
    have hsorted : sortUnverifiedReasons [reason, unverifiedReason .incompletePeriod problem] =
        [reason, unverifiedReason .incompletePeriod problem] := if_pos hle
    rw [hone, hsorted]
    refine ⟨_, rfl, fun other hmem => ?_⟩
    obtain rfl := List.mem_singleton.mp hmem
    rfl

/-- An export that has every line column places each of its rows exactly once, one that lacks a
column places none and its check gives one reason for that; and a check within the limit comes
from a final period that contains the window, leaves no row unattributable, counts every row that
may be the run's usage exactly once, with the row's own interval, currency and cost, inside the
window and in USD, and its exact sum is at most the ceiling. -/
theorem within_limit_accounts_for_run_usage (table : CurTable) (ctx : AttributionContext)
    (ceiling : MoneyDecimal) :
    (∀ period lines, readCurLines table = .ok lines → ∀ index < table.rows.length,
      (placedIds (attributeExport table period ctx) (openRows table ctx)).count (rowId index) = 1) ∧
    (∀ reason, readCurLines table = .error reason → reason.code = .incompleteAttribution ∧
      (∀ period, placedIds (attributeExport table period ctx) (openRows table ctx) = []) ∧
      ∀ imported, buildBillingImport table ctx ceiling = .ok imported →
        ∃ rest, imported.billedCostCheck = .unverified reason rest ∧
          ∀ other ∈ rest, other.code = .incompletePeriod) ∧
    ∀ imported total, buildBillingImport table ctx ceiling = .ok imported →
      imported.billedCostCheck = .withinLimit total →
      imported.billingExport.periodFinal = true ∧
      isContained ctx.window imported.billingExport.interval = true ∧
      openRows table ctx = [] ∧
      (∃ lines, readCurLines table = .ok lines ∧ ∀ line ∈ lines, MayBeRunUsage line ctx →
        ∃ used, imported.linesUsed.filter (fun used => decide (used.lineId = line.lineId)) = [used] ∧
          parseCurInterval line.usageStart.toList line.usageEnd.toList =
            some ⟨used.usageStart, used.usageEnd⟩ ∧
          isContained ⟨used.usageStart, used.usageEnd⟩ ctx.window = true ∧
          used.currency = line.currency ∧ used.currency = "USD" ∧
          parseCurCost line.cost.toList = some used.cost) ∧
      (imported.linesUsed.map fun used => used.cost.value).sum ≤ ceiling.value := by
  refine ⟨?_, ?_, ?_⟩
  · intro period lines hlines index hindex
    have hplaced : placedIds (attributeExport table period ctx) (openRows table ctx) =
        placedIds (correlateBillingLines lines ctx) (unattributableLines lines ctx) := by
      simp only [attributeExport, openRows, hlines, placedIds]
    obtain ⟨hids, hnodup⟩ := readCurLines_ids hlines
    rw [hplaced, (placedIds_perm lines ctx).count_eq]
    apply List.count_eq_one_of_mem hnodup
    rw [hids]
    exact List.mem_map.mpr ⟨index, List.mem_range.mpr hindex, rfl⟩
  · intro reason hmissing
    refine ⟨readCurLines_error hmissing, fun period => ?_, fun imported hbuilt => ?_⟩
    · simp only [attributeExport, openRows, hmissing, placedIds]
      rfl
    · unfold buildBillingImport at hbuilt
      cases hperiod : readExportPeriod table with
      | error detail =>
        rw [hperiod] at hbuilt
        cases hbuilt
      | ok period =>
        rw [hperiod] at hbuilt
        obtain rfl := Except.ok.inj hbuilt
        exact deriveBilledCostCheck_unread hmissing period ctx ceiling
  · intro imported total hbuilt hcheck
    unfold buildBillingImport at hbuilt
    cases hperiod : readExportPeriod table with
    | error detail =>
      rw [hperiod] at hbuilt
      cases hbuilt
    | ok period =>
      rw [hperiod] at hbuilt
      obtain rfl := Except.ok.inj hbuilt
      obtain ⟨hreasons, hcurrency, hsum⟩ := withinLimit_clear hcheck
      unfold attributeExport at hreasons
      simp only at hreasons
      obtain ⟨hattribution, hperiodReasons⟩ := List.append_eq_nil_iff.mp hreasons
      obtain ⟨hfinal, hcontained⟩ := periodReasons_eq_nil hperiodReasons
      cases hlines : readCurLines table with
      | error reason =>
        rw [hlines] at hattribution
        cases hattribution
      | ok lines =>
        rw [hlines] at hattribution
        have hopen : unattributableLines lines ctx = [] := unverifiedReasons_eq_nil hattribution
        have hused : (attributeExport table period ctx).linesUsed =
            (correlateBillingLines lines ctx).linesUsed := by
          simp only [attributeExport, hlines]
        have hrows : openRows table ctx = [] := by
          simp only [openRows, hlines]
          exact hopen
        refine ⟨hfinal, hcontained, hrows, ⟨lines, rfl, ?_⟩, hsum⟩
        intro line hline hrun
        have hfilter : (correlateBillingLines lines ctx).linesUsed.filter
            (fun used => decide (used.lineId = line.lineId)) =
            (classifyLine line ctx).used.toList :=
          filter_linesUsed (readCurLines_ids hlines).2 hline
        rcases classifyLine_attributedOrOpen hrun with
          ⟨left, hleft⟩ | ⟨interval, cost, hattributed, hinterval, hwithin, hcost⟩
        · have hmem : left ∈ unattributableLines lines ctx := by
            refine List.mem_filterMap.mpr ⟨_, List.mem_map.mpr ⟨line, hline, rfl⟩, ?_⟩
            rw [hleft]
            rfl
          rw [hopen] at hmem
          cases hmem
        · rw [hattributed] at hfilter
          refine ⟨attributedLine line interval cost, ?_, hinterval, hwithin, rfl, ?_, hcost⟩
          · simp only [hused]
            exact hfilter
          · apply currencyReasons_usd hcurrency
            rw [hused]
            have hin : attributedLine line interval cost ∈
                (correlateBillingLines lines ctx).linesUsed.filter
                  (fun used => decide (used.lineId = line.lineId)) := by
              rw [hfilter]
              exact List.mem_cons_self
            exact List.mem_of_mem_filter hin

def usageWindow : UsageInterval :=
  ⟨⟨"2026-10-05T10:00:00.000Z".toList, 63958413600000⟩,
    ⟨"2026-10-05T11:00:00.000Z".toList, 63958417200000⟩⟩

def usageContext : AttributionContext where
  accountId := "1"
  ownershipTagValue := "r"
  resourceIdentities := ["f"]
  chargeAllowlist := [("L", ["I"])]
  window := usageWindow

def usageTable : CurTable where
  columns := curLineColumns ++
    ["bill_billing_period_start_date", "bill_billing_period_end_date", "bill_invoice_id"]
  rows := [["1", "Usage", "f", "L", "I", "2026-10-05T10:00:00Z", "2026-10-05T11:00:00Z", "USD",
    "1.25E-1", "r", "2026-10-01T00:00:00Z", "2026-11-01T00:00:00Z", "i"]]

def usageLine : CurLine :=
  ⟨"row:1", "1", "Usage", "f", "L", "I", "2026-10-05T10:00:00Z", "2026-10-05T11:00:00Z", "USD",
    "1.25E-1", "r"⟩

def usageCeiling : MoneyDecimal := ⟨['1'], by decide⟩

def checkOf : Except String BillingImport → Option BilledCostOutcome
  | .ok imported => some imported.billedCostCheck
  | .error _ => none

theorem usageTable_check : checkOf (buildBillingImport usageTable usageContext usageCeiling) =
    some (.withinLimit ⟨"0.125".toList, by decide +kernel⟩) := by
  decide +kernel

theorem usageTable_lines : ∃ reads, readCurLines usageTable = .ok reads ∧ reads = [usageLine] := by
  refine ⟨usageTable.rows.mapIdx (lineOf usageTable.columns), ?_, by decide +kernel⟩
  have hmissing : (curLineColumns.filter fun column =>
      (columnIndex usageTable.columns column).isNone).isEmpty = true := by decide +kernel
  simp only [readCurLines, hmissing, if_true]

theorem usageLine_mayBeRunUsage : MayBeRunUsage usageLine usageContext where
  type := by decide +kernel
  account := .inl rfl
  interval := by
    intro interval hinterval
    have hstart : (parseCurInterval usageLine.usageStart.toList usageLine.usageEnd.toList).map
        (fun found => (found.start.millis, found.stop.millis)) =
        some (usageWindow.start.millis, usageWindow.stop.millis) := by decide +kernel
    rw [hinterval] at hstart
    obtain ⟨hfirst, hlast⟩ := Prod.mk.inj (Option.some.inj hstart)
    refine ⟨usageWindow.start.millis, ?_⟩
    rw [hfirst, hlast]
    decide
  identity := .inl rfl

theorem within_limit_one_line : ∃ imported used,
    buildBillingImport usageTable usageContext usageCeiling = .ok imported ∧
    imported.linesUsed.filter (fun found => decide (found.lineId = "row:1")) = [used] ∧
    used.currency = "USD" ∧ parseCurCost "1.25E-1".toList = some used.cost := by
  cases hbuilt : buildBillingImport usageTable usageContext usageCeiling with
  | error detail =>
    have hcheck := usageTable_check
    rw [hbuilt] at hcheck
    cases hcheck
  | ok imported =>
    have hcheck := usageTable_check
    rw [hbuilt] at hcheck
    obtain ⟨-, -, hlimit⟩ :=
      within_limit_accounts_for_run_usage usageTable usageContext usageCeiling
    obtain ⟨-, -, -, ⟨lines, hlines, hcounted⟩, -⟩ :=
      hlimit imported _ hbuilt (Option.some.inj hcheck)
    obtain ⟨reads, hreads, rfl⟩ := usageTable_lines
    obtain rfl : lines = [usageLine] := Except.ok.inj (hlines.symm.trans hreads)
    obtain ⟨used, hused, -, -, -, hcurrency, hcost⟩ :=
      hcounted usageLine List.mem_cons_self usageLine_mayBeRunUsage
    exact ⟨imported, used, rfl, hused, hcurrency, hcost⟩

def bareTable : CurTable where
  columns := ["bill_billing_period_start_date", "bill_billing_period_end_date"]
  rows := [["2026-10-01T00:00:00Z", "2026-11-01T00:00:00Z"]]

theorem bareTable_not_placed :
    ¬ ∀ (table : CurTable) (period : ExportBillingPeriod) (ctx : AttributionContext) (index : Nat),
      index < table.rows.length →
        (placedIds (attributeExport table period ctx) (openRows table ctx)).count (rowId index) = 1 := by
  intro hplaced
  have hrow := hplaced bareTable ⟨usageWindow.start, usageWindow.stop, true⟩ usageContext 0 (by decide)
  have hmissing : (curLineColumns.filter fun column =>
      (columnIndex bareTable.columns column).isNone).isEmpty = false := by decide +kernel
  simp [attributeExport, openRows, readCurLines, hmissing, placedIds] at hrow

end RefundStudy.Billing
