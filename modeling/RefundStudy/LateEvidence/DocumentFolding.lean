/-
  Folding a re-captured document into its frozen copy
  (`trial-oracle/late-evidence/document-folding.ts`, BR-RUA-043).

  The schema of a page is looked at here; what the schemas ask of an item and of the other members
  is a parameter (`FoldSchemas`).
-/
import RefundStudy.Foundation.FreshItems
import RefundStudy.Ingestion.LedgerPagination
import RefundStudy.Record.StructuralEquality

set_option autoImplicit false

namespace RefundStudy.LateEvidence

open Foundation Record Store

/-! ## Documents -/

inductive DocumentFold where
  | ledgerTransactions
  | dlqMessages
  | durableExecutions
  deriving DecidableEq

def DocumentFold.items : DocumentFold → JsString
  | .ledgerTransactions => jsString "transactions"
  | .dlqMessages => jsString "messages"
  | .durableExecutions => jsString "executions"

def pagesName : JsString := jsString "pages"

def completeName : JsString := jsString "complete"

def pageNumberName : JsString := jsString "page_number"

def itemCountName : JsString := jsString "item_count"

def startCursorName : JsString := jsString "start_cursor"

def nextCursorName : JsString := jsString "next_cursor"

/-- `document[name]`. -/
def memberOf (document : JsonDocument) (name : JsString) : Option JsonDocument :=
  match document with
  | .object members => InsertionMap.get? members name
  | _ => none

def listOf (document : JsonDocument) (name : JsString) : List JsonDocument :=
  match memberOf document name with
  | some (.array items) => items
  | _ => []

def naturalValue : Option JsonDocument → Nat
  | some (.number value) => (naturalOf value).getD 0
  | _ => 0

def naturalIn (document : JsonDocument) (name : JsString) : Nat :=
  naturalValue (memberOf document name)

/-! ## Schemas -/

def maxSafeInteger : Nat := 2 ^ 53 - 1

/-- A required integer within these bounds. -/
def isInteger (least : Nat) : Option JsonDocument → Bool
  | some (.number value) =>
    match naturalOf value with
    | some number => decide (least ≤ number) && decide (number ≤ maxSafeInteger)
    | none => false
  | _ => false

/-- An optional string of one character at least. -/
def isCursor : Option JsonDocument → Bool
  | none => true
  | some (.string value) => !value.isEmpty
  | some _ => false

def isLedgerPage : JsonDocument → Bool
  | .object members =>
    (members.all fun member =>
      [pageNumberName, itemCountName, startCursorName, nextCursorName].contains member.1) &&
    isInteger 1 (InsertionMap.get? members pageNumberName) &&
    isInteger 0 (InsertionMap.get? members itemCountName) &&
    isCursor (InsertionMap.get? members startCursorName) &&
    isCursor (InsertionMap.get? members nextCursorName)
  | _ => false

/-- What the schemas ask of an item and of the other members, and how a violation is described. -/
structure FoldSchemas where
  item : DocumentFold → JsonDocument → Bool
  rest : DocumentFold → JsonDocument → Bool
  describeFirstViolation : DocumentFold → JsonDocument → String

/-- A schema sees neither the order of members nor the sign of a zero. -/
structure FoldSchemas.SeesForm (schemas : FoldSchemas) : Prop where
  item : ∀ fold value, Representable value →
    schemas.item fold (structuralForm value) = schemas.item fold value
  rest : ∀ fold value, Representable value →
    schemas.rest fold (structuralForm value) = schemas.rest fold value

/-- Neither the items nor the pages of a ledger. -/
def isOther (fold : DocumentFold) (name : JsString) : Bool :=
  name != fold.items && !(fold == .ledgerTransactions && name == pagesName)

def isArrayOf (element : JsonDocument → Bool) : Option JsonDocument → Bool
  | some (.array items) => items.all element
  | _ => false

/-- `validator.validateAs(shape.record_type, value)`. -/
def isValid (schemas : FoldSchemas) (fold : DocumentFold) : JsonDocument → Bool
  | .object members =>
    schemas.rest fold (.object (members.filter fun member => isOther fold member.1)) &&
    isArrayOf (schemas.item fold) (InsertionMap.get? members fold.items) &&
    (fold != .ledgerTransactions || isArrayOf isLedgerPage (InsertionMap.get? members pagesName))
  | _ => false

/-! ## Folding -/

/-- The number nearest to a sum of a safe integer and the length of an array, ties to even; no
array is long enough for the last case. -/
def doubleOfSum (number : Nat) : Double :=
  if h : number < 2 ^ 53 then .finite (doubleOfNat number h)
  else if h : number < 3 * 2 ^ 52 then
    .finite ⟨false, if number % 4 = 3 then number / 2 + 1 else number / 2, 1,
      by split <;> omega, by decide, by decide, .inl (by split <;> omega)⟩
  else .infinite false

/-- `item_count + added`. -/
def countPlus (count : Option JsonDocument) (added : Nat) : JsonDocument :=
  match count with
  | some (.number value) => .number (doubleOfSum ((naturalOf value).getD 0 + added))
  | _ => .number .nan

/-- `{ ...last, item_count: last.item_count + added }`. -/
def countedPage (last : JsonDocument) (added : Nat) : JsonDocument :=
  match last with
  | .object members =>
    .object (InsertionMap.set members itemCountName
      (countPlus (InsertionMap.get? members itemCountName) added))
  | other => other

def withLastPageCount (ledger : InsertionMap JsString JsonDocument) (added : Nat) :
    InsertionMap JsString JsonDocument :=
  let pages := listOf (.object ledger) pagesName
  match pages.getLast? with
  | none => ledger
  | some last => ledger.set pagesName (.array (pages.dropLast ++ [countedPage last added]))

section Folding

variable (text : NumberText)

def newItems (frozen late : List JsonDocument) : List JsonDocument :=
  fresh (canonicalJson text) (frozen.map (canonicalJson text)) late

def foldedMembers (fold : DocumentFold) (document : InsertionMap JsString JsonDocument)
    (frozen added : List JsonDocument) : InsertionMap JsString JsonDocument :=
  let union := document.set fold.items (.array (frozen ++ added))
  if fold = .ledgerTransactions then withLastPageCount union added.length else union

/-- Why two documents cannot be folded. -/
inductive FoldRefusal where
  | lateInvalid (violation : String)
  | frozenUnreadable
  | frozenInvalid (violation : String)

def validItems (schemas : FoldSchemas) (fold : DocumentFold) (value : JsonDocument) :
    Option (InsertionMap JsString JsonDocument × List JsonDocument) :=
  match value with
  | .object members =>
    if isValid schemas fold (.object members) then
      some (members, listOf (.object members) fold.items)
    else none
  | _ => none

def foldLateDocument (schemas : FoldSchemas) (fold : DocumentFold) (frozen : Option (List UInt8))
    (late : JsonDocument) : Except FoldRefusal (List UInt8) :=
  match validItems schemas fold late with
  | none => .error (.lateInvalid (schemas.describeFirstViolation fold late))
  | some lateItems =>
    match frozen with
    | none => .ok (recordFileBytes text late)
    | some bytes =>
      match parseJsonDocument text bytes with
      | none => .error .frozenUnreadable
      | some parsed =>
        match validItems schemas fold parsed with
        | none => .error (.frozenInvalid (schemas.describeFirstViolation fold parsed))
        | some frozenItems =>
          let added := newItems text frozenItems.2 lateItems.2
          if added.length = 0 then .ok bytes
          else
            .ok (recordFileBytes text
              (.object (foldedMembers fold frozenItems.1 frozenItems.2 added)))

end Folding

end RefundStudy.LateEvidence
