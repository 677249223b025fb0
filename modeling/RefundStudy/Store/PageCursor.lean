/-
  Opaque cursors of partition queries, and the requests that use them.

  A request that is refused before sending names a code only, so the texts of the cursor's
  refusals are left out.
-/
import RefundStudy.Store.AttributeRoundTrip
import RefundStudy.Store.CursorText
import Mathlib.Data.List.Sort

set_option autoImplicit false

namespace RefundStudy.Store

open Foundation

/-! ## Bytes -/

/-- `Buffer.from(text, 'utf8')`. -/
def utf8 (chars : List Char) : List UInt8 := chars.flatMap String.utf8EncodeChar

structure SequenceShape where
  length : Nat
  secondMin : Nat
  secondMax : Nat

/-- With `threeByteShape` and `fourByteShape`. -/
def sequenceShape (lead : Nat) : Option SequenceShape :=
  if 0xc2 ≤ lead ∧ lead ≤ 0xdf then some ⟨2, 0x80, 0xbf⟩
  else if 0xe0 ≤ lead ∧ lead ≤ 0xef then
    if lead = 0xe0 then some ⟨3, 0xa0, 0xbf⟩
    else if lead = 0xed then some ⟨3, 0x80, 0x9f⟩
    else some ⟨3, 0x80, 0xbf⟩
  else if 0xf0 ≤ lead ∧ lead ≤ 0xf4 then
    if lead = 0xf0 then some ⟨4, 0x90, 0xbf⟩
    else if lead = 0xf4 then some ⟨4, 0x80, 0x8f⟩
    else some ⟨4, 0x80, 0xbf⟩
  else none

structure OpenSequence where
  shape : SequenceShape
  start : Nat
  consumed : Nat

/-- The outer `none` is `'invalid'`. -/
def startSequence (byte offset : Nat) : Option (Option OpenSequence) :=
  if byte ≤ 0x7f then some none
  else (sequenceShape byte).map fun shape => some ⟨shape, offset, 1⟩

def advanceSequence (opened : Option OpenSequence) (byte offset : Nat) :
    Option (Option OpenSequence) :=
  match opened with
  | none => startSequence byte offset
  | some sequence =>
    let least := if sequence.consumed = 1 then sequence.shape.secondMin else 0x80
    let most := if sequence.consumed = 1 then sequence.shape.secondMax else 0xbf
    if byte < least ∨ most < byte then none
    else if sequence.consumed + 1 = sequence.shape.length then some none
    else some (some { sequence with consumed := sequence.consumed + 1 })

/-- The loop of `firstInvalidUtf8Offset`. -/
def invalidFrom (opened : Option OpenSequence) (offset : Nat) : List UInt8 → Option Nat
  | [] => opened.map OpenSequence.start
  | byte :: rest =>
    match advanceSequence opened byte.toNat offset with
    | none => some ((opened.map OpenSequence.start).getD offset)
    | some next => invalidFrom next (offset + 1) rest

/-- `none` is `-1`. -/
def firstInvalidUtf8Offset (bytes : List UInt8) : Option Nat := invalidFrom none 0 bytes

def decodeUtf8Strict (bytes : List UInt8) : Option (List Char) :=
  match firstInvalidUtf8Offset bytes with
  | some _ => none
  | none => bytes.toByteArray.utf8Decode?.map Array.toList

mutual

/-- `findNonFiniteNumber` finds one. -/
def hasNonFinite : JsonDocument → Bool
  | .number value => !value.isFinite
  | .array items => itemsNonFinite items
  | .object members => membersNonFinite members
  | _ => false

def itemsNonFinite : List JsonDocument → Bool
  | [] => false
  | item :: rest => hasNonFinite item || itemsNonFinite rest

def membersNonFinite : List (JsString × JsonDocument) → Bool
  | [] => false
  | (_, value) :: rest => hasNonFinite value || membersNonFinite rest

end

def parseJsonDocument (text : NumberText) (bytes : List UInt8) : Option JsonDocument :=
  (decodeUtf8Strict bytes).bind fun chars =>
    (parseJson text chars).bind fun value => if hasNonFinite value then none else some value

/-! ## base64url -/

def base64Digit (number : Nat) : UInt16 :=
  UInt16.ofNat
    (if number < 26 then 65 + number
     else if number < 52 then 71 + number
     else if number < 62 then number - 4
     else if number = 62 then 45
     else 95)

/-- The number of a digit of either base64 alphabet. -/
def base64Value (unit : UInt16) : Option Nat :=
  let code := unit.toNat
  if 65 ≤ code ∧ code ≤ 90 then some (code - 65)
  else if 97 ≤ code ∧ code ≤ 122 then some (code - 71)
  else if 48 ≤ code ∧ code ≤ 57 then some (code + 4)
  else if code = 45 ∨ code = 43 then some 62
  else if code = 95 ∨ code = 47 then some 63
  else none

/-- `bytes.toString('base64url')`, without padding. -/
def base64url : List UInt8 → JsString
  | [] => []
  | [a] => [base64Digit (a.toNat / 4), base64Digit (a.toNat % 4 * 16)]
  | [a, b] =>
    [base64Digit (a.toNat / 4), base64Digit (a.toNat % 4 * 16 + b.toNat / 16),
      base64Digit (b.toNat % 16 * 4)]
  | a :: b :: c :: rest =>
    base64Digit (a.toNat / 4) :: base64Digit (a.toNat % 4 * 16 + b.toNat / 16) ::
      base64Digit (b.toNat % 16 * 4 + c.toNat / 64) :: base64Digit (c.toNat % 64) ::
        base64url rest

/-- The bytes of base64 digits; a last digit alone has too few bits. -/
def bytesOfDigits : List Nat → List UInt8
  | a :: b :: c :: d :: rest =>
    UInt8.ofNat (a * 4 + b / 16) :: UInt8.ofNat (b % 16 * 16 + c / 4) ::
      UInt8.ofNat (c % 4 * 64 + d) :: bytesOfDigits rest
  | [a, b, c] => [UInt8.ofNat (a * 4 + b / 16), UInt8.ofNat (b % 16 * 16 + c / 4)]
  | [a, b] => [UInt8.ofNat (a * 4 + b / 16)]
  | _ => []

/-- `Buffer.from(text, 'base64url')`, which skips what is no digit. -/
def bytesOfBase64 (text : JsString) : List UInt8 := bytesOfDigits (text.filterMap base64Value)

/-! ## The cursor -/

structure ItemKey where
  pk : JsString
  sk : JsString

/-- `keyPartViolation` finds none. -/
def keyPartValid (value : JsString) (maxBytes : Nat) : Bool :=
  decide (0 < utf8Bytes value ∧ utf8Bytes value ≤ maxBytes) && isWellFormed value

def maxPartitionKeyBytes : Nat := 2048

def maxSortKeyBytes : Nat := 1024

/-- `partitionKeyViolations` finds none. -/
def partitionKeyValid (pk : JsString) : Bool := keyPartValid pk maxPartitionKeyBytes

/-- `keyViolations` finds none. -/
def keyValid (key : ItemKey) : Bool :=
  partitionKeyValid key.pk && keyPartValid key.sk maxSortKeyBytes

/-- The name `pk`. -/
def pkName : JsString := [0x70, 0x6b]

/-- The name `sk`. -/
def skName : JsString := [0x73, 0x6b]

/-- `canonicalJson` of an object whose members are strings: the keys in the order of their code
units. -/
def canonicalStrings (members : InsertionMap JsString JsString) : List Char :=
  let sorted := members.insertionSort fun first second =>
    decide ((first.1.map UInt16.toNat).le (second.1.map UInt16.toNat))
  '\x7b' :: [','].intercalate (sorted.map fun member =>
    stringify member.1 ++ ':' :: stringify member.2) ++ ['\x7d']

def encodePageCursor (key : ItemKey) : JsString :=
  base64url (utf8 (canonicalStrings [(pkName, key.pk), (skName, key.sk)]))

inductive CursorRefusal where
  /-- it is not canonical base64url -/
  | notCanonical
  /-- it does not hold a JSON object -/
  | notObject
  /-- its members are not exactly a string `pk` and a string `sk` -/
  | wrongMembers
  /-- it belongs to another partition -/
  | otherPartition
  /-- its key is no key of the store -/
  | invalidKey

def keyOfMembers (members : InsertionMap JsString JsonDocument) : Option ItemKey :=
  if members.length ≠ 2 then none
  else
    match members.get? pkName, members.get? skName with
    | some (.string pk), some (.string sk) => some ⟨pk, sk⟩
    | _, _ => none

def decodePageCursor (text : NumberText) (cursor pk : JsString) : Except CursorRefusal ItemKey :=
  let bytes := bytesOfBase64 cursor
  if base64url bytes ≠ cursor then .error .notCanonical
  else
    match parseJsonDocument text bytes with
    | some (.object members) =>
      match keyOfMembers members with
      | none => .error .wrongMembers
      | some key =>
        if key.pk ≠ pk then .error .otherPartition
        else if keyValid key then .ok key
        else .error .invalidKey
    | _ => .error .notObject

/-! ## Partition queries -/

inductive TableRole where
  | ledger
  | experimentJournal
  | callerJournal
  | control
  | trialRegistry
  | coordination

/-- A role the function may not use is absent. -/
abbrev StoreTableNames : Type := TableRole → Option String

/-- The code of a request the service would refuse. -/
def storeValidation : String := "ValidationException"

def storeTableNotConfigured : String := "TableNotConfigured"

def storeInvalidCursor : String := "InvalidCursor"

def storeUndecodableItem : String := "UndecodableItem"

/-- `QueryCommandInput`: `partition` is the value of `:pk` in `#pk = :pk`. -/
structure QueryInput where
  tableName : String
  partition : JsString
  consistentRead : Bool
  exclusiveStartKey : Option ItemKey

def planQueryPage (text : NumberText) (tables : StoreTableNames) (table : TableRole)
    (pk : JsString) (cursor : Option JsString) : Except String QueryInput :=
  if partitionKeyValid pk then
    match tables table with
    | none => .error storeTableNotConfigured
    | some tableName =>
      match cursor with
      | none => .ok ⟨tableName, pk, true, none⟩
      | some given =>
        match decodePageCursor text given pk with
        | .error _ => .error storeInvalidCursor
        | .ok start => .ok ⟨tableName, pk, true, some start⟩
  else .error storeValidation

structure QueryOutput where
  items : Option (List AttributeMap)
  lastEvaluatedKey : Option AttributeMap

structure QueryPage where
  items : List JsonObject
  nextCursor : Option JsString

/-- The loop of `readQueryOutput`. -/
def decodeItems (text : NumberText) : List AttributeMap → Except String (List JsonObject)
  | [] => .ok []
  | raw :: rest =>
    match decodeStoredItem text (AttributeMap.plain raw) with
    | .error _ => .error storeUndecodableItem
    | .ok item => (decodeItems text rest).map (item :: ·)

/-- The cursor of a decoded key; the decoder refuses an item without string keys. -/
def cursorOfItem (item : JsonObject) : Except String JsString :=
  match InsertionMap.get? item "pk", InsertionMap.get? item "sk" with
  | some (.string pk), some (.string sk) => .ok (encodePageCursor ⟨jsString pk, jsString sk⟩)
  | _, _ => .error storeUndecodableItem

def readQueryOutput (text : NumberText) (output : QueryOutput) : Except String QueryPage :=
  (decodeItems text (output.items.getD [])).bind fun items =>
    match output.lastEvaluatedKey with
    | none => .ok ⟨items, none⟩
    | some raw =>
      match decodeStoredItem text (AttributeMap.plain raw) with
      | .error _ => .error storeUndecodableItem
      | .ok key => (cursorOfItem key).map fun cursor => ⟨items, some cursor⟩

/-- Following `next_cursor` for at most this many pages, from the call of this number on: the
items of all pages, or `none` when the last of them still had a cursor. -/
def followCursor (text : NumberText) (tables : StoreTableNames) (table : TableRole)
    (pk : JsString) (service : Nat → QueryInput → QueryOutput) :
    Nat → Nat → Option JsString → Except String (Option (List JsonObject))
  | 0, _, _ => .ok none
  | pages + 1, call, cursor =>
    (planQueryPage text tables table pk cursor).bind fun input =>
      (readQueryOutput text (service call input)).bind fun page =>
        match page.nextCursor with
        | none => .ok (some page.items)
        | some next =>
          (followCursor text tables table pk service pages (call + 1) (some next)).map
            fun rest => rest.map (page.items ++ ·)

end RefundStudy.Store
