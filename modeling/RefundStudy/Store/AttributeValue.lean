/-
  The attribute values of the durable store: what it can hold, how a JSON value is
  written to it and how one is read back.
-/
import RefundStudy.Foundation.Binary64
import RefundStudy.Foundation.InsertionMap
import RefundStudy.Record.Text

set_option autoImplicit false

namespace RefundStudy.Store

open Foundation
open Record (utf16Length quotedJsonLimit boundedText jsonEscape boundedJsonText)

/-! ## Values -/

inductive JsonValue where
  | null
  | bool (value : Bool)
  | number (value : Double)
  | string (value : String)
  | array (items : List JsonValue)
  | object (members : List (String × JsonValue))

abbrev JsonObject : Type := InsertionMap String JsonValue

/-- The six members the store writes. -/
inductive AttributeValue where
  | s (value : String)
  | n (value : String)
  | bool (value : Bool)
  | null
  | l (items : List AttributeValue)
  | m (members : List (String × AttributeValue))

abbrev AttributeMap : Type := InsertionMap String AttributeValue

/-- A value of any type, as the decoder receives it. -/
inductive Unknown where
  | undefined
  | null
  | bool (value : Bool)
  | number (value : Double)
  | string (value : String)
  | array (items : List Unknown)
  | object (members : List (String × Unknown))
  /-- a function, a symbol or a big integer -/
  | other (typeName : String)
  /-- an object that throws while its members are listed -/
  | throwing (cause : String)

/-! ## Limits -/

def maxNestingDepth : Nat := 32

/-- `MIN_NUMBER_MAGNITUDE`, the double nearest `1e-130`. -/
def minNumberMagnitude : FiniteDouble where
  negative := false
  significand := 4994797680505588
  exponent := -484
  significand_lt := by decide
  exponent_ge := by decide
  exponent_le := by decide
  canonical := by decide

def storableNumberShape : String :=
  "a finite number, safe when integral, zero or of magnitude at least 1E-130"

def nestingViolation (path : String) : String :=
  path ++ " nests deeper than " ++ toString maxNestingDepth ++ " levels; expected at most " ++
    toString maxNestingDepth ++ " levels of lists and maps (DynamoDB limit)"

def memberPath (path name : String) : String :=
  if utf16Length name.toList ≤ quotedJsonLimit then path ++ "." ++ name
  else path ++ "." ++ boundedJsonText name

def elementPath (path : String) (index : Nat) : String := path ++ "[" ++ toString index ++ "]"

section Codec

variable (text : NumberText)

def unencodableNumberReason (value : Double) : Option String :=
  if !value.isFinite then some (text.print value ++ " is not a finite number")
  else if value.isInteger && !value.isSafeInteger then
    some (text.print value ++ " is an integer outside the safe-integer range")
  else if !value.isZero && value.magnitudeBelow minNumberMagnitude then
    some (text.print value ++ " is nonzero with a magnitude below 1E-130")
  else none

/-! ## The validator -/

mutual

def valueViolations (path : String) (depth : Nat) : JsonValue → List String
  | .number value =>
    match unencodableNumberReason text value with
    | none => []
    | some reason => [path ++ ": " ++ reason ++ "; expected " ++ storableNumberShape]
  | .null => []
  | .bool _ => []
  | .string _ => []
  | .array items =>
    if maxNestingDepth ≤ depth then [nestingViolation path]
    else elementViolations path (depth + 1) 0 items
  | .object members =>
    if maxNestingDepth ≤ depth then [nestingViolation path]
    else memberViolations path (depth + 1) members

def elementViolations (path : String) (depth index : Nat) : List JsonValue → List String
  | [] => []
  | element :: rest =>
    valueViolations (elementPath path index) depth element ++
      elementViolations path depth (index + 1) rest

def memberViolations (path : String) (depth : Nat) : List (String × JsonValue) → List String
  | [] => []
  | (name, nested) :: rest =>
    valueViolations (memberPath path name) depth nested ++ memberViolations path depth rest

end

def storableValueViolations (value : JsonValue) (path : String) : List String :=
  valueViolations text path 0 value

/-! ## The encoder -/

/-- A `RangeError` is its message. -/
def encodeNumber (value : Double) (path : String) : Except String String :=
  match unencodableNumberReason text value with
  | some reason => .error ("number at " ++ path ++ ": " ++ reason ++ "; expected " ++ storableNumberShape)
  | none => .ok (text.print value)

mutual

def encodeAttributeValue (path : String) : JsonValue → Except String AttributeValue
  | .null => .ok .null
  | .bool value => .ok (.bool value)
  | .string value => .ok (.s value)
  | .number value => do return .n (← encodeNumber text value path)
  | .object members => do return .m (← encodeMembers path [] members)
  | .array items => do return .l (← encodeElements path 0 items)

def encodeElements (path : String) (index : Nat) :
    List JsonValue → Except String (List AttributeValue)
  | [] => .ok []
  | element :: rest => do
    let encoded ← encodeAttributeValue (elementPath path index) element
    return encoded :: (← encodeElements path (index + 1) rest)

/-- The loop of `encodeAttributeMap`. -/
def encodeMembers (path : String) (encoded : AttributeMap) :
    List (String × JsonValue) → Except String AttributeMap
  | [] => .ok encoded
  | (name, value) :: rest => do
    let written ← encodeAttributeValue (memberPath path name) value
    encodeMembers path (encoded.set name written) rest

end

def encodeAttributeMap (attributes : JsonObject) (path : String := "$") :
    Except String AttributeMap :=
  encodeMembers text path [] attributes

/-! ## The decoder -/

mutual

def AttributeValue.plain : AttributeValue → Unknown
  | .s value => .object [("S", .string value)]
  | .n value => .object [("N", .string value)]
  | .bool value => .object [("BOOL", .bool value)]
  | .null => .object [("NULL", .bool true)]
  | .l items => .object [("L", .array (plainItems items))]
  | .m members => .object [("M", .object (plainMembers members))]

/-- The elements of a list of attribute values. -/
def plainItems : List AttributeValue → List Unknown
  | [] => []
  | item :: rest => item.plain :: plainItems rest

def plainMembers : List (String × AttributeValue) → List (String × Unknown)
  | [] => []
  | (name, value) :: rest => (name, value.plain) :: plainMembers rest

end

def AttributeMap.plain (attributes : AttributeMap) : Unknown := .object (plainMembers attributes)

/-- Why a decoding stopped: it returned an error, or reading the input threw. -/
inductive DecodeFault where
  | refused (error : String)
  | thrown (cause : String)

/-- `boundedJsonText` of a list of names. -/
def boundedNames (names : List String) : String :=
  boundedText ("[" ++ String.intercalate "," (names.map fun name =>
    String.ofList ('"' :: name.toList.flatMap jsonEscape ++ ['"'])) ++ "]")

def describeUnknown : Unknown → Except DecodeFault String
  | .array items => .ok ("an array of length " ++ toString items.length)
  | .object members => .ok ("an object with members " ++ boundedNames (members.map Prod.fst))
  | .throwing cause => .error (.thrown cause)
  | .string value => .ok (boundedJsonText value)
  | .number value => .ok (text.print value)
  | .bool value => .ok (toString value)
  | .null => .ok "null"
  | .undefined => .ok "absent"
  | .other typeName => .ok ("a " ++ typeName)

def memberError {α : Type} (path member : String) (content : Unknown) (expected : String) :
    Except DecodeFault α := do
  let described ← describeUnknown text content
  .error (.refused (path ++ "." ++ member ++ " is " ++ described ++ "; expected " ++ expected))

def decodeNumber (content : Unknown) (path : String) : Except DecodeFault JsonValue :=
  match content with
  | .string digits =>
    if isDecimalNumber digits then
      match unencodableNumberReason text (text.read digits) with
      | some _ => memberError text path "N" content storableNumberShape
      | none => .ok (.number (text.read digits))
    else memberError text path "N" content "a decimal number string"
  | _ => memberError text path "N" content "a decimal number string"

def expectedMembers : String := "expected exactly one of S, N, BOOL, NULL, L or M"

/-- The branch of `decodeMember` for a string. -/
def decodeString (path : String) : Unknown → Except DecodeFault JsonValue
  | .string value => .ok (.string value)
  | other => memberError text path "S" other "a string"

/-- The branch of `decodeMember` for a Boolean. -/
def decodeBoolean (path : String) : Unknown → Except DecodeFault JsonValue
  | .bool value => .ok (.bool value)
  | other => memberError text path "BOOL" other "a boolean"

/-- The branch of `decodeMember` for a null. -/
def decodeNull (path : String) : Unknown → Except DecodeFault JsonValue
  | .bool true => .ok .null
  | other => memberError text path "NULL" other "true"

/-- The branches of `decodeMember` that read no nested value. -/
def decodeFlatMember (path : String) (depth : Nat) (member : String) (content : Unknown) :
    Except DecodeFault JsonValue :=
  if member = "S" then decodeString text path content
  else if member = "N" then decodeNumber text content path
  else if member = "BOOL" then decodeBoolean text path content
  else if member = "NULL" then decodeNull text path content
  else if member = "L" then
    if depth < maxNestingDepth then
      memberError text path member content "an array of AttributeValues"
    else .error (.refused (nestingViolation path))
  else if member = "M" then
    if depth < maxNestingDepth then
      memberError text path member content "an object of AttributeValues"
    else .error (.refused (nestingViolation path))
  else
    .error (.refused (path ++ " has member " ++ boundedJsonText member ++ "; " ++
      expectedMembers))

mutual

/-- `depth` counts the lists and maps that enclose the value. -/
def decodeAtDepth (path : String) (depth : Nat) : Unknown → Except DecodeFault JsonValue
  | .object members => decodeOnlyMember path depth members
  | .throwing cause => .error (.thrown cause)
  | .undefined => .error (.refused (path ++ " is absent; expected an AttributeValue object"))
  | .null => .error (.refused (path ++ " is null; expected an AttributeValue object"))
  | .bool value =>
    .error (.refused (path ++ " is " ++ toString value ++ "; expected an AttributeValue object"))
  | .number value =>
    .error (.refused (path ++ " is " ++ text.print value ++ "; expected an AttributeValue object"))
  | .string value =>
    .error (.refused (path ++ " is " ++ boundedJsonText value ++
      "; expected an AttributeValue object"))
  | .array items =>
    .error (.refused (path ++ " is an array of length " ++ toString items.length ++
      "; expected an AttributeValue object"))
  | .other typeName =>
    .error (.refused (path ++ " is a " ++ typeName ++ "; expected an AttributeValue object"))

/-- The rest of `decodeAtDepth`: an object of exactly one member. -/
def decodeOnlyMember (path : String) (depth : Nat) :
    List (String × Unknown) → Except DecodeFault JsonValue
  | [] =>
    .error (.refused (path ++ " has members " ++ boundedNames [] ++ "; " ++ expectedMembers))
  | (member, content) :: rest =>
    if rest.length = 0 then decodeMember path depth member content
    else
      .error (.refused (path ++ " has members " ++
        boundedNames (member :: rest.map Prod.fst) ++ "; " ++ expectedMembers))

/-- A list under `L` and a map under `M` are walked when the depth allows it; every other content is
decoded or refused without recursion. -/
def decodeMember (path : String) (depth : Nat) (member : String) :
    Unknown → Except DecodeFault JsonValue
  | .array items =>
    if member = "L" ∧ depth < maxNestingDepth then do
      return .array (← decodeElements path (depth + 1) 0 items)
    else decodeFlatMember text path depth member (.array items)
  | .object members =>
    if member = "M" ∧ depth < maxNestingDepth then do
      return .object (← decodeMembers path (depth + 1) [] members)
    else decodeFlatMember text path depth member (.object members)
  | content => decodeFlatMember text path depth member content

/-- The loop of `decodeList`. -/
def decodeElements (path : String) (memberDepth index : Nat) :
    List Unknown → Except DecodeFault (List JsonValue)
  | [] => .ok []
  | element :: rest => do
    let decoded ← decodeAtDepth (elementPath path index) memberDepth element
    return decoded :: (← decodeElements path memberDepth (index + 1) rest)

/-- The loop of `decodeMapMember`. -/
def decodeMembers (path : String) (memberDepth : Nat) (values : JsonObject) :
    List (String × Unknown) → Except DecodeFault JsonObject
  | [] => .ok values
  | (name, element) :: rest => do
    let decoded ← decodeAtDepth (memberPath path name) memberDepth element
    decodeMembers path memberDepth (values.set name decoded) rest

end

def readSafely {α : Type} (path : String) : Except DecodeFault α → Except String α
  | .ok value => .ok value
  | .error (.refused error) => .error error
  | .error (.thrown cause) =>
    .error (path ++ " could not be read (" ++ cause ++ "); expected plain AttributeValue data")

def decodeAttributeValue (value : Unknown) (path : String := "$") : Except String JsonValue :=
  readSafely path (decodeAtDepth text path 0 value)

/-- `decodeMapMember` at the item's own map, which is not a nesting level. -/
def decodeItemMap (value : Unknown) : Except DecodeFault JsonObject :=
  match value with
  | .object members => decodeMembers text "$" 0 [] members
  | other => memberError text "$" "M" other "an object of AttributeValues"

/-- `describeUnknown` of a decoded attribute. -/
def describeAttribute : Option JsonValue → String
  | none => "absent"
  | some .null => "null"
  | some (.bool value) => toString value
  | some (.number value) => text.print value
  | some (.string value) => boundedJsonText value
  | some (.array items) => "an array of length " ++ toString items.length
  | some (.object members) =>
    "an object with members " ++ boundedNames (members.map Prod.fst)

def decodeItem (value : Unknown) : Except DecodeFault JsonObject := do
  let decoded ← decodeItemMap text value
  match InsertionMap.get? decoded "pk", InsertionMap.get? decoded "sk" with
  | some (.string pk), some (.string sk) =>
    return (InsertionMap.set (InsertionMap.set decoded "pk" (.string pk)) "sk" (.string sk))
  | pk, sk =>
    .error (.refused ("item key is pk=" ++ describeAttribute text pk ++ ", sk=" ++
      describeAttribute text sk ++ "; expected string pk and sk attributes"))

def decodeStoredItem (value : Unknown) : Except String JsonObject :=
  readSafely "$" (decodeItem text value)

end Codec

end RefundStudy.Store
