/-
  The reader of billing exports (`billing-amendment/cur-csv.ts`, BR-RUA-047).

  Decompression is `gunzipSync`, with the bound on its output, and is a parameter.
-/
import RefundStudy.Billing.Attribution
import RefundStudy.Record.CanonicalJson

set_option autoImplicit false

namespace RefundStudy.Billing

open Record Store

/-! ## Failures -/

/-- Why a record is malformed, with the character it is malformed at. -/
inductive FieldProblem where
  | quoteInside (index : Nat)
  | neverClosed (opening : Nat)
  | unexpected (found : Char) (index : Nat)

/-- The details of `CUR_EXPORT_MALFORMED`. -/
inductive CurExportMalformed where
  | gzip (cause : String)
  | invalidUtf8 (byteOffset : Nat)
  | inRecord (number : Nat) (problem : FieldProblem)
  | empty
  | emptyColumn (number : Nat)
  | repeatedColumn (name : String)
  | width (number found expected : Nat)

/-! ## The pass over the text -/

/-- `rest` is the text from `index` on. -/
structure ParseCursor where
  text : List Char
  rest : List Char
  record : List String
  records : List (List String)

variable (cursor : ParseCursor)

/-- `cursor.index` when this text is still to read. -/
def ParseCursor.indexOf (rest : List Char) : Nat :=
  utf16Length cursor.text - utf16Length rest

def isSeparator (c : Char) : Bool := c == ',' || c == '\n' || c == '\r'

def readPlainField : Except FieldProblem (List Char × List Char) :=
  let field := cursor.rest.takeWhile fun c => !isSeparator c && c != '"'
  let after := cursor.rest.dropWhile fun c => !isSeparator c && c != '"'
  if after.head? = some '"' then .error (.quoteInside (cursor.indexOf after)) else .ok (field, after)

/-- The parts between doubled quotes joined by one, up to a quote that is not doubled. -/
def closingQuote : List Char → Option (List Char × List Char)
  | [] => none
  | '"' :: '"' :: rest => (closingQuote rest).map fun read => ('"' :: read.1, read.2)
  | '"' :: rest => some ([], rest)
  | c :: rest => (closingQuote rest).map fun read => (c :: read.1, read.2)

def readQuotedField : Except FieldProblem (List Char × List Char) :=
  match closingQuote cursor.rest.tail with
  | none => .error (.neverClosed (cursor.indexOf cursor.rest))
  | some read => .ok read

def closeRecord : ParseCursor :=
  { cursor with record := [], records := cursor.records ++ [cursor.record] }

def closeTrailingEmptyField : ParseCursor :=
  closeRecord { cursor with record := cursor.record ++ [""] }

def lineTerminatorLength (rest : List Char) : Nat :=
  if rest.head? = some '\n' then 1
  else if rest.take 2 = ['\r', '\n'] then 2
  else 0

def readSeparator : Except FieldProblem ParseCursor :=
  match cursor.rest with
  | [] => .ok (closeRecord cursor)
  | code :: after =>
    if code = ',' then
      let next := { cursor with rest := after }
      .ok (if after = [] then closeTrailingEmptyField next else next)
    else
      let terminator := lineTerminatorLength cursor.rest
      if terminator = 0 then .error (.unexpected code (cursor.indexOf cursor.rest))
      else .ok (closeRecord { cursor with rest := cursor.rest.drop terminator })

def readField : Except FieldProblem ParseCursor :=
  let quoted := cursor.rest.head? == some '"'
  (if quoted then readQuotedField cursor else readPlainField cursor).bind fun read =>
    readSeparator { cursor with rest := read.2, record := cursor.record ++ [String.ofList read.1] }

/-- The loop of `parseRecords`; every field takes a character, so `fuel` is the length of the
text. -/
def readFields : Nat → ParseCursor → Except CurExportMalformed ParseCursor
  | 0, cursor => .ok cursor
  | fuel + 1, cursor =>
    if cursor.rest = [] then .ok cursor
    else
      match readField cursor with
      | .error problem => .error (.inRecord (cursor.records.length + 1) problem)
      | .ok next => readFields fuel next

def parseRecords (text : List Char) : Except CurExportMalformed (List (List String)) :=
  (readFields text.length ⟨text, text, [], []⟩).map ParseCursor.records

/-! ## The table -/

def repeatedName (seen : List String) : List String → Option String
  | [] => none
  | name :: rest => if seen.contains name then some name else repeatedName (name :: seen) rest

def headerFailure (header : List String) : Option CurExportMalformed :=
  match header.findIdx? fun name => name == "" with
  | some blank => some (.emptyColumn (blank + 1))
  | none => (repeatedName [] header).map .repeatedColumn

/-- The first row of another width, with its position. -/
def widthFailure (width : Nat) : Nat → List (List String) → Option CurExportMalformed
  | _, [] => none
  | index, row :: rest =>
    if row.length ≠ width then some (.width (index + 2) row.length width)
    else widthFailure width (index + 1) rest

def tableOf (records : List (List String)) : Except CurExportMalformed CurTable :=
  match records with
  | [] => .error .empty
  | header :: rows =>
    match headerFailure header with
    | some problem => .error problem
    | none =>
      match widthFailure header.length 0 rows with
      | some problem => .error problem
      | none => .ok ⟨header, rows⟩

/-! ## The export -/

def byteOrderMark : Char := Char.ofNat 0xfeff

/-- The text after a byte order mark, which is no part of the first column name. -/
def withoutMark : List Char → List Char
  | [] => []
  | first :: rest => if first = byteOrderMark then rest else first :: rest

section Export

variable (gunzip : List UInt8 → Except String (List UInt8))

def decompressCurExport (bytes : List UInt8) : Except CurExportMalformed (List UInt8) :=
  if bytes.take 2 = [0x1f, 0x8b] then
    match gunzip bytes with
    | .ok plain => .ok plain
    | .error cause => .error (.gzip cause)
  else .ok bytes

def parseCurCsv (bytes : List UInt8) : Except CurExportMalformed CurTable :=
  (decompressCurExport gunzip bytes).bind fun plain =>
    match decodeUtf8Strict plain with
    | none => .error (.invalidUtf8 ((firstInvalidUtf8Offset plain).getD 0))
    | some text => (parseRecords (withoutMark text)).bind tableOf

end Export

end RefundStudy.Billing
