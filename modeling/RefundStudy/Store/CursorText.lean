/-
  Texts on the way into a page cursor and out of it.
-/
import RefundStudy.Foundation.Binary64
import RefundStudy.Foundation.InsertionMap

set_option autoImplicit false

namespace RefundStudy.Store

open Foundation

abbrev JsString : Type := List UInt16

def isHigh (unit : UInt16) : Bool := decide (0xd800 ≤ unit.toNat ∧ unit.toNat < 0xdc00)

def isLow (unit : UInt16) : Bool := decide (0xdc00 ≤ unit.toNat ∧ unit.toNat < 0xe000)

def pairPoint (high low : UInt16) : Nat :=
  0x10000 + (high.toNat - 0xd800) * 0x400 + (low.toNat - 0xdc00)

def unitsOf (c : Char) : JsString :=
  if c.toNat < 0x10000 then [UInt16.ofNat c.toNat]
  else
    [UInt16.ofNat (0xd800 + (c.toNat - 0x10000) / 0x400),
      UInt16.ofNat (0xdc00 + (c.toNat - 0x10000) % 0x400)]

/-- A text without lone surrogates as a string. -/
def jsString (text : String) : JsString := text.toList.flatMap unitsOf

/-- `isWellFormed()`: no surrogate stands alone. -/
def isWellFormed : JsString → Bool
  | [] => true
  | [unit] => !isHigh unit && !isLow unit
  | first :: second :: rest =>
    if isHigh first && isLow second then isWellFormed rest
    else !isHigh first && !isLow first && isWellFormed (second :: rest)

/-- The characters of a string, a lone surrogate as the replacement character. -/
def wellFormedChars : JsString → List Char
  | [] => []
  | [unit] => [if isHigh unit || isLow unit then Char.ofNat 0xfffd else Char.ofNat unit.toNat]
  | first :: second :: rest =>
    if isHigh first && isLow second then
      Char.ofNat (pairPoint first second) :: wellFormedChars rest
    else
      (if isHigh first || isLow first then Char.ofNat 0xfffd else Char.ofNat first.toNat) ::
        wellFormedChars (second :: rest)

/-- The text of a string. -/
def plainText (text : JsString) : String := String.ofList (wellFormedChars text)

/-- The UTF-8 length of one code unit that is no half of a pair; a lone surrogate counts as the
replacement character. -/
def unitBytes (unit : UInt16) : Nat :=
  if unit.toNat < 0x80 then 1 else if unit.toNat < 0x800 then 2 else 3

def utf8Bytes : JsString → Nat
  | [] => 0
  | [unit] => unitBytes unit
  | first :: second :: rest =>
    if isHigh first && isLow second then 4 + utf8Bytes rest
    else unitBytes first + utf8Bytes (second :: rest)

/-! ## Writing a string as JSON -/

def hexChar (digit : Nat) : Char := Nat.digitChar digit

/-- `\uXXXX`. -/
def unicodeEscape (unit : UInt16) : List Char :=
  ['\\', 'u', hexChar (unit.toNat / 4096), hexChar (unit.toNat / 256 % 16),
    hexChar (unit.toNat / 16 % 16), hexChar (unit.toNat % 16)]

/-- One code unit that is no half of a pair, inside a JSON string. -/
def quotedUnit (unit : UInt16) : List Char :=
  if unit = 0x22 then ['\\', '"']
  else if unit = 0x5c then ['\\', '\\']
  else if unit = 0x8 then ['\\', 'b']
  else if unit = 0xc then ['\\', 'f']
  else if unit = 0xa then ['\\', 'n']
  else if unit = 0xd then ['\\', 'r']
  else if unit = 0x9 then ['\\', 't']
  else if unit.toNat < 0x20 ∨ isHigh unit = true ∨ isLow unit = true then unicodeEscape unit
  else [Char.ofNat unit.toNat]

/-- The characters between the quotes of `JSON.stringify(text)`. -/
def quotedUnits : JsString → List Char
  | [] => []
  | [unit] => quotedUnit unit
  | first :: second :: rest =>
    if isHigh first && isLow second then
      Char.ofNat (pairPoint first second) :: quotedUnits rest
    else quotedUnit first ++ quotedUnits (second :: rest)

/-- `JSON.stringify(text)`. -/
def stringify (text : JsString) : List Char := '"' :: quotedUnits text ++ ['"']

/-! ## Reading JSON -/

inductive JsonDocument where
  | null
  | bool (value : Bool)
  | number (value : Double)
  | string (value : JsString)
  | array (items : List JsonDocument)
  | object (members : List (JsString × JsonDocument))

def isJsonSpace (c : Char) : Bool := c == ' ' || c == '\t' || c == '\n' || c == '\r'

/-- The text without whitespace at its start. -/
def skipSpace (chars : List Char) : List Char := chars.dropWhile isJsonSpace

def hexValue (c : Char) : Option Nat :=
  if '0' ≤ c ∧ c ≤ '9' then some (c.toNat - 48)
  else if 'a' ≤ c ∧ c ≤ 'f' then some (c.toNat - 87)
  else if 'A' ≤ c ∧ c ≤ 'F' then some (c.toNat - 55)
  else none

/-- The code unit of four hexadecimal digits. -/
def hexUnit (a b c d : Char) : Option UInt16 :=
  (hexValue a).bind fun first => (hexValue b).bind fun second => (hexValue c).bind fun third =>
    (hexValue d).map fun fourth => UInt16.ofNat (((first * 16 + second) * 16 + third) * 16 + fourth)

def letterEscape (c : Char) : Option UInt16 :=
  if c = '"' then some 0x22
  else if c = '\\' then some 0x5c
  else if c = '/' then some 0x2f
  else if c = 'b' then some 0x8
  else if c = 'f' then some 0xc
  else if c = 'n' then some 0xa
  else if c = 'r' then some 0xd
  else if c = 't' then some 0x9
  else none

/-- The string after an opening quote, and what follows its closing one. -/
def parseString : List Char → Option (JsString × List Char)
  | [] => none
  | '"' :: rest => some ([], rest)
  | '\\' :: 'u' :: a :: b :: c :: d :: rest =>
    (hexUnit a b c d).bind fun unit =>
      (parseString rest).map fun parsed => (unit :: parsed.1, parsed.2)
  | '\\' :: c :: rest =>
    (letterEscape c).bind fun unit =>
      (parseString rest).map fun parsed => (unit :: parsed.1, parsed.2)
  | c :: rest =>
    if c.toNat < 0x20 ∨ c = '\\' then none
    else (parseString rest).map fun parsed => (unitsOf c ++ parsed.1, parsed.2)

def takeDigits (chars : List Char) : Option (List Char × List Char) :=
  match chars.takeWhile Char.isDigit with
  | [] => none
  | digits => some (digits, chars.dropWhile Char.isDigit)

/-- An optional part of a number that starts with one of these characters. -/
def optionalPart (starts : List Char) (signed : Bool) (chars : List Char) :
    Option (List Char × List Char) :=
  match chars with
  | [] => some ([], [])
  | mark :: rest =>
    if starts.contains mark then
      match signed, rest with
      | true, '+' :: digits => (takeDigits digits).map fun part => (mark :: '+' :: part.1, part.2)
      | true, '-' :: digits => (takeDigits digits).map fun part => (mark :: '-' :: part.1, part.2)
      | _, digits => (takeDigits digits).map fun part => (mark :: part.1, part.2)
    else some ([], mark :: rest)

/-- The integer digits of a number: no leading zero. -/
def integerPart (chars : List Char) : Option (List Char × List Char) :=
  match chars with
  | '0' :: rest => some (['0'], rest)
  | _ => takeDigits chars

def parseNumber (chars : List Char) : Option (List Char × List Char) :=
  let sign := if chars.head? = some '-' then ['-'] else []
  (integerPart (chars.drop sign.length)).bind fun whole =>
    (optionalPart ['.'] false whole.2).bind fun fraction =>
      (optionalPart ['e', 'E'] true fraction.2).map fun exponent =>
        (sign ++ whole.1 ++ fraction.1 ++ exponent.1, exponent.2)

def expectChar (c : Char) (chars : List Char) : Option (List Char) :=
  match skipSpace chars with
  | [] => none
  | found :: rest => if found = c then some rest else none

section Parsing

variable (text : NumberText)

def parseScalar (chars : List Char) : Option (JsonDocument × List Char) :=
  if chars.take 4 = ['n', 'u', 'l', 'l'] then some (.null, chars.drop 4)
  else if chars.take 4 = ['t', 'r', 'u', 'e'] then some (.bool true, chars.drop 4)
  else if chars.take 5 = ['f', 'a', 'l', 's', 'e'] then some (.bool false, chars.drop 5)
  else
    (parseNumber chars).map fun parsed =>
      (.number (text.read (String.ofList parsed.1)), parsed.2)

mutual

/-- A value; `fuel` bounds the values and members inside it. -/
def parseValue : Nat → List Char → Option (JsonDocument × List Char)
  | 0, _ => none
  | fuel + 1, chars =>
    match skipSpace chars with
    | '"' :: rest => (parseString rest).map fun parsed => (.string parsed.1, parsed.2)
    | '\x7b' :: rest =>
      match expectChar '\x7d' rest with
      | some after => some (.object [], after)
      | none => parseMembers fuel [] rest
    | '[' :: rest =>
      match expectChar ']' rest with
      | some after => some (.array [], after)
      | none => parseElements fuel [] rest
    | other => parseScalar text other

/-- The members of an object after its brace or a comma; of two members of one name the later
counts. -/
def parseMembers : Nat → InsertionMap JsString JsonDocument → List Char →
    Option (JsonDocument × List Char)
  | 0, _, _ => none
  | fuel + 1, members, chars =>
    (expectChar '"' chars).bind fun quoted =>
      (parseString quoted).bind fun name =>
        (expectChar ':' name.2).bind fun colon =>
          (parseValue fuel colon).bind fun value =>
            match expectChar ',' value.2 with
            | some after => parseMembers fuel (members.set name.1 value.1) after
            | none =>
              (expectChar '\x7d' value.2).map fun after =>
                (.object (members.set name.1 value.1), after)

def parseElements : Nat → List JsonDocument → List Char → Option (JsonDocument × List Char)
  | 0, _, _ => none
  | fuel + 1, items, chars =>
    (parseValue fuel chars).bind fun value =>
      match expectChar ',' value.2 with
      | some after => parseElements fuel (items ++ [value.1]) after
      | none => (expectChar ']' value.2).map fun after => (.array (items ++ [value.1]), after)

end

/-- `JSON.parse`; each value and member takes a character of the text. -/
def parseJson (chars : List Char) : Option JsonDocument :=
  (parseValue text (2 * chars.length + 2) chars).bind fun parsed =>
    if skipSpace parsed.2 = [] then some parsed.1 else none

end Parsing

end RefundStudy.Store
