/-
  The texts of the records: the patterns the hand-written guards test, UUID texts,
  JSON documents and bounded diagnostics.
-/
import RefundStudy.Record.Vocabulary
import RefundStudy.Store.CursorText

set_option autoImplicit false

namespace RefundStudy.Record

open Store (JsString jsString plainText)

/-! ## Patterns -/

/-- The code points `\s` matches. -/
def whitespaceCodePoints : List Nat :=
  [0x9, 0xa, 0xb, 0xc, 0xd, 0x20, 0xa0, 0x1680, 0x2000, 0x2001, 0x2002, 0x2003, 0x2004, 0x2005,
    0x2006, 0x2007, 0x2008, 0x2009, 0x200a, 0x2028, 0x2029, 0x202f, 0x205f, 0x3000, 0xfeff]

/-- `\s`. -/
def isWhitespace (c : Char) : Bool := whitespaceCodePoints.contains c.toNat

/-- `\s` on a code unit. -/
def isSpace (u : UInt16) : Bool :=
  (0x09 ≤ u && u ≤ 0x0d) || u == 0x20 || u == 0xa0 || u == 0x1680 ||
    (0x2000 ≤ u && u ≤ 0x200a) || u == 0x2028 || u == 0x2029 || u == 0x202f ||
    u == 0x205f || u == 0x3000 || u == 0xfeff

/-- The code points `.` does not match. -/
def isLineTerminator (c : Char) : Bool := [0xa, 0xd, 0x2028, 0x2029].contains c.toNat

/-- `NONEMPTY_TRIMMED_PATTERN`, `/^\S(.*\S)?$/u`. -/
def isNonemptyTrimmed (text : String) : Bool :=
  match text.toList.head?, text.toList.getLast? with
  | some first, some last =>
    !isWhitespace first && !isWhitespace last && text.toList.all fun c => !isLineTerminator c
  | _, _ => false

/-- `PROVIDER_VERSION_PATTERN`, `/^[1-9][0-9]*$/u`. -/
def isProviderVersion (text : String) : Bool :=
  match text.toList with
  | [] => false
  | first :: rest => first != '0' && (first :: rest).all Char.isDigit

/-! ## UUID texts -/

def hexDigit (c : Char) : Option Nat :=
  if '0' ≤ c ∧ c ≤ '9' then some (c.toNat - '0'.toNat)
  else if 'a' ≤ c ∧ c ≤ 'f' then some (c.toNat - 'a'.toNat + 10)
  else none

/-- `isUuid4` with the id the text denotes: `UUID4_PATTERN` fixes the four dashes, the
version digit and the variant digit, and leaves hexadecimal digits everywhere else. -/
def readUuid4 (text : String) : Option Uuid4 :=
  let chars := text.toList
  let digits := chars.filter (· != '-')
  if chars.length = 36 ∧ digits.length = 32 ∧
      [8, 13, 18, 23].all (fun position => chars[position]? == some '-') ∧
      chars[14]? = some '4' ∧
      ['8', '9', 'a', 'b'].any (fun variant => chars[19]? == some variant) then
    (digits.mapM hexDigit).map fun values => values.foldl (fun number digit => 16 * number + digit) 0
  else none

/-! ## JSON documents -/

inductive JsonValue where
  | null
  | bool (value : Bool)
  | number (value : Rat)
  | string (value : String)
  | array (items : List JsonValue)
  | object (members : List (String × JsonValue))

def ownField (members : List (String × JsonValue)) (name : String) : Option JsonValue :=
  members.lookup name

/-- The UUID a member holds; `none` when it is absent or is anything else. -/
def uuidField (members : List (String × JsonValue)) (name : String) : Option Uuid4 :=
  match ownField members name with
  | some (.string text) => readUuid4 text
  | _ => none

/-! ## Bounded diagnostics -/

def utf16Width (c : Char) : Nat := if c.toNat < 0x10000 then 1 else 2

def utf16Units (text : String) : List Nat :=
  text.toList.flatMap fun c =>
    if c.toNat < 0x10000 then [c.toNat]
    else [0xd800 + (c.toNat - 0x10000) / 0x400, 0xdc00 + (c.toNat - 0x10000) % 0x400]

/-- The order in which `sort()` puts texts. -/
def codeUnitsLe (first second : String) : Bool :=
  decide ((utf16Units first).le (utf16Units second))

theorem codeUnitsLe_iff {first second : String} :
    codeUnitsLe first second = true ↔ (utf16Units first).le (utf16Units second) := by
  simp [codeUnitsLe]

theorem codeUnitsLe_total (first second : String) :
    codeUnitsLe first second = true ∨ codeUnitsLe second first = true := by
  rw [codeUnitsLe_iff, codeUnitsLe_iff]
  exact List.le_total _ _

theorem codeUnitsLe_trans {first second third : String} (h₁ : codeUnitsLe first second = true)
    (h₂ : codeUnitsLe second third = true) : codeUnitsLe first third = true := by
  rw [codeUnitsLe_iff] at h₁ h₂ ⊢
  exact List.le_trans h₁ h₂

/-- A character's first code unit tells how many it has: only characters beyond the first plane
start with a surrogate. -/
theorem utf16_chars_injective : Function.Injective fun chars : List Char =>
    chars.flatMap fun c =>
      if c.toNat < 0x10000 then [c.toNat]
      else [0xd800 + (c.toNat - 0x10000) / 0x400, 0xdc00 + (c.toNat - 0x10000) % 0x400] := by
  have hvalid : ∀ c : Char, c.toNat < 0xd800 ∨ (0xdfff < c.toNat ∧ c.toNat < 0x110000) :=
    fun c => c.valid
  have hchar : ∀ c d : Char, c.toNat = d.toNat → c = d := fun c d h => by
    rw [← Char.ofNat_toNat c, h, Char.ofNat_toNat]
  intro first second h
  induction first generalizing second with
  | nil =>
    cases second with
    | nil => rfl
    | cons d rest =>
      simp only [List.flatMap_nil, List.flatMap_cons] at h
      split at h <;> simp at h
  | cons c chars ih =>
    cases second with
    | nil =>
      simp only [List.flatMap_nil, List.flatMap_cons] at h
      split at h <;> simp at h
    | cons d rest =>
      simp only [List.flatMap_cons] at h
      have hc := hvalid c
      have hd := hvalid d
      split at h <;> split at h <;>
        simp only [List.cons_append, List.nil_append, List.cons.injEq] at h
      · rw [hchar c d h.1, ih h.2]
      · omega
      · omega
      · rw [hchar c d (by omega), ih h.2.2]

/-- `length` of a text. -/
def utf16Length (chars : List Char) : Nat := (chars.map utf16Width).sum

def truncationMarker : JsString := jsString "…[truncated]"

/-- The first code units and the marker; a pair that the limit splits loses its second half. -/
def truncatedText (text : JsString) (limit : Nat) : JsString := text.take limit ++ truncationMarker

def responseDiagnosticMaxChars : Nat := 1024

/-- The value itself, or its first part and its length. -/
def boundedDiagnostic (value : String) : String :=
  let units := jsString value
  if units.length ≤ responseDiagnosticMaxChars then value
  else plainText (units.take responseDiagnosticMaxChars) ++
    "…[truncated from " ++ toString units.length ++ " chars]"

def quotedJsonLimit : Nat := 200

/-- The text itself, or its first code units and the marker. -/
def boundedText (text : String) (limit : Nat := quotedJsonLimit) : String :=
  if (jsString text).length ≤ limit then text
  else plainText (truncatedText (jsString text) limit)

/-- One character inside a JSON string, as `JSON.stringify` writes it. -/
def jsonEscape (c : Char) : List Char :=
  match c with
  | '"' => ['\\', '"']
  | '\\' => ['\\', '\\']
  | '\n' => ['\\', 'n']
  | '\r' => ['\\', 'r']
  | '\t' => ['\\', 't']
  | other =>
    if other.toNat = 8 then ['\\', 'b']
    else if other.toNat = 12 then ['\\', 'f']
    else if other.toNat < 32 then
      ['\\', 'u', '0', '0', Nat.digitChar (other.toNat / 16), Nat.digitChar (other.toNat % 16)]
    else [other]

/-- `boundedJsonText` of a text: its JSON form, cut to the limit. -/
def boundedJsonText (text : String) : String :=
  boundedText (String.ofList ('"' :: text.toList.flatMap jsonEscape ++ ['"']))

end RefundStudy.Record
