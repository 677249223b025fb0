/-
  Page cursors are read back, and what is accepted is a key.
-/
import RefundStudy.Record.Utf8Offsets

set_option autoImplicit false

namespace RefundStudy.Store

open Foundation

/-! ## base64url -/

theorem base64Value_digit {number : Nat} (h : number < 64) :
    base64Value (base64Digit number) = some number := by
  have hall : ∀ digit : Fin 64, base64Value (base64Digit digit.val) = some digit.val := by decide
  exact hall ⟨number, h⟩

theorem bytesOfBase64_base64url (bytes : List UInt8) : bytesOfBase64 (base64url bytes) = bytes := by
  have hbyte : ∀ byte : UInt8, byte.toNat < 256 := fun byte => byte.toNat_lt
  induction bytes using base64url.induct with
  | case1 => rfl
  | case2 a =>
    have ha := hbyte a
    simp only [bytesOfBase64, base64url, List.filterMap_cons, List.filterMap_nil]
    rw [base64Value_digit (by omega), base64Value_digit (by omega)]
    simp only [bytesOfDigits]
    rw [show a.toNat / 4 * 4 + a.toNat % 4 * 16 / 16 = a.toNat by omega, UInt8.ofNat_toNat]
  | case3 a b =>
    have ha := hbyte a
    have hb := hbyte b
    simp only [bytesOfBase64, base64url, List.filterMap_cons, List.filterMap_nil]
    rw [base64Value_digit (by omega), base64Value_digit (by omega), base64Value_digit (by omega)]
    simp only [bytesOfDigits]
    rw [show a.toNat / 4 * 4 + (a.toNat % 4 * 16 + b.toNat / 16) / 16 = a.toNat by omega,
      show (a.toNat % 4 * 16 + b.toNat / 16) % 16 * 16 + b.toNat % 16 * 4 / 4 = b.toNat by omega,
      UInt8.ofNat_toNat, UInt8.ofNat_toNat]
  | case4 a b c rest ih =>
    have ha := hbyte a
    have hb := hbyte b
    have hc := hbyte c
    simp only [bytesOfBase64, base64url, List.filterMap_cons] at ih ⊢
    rw [base64Value_digit (by omega), base64Value_digit (by omega), base64Value_digit (by omega),
      base64Value_digit (by omega)]
    simp only [bytesOfDigits, ih]
    rw [show a.toNat / 4 * 4 + (a.toNat % 4 * 16 + b.toNat / 16) / 16 = a.toNat by omega,
      show (a.toNat % 4 * 16 + b.toNat / 16) % 16 * 16 + (b.toNat % 16 * 4 + c.toNat / 64) / 4 =
        b.toNat by omega,
      show (b.toNat % 16 * 4 + c.toNat / 64) % 4 * 64 + c.toNat % 64 = c.toNat by omega,
      UInt8.ofNat_toNat, UInt8.ofNat_toNat, UInt8.ofNat_toNat]

/-! ## UTF-8 -/

theorem char_scalar (c : Char) :
    c.val.toNat < 0xd800 ∨ (0xdfff < c.val.toNat ∧ c.val.toNat < 0x110000) := c.valid

theorem decodeUtf8Strict_utf8 (chars : List Char) : decodeUtf8Strict (utf8 chars) = some chars := by
  have hdecode : (utf8 chars).toByteArray.utf8Decode? = some chars.toArray :=
    List.utf8Decode?_utf8Encode
  rw [decodeUtf8Strict, Record.firstInvalidUtf8Offset_utf8, hdecode]
  simp

theorem utf8_injective {first second : List Char} (h : utf8 first = utf8 second) :
    first = second := by
  have hdecode := decodeUtf8Strict_utf8 first
  rw [h, decodeUtf8Strict_utf8] at hdecode
  exact (Option.some.inj hdecode).symm

/-! ## Strings in JSON -/

theorem hexValue_hexChar {digit : Nat} (h : digit < 16) : hexValue (hexChar digit) = some digit := by
  have hall : ∀ number : Fin 16, hexValue (hexChar number.val) = some number.val := by decide
  exact hall ⟨digit, h⟩

/-- A `\uXXXX` escape is its code unit. -/
theorem parseString_unicodeEscape (unit : UInt16) (rest : List Char) :
    parseString (unicodeEscape unit ++ rest) =
      (parseString rest).map fun parsed => (unit :: parsed.1, parsed.2) := by
  have hunit : unit.toNat < 65536 := unit.toNat_lt
  have hhex : hexUnit (hexChar (unit.toNat / 4096)) (hexChar (unit.toNat / 256 % 16))
      (hexChar (unit.toNat / 16 % 16)) (hexChar (unit.toNat % 16)) = some unit := by
    rw [hexUnit, hexValue_hexChar (by omega), Option.bind_some, hexValue_hexChar (by omega),
      Option.bind_some, hexValue_hexChar (by omega), Option.bind_some, hexValue_hexChar (by omega),
      Option.map_some]
    rw [show ((unit.toNat / 4096 * 16 + unit.toNat / 256 % 16) * 16 + unit.toNat / 16 % 16) * 16 +
      unit.toNat % 16 = unit.toNat by omega, UInt16.ofNat_toNat]
  simp only [unicodeEscape, List.cons_append, List.nil_append]
  rw [parseString, hhex]
  rfl

theorem parseString_plain {c : Char} (hspace : ¬ c.toNat < 0x20) (hquote : c ≠ '"')
    (hslash : c ≠ '\\') (rest : List Char) :
    parseString (c :: rest) =
      (parseString rest).map fun parsed => (unitsOf c ++ parsed.1, parsed.2) := by
  rw [parseString]
  · rw [if_neg (by simp [hspace, hslash])]
  · exact hquote
  all_goals intros; simp_all

theorem toNat_ofNat_scalar {number : Nat}
    (h : number < 0xd800 ∨ (0xdfff < number ∧ number < 0x110000)) :
    (Char.ofNat number).toNat = number := by
  have hvalid : number.isValidChar := h
  rw [Char.ofNat, dif_pos hvalid]
  rfl

def shortEscapes : List (UInt16 × Char) :=
  [(0x22, '"'), (0x5c, '\\'), (0x8, 'b'), (0xc, 'f'), (0xa, 'n'), (0xd, 'r'), (0x9, 't')]

/-- A unit is written as one of the short escapes, by its code, or as itself. -/
theorem quotedUnit_cases (unit : UInt16) :
    (∃ escape ∈ shortEscapes, unit = escape.1 ∧ quotedUnit unit = ['\\', escape.2]) ∨
    quotedUnit unit = unicodeEscape unit ∨
    (unit ≠ 0x22 ∧ unit ≠ 0x5c ∧ ¬ unit.toNat < 0x20 ∧ isHigh unit = false ∧ isLow unit = false) ∧
      quotedUnit unit = [Char.ofNat unit.toNat] := by
  by_cases hshort : ∃ escape ∈ shortEscapes, unit = escape.1
  · obtain ⟨escape, hmem, rfl⟩ := hshort
    have hall : ∀ escape ∈ shortEscapes, quotedUnit escape.1 = ['\\', escape.2] := by decide
    exact .inl ⟨escape, hmem, rfl, hall escape hmem⟩
  · right
    simp only [shortEscapes, List.mem_cons, List.not_mem_nil, or_false, exists_eq_or_imp,
      exists_eq_left, not_or] at hshort
    obtain ⟨h1, h2, h3, h4, h5, h6, h7⟩ := hshort
    rw [quotedUnit, if_neg h1, if_neg h2, if_neg h3, if_neg h4, if_neg h5, if_neg h6, if_neg h7]
    by_cases hescaped : unit.toNat < 0x20 ∨ isHigh unit = true ∨ isLow unit = true
    · exact .inl (if_pos hescaped)
    · rw [if_neg hescaped]
      simp only [not_or, Bool.not_eq_true] at hescaped
      exact .inr ⟨⟨h1, h2, hescaped⟩, rfl⟩

theorem parseString_quotedUnit (unit : UInt16) (rest : List Char) :
    parseString (quotedUnit unit ++ rest) =
      (parseString rest).map fun parsed => (unit :: parsed.1, parsed.2) := by
  have hunit : unit.toNat < 65536 := unit.toNat_lt
  rcases quotedUnit_cases unit with ⟨escape, hmem, rfl, heq⟩ | heq | ⟨⟨hquote, hslash, hplain⟩, heq⟩
  · rw [heq]
    simp only [shortEscapes, List.mem_cons, List.not_mem_nil, or_false] at hmem
    rcases hmem with rfl | rfl | rfl | rfl | rfl | rfl | rfl <;> rfl
  · rw [heq]
    exact parseString_unicodeEscape unit rest
  · rw [heq]
    simp only [isHigh, isLow, decide_eq_false_iff_not] at hplain
    have hscalar : (Char.ofNat unit.toNat).toNat = unit.toNat := toNat_ofNat_scalar (by omega)
    have hne : ∀ {c : Char} {code : Nat}, c.toNat = code → code < 65536 → unit ≠ UInt16.ofNat code →
        Char.ofNat unit.toNat ≠ c := by
      intro c code hcode hlt hunit hsame
      rw [← hsame, hscalar] at hcode
      apply hunit
      rw [← hcode, UInt16.ofNat_toNat]
    rw [List.singleton_append, parseString_plain (by omega) (hne rfl (by decide) hquote)
      (hne rfl (by decide) hslash), unitsOf, hscalar, if_pos hunit, UInt16.ofNat_toNat]
    rfl

theorem parseString_quotedUnits (units : JsString) (rest : List Char) :
    parseString (quotedUnits units ++ '"' :: rest) = some (units, rest) := by
  induction units using quotedUnits.induct with
  | case1 => rw [quotedUnits, List.nil_append, parseString]
  | case2 unit =>
    rw [quotedUnits, parseString_quotedUnit, parseString]
    rfl
  | case3 first second others hpair ih =>
    have hfirst : first.toNat < 65536 := first.toNat_lt
    rw [quotedUnits, if_pos hpair, List.cons_append]
    simp only [isHigh, isLow, Bool.and_eq_true, decide_eq_true_eq] at hpair
    have hscalar : (Char.ofNat (pairPoint first second)).toNat = pairPoint first second :=
      toNat_ofNat_scalar (by unfold pairPoint; omega)
    have hbig : 0x10000 ≤ (Char.ofNat (pairPoint first second)).toNat := by
      rw [hscalar]
      unfold pairPoint
      omega
    rw [parseString_plain (by omega) (by intro h; rw [h] at hbig; revert hbig; decide)
      (by intro h; rw [h] at hbig; revert hbig; decide), ih, Option.map_some, unitsOf,
      if_neg (by omega), hscalar]
    have hhigh : 0xd800 + (pairPoint first second - 0x10000) / 0x400 = first.toNat := by
      unfold pairPoint
      omega
    have hlow : 0xdc00 + (pairPoint first second - 0x10000) % 0x400 = second.toNat := by
      unfold pairPoint
      omega
    rw [hhigh, hlow, UInt16.ofNat_toNat, UInt16.ofNat_toNat]
    rfl
  | case4 first second others hpair ih =>
    rw [quotedUnits, if_neg hpair, List.append_assoc, parseString_quotedUnit, ih]
    rfl

/-! ## The JSON of a key -/

section Cursor

variable {text : NumberText}

theorem expectChar_self {c : Char} (h : isJsonSpace c = false) (rest : List Char) :
    expectChar c (c :: rest) = some rest := by
  simp [expectChar, skipSpace, h]

theorem expectChar_other {c other : Char} (h : isJsonSpace other = false) (hne : other ≠ c)
    (rest : List Char) : expectChar c (other :: rest) = none := by
  simp [expectChar, skipSpace, h, hne]

theorem parseValue_stringify (fuel : Nat) (value : JsString) (rest : List Char) :
    parseValue text (fuel + 1) (stringify value ++ rest) = some (.string value, rest) := by
  have hskip : skipSpace (stringify value ++ rest) = '"' :: (quotedUnits value ++ '"' :: rest) := by
    simp [stringify, skipSpace, isJsonSpace]
  rw [parseValue, hskip]
  simp only [parseString_quotedUnits, Option.map_some]

theorem parseMembers_comma (fuel : Nat) (members : InsertionMap JsString JsonDocument)
    (name value : JsString) (rest : List Char) :
    parseMembers text (fuel + 2) members
        (stringify name ++ ':' :: (stringify value ++ ',' :: rest)) =
      parseMembers text (fuel + 1) (members.set name (.string value)) rest := by
  rw [parseMembers]
  simp only [stringify, List.cons_append, List.append_assoc, List.nil_append]
  rw [expectChar_self (by decide), Option.bind_some, parseString_quotedUnits, Option.bind_some,
    expectChar_self (by decide), Option.bind_some]
  have hvalue := @parseValue_stringify text fuel value (',' :: rest)
  simp only [stringify, List.cons_append, List.append_assoc, List.nil_append] at hvalue
  rw [hvalue, Option.bind_some]
  simp only [expectChar_self (show isJsonSpace ',' = false by decide)]

theorem parseMembers_brace (fuel : Nat) (members : InsertionMap JsString JsonDocument)
    (name value : JsString) (rest : List Char) :
    parseMembers text (fuel + 2) members
        (stringify name ++ ':' :: (stringify value ++ '\x7d' :: rest)) =
      some (.object (members.set name (.string value)), rest) := by
  rw [parseMembers]
  simp only [stringify, List.cons_append, List.append_assoc, List.nil_append]
  rw [expectChar_self (by decide), Option.bind_some, parseString_quotedUnits, Option.bind_some,
    expectChar_self (by decide), Option.bind_some]
  have hvalue := @parseValue_stringify text fuel value ('\x7d' :: rest)
  simp only [stringify, List.cons_append, List.append_assoc, List.nil_append] at hvalue
  rw [hvalue, Option.bind_some]
  simp only [expectChar_self (show isJsonSpace '\x7d' = false by decide),
    expectChar_other (show isJsonSpace '\x7d' = false by decide)
      (show '\x7d' ≠ ',' by decide), Option.map_some]

theorem canonicalStrings_key (key : ItemKey) :
    canonicalStrings [(pkName, key.pk), (skName, key.sk)] =
      '\x7b' :: (stringify pkName ++ ':' :: (stringify key.pk ++ ',' ::
        (stringify skName ++ ':' :: (stringify key.sk ++ ['\x7d'])))) := by
  have hsorted : ([(pkName, key.pk), (skName, key.sk)] : List (JsString × JsString)).insertionSort
      (fun first second => decide ((first.1.map UInt16.toNat).le (second.1.map UInt16.toNat))) =
      [(pkName, key.pk), (skName, key.sk)] := by
    have horder : (pkName.map UInt16.toNat).le (skName.map UInt16.toNat) := by decide
    simp [List.insertionSort, List.orderedInsert, horder]
  unfold canonicalStrings
  simp only [hsorted, List.map_cons, List.map_nil, List.intercalate_cons_cons,
    List.intercalate_singleton, List.append_assoc, List.cons_append, List.nil_append]

theorem parseJson_key (key : ItemKey) :
    parseJson text (canonicalStrings [(pkName, key.pk), (skName, key.sk)]) =
      some (.object [(pkName, .string key.pk), (skName, .string key.sk)]) := by
  rw [canonicalStrings_key]
  generalize hbody : stringify pkName ++ ':' :: (stringify key.pk ++ ',' ::
    (stringify skName ++ ':' :: (stringify key.sk ++ ['\x7d']))) = body
  have hlength : 2 ≤ body.length := by
    rw [← hbody]
    simp only [stringify, List.length_append, List.length_cons]
    omega
  obtain ⟨fuel, hfuel⟩ := Nat.exists_eq_add_of_le (show 4 ≤ 2 * body.length by omega)
  have hopen : expectChar '\x7d' body = none := by
    rw [← hbody]
    simp only [stringify, List.cons_append]
    exact expectChar_other (by decide) (by decide) _
  have hskip : skipSpace ('\x7b' :: body) = '\x7b' :: body := by
    simp [skipSpace, isJsonSpace]
  have hmembers : parseMembers text (2 * body.length + 3) [] body =
      some (.object [(pkName, .string key.pk), (skName, .string key.sk)], []) := by
    rw [hfuel, ← hbody, show 4 + fuel + 3 = (fuel + 5) + 2 by omega, parseMembers_comma,
      show fuel + 5 + 1 = (fuel + 4) + 2 by omega, parseMembers_brace]
    rfl
  rw [parseJson, List.length_cons, show 2 * (body.length + 1) + 2 = (2 * body.length + 3) + 1 by omega,
    parseValue, hskip]
  simp only [hopen, hmembers, Option.bind_some]
  rfl

theorem parseJsonDocument_key (key : ItemKey) :
    parseJsonDocument text (utf8 (canonicalStrings [(pkName, key.pk), (skName, key.sk)])) =
      some (.object [(pkName, .string key.pk), (skName, .string key.sk)]) := by
  rw [parseJsonDocument, decodeUtf8Strict_utf8, Option.bind_some, parseJson_key, Option.bind_some]
  rfl

theorem decodePageCursor_encode (key : ItemKey) :
    decodePageCursor text (encodePageCursor key) key.pk =
      if keyValid key then .ok key else .error .invalidKey := by
  have hmembers : keyOfMembers [(pkName, .string key.pk), (skName, .string key.sk)] = some key := by
    rfl
  rw [decodePageCursor, encodePageCursor, bytesOfBase64_base64url, parseJsonDocument_key]
  simp only [ne_eq, not_true_eq_false, if_false, hmembers]

theorem decodePageCursor_eq_ok {cursor pk : JsString} {key : ItemKey} :
    decodePageCursor text cursor pk = .ok key ↔
      ∃ bytes members, cursor = base64url bytes ∧
        parseJsonDocument text bytes = some (.object members) ∧
        keyOfMembers members = some key ∧ key.pk = pk ∧ keyValid key = true := by
  constructor
  · intro h
    unfold decodePageCursor at h
    dsimp only at h
    split at h
    · cases h
    rename_i hcanonical
    split at h
    · rename_i members hdocument
      split at h
      · cases h
      · rename_i found hfound
        split at h
        · cases h
        rename_i hpk
        split at h
        · rename_i hvalid
          cases h
          exact ⟨bytesOfBase64 cursor, members, (of_not_not hcanonical).symm, hdocument, hfound,
            of_not_not hpk, hvalid⟩
        · cases h
    · cases h
  · intro h
    obtain ⟨bytes, members, rfl, hdocument, hfound, hpk, hvalid⟩ := h
    rw [decodePageCursor, bytesOfBase64_base64url]
    simp only [ne_eq, not_true_eq_false, if_false, hdocument, hfound, hpk, hvalid, if_true]

end Cursor

end RefundStudy.Store
