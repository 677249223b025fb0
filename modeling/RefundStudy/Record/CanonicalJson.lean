/-
  Canonical JSON and the JSONL files made of it (`record-contract/canonical-json.ts`,
  `json-text.ts`, `parsing.ts`).
-/
import RefundStudy.Store.CursorRoundTrip

set_option autoImplicit false

namespace RefundStudy.Record

open Foundation Store

variable {value : JsonDocument} {numbers : Double → Prop}

/-! ## Integers -/

theorem zero_lt_bound : 0 < 2 ^ 53 := by decide

theorem one_lt_bound : 1 < 2 ^ 53 := by decide

/-- A number below `2 ^ 53` as a binary64 value. -/
def doubleOfNat (number : Nat) (h : number < 2 ^ 53) : FiniteDouble :=
  if hzero : number = 0 then ⟨false, 0, -1074, by decide, by decide, by decide, .inr rfl⟩
  else
    { negative := false
      significand := number * 2 ^ (52 - number.log2)
      exponent := (number.log2 : Int) - 52
      significand_lt := by
        have hlog : number.log2 < 53 := (Nat.log2_lt hzero).mpr h
        calc number * 2 ^ (52 - number.log2)
            < 2 ^ (number.log2 + 1) * 2 ^ (52 - number.log2) :=
              Nat.mul_lt_mul_of_pos_right Nat.lt_log2_self (Nat.two_pow_pos _)
          _ = 2 ^ 53 := by rw [← Nat.pow_add]; congr 1; omega
      exponent_ge := by omega
      exponent_le := by
        have hlog : number.log2 < 53 := (Nat.log2_lt hzero).mpr h
        omega
      canonical := by
        left
        have hlog : number.log2 < 53 := (Nat.log2_lt hzero).mpr h
        calc 2 ^ 52 = 2 ^ number.log2 * 2 ^ (52 - number.log2) := by
              rw [← Nat.pow_add]; congr 1; omega
          _ ≤ number * 2 ^ (52 - number.log2) :=
              Nat.mul_le_mul_right _ (Nat.log2_self_le hzero) }

variable (number : Nat)

theorem units_doubleOfNat (h : number < 2 ^ 53) :
    (doubleOfNat number h).units = number * FiniteDouble.unitsOfOne := by
  unfold doubleOfNat
  split
  · rename_i hzero
    rw [hzero, FiniteDouble.units, Nat.zero_mul, Nat.zero_mul]
  · rename_i hzero
    have hlog : number.log2 < 53 := (Nat.log2_lt hzero).mpr h
    have hexponent : ((number.log2 : Int) - 52 + 1074).toNat = number.log2 + 1022 := by omega
    simp only [FiniteDouble.units, hexponent, FiniteDouble.unitsOfOne]
    rw [Nat.mul_assoc, ← Nat.pow_add,
      show 52 - number.log2 + (number.log2 + 1022) = 1074 by omega]

theorem negative_doubleOfNat (h : number < 2 ^ 53) : (doubleOfNat number h).negative = false := by
  unfold doubleOfNat
  split <;> rfl

theorem positiveZero_doubleOfNat (h : number < 2 ^ 53) :
    (doubleOfNat number h).positiveZero = doubleOfNat number h := by
  have hnegative := negative_doubleOfNat number h
  unfold FiniteDouble.positiveZero
  split
  · rw [← hnegative]
  · rfl

def naturalOf : Double → Option Nat
  | .finite value =>
    if value.units % FiniteDouble.unitsOfOne = 0 ∧ value.positiveZero.negative = false then
      some (value.units / FiniteDouble.unitsOfOne)
    else none
  | _ => none

theorem naturalOf_doubleOfNat (h : number < 2 ^ 53) :
    naturalOf (.finite (doubleOfNat number h)) = some number := by
  have hpos : 0 < FiniteDouble.unitsOfOne := Nat.two_pow_pos _
  rw [naturalOf, positiveZero_doubleOfNat, negative_doubleOfNat, units_doubleOfNat,
    Nat.mul_mod_left, if_pos ⟨rfl, rfl⟩, Nat.mul_div_cancel _ hpos]

variable (text : NumberText)

def PrintsIntegers : Prop :=
  ∀ number (h : number < 2 ^ 53),
    (text.print (.finite (doubleOfNat number h))).toList = Nat.toDigits 10 number

theorem exactText_printsIntegers : PrintsIntegers exactText := by
  intro number h
  have hpos : 0 < FiniteDouble.unitsOfOne := Nat.two_pow_pos _
  have hdigits : exactDigits (doubleOfNat number h) = Nat.toDigits 10 number := by
    rw [exactDigits, units_doubleOfNat, Nat.mul_mod_left, if_pos rfl, Nat.mul_div_cancel _ hpos]
  simp only [exactText, exactPrint, positiveZero_doubleOfNat, negative_doubleOfNat,
    Bool.false_eq_true, if_false, List.nil_append, hdigits, String.toList_ofList]

/-! ## The text of a document -/

section Text

variable (text : NumberText)

mutual

def jsonText : JsonDocument → List Char
  | .null => ['n', 'u', 'l', 'l']
  | .bool true => ['t', 'r', 'u', 'e']
  | .bool false => ['f', 'a', 'l', 's', 'e']
  | .number value => (text.print value).toList
  | .string value => stringify value
  | .array items => '[' :: itemsText items
  | .object members => '\x7b' :: membersText members

def itemsText : List JsonDocument → List Char
  | [] => [']']
  | item :: rest => jsonText item ++ moreItemsText rest

def moreItemsText : List JsonDocument → List Char
  | [] => [']']
  | item :: rest => ',' :: (jsonText item ++ moreItemsText rest)

def membersText : List (JsString × JsonDocument) → List Char
  | [] => ['\x7d']
  | (name, value) :: rest => stringify name ++ ':' :: (jsonText value ++ moreMembersText rest)

def moreMembersText : List (JsString × JsonDocument) → List Char
  | [] => ['\x7d']
  | (name, value) :: rest =>
    ',' :: (stringify name ++ ':' :: (jsonText value ++ moreMembersText rest))

end

end Text

/-- The order of keys: by UTF-16 code units. -/
def unitsLe (first second : JsString) : Bool :=
  decide ((first.map UInt16.toNat).le (second.map UInt16.toNat))

/-- `Object.keys(members).sort()`. -/
def sortMembers (members : List (JsString × JsonDocument)) : List (JsString × JsonDocument) :=
  members.insertionSort fun first second => unitsLe first.1 second.1

mutual

/-- The value with the keys of every object in order. -/
def canonicalDocument : JsonDocument → JsonDocument
  | .null => .null
  | .bool value => .bool value
  | .number value => .number value
  | .string value => .string value
  | .array items => .array (canonicalItems items)
  | .object members => .object (sortMembers (canonicalMembers members))

def canonicalItems : List JsonDocument → List JsonDocument
  | [] => []
  | item :: rest => canonicalDocument item :: canonicalItems rest

def canonicalMembers : List (JsString × JsonDocument) → List (JsString × JsonDocument)
  | [] => []
  | (name, value) :: rest => (name, canonicalDocument value) :: canonicalMembers rest

end

def canonicalJson (value : JsonDocument) : List Char :=
  jsonText text (canonicalDocument value)

def serializeJsonl (records : List JsonDocument) : List UInt8 :=
  utf8 (records.flatMap fun record => canonicalJson text record ++ ['\n'])

/-! ## Files of one text a line -/

def newline : UInt8 := 0x0a

inductive JsonParseFailure where
  | invalidUtf8 (byteOffset : Nat)
  | invalidJson

structure LineSegment where
  start : Nat
  bytes : List UInt8

structure JsonlLine where
  lineNumber : Nat
  parsed : Except JsonParseFailure JsonDocument

/-- The lines of a file: a final line break ends the last one and starts no other. -/
def lineBytes (bytes : List UInt8) : List (List UInt8) :=
  if bytes = [] then []
  else if bytes.getLast? = some newline then bytes.dropLast.splitOn newline
  else bytes.splitOn newline

def placeLines (start : Nat) : List (List UInt8) → List LineSegment
  | [] => []
  | line :: rest => ⟨start, line⟩ :: placeLines (start + line.length + 1) rest

def lineSegments (bytes : List UInt8) : List LineSegment := placeLines 0 (lineBytes bytes)

/-- What `JSON.parse` throws is caught, and a number that overflows is refused. -/
def parseJsonText (chars : List Char) : Except JsonParseFailure JsonDocument :=
  match parseJson text chars with
  | none => .error .invalidJson
  | some value => if hasNonFinite value then .error .invalidJson else .ok value

/-- The offset of a decoding failure is relative to the file. -/
def parseLine (segment : LineSegment) : Except JsonParseFailure JsonDocument :=
  match decodeUtf8Strict segment.bytes with
  | none => .error (.invalidUtf8 (segment.start + (firstInvalidUtf8Offset segment.bytes).getD 0))
  | some chars => parseJsonText text chars

/-- The lines `parseJsonl` reports. -/
def parseJsonl (bytes : List UInt8) : List JsonlLine :=
  (lineSegments bytes).mapIdx fun index segment => ⟨index + 1, parseLine text segment⟩

/-- A value JSON represents exactly: its numbers are safe integers, the names of an object are
distinct. -/
inductive Writable : JsonDocument → Prop where
  | null : Writable .null
  | bool (value : Bool) : Writable (.bool value)
  | number (number : Nat) (h : number < 2 ^ 53) :
      Writable (.number (.finite (doubleOfNat number h)))
  | string (value : JsString) : Writable (.string value)
  | array {items : List JsonDocument} (h : ∀ item ∈ items, Writable item) :
      Writable (.array items)
  | object {members : List (JsString × JsonDocument)} (distinct : (members.map Prod.fst).Nodup)
      (h : ∀ member ∈ members, Writable member.2) : Writable (.object members)

/-- A value whose numbers meet a condition and whose objects have distinct names. -/
inductive Built (numbers : Double → Prop) : JsonDocument → Prop where
  | null : Built numbers .null
  | bool (value : Bool) : Built numbers (.bool value)
  | number {value : Double} (h : numbers value) : Built numbers (.number value)
  | string (value : JsString) : Built numbers (.string value)
  | array {items : List JsonDocument} (h : ∀ item ∈ items, Built numbers item) :
      Built numbers (.array items)
  | object {members : List (JsString × JsonDocument)} (distinct : (members.map Prod.fst).Nodup)
      (h : ∀ member ∈ members, Built numbers member.2) : Built numbers (.object members)

/-- A number below `2 ^ 53`. -/
def SafeNatural (value : Double) : Prop :=
  ∃ (number : Nat) (h : number < 2 ^ 53), value = .finite (doubleOfNat number h)

theorem Writable.built (h : Writable value) : Built SafeNatural value := by
  induction h with
  | null => exact .null
  | bool flag => exact .bool flag
  | number number hsafe => exact .number ⟨number, hsafe, rfl⟩
  | string chars => exact .string chars
  | array _ ih => exact .array ih
  | object hdistinct _ ih => exact .object hdistinct ih

mutual

/-- The value without the signs of its zeros, which its text does not show. -/
def zeroed : JsonDocument → JsonDocument
  | .null => .null
  | .bool value => .bool value
  | .number value => .number value.positiveZero
  | .string value => .string value
  | .array items => .array (zeroedItems items)
  | .object members => .object (zeroedMembers members)

def zeroedItems : List JsonDocument → List JsonDocument
  | [] => []
  | item :: rest => zeroed item :: zeroedItems rest

def zeroedMembers : List (JsString × JsonDocument) → List (JsString × JsonDocument)
  | [] => []
  | (name, value) :: rest => (name, zeroed value) :: zeroedMembers rest

end

variable (members : List (JsString × JsonDocument))

theorem zeroedMembers_names : (zeroedMembers members).map Prod.fst = members.map Prod.fst := by
  induction members with
  | nil => rfl
  | cons member rest ih => rw [zeroedMembers, List.map_cons, List.map_cons, ih]

theorem zeroed_of_built
    (hnumbers : ∀ value, numbers value → value.positiveZero = value) (h : Built numbers value) :
    zeroed value = value := by
  induction h with
  | null => rfl
  | bool flag => rfl
  | number hnumber => rw [zeroed, hnumbers _ hnumber]
  | string chars => rfl
  | @array items hitems ih =>
    rw [zeroed]
    congr 1
    clear hitems
    induction items with
    | nil => rfl
    | cons item rest ihrest =>
      rw [zeroedItems, ih item List.mem_cons_self,
        ihrest fun other hmem => ih other (List.mem_cons_of_mem _ hmem)]
  | @object members hdistinct hmembers ih =>
    rw [zeroed]
    congr 1
    clear hdistinct hmembers
    induction members with
    | nil => rfl
    | cons member rest ihrest =>
      rw [zeroedMembers, ih member List.mem_cons_self,
        ihrest fun other hmem => ih other (List.mem_cons_of_mem _ hmem)]

/-! ## Reading a text back -/

def EndsNumber (rest : List Char) : Prop :=
  ∀ c ∈ rest.head?, c.isDigit = false ∧ c ≠ '.' ∧ c ≠ 'e' ∧ c ≠ 'E'

theorem EndsNumber.cons {c : Char} {rest : List Char}
    (h : c.isDigit = false ∧ c ≠ '.' ∧ c ≠ 'e' ∧ c ≠ 'E') : EndsNumber (c :: rest) := by
  intro found hfound
  rw [List.head?_cons, Option.mem_some_iff] at hfound
  rwa [← hfound]

theorem takeDigits_digits {digits rest : List Char} (hne : digits ≠ [])
    (hdigits : ∀ c ∈ digits, c.isDigit = true) (hrest : EndsNumber rest) :
    takeDigits (digits ++ rest) = some (digits, rest) := by
  have htake : (digits ++ rest).takeWhile Char.isDigit = digits ∧
      (digits ++ rest).dropWhile Char.isDigit = rest := by
    rw [List.takeWhile_append_of_pos hdigits, List.dropWhile_append_of_pos hdigits]
    cases rest with
    | nil => simp
    | cons c after =>
      have hc := (hrest c rfl).1
      simp [hc]
  rw [takeDigits, htake.1, htake.2]
  cases digits with
  | nil => exact absurd rfl hne
  | cons => rfl

theorem optionalPart_none {starts rest : List Char} (signed : Bool)
    (h : ∀ c ∈ rest.head?, c ∉ starts) : optionalPart starts signed rest = some ([], rest) := by
  cases rest with
  | nil => rfl
  | cons c after =>
    have hc : starts.contains c = false := by
      simpa using h c rfl
    unfold optionalPart
    simp only [hc, Bool.false_eq_true, if_false]

theorem parseNumber_exponent (negative : Bool) (number : Nat) {exponent rest : List Char}
    (hexponent : optionalPart ['e', 'E'] true (exponent ++ rest) = some (exponent, rest))
    (hstart : EndsNumber (exponent ++ rest) ∨ exponent.head? = some 'e') :
    parseNumber ((if negative then ['-'] else []) ++ (Nat.toDigits 10 number ++ exponent) ++ rest) =
      some ((if negative then ['-'] else []) ++ (Nat.toDigits 10 number ++ exponent), rest) := by
  have hdigits := toDigits_isDigit number
  have hnext : ∀ c ∈ (exponent ++ rest).head?, c.isDigit = false ∧ c ≠ '.' := by
    intro c hc
    rcases hstart with hends | hmark
    · exact ⟨(hends c hc).1, (hends c hc).2.1⟩
    · have hhead : (exponent ++ rest).head? = some 'e' := by
        rw [List.head?_append, hmark]
        rfl
      rw [hhead, Option.mem_some_iff] at hc
      rw [← hc]
      exact ⟨by decide, by decide⟩
  have htake : takeDigits (Nat.toDigits 10 number ++ (exponent ++ rest)) =
      some (Nat.toDigits 10 number, exponent ++ rest) := by
    obtain ⟨htaken, hdropped⟩ := @span_digits (Nat.toDigits 10 number) (exponent ++ rest) hdigits (by
      intro c others hc
      exact (hnext c (by rw [hc]; rfl)).1)
    rw [takeDigits, htaken, hdropped]
    cases hcases : Nat.toDigits 10 number with
    | nil => exact absurd hcases Nat.toDigits_ne_nil
    | cons => rfl
  have hinteger : integerPart (Nat.toDigits 10 number ++ (exponent ++ rest)) =
      some (Nat.toDigits 10 number, exponent ++ rest) := by
    rcases Nat.eq_zero_or_pos number with hzero | hpos
    · rw [hzero, Nat.toDigits_zero]
      rfl
    · obtain ⟨first, others, hfirst, hne⟩ := toDigits_head_ne_zero hpos
      rw [integerPart, htake]
      intro after hafter
      rw [hfirst, List.cons_append] at hafter
      exact hne (List.cons.inj hafter).1
  have hpoint : optionalPart ['.'] false (exponent ++ rest) = some ([], exponent ++ rest) :=
    optionalPart_none false fun c hc => by simp [(hnext c hc).2]
  have hsign : (Nat.toDigits 10 number ++ (exponent ++ rest)).head? ≠ some '-' := by
    intro hhead
    rw [List.head?_append_of_ne_nil _ Nat.toDigits_ne_nil] at hhead
    exact absurd (hdigits _ (List.mem_of_mem_head? hhead)) (by decide)
  cases negative with
  | true =>
    simp only [parseNumber, if_true, List.cons_append, List.nil_append, List.append_assoc,
      List.head?_cons, List.length_singleton, List.drop_succ_cons, List.drop_zero, hinteger,
      Option.bind_some, hpoint, hexponent, Option.map_some]
  | false =>
    simp only [parseNumber, Bool.false_eq_true, if_false, List.nil_append, List.append_assoc,
      if_neg hsign, List.length_nil, List.drop_zero, hinteger, Option.bind_some, hpoint,
      hexponent, Option.map_some]

theorem parseNumber_toDigits {rest : List Char} (hrest : EndsNumber rest) :
    parseNumber (Nat.toDigits 10 number ++ rest) = some (Nat.toDigits 10 number, rest) := by
  have hnone : optionalPart ['e', 'E'] true ([] ++ rest) = some ([], rest) :=
    optionalPart_none true fun c hc => by simp [(hrest c hc).2.2.1, (hrest c hc).2.2.2]
  have hparsed := parseNumber_exponent false number hnone (.inl hrest)
  rwa [List.append_nil] at hparsed

section RoundTrip

variable {text : NumberText}

def NumberHead (first : Char) : Prop := first.isDigit = true ∨ first = '-'

theorem NumberHead.ne {first c : Char} (h : NumberHead first) (hc : c.isDigit = false)
    (hminus : c ≠ '-') : first ≠ c := by
  intro heq
  rw [heq] at h
  rcases h with hdigit | hsign
  · rw [hc] at hdigit
    cases hdigit
  · exact hminus hsign

theorem NumberHead.not_space {first : Char} (h : NumberHead first) : isJsonSpace first = false := by
  simp [isJsonSpace, h.ne (c := ' ') (by decide) (by decide),
    h.ne (c := '\t') (by decide) (by decide), h.ne (c := '\n') (by decide) (by decide),
    h.ne (c := '\r') (by decide) (by decide)]

/-- The parser takes the printed text of the number whole and reads the number from it. -/
structure NumberReads (text : NumberText) (value : Double) : Prop where
  head : ∃ first rest, (text.print value).toList = first :: rest ∧ NumberHead first
  parsed : ∀ rest, EndsNumber rest →
    parseNumber ((text.print value).toList ++ rest) = some ((text.print value).toList, rest)
  read : text.read (text.print value) = value.positiveZero

theorem SafeNatural.numberReads (law : text.Lawful) (hprints : PrintsIntegers text)
    {value : Double} (h : SafeNatural value) : NumberReads text value := by
  obtain ⟨number, hsafe, rfl⟩ := h
  obtain ⟨first, rest, hfirst⟩ := List.exists_cons_of_ne_nil (@Nat.toDigits_ne_nil number 10)
  refine ⟨⟨first, rest, by rw [hprints, hfirst], .inl ?_⟩, fun rest hrest => ?_, law.read_print _⟩
  · exact toDigits_isDigit number first (by rw [hfirst]; exact List.mem_cons_self)
  · rw [hprints]
    exact parseNumber_toDigits number hrest

theorem jsonText_head
    (hnumbers : ∀ value, numbers value → NumberReads text value)
    (h : Built numbers value) :
    ∃ first rest, jsonText text value = first :: rest ∧ isJsonSpace first = false ∧ first ≠ ']' := by
  cases h with
  | null => exact ⟨_, _, rfl, by decide, by decide⟩
  | bool flag => cases flag <;> exact ⟨_, _, rfl, by decide, by decide⟩
  | string chars => exact ⟨_, _, rfl, by decide, by decide⟩
  | array => exact ⟨_, _, rfl, by decide, by decide⟩
  | object => exact ⟨_, _, rfl, by decide, by decide⟩
  | number hnumber =>
    obtain ⟨first, rest, hfirst, hhead⟩ := (hnumbers _ hnumber).head
    exact ⟨first, rest, hfirst, hhead.not_space, hhead.ne (by decide) (by decide)⟩

/-- The parser inverts the text of this value, whatever follows it. -/
def ParsesBack (text : NumberText) (value : JsonDocument) : Prop :=
  ∀ fuel rest, 2 * (jsonText text value).length ≤ fuel → EndsNumber rest →
    parseValue text fuel (jsonText text value ++ rest) = some (value, rest)

/-- The parser inverts the text of this value up to the signs of zeros, whatever follows it. -/
def ReadsZeroed (text : NumberText) (value : JsonDocument) : Prop :=
  ∀ fuel rest, 2 * (jsonText text value).length ≤ fuel → EndsNumber rest →
    parseValue text fuel (jsonText text value ++ rest) = some (zeroed value, rest)

theorem number_readsZeroed {value : Double} (h : NumberReads text value) :
    ReadsZeroed text (.number value) := by
  intro fuel rest hfuel hrest
  obtain ⟨first, others, hfirst, hhead⟩ := h.head
  rw [jsonText] at hfuel ⊢
  have hscalar : parseScalar text ((text.print value).toList ++ rest) =
      some (.number value.positiveZero, rest) := by
    have htake : ∀ (width : Nat) (word : List Char) (letter : Char) (letters : List Char),
        word = letter :: letters → letter.isDigit = false → letter ≠ '-' →
        ((text.print value).toList ++ rest).take (width + 1) ≠ word := by
      intro width word letter letters hword hletter hminus heq
      rw [hfirst, List.cons_append, List.take_succ_cons, hword] at heq
      exact hhead.ne hletter hminus (List.cons.inj heq).1
    rw [parseScalar, if_neg (htake 3 _ 'n' _ rfl (by decide) (by decide)),
      if_neg (htake 3 _ 't' _ rfl (by decide) (by decide)),
      if_neg (htake 4 _ 'f' _ rfl (by decide) (by decide)),
      h.parsed rest hrest, Option.map_some, String.ofList_toList, h.read]
  obtain ⟨fuel, rfl⟩ : ∃ less, fuel = less + 1 := by
    rw [hfirst, List.length_cons] at hfuel
    exact ⟨fuel - 1, by omega⟩
  have hskip : skipSpace ((text.print value).toList ++ rest) =
      (text.print value).toList ++ rest := by
    rw [hfirst, List.cons_append, skipSpace, List.dropWhile_cons_of_neg (by simp [hhead.not_space])]
  have hne : ∀ (c : Char) (after : List Char), c.isDigit = false → c ≠ '-' →
      (text.print value).toList ++ rest ≠ c :: after := by
    intro c after hc hminus heq
    rw [hfirst, List.cons_append] at heq
    exact hhead.ne hc hminus (List.cons.inj heq).1
  rw [parseValue, hskip]
  split
  · rename_i after heq
    exact absurd heq (hne _ _ (by decide) (by decide))
  · rename_i after heq
    exact absurd heq (hne _ _ (by decide) (by decide))
  · rename_i after heq
    exact absurd heq (hne _ _ (by decide) (by decide))
  · exact hscalar

theorem parseElements_items {items : List JsonDocument}
    (h : ∀ item ∈ items, ReadsZeroed text item) : ∀ (item : JsonDocument) (fuel : Nat)
    (before : List JsonDocument) (rest : List Char), ReadsZeroed text item →
      2 * (jsonText text item ++ moreItemsText text items).length ≤ fuel →
      parseElements text fuel before (jsonText text item ++ moreItemsText text items ++ rest) =
        some (.array (before ++ zeroedItems (item :: items)), rest) := by
  induction items with
  | nil =>
    intro item fuel before rest hitem hfuel
    rw [moreItemsText] at hfuel ⊢
    rw [List.length_append, List.length_singleton] at hfuel
    obtain ⟨fuel, rfl⟩ : ∃ less, fuel = less + 1 := ⟨fuel - 1, by omega⟩
    rw [parseElements, List.append_assoc, List.singleton_append,
      hitem fuel _ (by omega) (.cons (by decide)), Option.bind_some,
      expectChar_other (by decide) (by decide), expectChar_self (by decide), Option.map_some,
      zeroedItems, zeroedItems]
  | cons next others ih =>
    intro item fuel before rest hitem hfuel
    rw [moreItemsText] at hfuel ⊢
    rw [List.length_append, List.length_cons] at hfuel
    obtain ⟨fuel, rfl⟩ : ∃ less, fuel = less + 1 := ⟨fuel - 1, by omega⟩
    have hothers := ih (fun other hmem => h other (List.mem_cons_of_mem _ hmem)) next fuel
      (before ++ [zeroed item]) rest (h next List.mem_cons_self) (by omega)
    rw [parseElements, List.append_assoc, List.cons_append,
      hitem fuel _ (by omega) (.cons (by decide)), Option.bind_some,
      expectChar_self (by decide)]
    dsimp only
    rw [hothers, List.append_assoc, List.singleton_append, zeroedItems.eq_def (item :: _)]

theorem parseMembers_members {members : List (JsString × JsonDocument)}
    (h : ∀ member ∈ members, ReadsZeroed text member.2) :
    ∀ (name : JsString) (value : JsonDocument) (fuel : Nat)
      (before : InsertionMap JsString JsonDocument) (rest : List Char), ReadsZeroed text value →
      (before.map Prod.fst ++ name :: members.map Prod.fst).Nodup →
      2 * (jsonText text value ++ moreMembersText text members).length ≤ fuel →
      parseMembers text fuel before
          (stringify name ++ ':' :: (jsonText text value ++ moreMembersText text members) ++ rest) =
        some (.object (before ++ zeroedMembers ((name, value) :: members)), rest) := by
  induction members with
  | nil =>
    intro name value fuel before rest hvalue hdistinct hfuel
    rw [moreMembersText] at hfuel ⊢
    rw [List.length_append, List.length_singleton] at hfuel
    obtain ⟨fuel, rfl⟩ : ∃ less, fuel = less + 1 := ⟨fuel - 1, by omega⟩
    have hname : name ∉ before.map Prod.fst := by
      rw [List.nodup_append] at hdistinct
      exact fun hmem => hdistinct.2.2 name hmem name List.mem_cons_self rfl
    rw [parseMembers]
    simp only [stringify, List.cons_append, List.append_assoc, List.nil_append]
    rw [expectChar_self (by decide), Option.bind_some, parseString_quotedUnits,
      Option.bind_some, expectChar_self (by decide), Option.bind_some,
      hvalue fuel _ (by omega) (.cons (by decide)), Option.bind_some,
      expectChar_other (by decide) (by decide), expectChar_self (by decide), Option.map_some,
      InsertionMap.set_of_not_mem hname, zeroedMembers, zeroedMembers]
  | cons next others ih =>
    intro name value fuel before rest hvalue hdistinct hfuel
    obtain ⟨nextName, nextValue⟩ := next
    rw [moreMembersText] at hfuel ⊢
    rw [List.length_append, List.length_cons, List.length_append, List.length_cons] at hfuel
    obtain ⟨fuel, rfl⟩ : ∃ less, fuel = less + 1 := ⟨fuel - 1, by omega⟩
    have hname : name ∉ before.map Prod.fst := by
      rw [List.nodup_append] at hdistinct
      exact fun hmem => hdistinct.2.2 name hmem name List.mem_cons_self rfl
    have hkeys : ((before ++ [(name, zeroed value)]).map Prod.fst ++
        nextName :: others.map Prod.fst).Nodup := by
      rwa [List.map_append, List.append_assoc]
    have hothers := ih (fun other hmem => h other (List.mem_cons_of_mem _ hmem)) nextName
      nextValue fuel (before ++ [(name, zeroed value)]) rest (h _ List.mem_cons_self) hkeys
      (by omega)
    simp only [stringify, List.cons_append, List.append_assoc, List.nil_append] at hothers
    rw [parseMembers]
    simp only [stringify, List.cons_append, List.append_assoc, List.nil_append]
    rw [expectChar_self (by decide), Option.bind_some, parseString_quotedUnits,
      Option.bind_some, expectChar_self (by decide), Option.bind_some,
      hvalue fuel _ (by omega) (.cons (by decide)), Option.bind_some,
      expectChar_self (by decide)]
    dsimp only
    rw [InsertionMap.set_of_not_mem hname, hothers, zeroedMembers.eq_def ((name, value) :: _)]

theorem built_readsZeroed
    (hnumbers : ∀ value, numbers value → NumberReads text value)
    (h : Built numbers value) : ReadsZeroed text value := by
  induction h with
  | null =>
    intro fuel rest hfuel _
    obtain ⟨fuel, rfl⟩ : ∃ less, fuel = less + 1 := ⟨fuel - 1, by simp [jsonText] at hfuel; omega⟩
    simp [jsonText, parseValue, skipSpace, isJsonSpace, parseScalar, zeroed]
  | bool flag =>
    intro fuel rest hfuel _
    obtain ⟨fuel, rfl⟩ : ∃ less, fuel = less + 1 :=
      ⟨fuel - 1, by cases flag <;> simp [jsonText] at hfuel <;> omega⟩
    cases flag <;> simp [jsonText, parseValue, skipSpace, isJsonSpace, parseScalar, zeroed]
  | number hnumber => exact number_readsZeroed (hnumbers _ hnumber)
  | string chars =>
    intro fuel rest hfuel _
    obtain ⟨fuel, rfl⟩ : ∃ less, fuel = less + 1 :=
      ⟨fuel - 1, by simp [jsonText, stringify] at hfuel; omega⟩
    exact parseValue_stringify fuel chars rest
  | @array items hitems ih =>
    intro fuel rest hfuel _
    rw [jsonText] at hfuel ⊢
    rw [List.length_cons] at hfuel
    obtain ⟨fuel, rfl⟩ : ∃ less, fuel = less + 1 := ⟨fuel - 1, by omega⟩
    have hskip : skipSpace ('[' :: itemsText text items ++ rest) =
        '[' :: (itemsText text items ++ rest) := by
      simp [skipSpace, isJsonSpace]
    rw [parseValue, hskip]
    cases items with
    | nil => simp [itemsText, expectChar, skipSpace, isJsonSpace, zeroed, zeroedItems]
    | cons item others =>
      obtain ⟨first, tail, hfirst, hspace, hclose⟩ :=
        jsonText_head hnumbers (hitems item List.mem_cons_self)
      have hopen : expectChar ']' (itemsText text (item :: others) ++ rest) = none := by
        rw [itemsText, hfirst, List.cons_append, List.cons_append]
        exact expectChar_other hspace hclose _
      have hparsed := parseElements_items
        (fun other hmem => ih other (List.mem_cons_of_mem _ hmem)) item fuel [] rest
        (ih item List.mem_cons_self) (by rw [itemsText] at hfuel; omega)
      simp only [hopen]
      rw [itemsText, hparsed, List.nil_append, zeroed]
  | @object members hdistinct hmembers ih =>
    intro fuel rest hfuel _
    rw [jsonText] at hfuel ⊢
    rw [List.length_cons] at hfuel
    obtain ⟨fuel, rfl⟩ : ∃ less, fuel = less + 1 := ⟨fuel - 1, by omega⟩
    have hskip : skipSpace ('\x7b' :: membersText text members ++ rest) =
        '\x7b' :: (membersText text members ++ rest) := by
      simp [skipSpace, isJsonSpace]
    rw [parseValue, hskip]
    cases members with
    | nil => simp [membersText, expectChar, skipSpace, isJsonSpace, zeroed, zeroedMembers]
    | cons member others =>
      obtain ⟨name, value⟩ := member
      have hopen : expectChar '\x7d' (membersText text ((name, value) :: others) ++ rest) =
          none := by
        rw [membersText, stringify, List.cons_append, List.cons_append, List.cons_append]
        exact expectChar_other (by decide) (by decide) _
      have hparsed := parseMembers_members
        (fun other hmem => ih other (List.mem_cons_of_mem _ hmem)) name value fuel [] rest
        (ih _ List.mem_cons_self) (by simpa using hdistinct)
        (by
          rw [membersText, List.length_append, List.length_cons] at hfuel
          omega)
      simp only [hopen]
      rw [membersText, hparsed, List.nil_append, zeroed]

/-- `JSON.parse` of the text of a value. -/
theorem parseJson_built {numbers : Double → Prop}
    (hnumbers : ∀ value, numbers value → NumberReads text value) {value : JsonDocument}
    (h : Built numbers value) : parseJson text (jsonText text value) = some (zeroed value) := by
  have hparsed := built_readsZeroed hnumbers h (2 * (jsonText text value).length + 2) []
    (by omega) (by intro c hc; cases hc)
  rw [List.append_nil] at hparsed
  rw [parseJson, hparsed]
  rfl

theorem zeroed_of_safe (h : Built SafeNatural value) : zeroed value = value := by
  apply zeroed_of_built _ h
  rintro _ ⟨number, hsafe, rfl⟩
  rw [Double.positiveZero, positiveZero_doubleOfNat]

theorem safe_parsesBack (law : text.Lawful) (hprints : PrintsIntegers text)
    (h : Built SafeNatural value) : ParsesBack text value := by
  intro fuel rest hfuel hrest
  have hread := built_readsZeroed (fun _ hsafe => hsafe.numberReads law hprints) h fuel rest
    hfuel hrest
  rwa [zeroed_of_safe h] at hread

/-- `JSON.parse` inverts the text of a value with safe integers. -/
theorem parseJson_jsonText (law : text.Lawful) (hprints : PrintsIntegers text)
    (h : Built SafeNatural value) :
    parseJson text (jsonText text value) = some value := by
  have hparsed := safe_parsesBack law hprints h (2 * (jsonText text value).length + 2) []
    (by omega) (by intro c hc; cases hc)
  rw [List.append_nil] at hparsed
  rw [parseJson, hparsed]
  rfl

theorem itemsNonFinite_eq_false {items : List JsonDocument} :
    itemsNonFinite items = false ↔ ∀ item ∈ items, hasNonFinite item = false := by
  induction items with
  | nil => simp [itemsNonFinite]
  | cons item rest ih => rw [itemsNonFinite, Bool.or_eq_false_iff, ih, List.forall_mem_cons]

theorem membersNonFinite_eq_false {members : List (JsString × JsonDocument)} :
    membersNonFinite members = false ↔ ∀ member ∈ members, hasNonFinite member.2 = false := by
  induction members with
  | nil => simp [membersNonFinite]
  | cons member rest ih => rw [membersNonFinite, Bool.or_eq_false_iff, ih, List.forall_mem_cons]

theorem hasNonFinite_of_built
    (hnumbers : ∀ value, numbers value → value.isFinite = true)
    (h : Built numbers value) : hasNonFinite value = false := by
  induction h with
  | null => rfl
  | bool => rfl
  | number hnumber => simpa [hasNonFinite] using hnumbers _ hnumber
  | string => rfl
  | array _ ih =>
    rw [hasNonFinite, itemsNonFinite_eq_false]
    exact ih
  | object _ _ ih =>
    rw [hasNonFinite, membersNonFinite_eq_false]
    exact ih

end RoundTrip

/-! ## The canonical form -/

theorem canonicalItems_eq_map (items : List JsonDocument) :
    canonicalItems items = items.map canonicalDocument := by
  induction items with
  | nil => rfl
  | cons item rest ih => rw [canonicalItems, ih, List.map_cons]

theorem canonicalMembers_eq_map :
    canonicalMembers members =
      members.map fun member => (member.1, canonicalDocument member.2) := by
  induction members with
  | nil => rfl
  | cons member rest ih => rw [canonicalMembers, ih, List.map_cons]

theorem canonicalMembers_names :
    (canonicalMembers members).map Prod.fst = members.map Prod.fst := by
  rw [canonicalMembers_eq_map, List.map_map]
  rfl

theorem sortMembers_perm : (sortMembers members).Perm members :=
  List.perm_insertionSort _ members

/-- With distinct names, the order of members does not matter to what is found. -/
theorem get?_of_perm {first second : InsertionMap JsString JsonDocument} (h : first.Perm second)
    (hdistinct : (second.map Prod.fst).Nodup) (name : JsString) :
    first.get? name = second.get? name := by
  have hother : (first.map Prod.fst).Nodup := (h.map Prod.fst).nodup_iff.mpr hdistinct
  cases hfound : second.get? name with
  | some value =>
    exact InsertionMap.get?_of_mem hother (h.mem_iff.mpr (InsertionMap.mem_of_get? hfound))
  | none =>
    cases hmissing : first.get? name with
    | none => rfl
    | some value =>
      have hmem := h.mem_iff.mp (InsertionMap.mem_of_get? hmissing)
      rw [InsertionMap.get?_of_mem hdistinct hmem] at hfound
      cases hfound

theorem get?_canonical {members : InsertionMap JsString JsonDocument}
    (hdistinct : (members.map Prod.fst).Nodup) (name : JsString) :
    InsertionMap.get? (sortMembers (canonicalMembers members)) name =
      (members.get? name).map canonicalDocument := by
  rw [get?_of_perm (sortMembers_perm _) (by rwa [canonicalMembers_names]),
    canonicalMembers_eq_map, InsertionMap.get?_map]

theorem Built.canonical (h : Built numbers value) :
    Built numbers (canonicalDocument value) := by
  induction h with
  | null => exact .null
  | bool flag => exact .bool flag
  | number hnumber => exact .number hnumber
  | string chars => exact .string chars
  | array _ ih =>
    rw [canonicalDocument, canonicalItems_eq_map]
    refine .array fun item hmem => ?_
    obtain ⟨original, horiginal, rfl⟩ := List.mem_map.mp hmem
    exact ih original horiginal
  | @object members hdistinct _ ih =>
    rw [canonicalDocument]
    refine .object ?_ fun member hmem => ?_
    · rw [((sortMembers_perm _).map Prod.fst).nodup_iff, canonicalMembers_names]
      exact hdistinct
    · rw [(sortMembers_perm _).mem_iff, canonicalMembers_eq_map] at hmem
      obtain ⟨original, horiginal, rfl⟩ := List.mem_map.mp hmem
      exact ih original horiginal

/-! ## Lines -/

theorem quotedUnit_no_break (unit : UInt16) : '\n' ∉ quotedUnit unit := by
  have hunit : unit.toNat < 65536 := unit.toNat_lt
  have hhex : ∀ digit : Fin 16, hexChar digit.val ≠ '\n' := by decide
  have hshort : ∀ escape ∈ shortEscapes, '\n' ∉ ['\\', escape.2] := by decide
  rcases quotedUnit_cases unit with ⟨escape, hmem, -, heq⟩ | heq | ⟨⟨-, -, hplain⟩, heq⟩
  · rw [heq]
    exact hshort escape hmem
  · rw [heq]
    simp only [unicodeEscape, List.mem_cons, List.not_mem_nil, or_false, not_or]
    refine ⟨by decide, by decide, ?_, ?_, ?_, ?_⟩
    · exact (hhex ⟨unit.toNat / 4096, by omega⟩).symm
    · exact (hhex ⟨unit.toNat / 256 % 16, by omega⟩).symm
    · exact (hhex ⟨unit.toNat / 16 % 16, by omega⟩).symm
    · exact (hhex ⟨unit.toNat % 16, by omega⟩).symm
  · rw [heq]
    simp only [isHigh, isLow, decide_eq_false_iff_not] at hplain
    intro hmem
    have hcode := congrArg Char.toNat (List.mem_singleton.mp hmem)
    have hscalar : (Char.ofNat unit.toNat).toNat = unit.toNat := toNat_ofNat_scalar (by omega)
    have hten : ('\n' : Char).toNat = 10 := rfl
    omega

theorem quotedUnits_no_break (units : JsString) : '\n' ∉ quotedUnits units := by
  induction units using quotedUnits.induct with
  | case1 => rw [quotedUnits]; exact List.not_mem_nil
  | case2 unit => rw [quotedUnits]; exact quotedUnit_no_break unit
  | case3 first second rest hpair ih =>
    rw [quotedUnits, if_pos hpair]
    simp only [isHigh, isLow, Bool.and_eq_true, decide_eq_true_eq] at hpair
    intro hmem
    rcases List.mem_cons.mp hmem with heq | hrest
    · have hcode := congrArg Char.toNat heq
      have hscalar : (Char.ofNat (pairPoint first second)).toNat = pairPoint first second :=
        toNat_ofNat_scalar (by unfold pairPoint; omega)
      have hten : ('\n' : Char).toNat = 10 := rfl
      unfold pairPoint at hcode hscalar
      omega
    · exact ih hrest
  | case4 first second rest hpair ih =>
    rw [quotedUnits, if_neg hpair, List.mem_append, not_or]
    exact ⟨quotedUnit_no_break first, ih⟩

theorem stringify_no_break (units : JsString) : '\n' ∉ stringify units := by
  rw [stringify, List.mem_append, List.mem_cons, List.mem_singleton]
  intro hmem
  rcases hmem with (hmem | hmem) | hmem
  · exact absurd hmem (by decide)
  · exact quotedUnits_no_break units hmem
  · exact absurd hmem (by decide)

section Lines

variable {text : NumberText}

theorem built_no_break
    (hnumbers : ∀ number, numbers number → '\n' ∉ (text.print number).toList)
    (h : Built numbers value) : '\n' ∉ jsonText text value := by
  have hitems : ∀ items : List JsonDocument, (∀ item ∈ items, '\n' ∉ jsonText text item) →
      '\n' ∉ moreItemsText text items := by
    intro items hall
    induction items with
    | nil => rw [moreItemsText]; decide
    | cons item rest ih =>
      rw [moreItemsText, List.mem_cons, List.mem_append, not_or, not_or]
      exact ⟨by decide, hall item List.mem_cons_self,
        ih fun other hmem => hall other (List.mem_cons_of_mem _ hmem)⟩
  have hmembers : ∀ members : List (JsString × JsonDocument),
      (∀ member ∈ members, '\n' ∉ jsonText text member.2) →
      '\n' ∉ moreMembersText text members := by
    intro members hall
    induction members with
    | nil => rw [moreMembersText]; decide
    | cons member rest ih =>
      rw [moreMembersText]
      simp only [List.mem_cons, List.mem_append, not_or]
      exact ⟨by decide, stringify_no_break member.1, by decide, hall member List.mem_cons_self,
        ih fun other hmem => hall other (List.mem_cons_of_mem _ hmem)⟩
  induction h with
  | null => rw [jsonText]; decide
  | bool flag => cases flag <;> (rw [jsonText]; decide)
  | @number number hnumber =>
    rw [jsonText]
    exact hnumbers number hnumber
  | string chars => rw [jsonText]; exact stringify_no_break chars
  | @array items _ ih =>
    rw [jsonText, List.mem_cons, not_or]
    refine ⟨by decide, ?_⟩
    cases items with
    | nil => rw [itemsText]; decide
    | cons item rest =>
      rw [itemsText, List.mem_append, not_or]
      exact ⟨ih item List.mem_cons_self,
        hitems rest fun other hmem => ih other (List.mem_cons_of_mem _ hmem)⟩
  | @object members _ _ ih =>
    rw [jsonText, List.mem_cons, not_or]
    refine ⟨by decide, ?_⟩
    cases members with
    | nil => rw [membersText]; decide
    | cons member rest =>
      rw [membersText]
      simp only [List.mem_cons, List.mem_append, not_or]
      exact ⟨stringify_no_break member.1, by decide, ih member List.mem_cons_self,
        hmembers rest fun other hmem => ih other (List.mem_cons_of_mem _ hmem)⟩

theorem jsonText_no_break (hprints : PrintsIntegers text)
    (h : Built SafeNatural value) : '\n' ∉ jsonText text value := by
  refine built_no_break ?_ h
  rintro _ ⟨number, hsafe, rfl⟩
  rw [hprints]
  intro hmem
  exact absurd (toDigits_isDigit number _ hmem) (by decide)

theorem newline_not_mem_utf8 {chars : List Char} (h : '\n' ∉ chars) : newline ∉ utf8 chars := by
  have hchar : ∀ c : Char, c ≠ '\n' → newline ∉ String.utf8EncodeChar c := by
    intro c hc hmem
    have hten : c.toNat ≠ 10 := fun heq => hc (Char.toNat_inj.mp heq)
    have hcode : c.val.toNat ≠ 10 := hten
    unfold String.utf8EncodeChar at hmem
    dsimp only at hmem
    generalize c.val.toNat = v at *
    have hbyte : ∀ {number : Nat}, newline = UInt8.ofNat number → number % 256 = 10 := by
      intro number heq
      have := congrArg UInt8.toNat heq
      simpa [newline] using this.symm
    repeat' split at hmem
    all_goals simp only [List.mem_cons, List.not_mem_nil, or_false] at hmem
    · have := hbyte hmem
      omega
    · rcases hmem with hmem | hmem
      · have := hbyte hmem; omega
      · have := hbyte hmem; omega
    · rcases hmem with hmem | hmem | hmem
      · have := hbyte hmem; omega
      · have := hbyte hmem; omega
      · have := hbyte hmem; omega
    · rcases hmem with hmem | hmem | hmem | hmem
      · have := hbyte hmem; omega
      · have := hbyte hmem; omega
      · have := hbyte hmem; omega
      · have := hbyte hmem; omega
  intro hmem
  obtain ⟨c, hc, hbyte⟩ := List.mem_flatMap.mp hmem
  exact hchar c (fun heq => h (heq ▸ hc)) hbyte

theorem lineBytes_cons {line : List UInt8} (h : newline ∉ line) (rest : List UInt8) :
    lineBytes (line ++ newline :: rest) = line :: lineBytes rest := by
  have hne : line ++ newline :: rest ≠ [] := by simp
  rw [lineBytes, if_neg hne]
  cases hrest : rest with
  | nil =>
    rw [List.getLast?_concat, if_pos rfl, List.dropLast_concat, List.splitOn_eq_singleton h,
      lineBytes, if_pos rfl]
  | cons byte others =>
    rw [← hrest]
    have hrestne : rest ≠ [] := by rw [hrest]; exact List.cons_ne_nil _ _
    have hlast : (line ++ newline :: rest).getLast? = rest.getLast? := by
      rw [List.getLast?_append_of_ne_nil _ (List.cons_ne_nil _ _), hrest,
        List.getLast?_cons_cons]
    have hinit : (line ++ newline :: rest).dropLast = line ++ newline :: rest.dropLast := by
      rw [List.dropLast_append_of_ne_nil (List.cons_ne_nil _ _), hrest, List.dropLast_cons_cons]
    rw [hlast, hinit, lineBytes, if_neg hrestne]
    split
    · rw [List.splitOn_append_cons_self_of_not_mem h]
    · rw [List.splitOn_append_cons_self_of_not_mem h]

theorem utf8_append (first second : List Char) : utf8 (first ++ second) = utf8 first ++ utf8 second :=
  List.flatMap_append

theorem serializeJsonl_cons (record : JsonDocument) (records : List JsonDocument) :
    serializeJsonl text (record :: records) =
      utf8 (canonicalJson text record) ++ newline :: serializeJsonl text records := by
  rw [serializeJsonl, List.flatMap_cons, utf8_append, utf8_append, List.append_assoc]
  rfl

theorem lineBytes_serializeJsonl (hprints : PrintsIntegers text) {records : List JsonDocument}
    (h : ∀ record ∈ records, Writable record) (rest : List UInt8) :
    lineBytes (serializeJsonl text records ++ rest) =
      records.map (fun record => utf8 (canonicalJson text record)) ++ lineBytes rest := by
  induction records with
  | nil => rfl
  | cons record others ih =>
    have hbreak : newline ∉ utf8 (canonicalJson text record) :=
      newline_not_mem_utf8 (jsonText_no_break hprints (h record List.mem_cons_self).built.canonical)
    rw [serializeJsonl_cons, List.append_assoc, List.cons_append, lineBytes_cons hbreak,
      ih fun other hmem => h other (List.mem_cons_of_mem _ hmem), List.map_cons, List.cons_append]

theorem parseLine_canonical (law : text.Lawful) (hprints : PrintsIntegers text)
    {record : JsonDocument} (h : Writable record) (start : Nat) :
    parseLine text ⟨start, utf8 (canonicalJson text record)⟩ = .ok (canonicalDocument record) := by
  have hcanonical := h.built.canonical
  have hfinite : hasNonFinite (canonicalDocument record) = false := by
    refine hasNonFinite_of_built ?_ hcanonical
    rintro _ ⟨number, hsafe, rfl⟩
    rfl
  have hparsed : parseJson text (canonicalJson text record) = some (canonicalDocument record) :=
    parseJson_jsonText law hprints hcanonical
  simp only [parseLine, decodeUtf8Strict_utf8, parseJsonText, hparsed, hfinite,
    Bool.false_eq_true, if_false]

end Lines

end RefundStudy.Record
