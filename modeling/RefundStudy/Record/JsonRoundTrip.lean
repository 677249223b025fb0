/-
  Canonical texts decide structural equality, and what is written as JSON is read
  back (`record-contract/canonical-json.ts` and `record-contract/parsing.ts`).
-/
import RefundStudy.Record.JsonlReport
import RefundStudy.Record.TextWriter

set_option autoImplicit false

namespace RefundStudy.Record

open Foundation Store

variable {value : JsonDocument} {records : List JsonDocument}

section Results

variable {text : NumberText}

/-! ## Structural equality -/

/-- The canonical texts of two values are equal exactly when the values are structurally equal,
which is what the walk over both decides; and the iterative writer writes the canonical text. -/
theorem canonicalJson_decides_structure (law : text.Lawful) (hprints : PrintsJson text)
    {first second : JsonDocument} (hfirst : Representable first) (hsecond : Representable second) :
    (canonicalJson text first = canonicalJson text second ↔ SameValue first second) ∧
      (sameJsonValue first second = some true ↔ SameValue first second) ∧
      canonicalPieces text first = some (.ok (canonicalJson text first)) := by
  refine ⟨?_, ?_, canonicalPieces_eq hfirst⟩
  · rw [canonicalJson_eq_iff law hprints hfirst hsecond, sameValue_iff hfirst hsecond]
  · obtain ⟨result, hresult, hsame⟩ := sameJsonValue_eq hfirst.parsed hsecond.parsed
    rw [hresult, ← hsame, Option.some.injEq]

def unsortedValue : JsonDocument :=
  .object [(jsString "b", .array [.number (.finite (doubleOfNat 1 one_lt_bound))]),
    (jsString "a", .string (jsString "x"))]

def sortedValue : JsonDocument :=
  .object [(jsString "a", .string (jsString "x")),
    (jsString "b", .array [.number (.finite (doubleOfNat 1 one_lt_bound))])]

theorem nameA_ne_nameB : jsString "a" ≠ jsString "b" := by decide

theorem listOfOne_representable :
    Representable (.array [.number (.finite (doubleOfNat 1 one_lt_bound))]) := by
  refine .array fun item hmem => ?_
  rw [List.mem_singleton.mp hmem]
  exact .number rfl

theorem unsortedValue_representable : Representable unsortedValue := by
  refine .object (by decide) fun member hmem => ?_
  rcases List.mem_cons.mp hmem with rfl | hmem
  · exact listOfOne_representable
  · rw [List.mem_singleton.mp hmem]
    exact .string _

theorem sortedValue_representable : Representable sortedValue := by
  refine .object (by decide) fun member hmem => ?_
  rcases List.mem_cons.mp hmem with rfl | hmem
  · exact .string _
  · rw [List.mem_singleton.mp hmem]
    exact listOfOne_representable

theorem reordered_values_have_one_text :
    canonicalJson exactText unsortedValue = canonicalJson exactText sortedValue ∧
      sameJsonValue unsortedValue sortedValue = some true := by
  have hresult := canonicalJson_decides_structure exactText_lawful exactText_printsJson
    unsortedValue_representable sortedValue_representable
  have hsame : SameValue unsortedValue sortedValue := by
    unfold unsortedValue sortedValue
    rw [SameValue]
    refine ⟨?_, ?_⟩
    · intro name hmem
      simpa [or_comm] using hmem
    · rw [SameMembers, SameMembers, SameMembers]
      refine ⟨⟨.array [.number (.finite (doubleOfNat 1 one_lt_bound))], ?_, ?_⟩,
        ⟨.string (jsString "x"), ?_, ?_⟩, trivial⟩
      · simp [InsertionMap.get?, nameA_ne_nameB]
      · simp only [SameValue, SameItems, and_true]
      · simp [InsertionMap.get?]
      · simp only [SameValue]
  exact ⟨hresult.1.mpr hsame, hresult.2.1.mpr hsame⟩

/-! ## Files -/

theorem takeDigits_no_break {chars digits rest : List Char}
    (h : takeDigits chars = some (digits, rest)) : '\n' ∉ digits := by
  unfold takeDigits at h
  split at h
  · cases h
  · cases h
    intro hmem
    exact absurd (List.all_eq_true.mp List.all_takeWhile _ hmem) (by decide)

theorem optionalPart_no_break {starts : List Char} {signed : Bool} {chars part rest : List Char}
    (hstarts : '\n' ∉ starts) (h : optionalPart starts signed chars = some (part, rest)) :
    '\n' ∉ part := by
  unfold optionalPart at h
  split at h
  · cases h
    exact List.not_mem_nil
  · rename_i mark rest
    split at h
    · rename_i hmark
      have hne : '\n' ≠ mark := by
        rintro rfl
        exact hstarts (List.contains_iff_mem.mp hmark)
      split at h
      · obtain ⟨taken, htaken, heq⟩ := Option.map_eq_some_iff.mp h
        cases heq
        simp [hne, takeDigits_no_break htaken]
      · obtain ⟨taken, htaken, heq⟩ := Option.map_eq_some_iff.mp h
        cases heq
        simp [hne, takeDigits_no_break htaken]
      · obtain ⟨taken, htaken, heq⟩ := Option.map_eq_some_iff.mp h
        cases heq
        simp [hne, takeDigits_no_break htaken]
    · cases h
      exact List.not_mem_nil

theorem integerPart_no_break {chars digits rest : List Char}
    (h : integerPart chars = some (digits, rest)) : '\n' ∉ digits := by
  unfold integerPart at h
  split at h
  · cases h
    decide
  · exact takeDigits_no_break h

theorem parseNumber_no_break {chars number rest : List Char}
    (h : parseNumber chars = some (number, rest)) : '\n' ∉ number := by
  unfold parseNumber at h
  obtain ⟨whole, hwhole, h⟩ := Option.bind_eq_some_iff.mp h
  obtain ⟨fraction, hfraction, h⟩ := Option.bind_eq_some_iff.mp h
  obtain ⟨exponent, hexponent, heq⟩ := Option.map_eq_some_iff.mp h
  cases heq
  have hsign : '\n' ∉ (if chars.head? = some '-' then ['-'] else []) := by
    split <;> decide
  have hinteger := integerPart_no_break hwhole
  have hpoint := optionalPart_no_break (by decide) hfraction
  have hscale := optionalPart_no_break (by decide) hexponent
  simp only [List.mem_append, not_or]
  exact ⟨⟨⟨hsign, hinteger⟩, hpoint⟩, hscale⟩

theorem representable_no_break (hprints : PrintsJson text)
    (h : Representable value) : '\n' ∉ canonicalJson text value := by
  refine built_no_break ?_ h.canonical
  intro number hfinite
  cases number with
  | nan => cases hfinite
  | infinite negative => cases hfinite
  | finite number =>
    have hread := hprints number [] (fun c hc => by cases hc)
    exact parseNumber_no_break hread

theorem lineBytes_records (hprints : PrintsJson text)
    (h : ∀ record ∈ records, Representable record) :
    lineBytes (serializeJsonl text records) =
      records.map fun record => utf8 (canonicalJson text record) := by
  induction records with
  | nil => rfl
  | cons record rest ih =>
    have hbreak : newline ∉ utf8 (canonicalJson text record) :=
      newline_not_mem_utf8 (representable_no_break hprints (h record List.mem_cons_self))
    rw [serializeJsonl_cons, lineBytes_cons hbreak,
      ih fun other hmem => h other (List.mem_cons_of_mem _ hmem), List.map_cons]

theorem parseLine_record (law : text.Lawful) (hprints : PrintsJson text) {record : JsonDocument}
    (h : Representable record) (start : Nat) :
    parseLine text ⟨start, utf8 (canonicalJson text record)⟩ = .ok (structuralForm record) := by
  simp only [parseLine, decodeUtf8Strict_utf8, parseJsonText,
    parseJson_canonicalJson law hprints h, hasNonFinite_of_representable h.structuralForm,
    Bool.false_eq_true, if_false]

theorem parsed_placeLines (law : text.Lawful) (hprints : PrintsJson text)
    (h : ∀ record ∈ records, Representable record) :
    ∀ start, (placeLines start (records.map fun record => utf8 (canonicalJson text record))).map
        (parseLine text) = records.map fun record => .ok (structuralForm record) := by
  induction records with
  | nil =>
    intro start
    rfl
  | cons record rest ih =>
    intro start
    rw [List.map_cons, placeLines, List.map_cons,
      parseLine_record law hprints (h record List.mem_cons_self),
      ih fun other hmem => h other (List.mem_cons_of_mem _ hmem), List.map_cons]

theorem sameValue_structuralForm (h : Representable value) :
    SameValue value (structuralForm value) :=
  (sameValue_iff h h.structuralForm).mpr (structuralForm_structuralForm h).symm

/-- The report on a file that was written from a list of records. -/
structure ReadsRecords (records : List JsonDocument) (report : JsonlParseReport) : Prop where
  numbers : report.lines.map JsonlLine.lineNumber = List.range' 1 records.length
  values : List.Forall₂ (fun record line => ∃ value, line.parsed = .ok value ∧
    SameValue record value) records report.lines
  ending : report.endsWithNewline = !records.isEmpty
  decodes : report.decodeError = none

theorem endsWithNewline_serializeJsonl (records : List JsonDocument) :
    endsWithNewline (serializeJsonl text records) = !records.isEmpty := by
  induction records with
  | nil => rfl
  | cons record rest ih =>
    rw [serializeJsonl_cons]
    cases rest with
    | nil => simp [endsWithNewline, serializeJsonl, utf8]
    | cons next more =>
      have hends : (serializeJsonl text (next :: more)).getLast? = some newline := by
        simpa [endsWithNewline] using ih
      have hlast : (newline :: serializeJsonl text (next :: more)).getLast? = some newline := by
        rw [List.getLast?_cons, hends, Option.getD_some]
      simp [endsWithNewline, List.getLast?_append, hlast]

theorem lineNumbers_mapIdx (segments : List LineSegment) :
    (segments.mapIdx fun index segment =>
      (⟨index + 1, parseLine text segment⟩ : JsonlLine)).map JsonlLine.lineNumber =
      List.range' 1 segments.length := by
  apply List.ext_getElem?
  intro index
  simp only [List.getElem?_map, List.getElem?_mapIdx, Option.map_map]
  by_cases h : index < segments.length
  · simp [h, Nat.add_comm]
  · simp [h]

theorem parseJsonlReport_serializeJsonl (law : text.Lawful) (hprints : PrintsJson text)
    (h : ∀ record ∈ records, Representable record) :
    ReadsRecords records (parseJsonlReport text (serializeJsonl text records)) := by
  have hcut : cutSegments (serializeJsonl text records) =
      placeLines 0 (records.map fun record => utf8 (canonicalJson text record)) := by
    rw [cutSegments_eq, lineSegments, lineBytes_records hprints h]
  have hparsed : (parseJsonlReport text (serializeJsonl text records)).lines.map JsonlLine.parsed =
      records.map fun record => .ok (structuralForm record) := by
    unfold parseJsonlReport
    rw [parsed_mapIdx, hcut, parsed_placeLines law hprints h]
  refine ⟨?_, ?_, endsWithNewline_serializeJsonl records, ?_⟩
  · unfold parseJsonlReport
    have hlength := congrArg List.length (placeLines_bytes
      (records.map fun record => utf8 (canonicalJson text record)) 0)
    rw [List.length_map, List.length_map] at hlength
    rw [lineNumbers_mapIdx, hcut, hlength]
  · have hlines : List.Forall₂ (fun record parsed => ∃ value, parsed = .ok value ∧
        SameValue record value) records
        ((parseJsonlReport text (serializeJsonl text records)).lines.map JsonlLine.parsed) := by
      rw [hparsed, List.forall₂_map_right_iff, List.forall₂_same]
      intro record hmem
      exact ⟨structuralForm record, rfl, sameValue_structuralForm (h record hmem)⟩
    exact List.forall₂_map_right_iff.mp hlines
  · unfold parseJsonlReport at hparsed ⊢
    dsimp only at hparsed ⊢
    rw [hparsed, List.findSome?_map, List.findSome?_eq_none_iff]
    intro record _
    rfl

theorem parseLine_representable {segment : LineSegment}
    (h : parseLine text segment = .ok value) : Representable value := by
  unfold parseLine at h
  split at h
  · cases h
  · unfold parseJsonText at h
    split at h
    · cases h
    · rename_i document hdocument
      split at h
      · cases h
      · rename_i hnumbers
        cases h
        exact representable_of_finite (parseJson_distinctNames hdocument) (by simpa using hnumbers)

theorem parsed_line_representable {bytes : List UInt8} {line : JsonlLine}
    (hline : line ∈ (parseJsonlReport text bytes).lines) (h : line.parsed = .ok value) :
    Representable value := by
  have hmem : line.parsed ∈ (cutSegments bytes).map (parseLine text) := by
    rw [← parsed_mapIdx]
    exact List.mem_map_of_mem hline
  obtain ⟨segment, -, hsegment⟩ := List.mem_map.mp hmem
  exact parseLine_representable (hsegment.trans h)

/-- The value is written, and both readers give it back. -/
structure WrittenAgain (text : NumberText) (value : JsonDocument) : Prop where
  written : canonicalPieces text value = some (.ok (canonicalJson text value))
  file : ∃ read, parseJsonDocument text (recordFileBytes text value) = some read ∧
    SameValue value read
  line : ReadsRecords [value] (parseJsonlReport text (serializeJsonl text [value]))

theorem Representable.writtenAgain (law : text.Lawful) (hprints : PrintsJson text)
    (h : Representable value) : WrittenAgain text value where
  written := canonicalPieces_eq h
  file := ⟨_, parseJsonDocument_recordFile law hprints h,
    sameValue_structuralForm h⟩
  line := parseJsonlReport_serializeJsonl law hprints fun record hmem => by
    rw [List.mem_singleton.mp hmem]
    exact h

/-- Records that are written are read back, as lines and as a file, and every value that a reader
accepts can be written and is read back again. -/
theorem json_round_trip (law : text.Lawful) (hprints : PrintsJson text) :
    (∀ records : List JsonDocument, (∀ record ∈ records, Representable record) →
      ReadsRecords records (parseJsonlReport text (serializeJsonl text records))) ∧
    (∀ record : JsonDocument, Representable record →
      ∃ value, parseJsonDocument text (recordFileBytes text record) = some value ∧
        SameValue record value) ∧
    (∀ bytes value, parseJsonDocument text bytes = some value → WrittenAgain text value) ∧
    (∀ bytes, ∀ line ∈ (parseJsonlReport text bytes).lines, ∀ value, line.parsed = .ok value →
      WrittenAgain text value) := by
  refine ⟨?_, ?_, ?_, ?_⟩
  · intro records h
    exact parseJsonlReport_serializeJsonl law hprints h
  · intro record h
    exact (h.writtenAgain law hprints).file
  · intro bytes value h
    exact (parseJsonDocument_representable h).writtenAgain law hprints
  · intro bytes line hline value h
    exact (parsed_line_representable hline h).writtenAgain law hprints

theorem unsorted_record_round_trip :
    ReadsRecords [unsortedValue, sortedValue]
        (parseJsonlReport exactText (serializeJsonl exactText [unsortedValue, sortedValue])) ∧
      WrittenAgain exactText (structuralForm unsortedValue) := by
  obtain ⟨hlines, -, hdocument, -⟩ := json_round_trip exactText_lawful exactText_printsJson
  refine ⟨hlines _ fun record hmem => ?_, ?_⟩
  · rcases List.mem_cons.mp hmem with rfl | hmem
    · exact unsortedValue_representable
    · rw [List.mem_singleton.mp hmem]
      exact sortedValue_representable
  · exact hdocument _ _ (parseJsonDocument_recordFile exactText_lawful exactText_printsJson
      unsortedValue_representable)

end Results

end RefundStudy.Record
