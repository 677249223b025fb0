/-
  What `parseJsonl` reports about a file (`record-contract/parsing.ts`).
-/
import RefundStudy.Foundation.PosixPath
import RefundStudy.Record.CanonicalJson
import RefundStudy.Record.Utf8Offsets

set_option autoImplicit false

namespace RefundStudy.Record

open Foundation Store

/-! ## Segments -/

variable (bytes : List UInt8)

/-- `bytes.indexOf(NEWLINE, start)`. -/
def indexOfNewline (start : Nat) : Option Nat :=
  ((bytes.drop start).idxOf? newline).map fun index => start + index

/-- `bytes.subarray(start, stop)`. -/
def subarray (start stop : Nat) : List UInt8 :=
  (bytes.take stop).drop start

def lastSegment (limit start : Nat) : List LineSegment :=
  if 0 < bytes.length then [⟨start, subarray bytes start limit⟩] else []

/-- The loop of `lineSegments` from `start`, at most `bound` rounds, and the segment behind it. -/
def readSegments (bytes : List UInt8) (limit : Nat) : Nat → Nat → List LineSegment
  | 0, start => lastSegment bytes limit start
  | bound + 1, start =>
    match indexOfNewline bytes start with
    | none => lastSegment bytes limit start
    | some index =>
      if index < limit then
        ⟨start, subarray bytes start index⟩ :: readSegments bytes limit bound (index + 1)
      else lastSegment bytes limit start

def endsWithNewline : Bool := bytes.getLast? == some newline

/-- `lineSegments`, as the loop cuts them; there is a line break a round. -/
def cutSegments : List LineSegment :=
  let limit := if endsWithNewline bytes then bytes.length - 1 else bytes.length
  readSegments bytes limit bytes.length 0

/-! ## The report -/

/-- `isDecodeFailure`, with the offset. -/
def decodeOffset : Except JsonParseFailure JsonDocument → Option Nat
  | .error (.invalidUtf8 byteOffset) => some byteOffset
  | _ => none

structure JsonlParseReport where
  lines : List JsonlLine
  endsWithNewline : Bool
  decodeError : Option Nat

def parseJsonlReport (text : NumberText) (bytes : List UInt8) : JsonlParseReport :=
  let lines := (cutSegments bytes).mapIdx fun index segment => ⟨index + 1, parseLine text segment⟩
  { lines
    endsWithNewline := endsWithNewline bytes
    decodeError := (lines.map JsonlLine.parsed).findSome? decodeOffset }

/-! ## The loop cuts the lines -/

section Cutting

/-- The bytes the loop looks at: without the final line break. -/
def lineText (bytes : List UInt8) : List UInt8 :=
  if endsWithNewline bytes then bytes.dropLast else bytes

theorem lineBytes_eq (bytes : List UInt8) :
    lineBytes bytes = if bytes = [] then [] else (lineText bytes).splitOn newline := by
  unfold lineBytes lineText endsWithNewline
  by_cases hlast : bytes.getLast? = some newline
  · simp [hlast]
  · simp [hlast]

theorem lineText_append (bytes : List UInt8) :
    lineText bytes ++ (if endsWithNewline bytes then [newline] else []) = bytes := by
  unfold lineText
  cases hends : endsWithNewline bytes with
  | false => exact List.append_nil bytes
  | true =>
    have hlast : bytes.getLast? = some newline := by
      unfold endsWithNewline at hends
      exact beq_iff_eq.mp hends
    exact List.dropLast_append_getLast? newline hlast

theorem idxOf?_line {line : List UInt8} (h : newline ∉ line) (rest : List UInt8) :
    (line ++ newline :: rest).idxOf? newline = some line.length := by
  induction line with
  | nil => rw [List.nil_append, List.idxOf?_cons]; rfl
  | cons byte line ih =>
    have hbyte : (byte == newline) = false :=
      beq_eq_false_iff_ne.mpr fun heq => h (heq ▸ List.mem_cons_self)
    have hline : newline ∉ line := fun hmem => h (List.mem_cons_of_mem _ hmem)
    rw [List.cons_append, List.idxOf?_cons, hbyte, ih hline]
    rfl

theorem readSegments_line {before line rest : List UInt8} (hline : newline ∉ line)
    {limit bound : Nat} (hlimit : before.length + line.length < limit) :
    readSegments (before ++ (line ++ newline :: rest)) limit (bound + 1) before.length =
      ⟨before.length, line⟩ ::
        readSegments (before ++ (line ++ newline :: rest)) limit bound
          (before.length + line.length + 1) := by
  have hindex : indexOfNewline (before ++ (line ++ newline :: rest)) before.length =
      some (before.length + line.length) := by
    rw [indexOfNewline, List.drop_left, idxOf?_line hline]
    rfl
  have hcut : subarray (before ++ (line ++ newline :: rest)) before.length
      (before.length + line.length) = line := by
    rw [subarray, List.take_length_add_append, List.take_left, List.drop_left]
  rw [readSegments, hindex]
  dsimp only
  rw [if_pos hlimit, hcut]

/-- The loop before no further line break inside the limit cuts the last line. -/
theorem readSegments_last {before line rest : List UInt8} (hline : newline ∉ line)
    (hrest : rest = [] ∨ rest = [newline]) (hsome : before ++ (line ++ rest) ≠ []) (bound : Nat) :
    readSegments (before ++ (line ++ rest)) (before.length + line.length) bound before.length =
      [⟨before.length, line⟩] := by
  have hcut : lastSegment (before ++ (line ++ rest)) (before.length + line.length) before.length =
      [⟨before.length, line⟩] := by
    rw [lastSegment, if_pos (List.length_pos_of_ne_nil hsome), subarray,
      List.take_length_add_append, List.take_left, List.drop_left]
  cases bound with
  | zero => exact hcut
  | succ bound =>
    rw [readSegments]
    have hindex : indexOfNewline (before ++ (line ++ rest)) before.length = none ∨
        indexOfNewline (before ++ (line ++ rest)) before.length =
          some (before.length + line.length) := by
      rw [indexOfNewline, List.drop_left]
      rcases hrest with rfl | rfl
      · left
        rw [List.append_nil, List.idxOf?_eq_none_iff.mpr hline]
        rfl
      · right
        rw [idxOf?_line hline]
        rfl
    rcases hindex with hindex | hindex
    · rw [hindex]
      exact hcut
    · rw [hindex]
      dsimp only
      rw [if_neg (Nat.lt_irrefl _)]
      exact hcut

theorem readSegments_eq (bound : Nat) : ∀ (before remaining rest : List UInt8),
    rest = [] ∨ rest = [newline] → before ++ (remaining ++ rest) ≠ [] →
    remaining.length ≤ bound →
    readSegments (before ++ (remaining ++ rest)) (before.length + remaining.length) bound
        before.length =
      placeLines before.length (remaining.splitOn newline) := by
  induction bound with
  | zero =>
    intro before remaining rest hrest hsome hbound
    obtain rfl := List.length_eq_zero_iff.mp (Nat.le_zero.mp hbound)
    rw [readSegments_last List.not_mem_nil hrest hsome, List.splitOn_eq_singleton List.not_mem_nil]
    rfl
  | succ bound ih =>
    intro before remaining rest hrest hsome hbound
    by_cases hmem : newline ∈ remaining
    · obtain ⟨line, more, rfl, hline⟩ := List.eq_append_cons_of_mem hmem
      rw [List.splitOn_append_cons_self_of_not_mem hline, placeLines]
      rw [List.length_append, List.length_cons] at hbound ⊢
      have hround := @readSegments_line before line (more ++ rest) hline
        (before.length + (line.length + (more.length + 1))) bound (by omega)
      have hbytes : before ++ (line ++ newline :: more ++ rest) =
          before ++ (line ++ newline :: (more ++ rest)) := by
        rw [List.append_assoc, List.cons_append]
      have hmoved : before ++ (line ++ newline :: (more ++ rest)) =
          (before ++ (line ++ [newline])) ++ (more ++ rest) := by
        simp
      have hlength : (before ++ (line ++ [newline])).length = before.length + line.length + 1 := by
        simp [Nat.add_assoc]
      have htail := ih (before ++ (line ++ [newline])) more rest hrest (by simp) (by omega)
      rw [hbytes, hround, hmoved]
      rw [hlength] at htail
      rw [← htail]
      congr 2
      omega
    · rw [readSegments_last hmem hrest hsome, List.splitOn_eq_singleton hmem]
      rfl

/-- `lineSegments` cuts the lines of the file, each at its offset. -/
theorem cutSegments_eq (bytes : List UInt8) : cutSegments bytes = lineSegments bytes := by
  unfold cutSegments lineSegments
  rw [lineBytes_eq]
  by_cases hempty : bytes = []
  · subst hempty
    rfl
  · rw [if_neg hempty]
    have happend := lineText_append bytes
    have hrest : (if endsWithNewline bytes then [newline] else []) = [] ∨
        (if endsWithNewline bytes then [newline] else []) = [newline] := by
      cases endsWithNewline bytes
      · exact .inl rfl
      · exact .inr rfl
    have hlimit : (if endsWithNewline bytes then bytes.length - 1 else bytes.length) =
        (lineText bytes).length := by
      unfold lineText
      cases endsWithNewline bytes
      · rfl
      · exact List.length_dropLast.symm
    have hbound : (lineText bytes).length ≤ bytes.length := by
      rw [← hlimit]
      split <;> omega
    have hcut := readSegments_eq bytes.length [] (lineText bytes) _ hrest
      (by rwa [List.nil_append, happend]) hbound
    rw [List.nil_append, happend, List.length_nil, Nat.zero_add] at hcut
    dsimp only
    rw [hlimit]
    exact hcut

end Cutting

/-! ## Decoding line by line -/

section Decoding

def AsksContinuation (opened : Option OpenSequence) : Prop :=
  ∀ sequence ∈ opened, 0x80 ≤ sequence.shape.secondMin

theorem sequenceShape_continuation {lead : Nat} {shape : SequenceShape}
    (h : sequenceShape lead = some shape) : 0x80 ≤ shape.secondMin := by
  rcases sequenceShape_cases h with ⟨-, -, rfl⟩ | ⟨-, -, rfl⟩ | ⟨-, -, rfl⟩
  · exact Nat.le_refl _
  · dsimp only
    split <;> omega
  · dsimp only
    split <;> omega

theorem AsksContinuation.advance {opened next : Option OpenSequence} {byte offset : Nat}
    (h : AsksContinuation opened) (hnext : advanceSequence opened byte offset = some next) :
    AsksContinuation next := by
  cases opened with
  | none =>
    rw [advanceSequence, startSequence] at hnext
    split at hnext
    · cases hnext
      intro sequence hmem
      cases hmem
    · obtain ⟨shape, hshape, rfl⟩ := Option.map_eq_some_iff.mp hnext
      intro sequence hmem
      cases hmem
      exact sequenceShape_continuation hshape
  | some sequence =>
    rw [advanceSequence] at hnext
    generalize (if sequence.consumed = 1 then sequence.shape.secondMin else 0x80) = least at hnext
    generalize (if sequence.consumed = 1 then sequence.shape.secondMax else 0xbf) = most at hnext
    split_ifs at hnext
    · cases hnext
      intro other hmem
      cases hmem
    · cases hnext
      intro other hmem
      cases hmem
      exact h sequence rfl

/-- A line break closes no sequence: an open one is ill formed there. -/
theorem invalidFrom_newline {opened : Option OpenSequence} (h : AsksContinuation opened)
    (offset : Nat) (rest : List UInt8) :
    invalidFrom opened offset (newline :: rest) =
      (invalidFrom opened offset []).or (invalidFrom none (offset + 1) rest) := by
  cases opened with
  | none => rfl
  | some sequence =>
    have hsecond := h sequence rfl
    have hbyte : newline.toNat = 10 := rfl
    have houtside : newline.toNat <
          (if sequence.consumed = 1 then sequence.shape.secondMin else 0x80) ∨
        (if sequence.consumed = 1 then sequence.shape.secondMax else 0xbf) < newline.toNat := by
      left
      rw [hbyte]
      split <;> omega
    have hstop : invalidFrom (some sequence) offset (newline :: rest) = some sequence.start := by
      rw [invalidFrom, advanceSequence]
      rw [if_pos houtside]
      rfl
    rw [hstop]
    rfl

/-- A line is read as it is alone, and behind its break reading starts anew. -/
theorem invalidFrom_line (line rest : List UInt8) : ∀ (opened : Option OpenSequence) (offset : Nat),
    AsksContinuation opened →
    invalidFrom opened offset (line ++ newline :: rest) =
      (invalidFrom opened offset line).or (invalidFrom none (offset + line.length + 1) rest) := by
  induction line with
  | nil =>
    intro opened offset h
    exact invalidFrom_newline h offset rest
  | cons byte line ih =>
    intro opened offset h
    rw [List.cons_append, invalidFrom, invalidFrom, List.length_cons]
    cases hnext : advanceSequence opened byte.toNat offset with
    | none => rfl
    | some next =>
      have hline := ih next (offset + 1) (h.advance hnext)
      dsimp only
      rw [hline]
      congr 2
      omega

theorem invalidFrom_shift (bytes : List UInt8) (shift : Nat) :
    ∀ (opened : Option OpenSequence) (offset : Nat),
    invalidFrom (opened.map fun sequence => { sequence with start := shift + sequence.start })
        (shift + offset) bytes =
      (invalidFrom opened offset bytes).map fun found => shift + found := by
  induction bytes with
  | nil =>
    intro opened offset
    cases opened <;> rfl
  | cons byte bytes ih =>
    intro opened offset
    have hadvance : advanceSequence
        (opened.map fun sequence => { sequence with start := shift + sequence.start })
          byte.toNat (shift + offset) =
        (advanceSequence opened byte.toNat offset).map fun next =>
          next.map fun sequence => { sequence with start := shift + sequence.start } := by
      cases opened with
      | none =>
        rw [Option.map_none, advanceSequence, advanceSequence, startSequence, startSequence]
        split
        · rfl
        · cases sequenceShape byte.toNat <;> rfl
      | some sequence =>
        rw [Option.map_some, advanceSequence, advanceSequence]
        dsimp only
        generalize (if sequence.consumed = 1 then sequence.shape.secondMin else 0x80) = least
        generalize (if sequence.consumed = 1 then sequence.shape.secondMax else 0xbf) = most
        split
        · rfl
        · split <;> rfl
    rw [invalidFrom, invalidFrom, hadvance]
    cases advanceSequence opened byte.toNat offset with
    | none => cases opened <;> rfl
    | some next => exact ih next (offset + 1)

theorem firstInvalidUtf8Offset_line (line rest : List UInt8) :
    firstInvalidUtf8Offset (line ++ newline :: rest) =
      (firstInvalidUtf8Offset line).or
        ((firstInvalidUtf8Offset rest).map fun found => line.length + 1 + found) := by
  have hnone : AsksContinuation none := fun sequence hmem => by cases hmem
  have hline := invalidFrom_line line rest none 0 hnone
  have hshift := invalidFrom_shift rest (line.length + 1) none 0
  rw [Nat.zero_add] at hline
  rw [Option.map_none, Nat.add_zero] at hshift
  rw [firstInvalidUtf8Offset, hline, hshift]
  rfl

theorem decodeUtf8Strict_eq_none (bytes : List UInt8) :
    decodeUtf8Strict bytes = none ↔ (firstInvalidUtf8Offset bytes).isSome = true := by
  obtain ⟨haccepts, hencodes, -⟩ := firstInvalidUtf8Offset_spec bytes
  cases hfirst : firstInvalidUtf8Offset bytes with
  | some offset => simp [decodeUtf8Strict, hfirst]
  | none =>
    obtain ⟨chars, rfl⟩ := hencodes.mp (haccepts.mp hfirst)
    simp [decodeUtf8Strict_utf8]

theorem decodeOffset_parseLine (text : NumberText) (segment : LineSegment) :
    decodeOffset (parseLine text segment) =
      (firstInvalidUtf8Offset segment.bytes).map fun found => segment.start + found := by
  have hnone := decodeUtf8Strict_eq_none segment.bytes
  unfold parseLine
  cases hdecoded : decodeUtf8Strict segment.bytes with
  | none =>
    obtain ⟨offset, hoffset⟩ := Option.isSome_iff_exists.mp (hnone.mp hdecoded)
    rw [hoffset]
    rfl
  | some chars =>
    have hvalid : firstInvalidUtf8Offset segment.bytes = none := by
      rw [← Option.not_isSome_iff_eq_none, ← hnone, hdecoded]
      exact Option.some_ne_none chars
    rw [hvalid]
    dsimp only
    unfold parseJsonText
    split
    · rfl
    · split <;> rfl

/-- The first line that fails to decode reports what decoding all the lines reports. -/
theorem findSome?_placeLines (text : NumberText) (lines : List (List UInt8)) :
    ∀ start, lines ≠ [] →
    (placeLines start lines).findSome? (fun segment => decodeOffset (parseLine text segment)) =
      (firstInvalidUtf8Offset ([newline].intercalate lines)).map fun found => start + found := by
  induction lines with
  | nil =>
    intro start h
    exact absurd rfl h
  | cons line rest ih =>
    intro start _
    rw [placeLines, List.findSome?_cons, decodeOffset_parseLine]
    cases rest with
    | nil =>
      rw [List.intercalate_singleton]
      cases firstInvalidUtf8Offset line <;> rfl
    | cons next more =>
      have hjoined : [newline].intercalate (line :: next :: more) =
          line ++ newline :: [newline].intercalate (next :: more) := by
        rw [List.intercalate_cons_cons, List.append_assoc, List.singleton_append]
      rw [ih (start + line.length + 1) (List.cons_ne_nil _ _), hjoined,
        firstInvalidUtf8Offset_line]
      cases firstInvalidUtf8Offset line with
      | some offset => rfl
      | none =>
        have hoffsets : (fun found => start + line.length + 1 + found) =
            (fun found => start + found) ∘ fun found => line.length + 1 + found := by
          funext found
          simp only [Function.comp_apply]
          omega
        rw [Option.map_none, Option.none_or, Option.map_map, hoffsets]

end Decoding

/-! ## The result -/

theorem placeLines_bytes (lines : List (List UInt8)) :
    ∀ start, (placeLines start lines).map LineSegment.bytes = lines := by
  induction lines with
  | nil =>
    intro start
    rfl
  | cons line rest ih =>
    intro start
    rw [placeLines, List.map_cons, ih]

theorem lineBytes_join : [newline].intercalate (lineBytes bytes) = lineText bytes := by
  rw [lineBytes_eq]
  split
  · rename_i hempty
    subst hempty
    rfl
  · exact List.intercalate_splitOn newline

theorem newline_not_mem_lineBytes {bytes line : List UInt8} (h : line ∈ lineBytes bytes) :
    newline ∉ line := by
  rw [lineBytes_eq] at h
  split at h
  · cases h
  · exact not_mem_of_mem_splitOn newline _ (Nat.le_refl _) h

theorem parsed_mapIdx (text : NumberText) (segments : List LineSegment) :
    (segments.mapIdx fun index segment =>
      (⟨index + 1, parseLine text segment⟩ : JsonlLine)).map JsonlLine.parsed =
      segments.map (parseLine text) := by
  apply List.ext_getElem?
  intro index
  simp only [List.getElem?_map, List.getElem?_mapIdx, Option.map_map]
  rfl

theorem firstInvalidUtf8Offset_lineText :
    firstInvalidUtf8Offset (lineText bytes) = firstInvalidUtf8Offset bytes := by
  have happend := lineText_append bytes
  cases hends : endsWithNewline bytes with
  | false =>
    rw [hends] at happend
    have hsame : lineText bytes = bytes := (List.append_nil _).symm.trans happend
    rw [hsame]
  | true =>
    rw [hends] at happend
    have hline := firstInvalidUtf8Offset_line (lineText bytes) []
    have hbytes : lineText bytes ++ [newline] = bytes := happend
    rw [hbytes] at hline
    rw [hline]
    exact Option.or_none.symm

/-- The segments are the lines of the file: joined by line breaks, with one more at the end where
the report says so, they are its bytes, and none holds a line break; and the decoding failure is
that of the bytes as a whole. -/
theorem parseJsonl_segments_and_decoding (text : NumberText) (bytes : List UInt8) :
    [newline].intercalate ((cutSegments bytes).map LineSegment.bytes) ++
        (if (parseJsonlReport text bytes).endsWithNewline then [newline] else []) = bytes ∧
      (∀ segment ∈ cutSegments bytes, newline ∉ segment.bytes) ∧
      (parseJsonlReport text bytes).decodeError = firstInvalidUtf8Offset bytes := by
  have hsegments : (cutSegments bytes).map LineSegment.bytes = lineBytes bytes := by
    rw [cutSegments_eq, lineSegments, placeLines_bytes]
  refine ⟨?_, ?_, ?_⟩
  · rw [hsegments, lineBytes_join]
    exact lineText_append bytes
  · intro segment hmem
    have hline : segment.bytes ∈ lineBytes bytes := by
      rw [← hsegments]
      exact List.mem_map_of_mem hmem
    exact newline_not_mem_lineBytes hline
  · have hreport : (parseJsonlReport text bytes).decodeError =
        (lineSegments bytes).findSome? fun segment => decodeOffset (parseLine text segment) := by
      unfold parseJsonlReport
      dsimp only
      rw [cutSegments_eq, parsed_mapIdx, List.findSome?_map]
      rfl
    rw [hreport, lineSegments]
    by_cases hempty : bytes = []
    · subst hempty
      rfl
    · have hlines : lineBytes bytes ≠ [] := by
        rw [lineBytes_eq, if_neg hempty]
        exact List.splitOn_ne_nil newline _
      rw [findSome?_placeLines text _ 0 hlines, lineBytes_join, firstInvalidUtf8Offset_lineText]
      cases firstInvalidUtf8Offset bytes with
      | none => rfl
      | some offset => exact congrArg some (Nat.zero_add offset)

end RefundStudy.Record
