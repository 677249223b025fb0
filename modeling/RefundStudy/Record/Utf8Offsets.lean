/-
  The offset of the first ill-formed UTF-8 sequence (`firstInvalidUtf8Offset` of
  `record-contract/parsing.ts`).
-/
import RefundStudy.Foundation.Utf8
import RefundStudy.Store.PageCursor

set_option autoImplicit false

namespace RefundStudy.Record

open Foundation Store

/-! ## What an open sequence asks for -/

def shapeRanges (shape : SequenceShape) : List ByteRange :=
  (shape.secondMin, shape.secondMax) :: List.replicate (shape.length - 2) (0x80, 0xbf)

/-- The ranges of the bytes an open sequence still asks for. -/
def openRanges (sequence : OpenSequence) : List ByteRange :=
  (shapeRanges sequence.shape).drop (sequence.consumed - 1)

/-- An open sequence holds its leading byte and lacks its last. -/
structure Unfinished (sequence : OpenSequence) : Prop where
  leads : 1 ≤ sequence.consumed
  lacks : sequence.consumed < sequence.shape.length

theorem openRanges_cons {sequence : OpenSequence} (h : Unfinished sequence) :
    openRanges sequence =
      (if sequence.consumed = 1 then sequence.shape.secondMin else 0x80,
        if sequence.consumed = 1 then sequence.shape.secondMax else 0xbf) ::
      openRanges { sequence with consumed := sequence.consumed + 1 } := by
  obtain ⟨hleads, hlacks⟩ := h
  unfold openRanges shapeRanges
  by_cases hfirst : sequence.consumed = 1
  · simp [hfirst]
  · obtain ⟨more, hmore⟩ : ∃ more, sequence.consumed - 1 = more + 1 :=
      ⟨sequence.consumed - 2, by omega⟩
    have hnext : sequence.consumed + 1 - 1 = more + 1 + 1 := by omega
    rw [if_neg hfirst, if_neg hfirst, hmore, hnext, List.drop_succ_cons, List.drop_succ_cons,
      List.drop_replicate, List.drop_replicate]
    have hcount : sequence.shape.length - 2 - more = sequence.shape.length - 2 - (more + 1) + 1 := by
      omega
    rw [hcount, List.replicate_succ]

theorem openRanges_done {sequence : OpenSequence} (hlength : 2 ≤ sequence.shape.length)
    (h : sequence.consumed = sequence.shape.length) : openRanges sequence = [] := by
  unfold openRanges shapeRanges
  rw [List.drop_eq_nil_iff, List.length_cons, List.length_replicate]
  omega

/-- What the loop does with an open sequence: it reads the bytes the sequence asks for and goes on
behind them, or there are no such bytes and it reports the start of the sequence. -/
theorem invalidFrom_open (bytes : List UInt8) : ∀ (sequence : OpenSequence) (offset : Nat),
    Unfinished sequence →
    (∃ taken rest, List.Forall₂ InRange (openRanges sequence) taken ∧ bytes = taken ++ rest ∧
      invalidFrom (some sequence) offset bytes = invalidFrom none (offset + taken.length) rest) ∨
    ((∀ taken, List.Forall₂ InRange (openRanges sequence) taken → ¬ taken <+: bytes) ∧
      invalidFrom (some sequence) offset bytes = some sequence.start) := by
  induction bytes with
  | nil =>
    intro sequence offset h
    refine .inr ⟨fun taken htaken hprefix => ?_, rfl⟩
    rw [openRanges_cons h] at htaken
    cases htaken
    cases List.prefix_nil.mp hprefix
  | cons byte bytes ih =>
    intro sequence offset h
    have hranges := openRanges_cons h
    by_cases hbyte : InRange (if sequence.consumed = 1 then sequence.shape.secondMin else 0x80,
        if sequence.consumed = 1 then sequence.shape.secondMax else 0xbf) byte
    · have hinside : ¬ (byte.toNat < (if sequence.consumed = 1 then sequence.shape.secondMin else 0x80) ∨
          (if sequence.consumed = 1 then sequence.shape.secondMax else 0xbf) < byte.toNat) := by
        unfold InRange at hbyte
        dsimp only at hbyte
        omega
      by_cases hlast : sequence.consumed + 1 = sequence.shape.length
      · -- the byte closes the sequence
        have hdone : openRanges { sequence with consumed := sequence.consumed + 1 } = [] :=
          openRanges_done (by have := h.leads; dsimp only; omega) hlast
        refine .inl ⟨[byte], bytes, ?_, rfl, ?_⟩
        · rw [hranges, hdone]
          exact .cons hbyte .nil
        · rw [invalidFrom, advanceSequence]
          rw [if_neg hinside, if_pos hlast]
          rfl
      · have hnext : Unfinished { sequence with consumed := sequence.consumed + 1 } :=
          ⟨by dsimp only; omega, by have := h.lacks; dsimp only; omega⟩
        have hround : invalidFrom (some sequence) offset (byte :: bytes) =
            invalidFrom (some { sequence with consumed := sequence.consumed + 1 }) (offset + 1)
              bytes := by
          rw [invalidFrom, advanceSequence]
          rw [if_neg hinside, if_neg hlast]
        rw [hround]
        rcases ih _ (offset + 1) hnext with ⟨taken, rest, htaken, rfl, hread⟩ | ⟨hnone, hstop⟩
        · refine .inl ⟨byte :: taken, rest, ?_, rfl, ?_⟩
          · rw [hranges]
            exact .cons hbyte htaken
          · rw [hread, List.length_cons]
            congr 1
            omega
        · refine .inr ⟨fun taken htaken hprefix => ?_, hstop⟩
          rw [hranges] at htaken
          cases htaken with
          | cons _ hmore =>
            exact hnone _ hmore (List.cons_prefix_cons.mp hprefix).2
    · have houtside : byte.toNat < (if sequence.consumed = 1 then sequence.shape.secondMin else 0x80) ∨
          (if sequence.consumed = 1 then sequence.shape.secondMax else 0xbf) < byte.toNat := by
        unfold InRange at hbyte
        dsimp only at hbyte
        omega
      refine .inr ⟨fun taken htaken hprefix => ?_, ?_⟩
      · rw [hranges] at htaken
        cases htaken with
        | cons hfirst _ =>
          obtain rfl := (List.cons_prefix_cons.mp hprefix).1
          exact hbyte hfirst
      · rw [invalidFrom, advanceSequence]
        rw [if_pos houtside]
        rfl

/-! ## Leading bytes and the rows of the table -/

theorem sequenceShape_cases {lead : Nat} {shape : SequenceShape}
    (h : sequenceShape lead = some shape) :
    (0xc2 ≤ lead ∧ lead ≤ 0xdf ∧ shape = ⟨2, 0x80, 0xbf⟩) ∨
      (0xe0 ≤ lead ∧ lead ≤ 0xef ∧ shape =
        ⟨3, if lead = 0xe0 then 0xa0 else 0x80, if lead = 0xed then 0x9f else 0xbf⟩) ∨
      (0xf0 ≤ lead ∧ lead ≤ 0xf4 ∧ shape =
        ⟨4, if lead = 0xf0 then 0x90 else 0x80, if lead = 0xf4 then 0x8f else 0xbf⟩) := by
  unfold sequenceShape at h
  split_ifs at h with h2 h3 he0 hed h4 hf0 hf4
  · exact .inl ⟨h2.1, h2.2, (Option.some.inj h).symm⟩
  · subst he0
    exact .inr (.inl ⟨h3.1, h3.2, (Option.some.inj h).symm⟩)
  · subst hed
    exact .inr (.inl ⟨h3.1, h3.2, (Option.some.inj h).symm⟩)
  · refine .inr (.inl ⟨h3.1, h3.2, ?_⟩)
    rw [if_neg he0, if_neg hed]
    exact (Option.some.inj h).symm
  · subst hf0
    exact .inr (.inr ⟨h4.1, h4.2, (Option.some.inj h).symm⟩)
  · subst hf4
    exact .inr (.inr ⟨h4.1, h4.2, (Option.some.inj h).symm⟩)
  · refine .inr (.inr ⟨h4.1, h4.2, ?_⟩)
    rw [if_neg hf0, if_neg hf4]
    exact (Option.some.inj h).symm

theorem sequenceShape_length {lead : Nat} {shape : SequenceShape}
    (h : sequenceShape lead = some shape) : 2 ≤ shape.length := by
  rcases sequenceShape_cases h with ⟨-, -, rfl⟩ | ⟨-, -, rfl⟩ | ⟨-, -, rfl⟩
  · exact Nat.le_refl 2
  · exact Nat.le_succ 2
  · exact Nat.le_add_right 2 2

theorem forall₂_pair {first second : ByteRange} {taken : List UInt8}
    (h : List.Forall₂ InRange [first, second] taken) :
    ∃ b c, taken = [b, c] ∧ InRange first b ∧ InRange second c := by
  cases h with
  | cons hb hrest =>
    cases hrest with
    | cons hc hnil =>
      cases hnil
      exact ⟨_, _, rfl, hb, hc⟩

theorem sequenceShape_three {lead second : Nat} (hlead : 0xe0 ≤ lead ∧ lead ≤ 0xef)
    (hsecond : 0x80 ≤ second ∧ second ≤ 0xbf) (hleast : lead = 0xe0 → 0xa0 ≤ second)
    (hmost : lead = 0xed → second ≤ 0x9f) :
    ∃ shape, sequenceShape lead = some shape ∧ shape.length = 3 ∧
      shape.secondMin ≤ second ∧ second ≤ shape.secondMax := by
  rw [sequenceShape, if_neg (by omega), if_pos hlead]
  split
  · rename_i h
    exact ⟨_, rfl, rfl, hleast h, hsecond.2⟩
  split
  · rename_i h
    exact ⟨_, rfl, rfl, hsecond.1, hmost h⟩
  · exact ⟨_, rfl, rfl, hsecond.1, hsecond.2⟩

theorem sequenceShape_four {lead second : Nat} (hlead : 0xf0 ≤ lead ∧ lead ≤ 0xf4)
    (hsecond : 0x80 ≤ second ∧ second ≤ 0xbf) (hleast : lead = 0xf0 → 0x90 ≤ second)
    (hmost : lead = 0xf4 → second ≤ 0x8f) :
    ∃ shape, sequenceShape lead = some shape ∧ shape.length = 4 ∧
      shape.secondMin ≤ second ∧ second ≤ shape.secondMax := by
  rw [sequenceShape, if_neg (by omega), if_neg (by omega), if_pos hlead]
  split
  · rename_i h
    exact ⟨_, rfl, rfl, hleast h, hsecond.2⟩
  split
  · rename_i h
    exact ⟨_, rfl, rfl, hsecond.1, hmost h⟩
  · exact ⟨_, rfl, rfl, hsecond.1, hsecond.2⟩

/-- A sequence is an ASCII byte, or a leading byte and the bytes its shape asks for. -/
theorem isSequence_cons_iff (byte : UInt8) (taken : List UInt8) :
    IsSequence (byte :: taken) ↔
      (byte.toNat ≤ 0x7f ∧ taken = []) ∨
        ∃ shape, sequenceShape byte.toNat = some shape ∧
          List.Forall₂ InRange (shapeRanges shape) taken := by
  constructor
  · intro h
    obtain ⟨a, hbytes⟩ | ⟨a, b, hbytes⟩ | ⟨a, b, c, hbytes⟩ | ⟨a, b, c, d, hbytes⟩ := h.bytes
    · cases hbytes
      exact .inl ⟨isSequence_one.mp h, rfl⟩
    · cases hbytes
      obtain ⟨hlead, hcontinues⟩ := isSequence_two.mp h
      refine .inr ⟨⟨2, 0x80, 0xbf⟩, ?_, .cons hcontinues .nil⟩
      unfold InRange at hlead
      rw [sequenceShape, if_pos hlead]
    · cases hbytes
      obtain ⟨hlead, ⟨hsecond, hleast, hmost⟩, hthird⟩ := isSequence_three.mp h
      obtain ⟨shape, hshape, hlength, hrange⟩ := sequenceShape_three hlead hsecond hleast hmost
      refine .inr ⟨shape, hshape, ?_⟩
      rw [shapeRanges, hlength]
      exact .cons hrange (.cons hthird .nil)
    · cases hbytes
      obtain ⟨hlead, ⟨hsecond, hleast, hmost⟩, hthird, hfourth⟩ := isSequence_four.mp h
      obtain ⟨shape, hshape, hlength, hrange⟩ := sequenceShape_four hlead hsecond hleast hmost
      refine .inr ⟨shape, hshape, ?_⟩
      rw [shapeRanges, hlength]
      exact .cons hrange (.cons hthird (.cons hfourth .nil))
  · rintro (⟨hascii, rfl⟩ | ⟨shape, hshape, htaken⟩)
    · exact isSequence_one.mpr hascii
    · rcases sequenceShape_cases hshape with ⟨hleast, hmost, rfl⟩ | ⟨hleast, hmost, rfl⟩ |
        ⟨hleast, hmost, rfl⟩
      · cases htaken with
        | cons hb hnil =>
          cases hnil
          exact isSequence_two.mpr ⟨⟨hleast, hmost⟩, hb⟩
      · obtain ⟨b, c, rfl, hb, hc⟩ := forall₂_pair htaken
        refine isSequence_three.mpr ⟨⟨hleast, hmost⟩, ?_, hc⟩
        unfold InRange at hb
        dsimp only at hb
        unfold SecondOfThree Continues InRange
        dsimp only
        split_ifs at hb <;> omega
      · cases htaken with
        | cons hb hrest =>
          obtain ⟨c, d, rfl, hc, hd⟩ := forall₂_pair hrest
          refine isSequence_four.mpr ⟨⟨hleast, hmost⟩, ?_, hc, hd⟩
          unfold InRange at hb
          dsimp only at hb
          unfold SecondOfFour Continues InRange
          dsimp only
          split_ifs at hb <;> omega

/-! ## The loop between sequences -/

/-- Between two sequences the loop reads one well-formed sequence and goes on behind it, or none
starts here and it reports this place. -/
theorem invalidFrom_sequence (byte : UInt8) (bytes : List UInt8) (offset : Nat) :
    (∃ sequence rest, IsSequence sequence ∧ byte :: bytes = sequence ++ rest ∧
      invalidFrom none offset (byte :: bytes) = invalidFrom none (offset + sequence.length) rest) ∨
    (NoSequenceStarts (byte :: bytes) ∧
      invalidFrom none offset (byte :: bytes) = some offset) := by
  have hstart : invalidFrom none offset (byte :: bytes) =
      ((startSequence byte.toNat offset).map fun next =>
        invalidFrom next (offset + 1) bytes).getD (some offset) := by
    rw [invalidFrom, advanceSequence]
    cases startSequence byte.toNat offset <;> rfl
  -- a sequence that starts here starts with the byte
  have hhead : ∀ sequence, IsSequence sequence → sequence <+: byte :: bytes →
      ∃ taken, sequence = byte :: taken ∧ taken <+: bytes := by
    intro sequence hsequence hprefix
    obtain ⟨first, taken, rfl⟩ := List.exists_cons_of_ne_nil hsequence.ne_nil
    obtain ⟨rfl, htaken⟩ := List.cons_prefix_cons.mp hprefix
    exact ⟨taken, rfl, htaken⟩
  rw [hstart]
  by_cases hascii : byte.toNat ≤ 0x7f
  · refine .inl ⟨[byte], bytes, isSequence_one.mpr hascii, rfl, ?_⟩
    rw [startSequence, if_pos hascii]
    rfl
  · rw [startSequence, if_neg hascii]
    cases hshape : sequenceShape byte.toNat with
    | none =>
      refine .inr ⟨fun sequence hsequence hprefix => ?_, rfl⟩
      obtain ⟨taken, rfl, -⟩ := hhead sequence hsequence hprefix
      rcases (isSequence_cons_iff byte taken).mp hsequence with ⟨hle, -⟩ | ⟨shape, hsome, -⟩
      · exact hascii hle
      · rw [hshape] at hsome
        cases hsome
    | some shape =>
      have hunfinished : Unfinished ⟨shape, offset, 1⟩ :=
        ⟨Nat.le_refl 1, sequenceShape_length hshape⟩
      have hranges : openRanges ⟨shape, offset, 1⟩ = shapeRanges shape := rfl
      rcases invalidFrom_open bytes ⟨shape, offset, 1⟩ (offset + 1) hunfinished with
        ⟨taken, rest, htaken, rfl, hread⟩ | ⟨hnone, hstop⟩
      · rw [hranges] at htaken
        refine .inl ⟨byte :: taken, rest, ?_, rfl, ?_⟩
        · exact (isSequence_cons_iff byte taken).mpr (.inr ⟨shape, hshape, htaken⟩)
        · rw [List.length_cons]
          refine hread.trans ?_
          congr 1
          omega
      · refine .inr ⟨fun sequence hsequence hprefix => ?_, hstop⟩
        obtain ⟨taken, rfl, htaken⟩ := hhead sequence hsequence hprefix
        rcases (isSequence_cons_iff byte taken).mp hsequence with ⟨hle, -⟩ | ⟨other, hsome, hfits⟩
        · exact hascii hle
        · rw [hshape] at hsome
          cases hsome
          rw [hranges] at hnone
          exact hnone taken hfits htaken

/-- The whole loop: all bytes are well formed, or it reports the end of the well-formed sequences
behind which none starts. -/
theorem invalidFrom_none (bytes : List UInt8) (offset : Nat) :
    (WellFormedUtf8 bytes ∧ invalidFrom none offset bytes = none) ∨
      ∃ good rest, bytes = good ++ rest ∧ WellFormedUtf8 good ∧ rest ≠ [] ∧
        NoSequenceStarts rest ∧ invalidFrom none offset bytes = some (offset + good.length) := by
  -- by induction on the number of bytes: a sequence is not empty
  induction hlength : bytes.length using Nat.strong_induction_on generalizing bytes offset with
  | _ length ih =>
    cases bytes with
    | nil => exact .inl ⟨.nil, rfl⟩
    | cons byte bytes =>
      rcases invalidFrom_sequence byte bytes offset with
        ⟨sequence, rest, hsequence, hbytes, hread⟩ | ⟨hnone, hstop⟩
      · have hshorter : rest.length < length := by
          have hpositive := List.length_pos_of_ne_nil hsequence.ne_nil
          have hsum := congrArg List.length hbytes
          rw [List.length_append] at hsum
          omega
        rw [hread, hbytes]
        rcases ih rest.length hshorter rest (offset + sequence.length) rfl with
          ⟨hgood, hend⟩ | ⟨good, more, rfl, hgood, hmore, hnone, hend⟩
        · exact .inl ⟨.cons hsequence hgood, hend⟩
        · refine .inr ⟨sequence ++ good, more, (List.append_assoc ..).symm,
            .cons hsequence hgood, hmore, hnone, ?_⟩
          rw [hend, List.length_append, Nat.add_assoc]
      · exact .inr ⟨[], byte :: bytes, rfl, .nil, List.cons_ne_nil _ _, hnone, hstop⟩

/-! ## The result -/

theorem firstInvalidUtf8Offset_eq_none_iff {bytes : List UInt8} :
    firstInvalidUtf8Offset bytes = none ↔ WellFormedUtf8 bytes := by
  rcases invalidFrom_none bytes 0 with ⟨hgood, hend⟩ | ⟨good, rest, rfl, hgood, hrest, hnone, hend⟩
  · exact iff_of_true hend hgood
  · refine iff_of_false (fun h => ?_) (fun hwhole => ?_)
    · rw [firstInvalidUtf8Offset, hend] at h
      cases h
    · have hlength := hgood.longest hnone hwhole (List.prefix_refl _)
      have hpositive := List.length_pos_of_ne_nil hrest
      rw [List.length_append] at hlength
      omega

theorem firstInvalidUtf8Offset_utf8 (chars : List Char) :
    firstInvalidUtf8Offset (utf8 chars) = none :=
  firstInvalidUtf8Offset_eq_none_iff.mpr ((wellFormedUtf8_iff _).mpr ⟨chars, rfl⟩)

/-- The checker accepts exactly the well-formed bytes, which are the encodings of texts; elsewhere
it reports the length of the longest well-formed prefix, behind which no sequence starts. -/
theorem firstInvalidUtf8Offset_spec (bytes : List UInt8) :
    (firstInvalidUtf8Offset bytes = none ↔ WellFormedUtf8 bytes) ∧
      (WellFormedUtf8 bytes ↔ ∃ chars, bytes = utf8 chars) ∧
      ∀ offset, firstInvalidUtf8Offset bytes = some offset →
        offset < bytes.length ∧ WellFormedUtf8 (bytes.take offset) ∧
          NoSequenceStarts (bytes.drop offset) ∧
          ∀ length ≤ bytes.length, WellFormedUtf8 (bytes.take length) → length ≤ offset := by
  refine ⟨firstInvalidUtf8Offset_eq_none_iff, wellFormedUtf8_iff bytes, ?_⟩
  intro offset hoffset
  rw [firstInvalidUtf8Offset] at hoffset
  rcases invalidFrom_none bytes 0 with ⟨-, hend⟩ | ⟨good, rest, rfl, hgood, hrest, hnone, hend⟩
  · rw [hend] at hoffset
    cases hoffset
  · rw [hend, Nat.zero_add] at hoffset
    obtain rfl := Option.some.inj hoffset
    have hpositive := List.length_pos_of_ne_nil hrest
    rw [List.length_append, List.take_left, List.drop_left]
    refine ⟨by omega, hgood, hnone, fun length hlength hprefix => ?_⟩
    have hlongest := hgood.longest hnone hprefix (List.take_prefix _ _)
    rwa [List.length_take_of_le (by rwa [List.length_append])] at hlongest

end RefundStudy.Record
