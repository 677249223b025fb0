/-
  Well-formed UTF-8 as a grammar over bytes.
-/
import Mathlib.Data.List.Forall2
import Mathlib.Tactic.Linarith

set_option autoImplicit false

namespace RefundStudy.Foundation

abbrev ByteRange : Type := Nat × Nat

def InRange (range : ByteRange) (byte : UInt8) : Prop :=
  range.1 ≤ byte.toNat ∧ byte.toNat ≤ range.2

def utf8Table : List (List ByteRange) :=
  [[(0x00, 0x7f)],
    [(0xc2, 0xdf), (0x80, 0xbf)],
    [(0xe0, 0xe0), (0xa0, 0xbf), (0x80, 0xbf)],
    [(0xe1, 0xec), (0x80, 0xbf), (0x80, 0xbf)],
    [(0xed, 0xed), (0x80, 0x9f), (0x80, 0xbf)],
    [(0xee, 0xef), (0x80, 0xbf), (0x80, 0xbf)],
    [(0xf0, 0xf0), (0x90, 0xbf), (0x80, 0xbf), (0x80, 0xbf)],
    [(0xf1, 0xf3), (0x80, 0xbf), (0x80, 0xbf), (0x80, 0xbf)],
    [(0xf4, 0xf4), (0x80, 0x8f), (0x80, 0xbf), (0x80, 0xbf)]]

/-- A well-formed sequence: the bytes of one character. -/
def IsSequence (bytes : List UInt8) : Prop :=
  ∃ row ∈ utf8Table, List.Forall₂ InRange row bytes

inductive WellFormedUtf8 : List UInt8 → Prop
  | nil : WellFormedUtf8 []
  | cons {bytes rest : List UInt8} (hbytes : IsSequence bytes) (hrest : WellFormedUtf8 rest) :
      WellFormedUtf8 (bytes ++ rest)

/-! ## The table by lengths -/

def Continues (byte : UInt8) : Prop := InRange (0x80, 0xbf) byte

/-- The second byte of three: neither an overlong form nor a surrogate. -/
def SecondOfThree (first second : UInt8) : Prop :=
  Continues second ∧ (first.toNat = 0xe0 → 0xa0 ≤ second.toNat) ∧
    (first.toNat = 0xed → second.toNat ≤ 0x9f)

/-- The second byte of four: neither an overlong form nor above the last plane. -/
def SecondOfFour (first second : UInt8) : Prop :=
  Continues second ∧ (first.toNat = 0xf0 → 0x90 ≤ second.toNat) ∧
    (first.toNat = 0xf4 → second.toNat ≤ 0x8f)

theorem isSequence_one {a : UInt8} : IsSequence [a] ↔ a.toNat ≤ 0x7f := by
  simp [IsSequence, utf8Table, InRange]

theorem isSequence_two {a b : UInt8} :
    IsSequence [a, b] ↔ InRange (0xc2, 0xdf) a ∧ Continues b := by
  simp [IsSequence, utf8Table, Continues]

theorem isSequence_three {a b c : UInt8} :
    IsSequence [a, b, c] ↔ InRange (0xe0, 0xef) a ∧ SecondOfThree a b ∧ Continues c := by
  simp only [IsSequence, utf8Table, List.mem_cons, List.not_mem_nil, or_false, exists_eq_or_imp,
    exists_eq_left, List.forall₂_cons, List.forall₂_nil_left_iff, List.forall₂_nil_right_iff,
    InRange, Continues, SecondOfThree, reduceCtorEq, and_false, false_or, or_false, and_true]
  omega

theorem isSequence_four {a b c d : UInt8} :
    IsSequence [a, b, c, d] ↔
      InRange (0xf0, 0xf4) a ∧ SecondOfFour a b ∧ Continues c ∧ Continues d := by
  simp only [IsSequence, utf8Table, List.mem_cons, List.not_mem_nil, or_false, exists_eq_or_imp,
    exists_eq_left, List.forall₂_cons, List.forall₂_nil_left_iff, List.forall₂_nil_right_iff,
    InRange, Continues, SecondOfFour, reduceCtorEq, and_false, false_or, or_false, and_true]
  omega

theorem IsSequence.bytes {bytes : List UInt8} (h : IsSequence bytes) :
    (∃ a, bytes = [a]) ∨ (∃ a b, bytes = [a, b]) ∨ (∃ a b c, bytes = [a, b, c]) ∨
      ∃ a b c d, bytes = [a, b, c, d] := by
  obtain ⟨row, hrow, hbytes⟩ := h
  have hlength : bytes.length = row.length := hbytes.length_eq.symm
  have hrows : row.length = 1 ∨ row.length = 2 ∨ row.length = 3 ∨ row.length = 4 := by
    simp only [utf8Table, List.mem_cons, List.not_mem_nil, or_false] at hrow
    rcases hrow with rfl | rfl | rfl | rfl | rfl | rfl | rfl | rfl | rfl <;> simp
  rw [← hlength] at hrows
  rcases hrows with h | h | h | h
  · exact .inl (List.length_eq_one_iff.mp h)
  · exact .inr (.inl (List.length_eq_two.mp h))
  · exact .inr (.inr (.inl (List.length_eq_three.mp h)))
  · obtain ⟨a, rest, rfl⟩ := List.exists_of_length_succ bytes h
    obtain ⟨b, c, d, rfl⟩ := List.length_eq_three.mp (Nat.succ.inj h)
    exact .inr (.inr (.inr ⟨a, b, c, d, rfl⟩))

/-! ## Sequences and characters -/

theorem toNat_ofNat {number : Nat} (h : number < 256) : (UInt8.ofNat number).toNat = number :=
  UInt8.toNat_ofNat_of_lt' h

theorem isSequence_utf8EncodeChar (c : Char) : IsSequence (String.utf8EncodeChar c) := by
  have hscalar : c.val.toNat < 0xd800 ∨ (0xdfff < c.val.toNat ∧ c.val.toNat < 0x110000) := c.valid
  unfold String.utf8EncodeChar
  dsimp only
  generalize c.val.toNat = v at *
  have hcontinues : ∀ number : Nat, Continues (UInt8.ofNat (number % 64 + 0x80)) := by
    intro number
    unfold Continues InRange
    rw [toNat_ofNat (by omega)]
    dsimp only
    omega
  split_ifs with hone htwo hthree
  · rw [isSequence_one, toNat_ofNat (by omega)]
    exact hone
  · rw [isSequence_two, InRange, toNat_ofNat (by omega)]
    refine ⟨?_, hcontinues v⟩
    dsimp only
    omega
  · rw [isSequence_three, SecondOfThree, InRange, toNat_ofNat (by omega), toNat_ofNat (by omega)]
    refine ⟨?_, ⟨hcontinues (v / 64), ?_, ?_⟩, hcontinues v⟩
    · dsimp only
      omega
    · omega
    · omega
  · rw [isSequence_four, SecondOfFour, InRange, toNat_ofNat (by omega), toNat_ofNat (by omega)]
    refine ⟨?_, ⟨hcontinues (v / 4096), ?_, ?_⟩, hcontinues (v / 64), hcontinues v⟩
    · dsimp only
      omega
    · omega
    · omega

theorem exists_char {v : Nat} (h : v < 0xd800 ∨ (0xdfff < v ∧ v < 0x110000)) :
    ∃ c : Char, c.val.toNat = v := by
  have hlt : v < UInt32.size := by
    have : UInt32.size = 4294967296 := rfl
    omega
  have hv : (UInt32.ofNat v).toNat = v := UInt32.toNat_ofNat_of_lt' hlt
  refine ⟨⟨UInt32.ofNat v, ?_⟩, hv⟩
  unfold UInt32.isValidChar
  rw [hv]
  exact h

theorem eq_ofNat {byte : UInt8} {number : Nat} (h : byte.toNat = number) :
    byte = UInt8.ofNat number := by
  rw [← h, UInt8.ofNat_toNat]

/-- Bytes that fit the table are the bytes of a character: the one whose code point they spell. -/
theorem char_of_isSequence {bytes : List UInt8} (h : IsSequence bytes) :
    ∃ c : Char, bytes = String.utf8EncodeChar c := by
  obtain ⟨a, rfl⟩ | ⟨a, b, rfl⟩ | ⟨a, b, c, rfl⟩ | ⟨a, b, c, d, rfl⟩ := h.bytes
  · have ha := isSequence_one.mp h
    obtain ⟨char, hchar⟩ := exists_char (v := a.toNat) (.inl (by omega))
    refine ⟨char, ?_⟩
    unfold String.utf8EncodeChar
    dsimp only
    rw [hchar, if_pos ha, UInt8.ofNat_toNat]
  · have hab := isSequence_two.mp h
    simp only [Continues, InRange] at hab
    obtain ⟨char, hchar⟩ := exists_char
      (v := (a.toNat - 0xc0) * 64 + (b.toNat - 0x80)) (.inl (by omega))
    refine ⟨char, ?_⟩
    unfold String.utf8EncodeChar
    dsimp only
    rw [hchar, if_neg (by omega), if_pos (by omega), ← @eq_ofNat a _ (by omega),
      ← @eq_ofNat b _ (by omega)]
  · have habc := isSequence_three.mp h
    simp only [SecondOfThree, Continues, InRange] at habc
    obtain ⟨char, hchar⟩ := exists_char
      (v := (a.toNat - 0xe0) * 4096 + (b.toNat - 0x80) * 64 + (c.toNat - 0x80)) (by omega)
    refine ⟨char, ?_⟩
    unfold String.utf8EncodeChar
    dsimp only
    rw [hchar, if_neg (by omega), if_neg (by omega), if_pos (by omega),
      ← @eq_ofNat a _ (by omega), ← @eq_ofNat b _ (by omega),
      ← @eq_ofNat c _ (by omega)]
  · have habcd := isSequence_four.mp h
    simp only [SecondOfFour, Continues, InRange] at habcd
    obtain ⟨char, hchar⟩ := exists_char
      (v := (a.toNat - 0xf0) * 262144 + (b.toNat - 0x80) * 4096 + (c.toNat - 0x80) * 64 +
        (d.toNat - 0x80)) (by omega)
    refine ⟨char, ?_⟩
    unfold String.utf8EncodeChar
    dsimp only
    rw [hchar, if_neg (by omega), if_neg (by omega), if_neg (by omega),
      ← @eq_ofNat a _ (by omega), ← @eq_ofNat b _ (by omega),
      ← @eq_ofNat c _ (by omega), ← @eq_ofNat d _ (by omega)]

theorem wellFormedUtf8_iff (bytes : List UInt8) :
    WellFormedUtf8 bytes ↔ ∃ chars : List Char, bytes = chars.flatMap String.utf8EncodeChar := by
  constructor
  · intro h
    induction h with
    | nil => exact ⟨[], rfl⟩
    | cons hbytes _ ih =>
      obtain ⟨c, rfl⟩ := char_of_isSequence hbytes
      obtain ⟨chars, rfl⟩ := ih
      exact ⟨c :: chars, List.flatMap_cons.symm⟩
  · rintro ⟨chars, rfl⟩
    induction chars with
    | nil => exact .nil
    | cons c rest ih =>
      rw [List.flatMap_cons]
      exact .cons (isSequence_utf8EncodeChar c) ih

/-! ## One reading -/

theorem IsSequence.ne_nil {bytes : List UInt8} (h : IsSequence bytes) : bytes ≠ [] := by
  obtain ⟨c, rfl⟩ := char_of_isSequence h
  exact String.utf8EncodeChar_ne_nil

/-- The number of bytes a first byte asks for. -/
def sequenceLength (first : UInt8) : Nat :=
  if first.toNat ≤ 0x7f then 1 else if first.toNat ≤ 0xdf then 2
  else if first.toNat ≤ 0xef then 3 else 4

theorem IsSequence.length {first : UInt8} {rest : List UInt8} (h : IsSequence (first :: rest)) :
    (first :: rest).length = sequenceLength first := by
  unfold sequenceLength
  obtain ⟨a, hbytes⟩ | ⟨a, b, hbytes⟩ | ⟨a, b, c, hbytes⟩ | ⟨a, b, c, d, hbytes⟩ := h.bytes
  · cases hbytes
    rw [if_pos (isSequence_one.mp h), List.length_singleton]
  · cases hbytes
    have hfirst := (isSequence_two.mp h).1
    unfold InRange at hfirst
    rw [if_neg (by omega), if_pos hfirst.2]
    rfl
  · cases hbytes
    have hfirst := (isSequence_three.mp h).1
    unfold InRange at hfirst
    rw [if_neg (by omega), if_neg (by omega), if_pos hfirst.2]
    rfl
  · cases hbytes
    have hfirst := (isSequence_four.mp h).1
    unfold InRange at hfirst
    rw [if_neg (by omega), if_neg (by omega), if_neg (by omega)]
    rfl

/-- Two sequences that start one text are the same: the first byte tells the length. -/
theorem IsSequence.unique {first second : List UInt8} (hfirst : IsSequence first)
    (hsecond : IsSequence second) {more others : List UInt8}
    (h : first ++ more = second ++ others) : first = second := by
  obtain ⟨a, firsts, rfl⟩ := List.exists_cons_of_ne_nil hfirst.ne_nil
  obtain ⟨b, seconds, rfl⟩ := List.exists_cons_of_ne_nil hsecond.ne_nil
  obtain rfl : a = b := List.head_eq_of_cons_eq h
  exact List.append_inj_left h (hfirst.length.trans hsecond.length.symm)

def NoSequenceStarts (bytes : List UInt8) : Prop := ∀ sequence, IsSequence sequence →
  ¬ sequence <+: bytes

theorem WellFormedUtf8.longest {good rest other : List UInt8} (hgood : WellFormedUtf8 good)
    (hrest : NoSequenceStarts rest) (hother : WellFormedUtf8 other)
    (h : other <+: good ++ rest) : other.length ≤ good.length := by
  induction hgood generalizing other with
  | nil =>
    cases hother with
    | nil => exact Nat.le_refl _
    | cons hbytes hmore => exact absurd ((List.prefix_append _ _).trans h) (hrest _ hbytes)
  | @cons bytes good hbytes _ ih =>
    cases hother with
    | nil => exact Nat.zero_le _
    | @cons first more hfirst hmore =>
      obtain ⟨others, hothers⟩ := h
      rw [List.append_assoc, List.append_assoc] at hothers
      obtain rfl := hfirst.unique hbytes hothers
      have hmore' : more <+: good ++ rest := ⟨others, List.append_cancel_left hothers⟩
      have hlength := ih hmore hmore'
      rw [List.length_append, List.length_append]
      omega

end RefundStudy.Foundation
