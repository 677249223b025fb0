/-
  The digests of the newline-terminated prefixes of a journal
  (`evidence-package/line-prefix-digests.ts`).
-/
import RefundStudy.Foundation.InsertionMap
import RefundStudy.Record.CanonicalJson

set_option autoImplicit false

namespace RefundStudy.Package

open Foundation Record

/-! ## The table -/

section Table

variable {δ : Type} [DecidableEq δ]

structure LinePrefixDigests (δ : Type) where
  bytes : List UInt8
  lengths : InsertionMap δ Nat
  scanned : Nat

def linePrefixDigests (bytes : List UInt8) : LinePrefixDigests δ := ⟨bytes, [], 0⟩

/-- `#nextLineEnd`: one past the next line break, or 0. -/
def nextLineEnd (bytes : List UInt8) (scanned : Nat) : Nat :=
  match (bytes.drop scanned).findIdx? fun byte => byte == newline with
  | none => 0
  | some index => scanned + index + 1

def LinePrefixDigests.enter (table : LinePrefixDigests δ) (digest : List UInt8 → δ)
    (lineEnd : Nat) : LinePrefixDigests δ :=
  { table with
    lengths := table.lengths.set (digest (table.bytes.take lineEnd)) lineEnd
    scanned := lineEnd }

/-- The loop of `#lengthOf`; every turn moves the cursor. -/
def scanFor (digest : List UInt8 → δ) (wanted : δ) :
    Nat → LinePrefixDigests δ → Option Nat × LinePrefixDigests δ × List (List UInt8)
  | 0, table => (none, table, [])
  | fuel + 1, table =>
    let lineEnd := nextLineEnd table.bytes table.scanned
    if lineEnd = 0 then (none, table, [])
    else if digest (table.bytes.take lineEnd) = wanted then
      (some lineEnd, table.enter digest lineEnd, [table.bytes.take lineEnd])
    else
      let rest := scanFor digest wanted fuel (table.enter digest lineEnd)
      (rest.1, rest.2.1, table.bytes.take lineEnd :: rest.2.2)

def lengthOf (digest : List UInt8 → δ) (wanted : δ) (table : LinePrefixDigests δ) :
    Option Nat × LinePrefixDigests δ × List (List UInt8) :=
  match table.lengths.get? wanted with
  | some known => (some known, table, [])
  | none => scanFor digest wanted (table.bytes.length + 1) table

def prefixWithDigest (digest : List UInt8 → δ) (wanted : δ) (table : LinePrefixDigests δ) :
    Option (List UInt8) × LinePrefixDigests δ × List (List UInt8) :=
  let found := lengthOf digest wanted table
  (found.1.map fun length => table.bytes.take length, found.2)

/-! ## The prefixes -/

structure LineEnd (bytes : List UInt8) (length : Nat) : Prop where
  pos : 0 < length
  le : length ≤ bytes.length
  ends : bytes[length - 1]? = some newline

def LinePrefix (taken bytes : List UInt8) : Prop :=
  ∃ length, LineEnd bytes length ∧ taken = bytes.take length

theorem linePrefix_iff {taken bytes : List UInt8} :
    LinePrefix taken bytes ↔ taken <+: bytes ∧ taken.getLast? = some newline := by
  constructor
  · intro h
    obtain ⟨length, hend, rfl⟩ := h
    refine ⟨List.take_prefix length bytes, ?_⟩
    have hpos := hend.pos
    have hle := hend.le
    rw [List.getLast?_eq_getElem?, List.length_take, Nat.min_eq_left hle,
      List.getElem?_take_of_lt (by omega)]
    exact hend.ends
  · intro h
    obtain ⟨⟨rest, rfl⟩, hlast⟩ := h
    have hne : taken ≠ [] := by
      intro hnil
      rw [hnil] at hlast
      cases hlast
    have hpos := List.length_pos_iff.mpr hne
    refine ⟨taken.length, ⟨hpos, by simp, ?_⟩, by simp⟩
    rw [List.getElem?_append_left (by omega), ← List.getLast?_eq_getElem?]
    exact hlast

theorem nextLineEnd_eq_zero {bytes : List UInt8} {scanned : Nat}
    (h : nextLineEnd bytes scanned = 0) {length : Nat} (hend : LineEnd bytes length) :
    length ≤ scanned := by
  by_contra hlt
  unfold nextLineEnd at h
  split at h
  · rename_i hnone
    rw [List.findIdx?_eq_none_iff] at hnone
    have hends := hend.ends
    have hpos := hend.pos
    have hmem : newline ∈ bytes.drop scanned := by
      refine List.mem_of_getElem? (i := length - 1 - scanned) ?_
      rw [List.getElem?_drop, show scanned + (length - 1 - scanned) = length - 1 by omega]
      exact hends
    simpa using hnone newline hmem
  · omega

theorem nextLineEnd_next {bytes : List UInt8} {scanned : Nat}
    (h : nextLineEnd bytes scanned ≠ 0) :
    LineEnd bytes (nextLineEnd bytes scanned) ∧ scanned < nextLineEnd bytes scanned ∧
      ∀ length, LineEnd bytes length → length < nextLineEnd bytes scanned → length ≤ scanned := by
  unfold nextLineEnd at h ⊢
  split at h
  · exact absurd rfl h
  · rename_i index hindex
    obtain ⟨hlt, hfound, hbefore⟩ := List.findIdx?_eq_some_iff_getElem.mp hindex
    rw [List.length_drop] at hlt
    refine ⟨⟨by omega, by omega, ?_⟩, by omega, ?_⟩
    · have hat : (bytes.drop scanned)[index]? = some newline := by
        rw [List.getElem?_eq_getElem (by rw [List.length_drop]; omega)]
        congr 1
        simpa using hfound
      rw [List.getElem?_drop] at hat
      rw [show scanned + index + 1 - 1 = scanned + index by omega]
      exact hat
    · intro length hend hless
      by_contra hlate
      have hpos := hend.pos
      have hle := hend.le
      have hnot := hbefore (length - 1 - scanned) (by omega)
      have hends := hend.ends
      have hat : (bytes.drop scanned)[length - 1 - scanned]? = some newline := by
        rw [List.getElem?_drop, show scanned + (length - 1 - scanned) = length - 1 by omega]
        exact hends
      obtain ⟨hbound, hvalue⟩ := List.getElem?_eq_some_iff.mp hat
      rw [hvalue] at hnot
      simp at hnot

/-! ## What a lookup keeps -/

/-- The table knows the prefixes up to the cursor, and each was digested once. -/
structure Scanned (digest : List UInt8 → δ) (table : LinePrefixDigests δ)
    (digested : List (List UInt8)) : Prop where
  known : ∀ value length, table.lengths.get? value = some length ↔
    LineEnd table.bytes length ∧ length ≤ table.scanned ∧
      digest (table.bytes.take length) = value
  once : digested.Nodup
  prefixes : ∀ taken ∈ digested, ∃ length, LineEnd table.bytes length ∧
    length ≤ table.scanned ∧ taken = table.bytes.take length

variable {digest : List UInt8 → δ}

theorem scanned_start (digest : List UInt8 → δ) (bytes : List UInt8) :
    Scanned digest (linePrefixDigests bytes) [] where
  known value length := by
    constructor
    · intro h
      cases h
    · intro h
      have hpos := h.1.pos
      have hle : length ≤ 0 := h.2.1
      omega
  once := List.nodup_nil
  prefixes _ hmem := absurd hmem List.not_mem_nil

omit [DecidableEq δ] in
theorem take_injective (hinjective : Function.Injective digest) {bytes : List UInt8}
    {first second : Nat} (hfirst : first ≤ bytes.length) (hsecond : second ≤ bytes.length)
    (h : digest (bytes.take first) = digest (bytes.take second)) : first = second := by
  have hlength := congrArg List.length (hinjective h)
  rw [List.length_take, List.length_take] at hlength
  omega

theorem Scanned.enter (hinjective : Function.Injective digest) {table : LinePrefixDigests δ}
    {digested : List (List UInt8)} (h : Scanned digest table digested)
    (hnext : nextLineEnd table.bytes table.scanned ≠ 0) :
    Scanned digest (table.enter digest (nextLineEnd table.bytes table.scanned))
      (digested ++ [table.bytes.take (nextLineEnd table.bytes table.scanned)]) := by
  obtain ⟨hend, hafter, hfirst⟩ := nextLineEnd_next hnext
  generalize nextLineEnd table.bytes table.scanned = lineEnd at hend hafter hfirst
  refine ⟨?_, ?_, ?_⟩
  · intro value length
    by_cases hvalue : value = digest (table.bytes.take lineEnd)
    · -- the digest of the new prefix is the digest of no other
      rw [LinePrefixDigests.enter, hvalue, InsertionMap.get?_set_self]
      constructor
      · intro hlength
        obtain rfl := Option.some.inj hlength
        exact ⟨hend, Nat.le_refl _, rfl⟩
      · intro hlength
        rw [take_injective hinjective hlength.1.le hend.le hlength.2.2]
    · rw [LinePrefixDigests.enter, InsertionMap.get?_set_of_ne _ hvalue, h.known]
      constructor
      · intro hlength
        have hle : length ≤ lineEnd := by omega
        exact ⟨hlength.1, hle, hlength.2.2⟩
      · intro hlength
        obtain ⟨hline, hle, hdigest⟩ := hlength
        have hle : length ≤ lineEnd := hle
        have hne : length ≠ lineEnd := by
          intro heq
          rw [heq] at hdigest
          exact hvalue hdigest.symm
        exact ⟨hline, hfirst length hline (by omega), hdigest⟩
  · refine h.once.append (List.nodup_singleton _) ?_
    intro taken hmem hnew
    obtain ⟨length, hline, hle, htaken⟩ := h.prefixes taken hmem
    have hlength := congrArg List.length (htaken.symm.trans (List.mem_singleton.mp hnew))
    rw [List.length_take, List.length_take] at hlength
    have hend := hend.le
    have hline := hline.le
    omega
  · intro taken hmem
    rcases List.mem_append.mp hmem with hmem | hmem
    · obtain ⟨length, hline, hle, htaken⟩ := h.prefixes taken hmem
      have hle : length ≤ lineEnd := by omega
      exact ⟨length, hline, hle, htaken⟩
    · exact ⟨lineEnd, hend, Nat.le_refl _, List.mem_singleton.mp hmem⟩

/-- The loop finds the wanted prefix after the cursor, if there is one. -/
theorem scanFor_spec (hinjective : Function.Injective digest) (wanted : δ) {fuel : Nat}
    {table : LinePrefixDigests δ} {digested : List (List UInt8)}
    (h : Scanned digest table digested) (hfuel : table.bytes.length - table.scanned < fuel)
    (hbefore : ∀ length, LineEnd table.bytes length → length ≤ table.scanned →
      digest (table.bytes.take length) ≠ wanted) :
    Scanned digest (scanFor digest wanted fuel table).2.1
        (digested ++ (scanFor digest wanted fuel table).2.2) ∧
      (scanFor digest wanted fuel table).2.1.bytes = table.bytes ∧
      ∀ length, (scanFor digest wanted fuel table).1 = some length ↔
        LineEnd table.bytes length ∧ digest (table.bytes.take length) = wanted := by
  induction fuel generalizing table digested with
  | zero => omega
  | succ fuel ih =>
    unfold scanFor
    dsimp only
    by_cases hzero : nextLineEnd table.bytes table.scanned = 0
    · rw [if_pos hzero]
      refine ⟨by rw [List.append_nil]; exact h, rfl, ?_⟩
      intro length
      constructor
      · intro hnone
        cases hnone
      · intro hlength
        exact absurd hlength.2 (hbefore length hlength.1 (nextLineEnd_eq_zero hzero hlength.1))
    · rw [if_neg hzero]
      obtain ⟨hend, hafter, hfirst⟩ := nextLineEnd_next hzero
      have hentered := h.enter hinjective hzero
      by_cases hfound : digest (table.bytes.take (nextLineEnd table.bytes table.scanned)) = wanted
      · rw [if_pos hfound]
        refine ⟨hentered, rfl, ?_⟩
        intro length
        constructor
        · intro hlength
          rw [← Option.some.inj hlength]
          exact ⟨hend, hfound⟩
        · intro hlength
          rw [take_injective hinjective hlength.1.le hend.le (hlength.2.trans hfound.symm)]
      · rw [if_neg hfound]
        have hbound := hend.le
        obtain ⟨hscanned, hbytes, hspec⟩ := ih hentered
          (show table.bytes.length - nextLineEnd table.bytes table.scanned < fuel by omega) (by
            intro length hline hle
            rcases Nat.lt_or_eq_of_le hle with hlt | heq
            · exact hbefore length hline (hfirst length hline hlt)
            · rw [heq]
              exact hfound)
        rw [List.append_assoc, List.singleton_append] at hscanned
        exact ⟨hscanned, hbytes, hspec⟩

/-- A lookup finds the prefix with the wanted digest, whatever was looked up before. -/
theorem lengthOf_spec (hinjective : Function.Injective digest) (wanted : δ)
    {table : LinePrefixDigests δ} {digested : List (List UInt8)}
    (h : Scanned digest table digested) :
    Scanned digest (lengthOf digest wanted table).2.1
        (digested ++ (lengthOf digest wanted table).2.2) ∧
      (lengthOf digest wanted table).2.1.bytes = table.bytes ∧
      ∀ length, (lengthOf digest wanted table).1 = some length ↔
        LineEnd table.bytes length ∧ digest (table.bytes.take length) = wanted := by
  unfold lengthOf
  cases hknown : table.lengths.get? wanted with
  | some known =>
    obtain ⟨hline, -, hdigest⟩ := (h.known wanted known).mp hknown
    refine ⟨by rw [List.append_nil]; exact h, rfl, ?_⟩
    intro length
    constructor
    · intro hlength
      rw [← Option.some.inj hlength]
      exact ⟨hline, hdigest⟩
    · intro hlength
      rw [take_injective hinjective hlength.1.le hline.le (hlength.2.trans hdigest.symm)]
  | none =>
    refine scanFor_spec hinjective wanted h (by omega) ?_
    intro length hline hle hdigest
    have hfound := (h.known wanted length).mpr ⟨hline, hle, hdigest⟩
    rw [hknown] at hfound
    cases hfound

theorem prefixWithDigest_spec (hinjective : Function.Injective digest) (wanted : δ)
    {table : LinePrefixDigests δ} {digested : List (List UInt8)}
    (h : Scanned digest table digested) :
    Scanned digest (prefixWithDigest digest wanted table).2.1
        (digested ++ (prefixWithDigest digest wanted table).2.2) ∧
      (prefixWithDigest digest wanted table).2.1.bytes = table.bytes ∧
      ∀ taken, (prefixWithDigest digest wanted table).1 = some taken ↔
        LinePrefix taken table.bytes ∧ digest taken = wanted := by
  obtain ⟨hscanned, hbytes, hspec⟩ := lengthOf_spec hinjective wanted h
  refine ⟨hscanned, hbytes, ?_⟩
  intro taken
  unfold prefixWithDigest
  dsimp only
  rw [Option.map_eq_some_iff]
  constructor
  · intro hfound
    obtain ⟨length, hlength, rfl⟩ := hfound
    obtain ⟨hline, hdigest⟩ := (hspec length).mp hlength
    exact ⟨⟨length, hline, rfl⟩, hdigest⟩
  · intro hfound
    obtain ⟨⟨length, hline, rfl⟩, hdigest⟩ := hfound
    exact ⟨length, (hspec length).mpr ⟨hline, hdigest⟩, rfl⟩

end Table

end RefundStudy.Package
