/-
  The sort keys of a journal table partition as texts (`event-journal/journal-scope.ts`,
  `provider-client/attempt-state-port.ts`,
  `conventional-variant/request-state/request-state-item.ts`; design 9.3).
-/
import RefundStudy.Record.Item
import RefundStudy.Package.Layout
import Mathlib.Data.Char
import Mathlib.Data.List.Lex

set_option autoImplicit false

namespace RefundStudy.Journal

open Foundation Record Package

/-! ## Keys as texts -/

/-- The text of a source, as `EVENT_SOURCES` spells it. -/
def sourceText : EventSource → String
  | .conventionalCaller => "conventional_caller"
  | .durableCaller => "durable_caller"
  | .probeCaller => "probe_caller"
  | .refundProvider => "refund_provider"
  | .treatmentController => "treatment_controller"
  | .runner => "runner"
  | .coordinationLease => "coordination_lease"
  | .cleanup => "cleanup"
  | .evidenceCollector => "evidence_collector"

def sequenceDigits : Nat := 12

/-- `String(sequence).padStart(SEQUENCE_DIGITS, '0')`. -/
def paddedSequence (sequence : Nat) : List Char :=
  (Nat.toDigits 10 sequence).leftpad sequenceDigits '0'

/-- What the sort keys of one instance have in common: `<source>#<source_instance_id>#`. -/
def instancePrefix (source : EventSource) (instanceId : Uuid4) : List Char :=
  (sourceText source).toList ++ '#' :: (uuidText instanceId ++ ['#'])

/-- The `sk` of `journalItemKey`. -/
def journalSortKey (key : JournalKey) : List Char :=
  instancePrefix key.source key.instanceId ++ paddedSequence key.sequence

def callerStateSortKeyPrefix : List Char := "state#".toList

/-- `ATTEMPT_STATE_SK_PREFIX`, `REQUEST_STATE_SK_PREFIX` and `REJECTED_MESSAGE_STATE_SK_PREFIX`
after `state#`, each with the id it is made of. -/
def callerStateSortKey : ItemKey → Option (List Char)
  | .attemptState attemptId => some ("attempt#".toList ++ uuidText attemptId)
  | .requestState refundRequestId => some ("request#".toList ++ refundRequestId.toList)
  | .rejectedMessageState messageId => some ("rejected-message#".toList ++ messageId.toList)
  | _ => none

/-- The sort key under which a journal table's partition holds an item; `none` for the items of
other tables.  The caller journal also holds the caller state. -/
def sortKeyIn (table : JournalTable) : ItemKey → Option (List Char)
  | .journal key => if key.table = table then some (journalSortKey key) else none
  | key =>
    match table with
    | .callerJournal => (callerStateSortKey key).map fun rest => callerStateSortKeyPrefix ++ rest
    | .experimentJournal => none

/-! ## Order of padded sequences -/

/-- The last `width` decimal digits of a number. -/
def lastDigits : Nat → Nat → List Char
  | 0, _ => []
  | width + 1, number => lastDigits width (number / 10) ++ [Nat.digitChar (number % 10)]

theorem length_lastDigits (width number : Nat) : (lastDigits width number).length = width := by
  induction width generalizing number with
  | zero => rfl
  | succ width ih => simp [lastDigits, ih]

theorem lastDigits_zero (width : Nat) : lastDigits width 0 = List.replicate width '0' := by
  induction width with
  | zero => rfl
  | succ width ih =>
    rw [lastDigits, Nat.zero_div, ih, List.replicate_succ']
    rfl

theorem leftpad_toDigits_eq {width number : Nat} (hpos : 0 < width) (h : number < 10 ^ width) :
    (Nat.toDigits 10 number).leftpad width '0' = lastDigits width number := by
  induction width generalizing number with
  | zero => omega
  | succ width ih =>
    by_cases hsmall : number < 10
    · rw [Nat.toDigits_of_lt_base hsmall, lastDigits, Nat.div_eq_of_lt hsmall,
        Nat.mod_eq_of_lt hsmall, lastDigits_zero]
      simp [List.leftpad]
    · have hwidth : 0 < width := by
        by_contra hzero
        obtain rfl : width = 0 := by omega
        simp at h
        omega
      have hquotient : number / 10 < 10 ^ width := by
        rw [Nat.div_lt_iff_lt_mul (by omega), ← Nat.pow_succ]
        exact h
      rw [Nat.toDigits_of_base_le (by omega) (by omega), lastDigits, ← ih hwidth hquotient]
      simp [List.leftpad]

theorem digitChar_lt {first second : Nat} (h : first < second) (hbound : second < 10) :
    Nat.digitChar first < Nat.digitChar second := by
  have hall : ∀ second < 10, ∀ first < second, Nat.digitChar first < Nat.digitChar second := by
    decide
  exact hall second hbound first h

theorem append_lt_of_lt {front front' back back' : List Char} (hlength : front.length = front'.length)
    (h : front < front') : front ++ back < front' ++ back' := by
  induction front generalizing front' with
  | nil =>
    rw [List.length_nil, eq_comm, List.length_eq_zero_iff] at hlength
    rw [hlength] at h
    exact absurd h (lt_irrefl _)
  | cons c front ih =>
    cases front' with
    | nil => simp at hlength
    | cons d front' =>
      rw [List.cons_append, List.cons_append, List.cons_lt_cons_iff]
      rcases List.cons_lt_cons_iff.mp h with hchar | ⟨rfl, hrest⟩
      · exact .inl hchar
      · exact .inr ⟨rfl, ih (by simpa using hlength) hrest⟩

theorem lastDigits_lt {width first second : Nat} (h : first < second)
    (hbound : second < 10 ^ width) : lastDigits width first < lastDigits width second := by
  induction width generalizing first second with
  | zero =>
    rw [Nat.pow_zero] at hbound
    omega
  | succ width ih =>
    have hquotient : second / 10 < 10 ^ width := by
      rw [Nat.div_lt_iff_lt_mul (by omega), ← Nat.pow_succ]
      exact hbound
    rw [lastDigits, lastDigits]
    by_cases hsame : first / 10 = second / 10
    · rw [hsame]
      apply List.append_left_lt
      rw [List.cons_lt_cons_iff]
      exact .inl (digitChar_lt (by omega) (by omega))
    · refine append_lt_of_lt ?_ (ih (by omega) hquotient)
      rw [length_lastDigits, length_lastDigits]

theorem paddedSequence_lt {first second : Nat} (h : first < second) (hbound : second < 10 ^ 12) :
    paddedSequence first < paddedSequence second := by
  unfold paddedSequence sequenceDigits
  rw [leftpad_toDigits_eq (by omega) (by omega), leftpad_toDigits_eq (by omega) hbound]
  exact lastDigits_lt h hbound

/-! ## One instance's keys stand together -/

theorem cons_le_cons {c d : Char} {first second : List Char} (h : c :: first ≤ d :: second) :
    c < d ∨ c = d ∧ first ≤ second := by
  rcases lt_or_eq_of_le h with hlt | heq
  · rcases List.cons_lt_cons_iff.mp hlt with hchar | ⟨hchar, hrest⟩
    · exact .inl hchar
    · exact .inr ⟨hchar, le_of_lt hrest⟩
  · obtain ⟨rfl, rfl⟩ := List.cons.inj heq
    exact .inr ⟨rfl, le_refl _⟩

theorem between_front {front first second text : List Char} (hfirst : front ++ first ≤ text)
    (hsecond : text ≤ front ++ second) : ∃ rest, text = front ++ rest := by
  induction front generalizing text with
  | nil => exact ⟨text, rfl⟩
  | cons c front ih =>
    cases text with
    | nil =>
      rw [List.cons_append] at hfirst
      exact absurd hfirst (not_le_of_gt (List.nil_lt_cons _ _))
    | cons d text =>
      rcases cons_le_cons hfirst with hlt | ⟨rfl, hfirstRest⟩
      · rcases cons_le_cons hsecond with hgt | ⟨rfl, -⟩
        · exact absurd hgt (lt_asymm hlt)
        · exact absurd hlt (lt_irrefl _)
      · rcases cons_le_cons hsecond with hlt | ⟨-, hsecondRest⟩
        · exact absurd hlt (lt_irrefl _)
        · obtain ⟨rest, rfl⟩ := ih hfirstRest hsecondRest
          exact ⟨rest, rfl⟩

theorem separator_inj {first second rest rest' : List Char} (hfirst : '#' ∉ first)
    (hsecond : '#' ∉ second) (h : first ++ '#' :: rest = second ++ '#' :: rest') :
    first = second ∧ rest = rest' := by
  induction first generalizing second with
  | nil =>
    cases second with
    | nil => exact ⟨rfl, (List.cons.inj h).2⟩
    | cons d second =>
      obtain ⟨rfl, -⟩ := List.cons.inj h
      exact absurd List.mem_cons_self hsecond
  | cons c first ih =>
    cases second with
    | nil =>
      obtain ⟨rfl, -⟩ := List.cons.inj h
      exact absurd List.mem_cons_self hfirst
    | cons d second =>
      obtain ⟨rfl, htail⟩ := List.cons.inj h
      obtain ⟨rfl, hrest⟩ := ih (fun hmem => hfirst (List.mem_cons_of_mem _ hmem))
        (fun hmem => hsecond (List.mem_cons_of_mem _ hmem)) htail
      exact ⟨rfl, hrest⟩

theorem separator_not_mem_sourceText (source : EventSource) :
    '#' ∉ (sourceText source).toList := by
  cases source <;> decide +kernel

theorem sourceText_injective : Function.Injective sourceText := by
  intro first second h
  cases first <;> cases second <;> first | rfl | exact absurd h (by decide +kernel)

theorem sourceText_ne_state (source : EventSource) : (sourceText source).toList ≠ "state".toList := by
  cases source <;> decide +kernel

def uuidBound : Nat := 16 ^ 32

theorem hexChar_injective {first second : Nat} (hfirst : first < 16) (hsecond : second < 16)
    (h : hexChar first = hexChar second) : first = second := by
  have hall : ∀ first < 16, ∀ second < 16, hexChar first = hexChar second → first = second := by
    decide
  exact hall first hfirst second hsecond h

theorem hexDigits_injective {width first second : Nat} (hfirst : first < 16 ^ width)
    (hsecond : second < 16 ^ width) (h : hexDigits width first = hexDigits width second) :
    first = second := by
  have hdigit : ∀ position < width,
      first / 16 ^ position % 16 = second / 16 ^ position % 16 := by
    intro position hposition
    have hat := List.map_inj_left.mp h (width - 1 - position) (List.mem_range.mpr (by omega))
    have hindex : width - 1 - (width - 1 - position) = position := by omega
    rw [hindex] at hat
    exact hexChar_injective (Nat.mod_lt _ (by omega)) (Nat.mod_lt _ (by omega)) hat
  have hlow : ∀ count ≤ width, first % 16 ^ count = second % 16 ^ count := by
    intro count hcount
    induction count with
    | zero => rw [Nat.pow_zero, Nat.mod_one, Nat.mod_one]
    | succ count ih =>
      rw [Nat.pow_succ, Nat.mod_mul, Nat.mod_mul, ih (by omega), hdigit count (by omega)]
  have hwhole := hlow width (Nat.le_refl _)
  rwa [Nat.mod_eq_of_lt hfirst, Nat.mod_eq_of_lt hsecond] at hwhole

theorem length_hexDigits (width number : Nat) : (hexDigits width number).length = width := by
  simp [hexDigits]

theorem uuidText_injective {first second : Uuid4} (hfirst : first < uuidBound)
    (hsecond : second < uuidBound) (h : uuidText first = uuidText second) : first = second := by
  have hlength : ∀ id : Uuid4, (hexDigits 32 id).length = 32 := fun id => length_hexDigits 32 id
  apply hexDigits_injective hfirst hsecond
  simp only [uuidText, List.append_assoc, List.cons_append] at h
  have hpart := List.append_inj h (by simp [hlength])
  have hpart₂ := List.append_inj (List.cons.inj hpart.2).2 (by simp [hlength])
  have hpart₃ := List.append_inj (List.cons.inj hpart₂.2).2 (by simp [hlength])
  have hpart₄ := List.append_inj (List.cons.inj hpart₃.2).2 (by simp [hlength])
  have hlast := (List.cons.inj hpart₄.2).2
  have hsplit : ∀ digits : List Char, digits = digits.take 8 ++ ((digits.drop 8).take 4 ++
      ((digits.drop 12).take 4 ++ ((digits.drop 16).take 4 ++ digits.drop 20))) := by
    intro digits
    have hstep : ∀ skip count, (digits.drop skip).take count ++ digits.drop (skip + count) =
        digits.drop skip := by
      intro skip count
      rw [← List.drop_drop]
      exact List.take_append_drop count _
    rw [hstep 16 4, hstep 12 4, hstep 8 4, List.take_append_drop]
  rw [hsplit (hexDigits 32 first), hsplit (hexDigits 32 second), hpart.1, hpart₂.1, hpart₃.1,
    hpart₄.1, hlast]

theorem length_uuidText (id : Uuid4) : (uuidText id).length = 36 := by
  simp [uuidText, length_hexDigits]

theorem statePrefix_ne_instancePrefix (source : EventSource) (instanceId : Uuid4)
    (more rest : List Char) :
    callerStateSortKeyPrefix ++ more ≠ instancePrefix source instanceId ++ rest := by
  intro heq
  have hparts : callerStateSortKeyPrefix ++ more = "state".toList ++ '#' :: more := by
    have hstatePrefixed : callerStateSortKeyPrefix = "state".toList ++ ['#'] := by decide +kernel
    rw [hstatePrefixed, List.append_assoc]
    rfl
  rw [hparts, instancePrefix, List.append_assoc, List.cons_append] at heq
  have hplain := separator_not_mem_sourceText source
  exact sourceText_ne_state source (separator_inj (by decide +kernel) hplain heq).1.symm

theorem sortKeyIn_of_instancePrefix {table : JournalTable} {key : ItemKey} {source : EventSource}
    {instanceId : Uuid4} {rest : List Char} (hbound : instanceId < uuidBound)
    (h : sortKeyIn table key = some (instancePrefix source instanceId ++ rest)) :
    ∃ journalKey : JournalKey, key = .journal journalKey ∧ journalKey.table = table ∧
      journalKey.source = source ∧ (journalKey.instanceId < uuidBound →
        journalKey.instanceId = instanceId) := by
  have hplain := separator_not_mem_sourceText source
  have hstate : ∀ more, callerStateSortKeyPrefix ++ more ≠ instancePrefix source instanceId ++ rest :=
    fun more => statePrefix_ne_instancePrefix source instanceId more rest
  cases key with
  | journal journalKey =>
    simp only [sortKeyIn] at h
    split at h
    · rename_i htable
      have htext := Option.some.inj h
      rw [journalSortKey, instancePrefix, instancePrefix, List.append_assoc, List.append_assoc,
        List.cons_append, List.cons_append] at htext
      obtain ⟨hsource, hids⟩ :=
        separator_inj (separator_not_mem_sourceText journalKey.source) hplain htext
      refine ⟨journalKey, rfl, htable, ?_, fun hown => ?_⟩
      · exact sourceText_injective (String.toList_inj.mp hsource)
      · rw [List.append_assoc, List.append_assoc] at hids
        have hlength : (uuidText journalKey.instanceId).length = (uuidText instanceId).length := by
          rw [length_uuidText, length_uuidText]
        exact uuidText_injective hown hbound (List.append_inj hids hlength).1
    · cases h
  | attemptState attemptId => cases table <;> simp_all [sortKeyIn, callerStateSortKey]
  | requestState refundRequestId => cases table <;> simp_all [sortKeyIn, callerStateSortKey]
  | rejectedMessageState messageId => cases table <;> simp_all [sortKeyIn, callerStateSortKey]
  | config => cases table <;> simp [sortKeyIn, callerStateSortKey] at h
  | payment paymentId => cases table <;> simp [sortKeyIn, callerStateSortKey] at h
  | treatment => cases table <;> simp [sortKeyIn, callerStateSortKey] at h
  | ledger transactionId => cases table <;> simp [sortKeyIn, callerStateSortKey] at h

/-- A key that a writer can build: a UUID and a sequence the twelve digits can show. -/
structure Representable (key : JournalKey) : Prop where
  instanceId : key.instanceId < uuidBound
  sequence : key.sequence < 10 ^ 12

section Instance

variable {key key' : JournalKey}

def SameSource (key key' : JournalKey) : Prop :=
  key.table = key'.table ∧ key.source = key'.source ∧ key.instanceId = key'.instanceId

theorem journalSortKey_lt (hsame : SameSource key key') (h : key.sequence < key'.sequence)
    (hbound : key'.sequence < 10 ^ 12) : journalSortKey key < journalSortKey key' := by
  unfold journalSortKey
  rw [hsame.2.1, hsame.2.2]
  exact List.append_left_lt (paddedSequence_lt h hbound)

theorem sequence_lt_of_sortKey_lt (hsame : SameSource key key') (hbound : key.sequence < 10 ^ 12)
    (h : journalSortKey key < journalSortKey key') : key.sequence < key'.sequence := by
  by_contra hle
  rcases Nat.lt_or_eq_of_le (Nat.le_of_not_lt hle) with hlt | heq
  · have hsame' : SameSource key' key := ⟨hsame.1.symm, hsame.2.1.symm, hsame.2.2.symm⟩
    exact absurd (journalSortKey_lt hsame' hlt hbound) (lt_asymm h)
  · have hequal : journalSortKey key = journalSortKey key' := by
      unfold journalSortKey
      rw [hsame.2.1, hsame.2.2, heq]
    rw [hequal] at h
    exact absurd h (lt_irrefl _)

def successor (key : JournalKey) : JournalKey := { key with sequence := key.sequence + 1 }

theorem SameSource.eq (hsame : SameSource key key') (hsequence : key.sequence = key'.sequence) :
    key = key' := by
  obtain ⟨htable, hsource, hinstance⟩ := hsame
  cases key
  cases key'
  simp_all

theorem journalSortKey_inj (hkey : Representable key) (hkey' : Representable key')
    (htable : key.table = key'.table) (h : journalSortKey key = journalSortKey key') :
    key = key' := by
  have hin : sortKeyIn key.table (.journal key') =
      some (instancePrefix key.source key.instanceId ++ paddedSequence key.sequence) := by
    simp only [sortKeyIn, htable, if_true]
    rw [← h]
    rfl
  obtain ⟨other, hother, -, hsource, hinstance⟩ := sortKeyIn_of_instancePrefix hkey.instanceId hin
  obtain rfl : key' = other := by simpa using hother
  have hsame : SameSource key key' := ⟨htable, hsource.symm, (hinstance hkey'.instanceId).symm⟩
  have hback : SameSource key' key := ⟨htable.symm, hsource, hinstance hkey'.instanceId⟩
  apply hsame.eq
  rcases Nat.lt_trichotomy key.sequence key'.sequence with hlt | heq | hgt
  · exact absurd h (ne_of_lt (journalSortKey_lt hsame hlt hkey'.sequence))
  · exact heq
  · exact absurd h.symm (ne_of_lt (journalSortKey_lt hback hgt hkey.sequence))

theorem sortKey_between_successors {item : ItemKey} {text : List Char}
    (hnext : Representable (successor key)) (hitem : sortKeyIn key.table item = some text)
    (hrepresentable : ∀ other, item = .journal other → Representable other)
    (hle : journalSortKey key ≤ text) (hlt : text < journalSortKey (successor key)) :
    item = .journal key := by
  obtain ⟨rest, rfl⟩ := between_front hle (le_of_lt hlt)
  obtain ⟨other, rfl, htable, hsource, hinstance⟩ :=
    sortKeyIn_of_instancePrefix hnext.instanceId hitem
  have hother := hrepresentable other rfl
  have hsame : SameSource key other := ⟨htable.symm, hsource.symm, (hinstance hother.instanceId).symm⟩
  have htext : journalSortKey other = instancePrefix key.source key.instanceId ++ rest := by
    simp only [sortKeyIn, htable, if_true] at hitem
    exact Option.some.inj hitem
  rw [← htext] at hle hlt
  have hafter : SameSource other (successor key) :=
    ⟨hsame.1.symm, hsame.2.1.symm, hsame.2.2.symm⟩
  have hupper : other.sequence < key.sequence + 1 :=
    sequence_lt_of_sortKey_lt hafter hother.sequence hlt
  have hlower : key.sequence ≤ other.sequence := by
    by_contra hless
    have hbefore := journalSortKey_lt ⟨hsame.1.symm, hsame.2.1.symm, hsame.2.2.symm⟩
      (Nat.lt_of_not_le hless) (Nat.lt_of_succ_lt hnext.sequence)
    exact absurd hle (not_le_of_gt hbefore)
  rw [hsame.eq (by omega)]

end Instance

end RefundStudy.Journal
