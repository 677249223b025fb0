/-
  The export reader inverts the renderings of a table (`billing-amendment/cur-csv.ts`, RFC 4180).
-/
import RefundStudy.Billing.CurCsv

set_option autoImplicit false

namespace RefundStudy.Billing

open Record Store

variable {records : List (List String)} {text : List Char} {cursor next : ParseCursor}
  {fields : List String}

/-! ## Renderings -/

def doubled (field : List Char) : List Char :=
  field.flatMap fun c => if c = '"' then ['"', '"'] else [c]

inductive FieldText : String → List Char → Prop where
  | bare {field : String} (h : ∀ c ∈ field.toList, isSeparator c = false ∧ c ≠ '"') :
      FieldText field field.toList
  | quoted (field : String) : FieldText field ('"' :: (doubled field.toList ++ ['"']))

/-- The renderings of a record: its fields with commas between them. -/
inductive RecordText : List String → List Char → Prop where
  | last {field : String} {text : List Char} (h : FieldText field text) : RecordText [field] text
  | more {field : String} {text : List Char} {fields : List String} {texts : List Char}
      (h : FieldText field text) (rest : RecordText fields texts) :
      RecordText (field :: fields) (text ++ ',' :: texts)

inductive Terminator : List Char → Prop where
  | lf : Terminator ['\n']
  | crlf : Terminator ['\r', '\n']

/-- The renderings of the records of a file.  Only a single bare empty field has an empty text, and
such a last record is not without its terminator. -/
inductive FileText : List (List String) → List Char → Prop where
  | nil : FileText [] []
  | unterminated {record : List String} {text : List Char} (h : RecordText record text)
      (nonempty : text ≠ []) : FileText [record] text
  | terminated {record : List String} {records : List (List String)}
      {text ending texts : List Char} (h : RecordText record text) (ends : Terminator ending)
      (rest : FileText records texts) : FileText (record :: records) (text ++ (ending ++ texts))

def Renders (table : CurTable) (text : List Char) : Prop :=
  ∃ body, FileText (table.columns :: table.rows) body ∧
    (text = body ∨ text = byteOrderMark :: body)

/-- Unique column names that are not empty, and rows of the header's width. -/
structure CurTable.WellFormed (table : CurTable) : Prop where
  named : ∀ name ∈ table.columns, name ≠ ""
  unique : table.columns.Nodup
  wide : ∀ row ∈ table.rows, row.length = table.columns.length

/-- What a text yields that starts after the fields of a record read so far. -/
inductive Remaining : List String → List Char → List (List String) → Prop where
  | done : Remaining [] [] []
  | comma {record : List String} {field : String} {text texts : List Char}
      {records : List (List String)} (h : FieldText field text) (nonempty : texts ≠ [])
      (rest : Remaining (record ++ [field]) texts records) :
      Remaining record (text ++ ',' :: texts) records
  | trailing {record : List String} {field : String} {text : List Char} (h : FieldText field text) :
      Remaining record (text ++ [',']) [record ++ [field] ++ [""]]
  | close {record : List String} {field : String} {text ending texts : List Char}
      {records : List (List String)} (h : FieldText field text) (ends : Terminator ending)
      (rest : Remaining [] texts records) :
      Remaining record (text ++ (ending ++ texts)) ((record ++ [field]) :: records)
  | final {record : List String} {field : String} {text : List Char} (h : FieldText field text)
      (nonempty : text ≠ []) : Remaining record text [record ++ [field]]

/-! ## Renderings, field by field -/

theorem Terminator.ne_nil {ending : List Char} (h : Terminator ending) : ending ≠ [] := by
  cases h <;> simp

theorem RecordText.of_nil
    (h : RecordText fields text) (hnil : text = []) : fields = [""] := by
  cases h with
  | last hfield =>
    cases hfield with
    | bare => rw [String.toList_eq_nil_iff.mp hnil]
    | quoted => cases hnil
  | more => exact absurd hnil (by simp)

theorem RecordText.remaining_terminated
    (h : RecordText fields text) {ending texts : List Char}
    (ends : Terminator ending) (hrest : Remaining [] texts records) :
    ∀ record, Remaining record (text ++ (ending ++ texts)) ((record ++ fields) :: records) := by
  induction h with
  | last hfield => exact fun record => .close hfield ends hrest
  | @more field text fields others hfield _ ih =>
    intro record
    have hmore := ih (record ++ [field])
    rw [List.append_assoc, List.singleton_append] at hmore
    rw [List.append_assoc, List.cons_append]
    refine .comma hfield ?_ hmore
    simp [ends.ne_nil]

theorem RecordText.remaining_unterminated
    (h : RecordText fields text) (hne : text ≠ []) :
    ∀ record, Remaining record text [record ++ fields] := by
  induction h with
  | last hfield => exact fun record => .final hfield hne
  | @more field text fields others hfield hothers ih =>
    intro record
    by_cases hnil : others = []
    · have hfields := hothers.of_nil hnil
      rw [hnil, hfields]
      have htrailing : Remaining record (text ++ [',']) [record ++ [field] ++ [""]] :=
        .trailing hfield
      rwa [List.append_assoc] at htrailing
    · have hmore := ih hnil (record ++ [field])
      rw [List.append_assoc, List.singleton_append] at hmore
      exact .comma hfield hnil hmore

theorem FileText.remaining
    (h : FileText records text) : Remaining [] text records := by
  induction h with
  | nil => exact .done
  | unterminated hrecord hne => exact hrecord.remaining_unterminated hne []
  | terminated hrecord ends _ ih => exact hrecord.remaining_terminated ends ih []

theorem Remaining.fileText {record : List String}
    (h : Remaining record text records) :
    (record = [] ∧ text = [] ∧ records = []) ∨
      ∃ fields others, records = (record ++ fields) :: others ∧ FileText (fields :: others) text := by
  induction h with
  | done => exact .inl ⟨rfl, rfl, rfl⟩
  | @comma record field text texts records hfield hne _ ih =>
    right
    rcases ih with ⟨hrecord, -⟩ | ⟨fields, others, rfl, hfile⟩
    · exact absurd hrecord (by simp)
    · refine ⟨field :: fields, others, by simp, ?_⟩
      cases hfile with
      | unterminated hrecord _ => exact .unterminated (.more hfield hrecord) (by simp)
      | terminated hrecord ends hrest =>
        have hfile := FileText.terminated (.more hfield hrecord) ends hrest
        rwa [List.append_assoc, List.cons_append] at hfile
  | @trailing record field text hfield =>
    right
    refine ⟨[field, ""], [], by simp, .unterminated (.more hfield (.last (.bare ?_))) (by simp)⟩
    exact fun c hmem => absurd hmem List.not_mem_nil
  | @close record field text ending texts records hfield ends _ ih =>
    right
    refine ⟨[field], records, rfl, .terminated (.last hfield) ends ?_⟩
    rcases ih with ⟨-, rfl, rfl⟩ | ⟨fields, others, rfl, hfile⟩
    · exact .nil
    · exact hfile
  | @final record field text hfield hne =>
    exact .inr ⟨[field], [], rfl, .unterminated (.last hfield) hne⟩

theorem fileText_iff_remaining :
    FileText records text ↔ Remaining [] text records := by
  constructor
  · exact FileText.remaining
  · intro h
    rcases h.fileText with ⟨-, rfl, rfl⟩ | ⟨fields, others, rfl, hfile⟩
    · exact .nil
    · exact hfile

/-! ## One field -/

section Field

theorem closingQuote_doubled (field : List Char) {rest : List Char} (h : rest.head? ≠ some '"') :
    closingQuote (doubled field ++ '"' :: rest) = some (field, rest) := by
  induction field with
  | nil =>
    cases rest with
    | nil => rfl
    | cons c after =>
      have hc : c ≠ '"' := by simpa using h
      simp [doubled, closingQuote, hc]
  | cons c others ih =>
    unfold doubled at ih ⊢
    rw [List.flatMap_cons, List.append_assoc]
    by_cases hquote : c = '"'
    · simp [hquote, closingQuote, ih]
    · simp [hquote, closingQuote, ih]

theorem closingQuote_sound {read : List Char × List Char}
    (h : closingQuote text = some read) : text = doubled read.1 ++ '"' :: read.2 := by
  fun_induction closingQuote text generalizing read with
  | case1 => cases h
  | case2 rest ih =>
    obtain ⟨inner, hinner, rfl⟩ := Option.map_eq_some_iff.mp h
    rw [ih hinner]
    simp [doubled]
  | case3 rest _ =>
    obtain rfl := Option.some.inj h
    rfl
  | case4 c rest _ hc ih =>
    obtain ⟨inner, hinner, rfl⟩ := Option.map_eq_some_iff.mp h
    have hother : c ≠ '"' := hc
    rw [ih hinner]
    simp [doubled, hother]

theorem readField_fieldText {field : String} {text rest : List Char} (h : FieldText field text)
    (hrest : ∀ c ∈ rest.head?, isSeparator c = true) {cursor : ParseCursor}
    (hcursor : cursor.rest = text ++ rest) :
    readField cursor =
      readSeparator { cursor with rest := rest, record := cursor.record ++ [field] } := by
  have hquote : ∀ c, isSeparator c = true → c ≠ '"' := by
    intro c hc heq
    rw [heq] at hc
    exact absurd hc (by decide)
  unfold readField
  simp only
  cases h with
  | quoted =>
    have hne : rest.head? ≠ some '"' := by
      intro hhead
      exact hquote '"' (hrest '"' hhead) rfl
    have hclose : readQuotedField cursor = .ok (field.toList, rest) := by
      unfold readQuotedField
      rw [hcursor, List.cons_append, List.tail_cons, List.append_assoc, List.singleton_append,
        closingQuote_doubled field.toList hne]
    rw [hcursor, List.cons_append, List.head?_cons, beq_self_eq_true, if_pos rfl, hclose]
    simp only [Except.bind, String.ofList_toList]
  | bare hplain =>
    have hkeep : ∀ c ∈ field.toList, (!isSeparator c && c != '"') = true := by
      intro c hmem
      simp [hplain c hmem]
    have htake : (field.toList ++ rest).takeWhile (fun c => !isSeparator c && c != '"') =
          field.toList ∧
        (field.toList ++ rest).dropWhile (fun c => !isSeparator c && c != '"') = rest := by
      rw [List.takeWhile_append_of_pos hkeep, List.dropWhile_append_of_pos hkeep]
      cases rest with
      | nil => simp
      | cons c after => simp [hrest c rfl]
    have hnot : rest.head? ≠ some '"' := by
      intro hhead
      exact hquote '"' (hrest '"' hhead) rfl
    have hstart : (field.toList ++ rest).head? ≠ some '"' := by
      intro hhead
      cases hchars : field.toList with
      | nil =>
        rw [hchars] at hhead
        exact hnot hhead
      | cons c others =>
        rw [hchars, List.cons_append, List.head?_cons, Option.some.injEq] at hhead
        rw [hchars] at hplain
        exact (hplain c List.mem_cons_self).2 hhead
    have hread : readPlainField cursor = .ok (field.toList, rest) := by
      unfold readPlainField
      simp only [hcursor, htake.1, htake.2, if_neg hnot]
    rw [hcursor, if_neg (by simpa using hstart), hread]
    simp only [Except.bind, String.ofList_toList]

theorem readField_sound (h : readField cursor = .ok next) :
    ∃ field text rest, FieldText field text ∧ cursor.rest = text ++ rest ∧
      readSeparator { cursor with rest := rest, record := cursor.record ++ [field] } = .ok next := by
  unfold readField at h
  simp only at h
  split at h
  · rename_i hquoted
    rw [beq_iff_eq] at hquoted
    obtain ⟨after, hafter⟩ : ∃ after, cursor.rest = '"' :: after := by
      cases hcursor : cursor.rest with
      | nil =>
        rw [hcursor] at hquoted
        cases hquoted
      | cons c after =>
        rw [hcursor, List.head?_cons, Option.some.injEq] at hquoted
        exact ⟨after, by rw [hquoted]⟩
    unfold readQuotedField at h
    rw [hafter, List.tail_cons] at h
    cases hclose : closingQuote after with
    | none =>
      rw [hclose] at h
      cases h
    | some read =>
      rw [hclose] at h
      refine ⟨String.ofList read.1, _, read.2, .quoted _, ?_, h⟩
      rw [hafter, closingQuote_sound hclose, String.toList_ofList]
      simp
  · unfold readPlainField at h
    simp only at h
    split at h
    · cases h
    · refine ⟨_, _, _, .bare ?_, ?_, h⟩
      · intro c hmem
        rw [String.toList_ofList] at hmem
        have hkeep := List.all_eq_true.mp List.all_takeWhile c hmem
        simpa using hkeep
      · rw [String.toList_ofList]
        exact List.takeWhile_append_dropWhile.symm

theorem readSeparator_sound (h : readSeparator cursor = .ok next) :
    (cursor.rest = [] ∧ next = closeRecord cursor) ∨
    (cursor.rest = [','] ∧ next = closeTrailingEmptyField { cursor with rest := [] }) ∨
    (∃ after, cursor.rest = ',' :: after ∧ after ≠ [] ∧ next = { cursor with rest := after }) ∨
    ∃ ending after, Terminator ending ∧ cursor.rest = ending ++ after ∧
      next = closeRecord { cursor with rest := after } := by
  unfold readSeparator at h
  split at h
  · rename_i hnil
    exact .inl ⟨hnil, (Except.ok.inj h).symm⟩
  · rename_i code after hcons
    split at h
    · rename_i hcomma
      rw [hcomma] at hcons
      by_cases hafter : after = []
      · rw [hafter] at hcons
        simp only [if_pos hafter] at h
        rw [hafter] at h
        exact .inr (.inl ⟨hcons, (Except.ok.inj h).symm⟩)
      · simp only [if_neg hafter] at h
        exact .inr (.inr (.inl ⟨after, hcons, hafter, (Except.ok.inj h).symm⟩))
    · refine .inr (.inr (.inr ?_))
      simp only at h
      unfold lineTerminatorLength at h
      by_cases hlf : cursor.rest.head? = some '\n'
      · rw [if_pos hlf, if_neg (by decide)] at h
        rw [hcons, List.head?_cons, Option.some.injEq] at hlf
        refine ⟨['\n'], after, .lf, by rw [hcons, hlf]; rfl, ?_⟩
        rw [hcons] at h
        exact (Except.ok.inj h).symm
      · rw [if_neg hlf] at h
        by_cases hcrlf : cursor.rest.take 2 = ['\r', '\n']
        · rw [if_pos hcrlf, if_neg (by decide)] at h
          refine ⟨['\r', '\n'], cursor.rest.drop 2, .crlf, ?_, (Except.ok.inj h).symm⟩
          rw [← hcrlf, List.take_append_drop]
        · rw [if_neg hcrlf, if_pos rfl] at h
          cases h

theorem readSeparator_terminator {cursor : ParseCursor} {ending after : List Char}
    (ends : Terminator ending) (h : cursor.rest = ending ++ after) :
    readSeparator cursor = .ok (closeRecord { cursor with rest := after }) := by
  unfold readSeparator lineTerminatorLength
  cases ends with
  | lf => simp [h]
  | crlf => simp [h]

end Field

/-! ## The whole text -/

section Whole

/-- A cursor at the end has no field of an open record. -/
def AtRest (cursor : ParseCursor) : Prop := cursor.rest = [] → cursor.record = []

theorem readFields_nil (fuel : Nat) {cursor : ParseCursor} (h : cursor.rest = []) :
    readFields fuel cursor = .ok cursor := by
  cases fuel with
  | zero => rfl
  | succ fuel => rw [readFields, if_pos h]

theorem readFields_succ (fuel : Nat) (h : cursor.rest ≠ [])
    (hread : readField cursor = .ok next) : readFields (fuel + 1) cursor = readFields fuel next := by
  rw [readFields, if_neg h, hread]

theorem readFields_sound (fuel : Nat) : ∀ {cursor final : ParseCursor},
    readFields fuel cursor = .ok final → cursor.rest.length ≤ fuel → AtRest cursor →
    ∃ records, final.records = cursor.records ++ records ∧
      Remaining cursor.record cursor.rest records := by
  induction fuel with
  | zero =>
    intro cursor final h hfuel hrest
    have hnil : cursor.rest = [] := List.length_eq_zero_iff.mp (by omega)
    obtain rfl := Except.ok.inj h
    refine ⟨[], (List.append_nil _).symm, ?_⟩
    rw [hnil, hrest hnil]
    exact .done
  | succ fuel ih =>
    intro cursor final h hfuel hrest
    by_cases hnil : cursor.rest = []
    · rw [readFields_nil _ hnil] at h
      obtain rfl := Except.ok.inj h
      refine ⟨[], (List.append_nil _).symm, ?_⟩
      rw [hnil, hrest hnil]
      exact .done
    · cases hread : readField cursor with
      | error problem =>
        rw [readFields, if_neg hnil, hread] at h
        cases h
      | ok next =>
        rw [readFields_succ fuel hnil hread] at h
        obtain ⟨field, text, rest, hfield, hcursor, hseparator⟩ := readField_sound hread
        have hlength := congrArg List.length hcursor
        rw [List.length_append] at hlength
        rcases readSeparator_sound hseparator with
          ⟨hend, rfl⟩ | ⟨hend, rfl⟩ | ⟨after, hcomma, hafter, rfl⟩ | ⟨ending, after, ends, hline, rfl⟩
        · -- the text ends with the field
          change rest = [] at hend
          rw [readFields_nil _ hend] at h
          obtain rfl := Except.ok.inj h
          rw [hend, List.append_nil] at hcursor
          refine ⟨[cursor.record ++ [field]], rfl, ?_⟩
          rw [hcursor] at hnil ⊢
          exact .final hfield hnil
        · -- the text ends with a comma
          change rest = [','] at hend
          rw [readFields_nil _ rfl] at h
          obtain rfl := Except.ok.inj h
          refine ⟨[cursor.record ++ [field] ++ [""]], rfl, ?_⟩
          rw [hcursor, hend]
          exact .trailing hfield
        · change rest = ',' :: after at hcomma
          rw [hcomma, List.length_cons] at hlength
          obtain ⟨records, hrecords, hremaining⟩ := ih h (by
            change after.length ≤ fuel
            omega) fun hend => absurd hend hafter
          refine ⟨records, hrecords, ?_⟩
          rw [hcursor, hcomma]
          exact .comma hfield hafter hremaining
        · change rest = ending ++ after at hline
          have hpositive : 0 < ending.length := List.length_pos_iff.mpr ends.ne_nil
          rw [hline, List.length_append] at hlength
          obtain ⟨records, hrecords, hremaining⟩ := ih h (by
            change after.length ≤ fuel
            omega) fun _ => rfl
          refine ⟨(cursor.record ++ [field]) :: records, ?_, ?_⟩
          · rw [hrecords]
            change cursor.records ++ [cursor.record ++ [field]] ++ records = _
            simp
          · rw [hcursor, hline]
            exact .close hfield ends hremaining

theorem readFields_complete {record : List String} {rest : List Char}
    (h : Remaining record rest records) :
    ∀ (fuel : Nat) (cursor : ParseCursor), cursor.record = record → cursor.rest = rest →
      rest.length ≤ fuel → ∃ final, readFields fuel cursor = .ok final ∧
        final.records = cursor.records ++ records := by
  induction h with
  | done =>
    intro fuel cursor _ hrest _
    exact ⟨cursor, readFields_nil fuel hrest, (List.append_nil _).symm⟩
  | @comma record field text texts records hfield hne _ ih =>
    intro fuel cursor hrecord hrest hfuel
    rw [List.length_append, List.length_cons] at hfuel
    obtain ⟨fuel, rfl⟩ : ∃ less, fuel = less + 1 := ⟨fuel - 1, by omega⟩
    have hread := readField_fieldText hfield (by simp [isSeparator]) hrest
    have hseparator :
        readSeparator { cursor with rest := ',' :: texts, record := cursor.record ++ [field] } =
          .ok { cursor with rest := texts, record := cursor.record ++ [field] } := by
      simp [readSeparator, hne]
    rw [readFields_succ fuel (by rw [hrest]; simp) (hread.trans hseparator)]
    exact ih fuel _ (by rw [hrecord]) rfl (by omega)
  | @trailing record field text hfield =>
    intro fuel cursor hrecord hrest hfuel
    rw [List.length_append, List.length_singleton] at hfuel
    obtain ⟨fuel, rfl⟩ : ∃ less, fuel = less + 1 := ⟨fuel - 1, by omega⟩
    have hread := readField_fieldText hfield (by simp [isSeparator]) hrest
    rw [readFields_succ fuel (by rw [hrest]; simp) (hread.trans rfl)]
    refine ⟨_, readFields_nil fuel rfl, ?_⟩
    rw [← hrecord]
    rfl
  | @close record field text ending texts records hfield ends _ ih =>
    intro fuel cursor hrecord hrest hfuel
    have hpositive : 0 < ending.length := List.length_pos_iff.mpr ends.ne_nil
    rw [List.length_append, List.length_append] at hfuel
    obtain ⟨fuel, rfl⟩ : ∃ less, fuel = less + 1 := ⟨fuel - 1, by omega⟩
    have hread := readField_fieldText hfield (by cases ends <;> simp [isSeparator]) hrest
    have hseparator := @readSeparator_terminator
      { cursor with rest := ending ++ texts, record := cursor.record ++ [field] } _ texts ends rfl
    rw [readFields_succ fuel (by rw [hrest]; simp [ends.ne_nil]) (hread.trans hseparator)]
    obtain ⟨final, hfinal, hrecords⟩ := ih fuel
      (closeRecord { cursor with rest := texts, record := cursor.record ++ [field] }) rfl rfl
      (by omega)
    refine ⟨final, hfinal, ?_⟩
    rw [hrecords, ← hrecord]
    simp [closeRecord]
  | @final record field text hfield hne =>
    intro fuel cursor hrecord hrest hfuel
    have hpositive : 0 < text.length := List.length_pos_iff.mpr hne
    obtain ⟨fuel, rfl⟩ : ∃ less, fuel = less + 1 := ⟨fuel - 1, by omega⟩
    have hwhole : cursor.rest = text ++ [] := by rw [hrest, List.append_nil]
    have hread := readField_fieldText hfield (by intro c hc; cases hc) hwhole
    rw [readFields_succ fuel (by rw [hrest]; exact hne) (hread.trans rfl)]
    refine ⟨_, readFields_nil fuel rfl, ?_⟩
    rw [← hrecord]
    rfl

theorem parseRecords_iff :
    parseRecords text = .ok records ↔ FileText records text := by
  rw [fileText_iff_remaining]
  unfold parseRecords
  constructor
  · intro h
    cases hread : readFields text.length ⟨text, text, [], []⟩ with
    | error problem =>
      rw [hread] at h
      cases h
    | ok final =>
      rw [hread] at h
      obtain ⟨read, hrecords, hremaining⟩ :=
        readFields_sound text.length hread (Nat.le_refl _) fun _ => rfl
      have hsame : final.records = records := Except.ok.inj h
      rw [← hsame, hrecords]
      exact hremaining
  · intro h
    obtain ⟨final, hfinal, hrecords⟩ :=
      readFields_complete h text.length ⟨text, text, [], []⟩ rfl rfl (Nat.le_refl _)
    rw [hfinal]
    exact congrArg Except.ok hrecords

end Whole

/-! ## The table -/

section Table

theorem repeatedName_eq_none {seen names : List String} :
    repeatedName seen names = none ↔ names.Nodup ∧ ∀ name ∈ names, name ∉ seen := by
  induction names generalizing seen with
  | nil => simp [repeatedName]
  | cons name rest ih =>
    rw [repeatedName]
    by_cases hseen : name ∈ seen
    · simp [hseen]
    · rw [if_neg (by simpa using hseen), ih, List.nodup_cons]
      constructor
      · intro h
        refine ⟨⟨fun hmem => h.2 name hmem List.mem_cons_self, h.1⟩, fun other hother => ?_⟩
        rcases List.mem_cons.mp hother with rfl | hrest
        · exact hseen
        · exact fun hmem => h.2 other hrest (List.mem_cons_of_mem _ hmem)
      · intro h
        refine ⟨h.1.2, fun other hother hmem => ?_⟩
        rcases List.mem_cons.mp hmem with rfl | hbefore
        · exact h.1.1 hother
        · exact h.2 other (List.mem_cons_of_mem _ hother) hbefore

theorem headerFailure_eq_none {header : List String} :
    headerFailure header = none ↔ (∀ name ∈ header, name ≠ "") ∧ header.Nodup := by
  unfold headerFailure
  cases hblank : header.findIdx? fun name => name == "" with
  | some blank =>
    have hsome : (header.findIdx? fun name => name == "").isSome = true := by rw [hblank]; rfl
    rw [List.findIdx?_isSome, List.any_eq_true] at hsome
    obtain ⟨name, hmem, hempty⟩ := hsome
    constructor
    · intro h
      cases h
    · intro h
      exact absurd (beq_iff_eq.mp hempty) (h.1 name hmem)
  | none =>
    rw [List.findIdx?_eq_none_iff] at hblank
    simp only [Option.map_eq_none_iff, repeatedName_eq_none]
    constructor
    · intro h
      exact ⟨fun name hmem => beq_eq_false_iff_ne.mp (hblank name hmem), h.1⟩
    · intro h
      exact ⟨h.2, fun name _ => List.not_mem_nil⟩

theorem widthFailure_eq_none {width index : Nat} {rows : List (List String)} :
    widthFailure width index rows = none ↔ ∀ row ∈ rows, row.length = width := by
  induction rows generalizing index with
  | nil => simp [widthFailure]
  | cons row rest ih =>
    rw [widthFailure]
    by_cases hwidth : row.length = width
    · rw [if_neg (by omega), ih]
      simp [hwidth]
    · rw [if_pos hwidth]
      simp [hwidth]

theorem tableOf_iff {table : CurTable} :
    tableOf records = .ok table ↔ records = table.columns :: table.rows ∧ table.WellFormed := by
  unfold tableOf
  constructor
  · intro h
    split at h
    · cases h
    · rename_i header rows
      split at h
      · cases h
      · rename_i hheader
        split at h
        · cases h
        · rename_i hwidth
          obtain rfl := Except.ok.inj h
          obtain ⟨hnamed, hunique⟩ := headerFailure_eq_none.mp hheader
          exact ⟨rfl, hnamed, hunique, widthFailure_eq_none.mp hwidth⟩
  · intro h
    obtain ⟨rfl, hvalid⟩ := h
    have hheader := headerFailure_eq_none.mpr ⟨hvalid.named, hvalid.unique⟩
    have hwidth := @widthFailure_eq_none table.columns.length 0 table.rows
    simp only [hheader, hwidth.mpr hvalid.wide]

end Table

/-! ## The export -/

section Export

variable {gunzip : List UInt8 → Except String (List UInt8)}

/-- Text is no gzip data: no character starts with the second byte of its mark. -/
theorem decompressCurExport_utf8 (text : List Char) :
    decompressCurExport gunzip (utf8 text) = .ok (utf8 text) := by
  unfold decompressCurExport
  rw [if_neg]
  intro hmark
  have hdecode := decodeUtf8Strict_utf8 text
  obtain ⟨rest, hrest⟩ : ∃ rest, utf8 text = 0x1f :: 0x8b :: rest := by
    refine ⟨(utf8 text).drop 2, ?_⟩
    conv => lhs; rw [← List.take_append_drop 2 (utf8 text), hmark]
    rfl
  have hinvalid : firstInvalidUtf8Offset (0x1f :: 0x8b :: rest) = some 1 := rfl
  rw [hrest, decodeUtf8Strict, hinvalid] at hdecode
  cases hdecode

theorem withoutMark_body {table : CurTable} {body : List Char} (hvalid : table.WellFormed)
    (hfirst : ∀ name ∈ table.columns.head?, name.toList.head? ≠ some byteOrderMark)
    (h : FileText (table.columns :: table.rows) body) : withoutMark body = body := by
  have hhead : body.head? ≠ some byteOrderMark := by
    have hrecord : ∃ text tail, RecordText table.columns text ∧ body = text ++ tail := by
      generalize table.rows = rows at h
      cases h with
      | unterminated hrecord => exact ⟨body, [], hrecord, (List.append_nil _).symm⟩
      | terminated hrecord => exact ⟨_, _, hrecord, rfl⟩
    obtain ⟨text, tail, hrecord, rfl⟩ := hrecord
    have hfield : ∃ name others start after, table.columns = name :: others ∧
        FieldText name start ∧ text = start ++ after := by
      generalize table.columns = columns at hrecord
      cases hrecord with
      | last hfield => exact ⟨_, _, _, [], rfl, hfield, (List.append_nil _).symm⟩
      | more hfield => exact ⟨_, _, _, _, rfl, hfield, rfl⟩
    obtain ⟨name, others, start, after, hcolumns, hfield, rfl⟩ := hfield
    have hname := hvalid.named name (by rw [hcolumns]; exact List.mem_cons_self)
    have hmark := hfirst name (by rw [hcolumns]; rfl)
    cases hfield with
    | bare =>
      have hchars : name.toList ≠ [] := fun h => hname (String.toList_eq_nil_iff.mp h)
      rw [List.append_assoc, List.head?_append_of_ne_nil _ hchars]
      exact hmark
    | quoted =>
      intro hquote
      rw [List.cons_append, List.cons_append, List.head?_cons, Option.some.injEq] at hquote
      exact absurd hquote (by decide)
  cases body with
  | nil => rfl
  | cons c rest =>
    rw [withoutMark, if_neg]
    intro hc
    exact hhead (by rw [hc]; rfl)

theorem parseCurCsv_of_text {bytes plain : List UInt8}
    (hplain : decompressCurExport gunzip bytes = .ok plain)
    (htext : decodeUtf8Strict plain = some text) :
    parseCurCsv gunzip bytes = (parseRecords (withoutMark text)).bind tableOf := by
  unfold parseCurCsv
  rw [hplain]
  simp only [Except.bind, htext]

/-- The reader inverts the renderings: it reads every rendering of a table as the table, plain or
compressed, and what it accepts is a rendering of what it returns. -/
theorem parseCurCsv_inverts_renderings (gunzip : List UInt8 → Except String (List UInt8)) :
    (∀ (table : CurTable) (text : List Char), table.WellFormed →
      (∀ name ∈ table.columns.head?, name.toList.head? ≠ some byteOrderMark) → Renders table text →
      decompressCurExport gunzip (utf8 text) = .ok (utf8 text) ∧
        ∀ bytes, decompressCurExport gunzip bytes = .ok (utf8 text) →
          parseCurCsv gunzip bytes = .ok table) ∧
    ∀ (bytes : List UInt8) (table : CurTable), parseCurCsv gunzip bytes = .ok table →
      table.WellFormed ∧ ∃ plain text, decompressCurExport gunzip bytes = .ok plain ∧
        decodeUtf8Strict plain = some text ∧ Renders table text := by
  constructor
  · intro table text hvalid hfirst hrenders
    refine ⟨decompressCurExport_utf8 text, fun bytes hplain => ?_⟩
    obtain ⟨body, hfile, htext⟩ := hrenders
    have hbody : withoutMark text = body := by
      rcases htext with rfl | rfl
      · exact withoutMark_body hvalid hfirst hfile
      · rw [withoutMark, if_pos rfl]
    rw [parseCurCsv_of_text hplain (decodeUtf8Strict_utf8 text), hbody, parseRecords_iff.mpr hfile]
    exact tableOf_iff.mpr ⟨rfl, hvalid⟩
  · intro bytes table h
    cases hplain : decompressCurExport gunzip bytes with
    | error problem =>
      rw [parseCurCsv, hplain] at h
      cases h
    | ok plain =>
      cases hdecode : decodeUtf8Strict plain with
      | none =>
        rw [parseCurCsv, hplain] at h
        simp only [Except.bind, hdecode] at h
        cases h
      | some text =>
        rw [parseCurCsv_of_text hplain hdecode] at h
        cases hrecords : parseRecords (withoutMark text) with
        | error problem =>
          rw [hrecords] at h
          cases h
        | ok records =>
          rw [hrecords] at h
          obtain ⟨rfl, hvalid⟩ := tableOf_iff.mp h
          refine ⟨hvalid, plain, text, rfl, hdecode, _, parseRecords_iff.mp hrecords, ?_⟩
          cases text with
          | nil => exact .inl rfl
          | cons first rest =>
            by_cases hmark : first = byteOrderMark
            · rw [withoutMark, if_pos hmark, hmark]
              exact .inr rfl
            · rw [withoutMark, if_neg hmark]
              exact .inl rfl

end Export

end RefundStudy.Billing
