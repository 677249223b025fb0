/-
  The scan reads a layout piece by piece.
-/
import RefundStudy.Package.BundleLayout

set_option autoImplicit false

namespace RefundStudy.Package.Bundles

open Store (JsString jsString)
open Record (isSpace)

variable {text : JsString} {rest : JsString}

/-! ## The patterns on the shapes they describe -/

section Runs

variable {p : UInt16 → Bool} {text next : JsString}

theorem dropWhile_run (hall : ∀ u ∈ text, p u = true) (hnext : next.head?.any p = false) :
    (text ++ next).dropWhile p = next := by
  rw [List.dropWhile_append_of_pos hall]
  cases next with
  | nil => exact List.dropWhile_nil
  | cons u rest =>
    exact List.dropWhile_cons_of_neg (by simpa using hnext)

theorem takeWhile_run (hall : ∀ u ∈ text, p u = true) (hnext : next.head?.any p = false) :
    (text ++ next).takeWhile p = text := by
  rw [List.takeWhile_append_of_pos hall]
  cases next with
  | nil => simp
  | cons u rest =>
    rw [List.takeWhile_cons_of_neg (by simpa using hnext), List.append_nil]

theorem dropWhile_line (hall : ∀ u ∈ text, isLineBreak u = false)
    (hnext : next.head?.all isLineBreak = true) :
    (text ++ next).dropWhile (fun u => !isLineBreak u) = next := by
  apply dropWhile_run
  · intro u hu
    rw [hall u hu]
    rfl
  · cases next with
    | nil => rfl
    | cons u rest => simpa using hnext

end Runs

theorem afterQuoted_quote (quote : UInt16) (rest : JsString) :
    afterQuoted quote (quote :: rest) = some rest := by
  cases rest with
  | nil => simp [afterQuoted]
  | cons v more => cases more <;> simp [afterQuoted]

variable {quote u : UInt16}

theorem afterQuoted_plain (hquote : u ≠ quote) (hescape : u ≠ 0x5c)
    (hfeed : u ≠ 0x0a) (hreturn : u ≠ 0x0d) (hrest : rest ≠ []) :
    afterQuoted quote (u :: rest) = afterQuoted quote rest := by
  cases rest with
  | nil => exact absurd rfl hrest
  | cons v more =>
    cases more <;> simp [afterQuoted, hquote, hescape, hfeed, hreturn]

theorem afterQuoted_escaped (hquote : quote ≠ 0x5c) (hrest : rest ≠ [])
    (hpair : rest.head? ≠ some 0x0a) :
    afterQuoted quote (0x5c :: u :: rest) = afterQuoted quote rest := by
  cases rest with
  | nil => exact absurd rfl hrest
  | cons w more =>
    have hw : w ≠ 0x0a := by simpa using hpair
    rw [afterQuoted]
    simp [hquote.symm, hw]

theorem afterQuoted_continued (hquote : quote ≠ 0x5c) :
    afterQuoted quote (0x5c :: 0x0d :: 0x0a :: rest) = afterQuoted quote rest := by
  rw [afterQuoted]
  simp [hquote.symm]

theorem QuotedText.head_ne (h : QuotedText quote text) (hquote : quote ≠ 0x0a)
    (next : JsString) : (text ++ quote :: next).head? ≠ some 0x0a := by
  cases h with
  | nil => simpa using hquote
  | plain _ _ hfeed _ _ => simpa using hfeed
  | escaped _ => simp
  | continued _ => simp

theorem afterQuoted_text (h : QuotedText quote text)
    (hquote : quote = 0x22 ∨ quote = 0x27) (next : JsString) :
    afterQuoted quote (text ++ quote :: next) = some next := by
  have hfeed : quote ≠ 0x0a := by rcases hquote with rfl | rfl <;> decide
  have hescape : quote ≠ 0x5c := by rcases hquote with rfl | rfl <;> decide
  have hsome : ∀ rest : JsString, rest ++ quote :: next ≠ [] := fun rest => by simp
  induction h with
  | nil => exact afterQuoted_quote quote next
  | plain hne hescaped hline hreturn _ ih =>
    exact (afterQuoted_plain hne hescaped hline hreturn (hsome _)).trans ih
  | escaped hrest ih =>
    exact (afterQuoted_escaped hescape (hsome _) (hrest.head_ne hfeed next)).trans ih
  | continued _ ih => exact (afterQuoted_continued hescape).trans ih

/-- What template characters end before: a backtick or a substitution. -/
def TemplateStop (text : JsString) : Prop :=
  ∃ more, text = 0x60 :: more ∨ text = 0x24 :: 0x7b :: more

theorem TemplateStop.ne_nil (h : TemplateStop text) : text ≠ [] := by
  obtain ⟨more, rfl | rfl⟩ := h <;> simp

theorem TemplateStop.head_ne (h : TemplateStop text) :
    text.head? ≠ some 0x7b := by
  obtain ⟨more, rfl | rfl⟩ := h <;> simp

theorem afterTemplateText_stop {stop : JsString} (h : TemplateStop stop) :
    afterTemplateText stop = stop := by
  obtain ⟨more, rfl | rfl⟩ := h
  · cases more <;> simp [afterTemplateText]
  · simp [afterTemplateText]

theorem afterTemplateText_text {text stop : JsString} (h : TemplateText text)
    (hstop : TemplateStop stop) : afterTemplateText (text ++ stop) = stop := by
  induction h with
  | nil => exact afterTemplateText_stop hstop
  | @plain u rest hclose hescape hdollar _ ih =>
    obtain ⟨v, more, hmore⟩ := List.exists_cons_of_ne_nil
      (List.append_ne_nil_of_right_ne_nil rest hstop.ne_nil)
    rw [List.cons_append, hmore, afterTemplateText, ← hmore]
    simpa [hclose, hescape, hdollar] using ih
  | @escaped u rest _ ih =>
    rw [List.cons_append, List.cons_append, afterTemplateText]
    simpa using ih
  | @dollar rest hplain _ ih =>
    obtain ⟨v, more, hmore⟩ := List.exists_cons_of_ne_nil
      (List.append_ne_nil_of_right_ne_nil rest hstop.ne_nil)
    have hv : v ≠ 0x7b := by
      intro hv
      have hhead : (rest ++ stop).head? = some 0x7b := by rw [hmore, hv]; rfl
      cases rest with
      | nil => exact hstop.head_ne hhead
      | cons w rest => exact hplain hhead
    rw [List.cons_append, hmore, afterTemplateText, ← hmore]
    simpa [hv] using ih

theorem exists_before_slash (rest more : JsString) : ∃ v tail, rest ++ 0x2f :: more = v :: tail :=
  List.exists_cons_of_ne_nil (List.append_ne_nil_of_right_ne_nil rest (List.cons_ne_nil 0x2f more))

theorem afterRegexBody_text {inClass : Bool} {body : JsString} (h : RegexText inClass body)
    (more : JsString) : afterRegexBody inClass (body ++ 0x2f :: more) = some more := by
  induction h with
  | nil => cases more <;> simp [afterRegexBody, isLineBreak]
  | @plain u rest hline hescape hclose hclass _ ih =>
    obtain ⟨v, tail, htail⟩ := exists_before_slash rest more
    rw [List.cons_append, htail, afterRegexBody, ← htail]
    rw [beq_eq_false_iff_ne.mpr hclass]
    simpa [hline, hescape, hclose] using ih
  | @escaped inClass u rest hline _ ih =>
    have hmark : isLineBreak 0x5c = false := rfl
    rw [List.cons_append, List.cons_append, afterRegexBody]
    simpa [hline, hmark] using ih
  | @openClass rest _ ih =>
    obtain ⟨v, tail, htail⟩ := exists_before_slash rest more
    rw [List.cons_append, htail, afterRegexBody, ← htail]
    simpa [isLineBreak] using ih
  | @classUnit u rest hline hescape hclose _ ih =>
    obtain ⟨v, tail, htail⟩ := exists_before_slash rest more
    rw [List.cons_append, htail, afterRegexBody, ← htail]
    rw [bne_iff_ne.mpr hclose]
    simpa [hline, hescape] using ih
  | @closeClass rest _ ih =>
    obtain ⟨v, tail, htail⟩ := exists_before_slash rest more
    rw [List.cons_append, htail, afterRegexBody, ← htail]
    simpa [isLineBreak] using ih

theorem regexText_of_afterRegexBody (inClass : Bool) (text : JsString) {more : JsString}
    (h : afterRegexBody inClass text = some more) :
    ∃ body, RegexText inClass body ∧ text = body ++ 0x2f :: more := by
  fun_induction afterRegexBody inClass text with
  | case1 => cases h
  | case2 inClass u hclose =>
    obtain ⟨rfl, rfl⟩ := hclose
    cases h
    exact ⟨[], .nil, rfl⟩
  | case3 => cases h
  | case4 => cases h
  | case5 => cases h
  | case6 inClass u rest hline _ ih =>
    obtain ⟨body, hbody, rfl⟩ := ih h
    exact ⟨_, .escaped (Bool.not_eq_true _ ▸ hline) hbody, rfl⟩
  | case7 u v rest hline hescape ih =>
    obtain ⟨body, hbody, htext⟩ := ih h
    rw [htext]
    have hplain : isLineBreak u = false := Bool.not_eq_true _ ▸ hline
    by_cases hclose : u = 0x5d
    · subst hclose
      exact ⟨_, .closeClass hbody, rfl⟩
    · rw [bne_iff_ne.mpr hclose] at hbody
      exact ⟨_, .classUnit hplain hescape hclose hbody, rfl⟩
  | case8 inClass v rest hout _ _ =>
    cases h
    rw [Bool.not_eq_true] at hout
    subst hout
    exact ⟨[], .nil, rfl⟩
  | case9 inClass u v rest hline hescape hout hclose ih =>
    obtain ⟨body, hbody, htext⟩ := ih h
    rw [htext]
    rw [Bool.not_eq_true] at hout
    subst hout
    have hplain : isLineBreak u = false := Bool.not_eq_true _ ▸ hline
    by_cases hopen : u = 0x5b
    · subst hopen
      exact ⟨_, .openClass hbody, rfl⟩
    · rw [beq_eq_false_iff_ne.mpr hopen] at hbody
      exact ⟨_, .plain hplain hescape hclose hopen hbody, rfl⟩

theorem afterBlockComment_text (h : ¬ [0x2a, 0x2f] <:+: text)
    (more : JsString) : afterBlockComment (text ++ 0x2a :: 0x2f :: more) = some more := by
  induction text with
  | nil => simp [afterBlockComment]
  | cons u rest ih =>
    have hrest : ¬ [0x2a, 0x2f] <:+: rest := fun hin => h (hin.trans (List.suffix_cons u rest).isInfix)
    cases rest with
    | nil =>
      rw [List.singleton_append, afterBlockComment]
      simpa using ih hrest
    | cons v tail =>
      have hpair : ¬ (u = 0x2a ∧ v = 0x2f) := by
        rintro ⟨rfl, rfl⟩
        exact h (List.prefix_append [0x2a, 0x2f] tail).isInfix
      rw [List.cons_append, List.cons_append, afterBlockComment, if_neg hpair]
      exact ih hrest

theorem RegexBody.head_ne {body : JsString} (h : RegexBody body) (next : JsString) :
    (body ++ next).head? ≠ some 0x2f ∧ (body ++ next).head? ≠ some 0x2a := by
  cases body with
  | nil => exact absurd rfl h.nonempty
  | cons u rest =>
    refine ⟨?_, h.noComment⟩
    intro hslash
    have hu : u = 0x2f := by simpa using hslash
    subst hu
    cases h.text with
    | plain _ _ hclose _ _ => exact hclose rfl

theorem afterRegexLiteral_body {body flags next : JsString} (h : RegexBody body)
    (hflags : ∀ u ∈ flags, isFlag u = true) (hnext : next.head?.any isFlag = false) :
    afterRegexLiteral (body ++ 0x2f :: (flags ++ next)) = some next := by
  unfold afterRegexLiteral
  rw [if_neg (h.head_ne _).1, afterRegexBody_text h.text, Option.map_some,
    dropWhile_run hflags hnext]

theorem afterRegexLiteral_eq_none (hcomment : text.head? ≠ some 0x2a)
    (h : ¬ StartsRegex text) : afterRegexLiteral text = none := by
  unfold afterRegexLiteral
  by_cases hslash : text.head? = some 0x2f
  · rw [if_pos hslash]
  rw [if_neg hslash, Option.map_eq_none_iff, Option.eq_none_iff_forall_not_mem]
  intro more hmore
  obtain ⟨body, hbody, rfl⟩ := regexText_of_afterRegexBody false text hmore
  have hsome : body ≠ [] := by
    rintro rfl
    exact hslash rfl
  refine h ⟨body, more, ⟨hbody, hsome, ?_⟩, rfl⟩
  rwa [List.head?_append_of_ne_nil _ hsome] at hcomment

/-! ## The first unit of a piece -/

theorem ne_of_class {p : UInt16 → Bool} {v : UInt16} (hu : p u = true) (hv : p v = false) :
    u ≠ v := by
  rintro rfl
  rw [hu] at hv
  cases hv

theorem unitKind_of_class {p : UInt16 → Bool} (hu : p u = true)
    (hp : ∀ entry ∈ punctuationReaders, p entry.1 = false) : unitKind u = classKind u := by
  have hnone : punctuationReaders.lookup u = none := by
    rw [List.lookup_eq_none_iff]
    intro entry hentry
    exact bne_iff_ne.mpr (ne_of_class hu (hp entry hentry))
  rw [unitKind, hnone, Option.getD_none]

theorem unitKind_wordStart (h : isWordStart u = true) : unitKind u = .wordStart := by
  rw [unitKind_of_class h (by decide), classKind, if_pos h]

theorem of_isDigit {motive : UInt16 → Prop} (h : isDigit u = true)
    (hall : ∀ n < 10, motive (UInt16.ofNat (0x30 + n))) : motive u := by
  simp only [isDigit, Bool.and_eq_true, decide_eq_true_eq, UInt16.le_iff_toNat_le] at h
  have hlow : 0x30 ≤ u.toNat := h.1
  have hhigh : u.toNat ≤ 0x39 := h.2
  have hu : UInt16.ofNat (0x30 + (u.toNat - 0x30)) = u := by
    rw [Nat.add_sub_cancel' hlow, UInt16.ofNat_toNat]
  exact hu ▸ hall (u.toNat - 0x30) (by omega)

theorem isWordStart_of_isDigit (h : isDigit u = true) : isWordStart u = false :=
  of_isDigit (motive := fun u => isWordStart u = false) h (by decide)

theorem isSpace_of_isDigit (h : isDigit u = true) : isSpace u = false :=
  of_isDigit (motive := fun u => isSpace u = false) h (by decide)

theorem unitKind_digit (h : isDigit u = true) : unitKind u = .digit := by
  rw [unitKind_of_class h (by decide), classKind, isWordStart_of_isDigit h, h]
  rfl

theorem unitKind_space (h : isSpace u = true) : unitKind u = .space := by
  have hword : isWordStart u = false := by
    unfold isWordStart
    rw [h]
    rfl
  have hdigit : isDigit u = false := by
    rw [← Bool.not_eq_true]
    intro hdigit
    rw [isSpace_of_isDigit hdigit] at h
    cases h
  rw [unitKind_of_class h (by decide), classKind, hword, hdigit, h]
  rfl

/-! ## One round of the loop -/

/-- The scan at a position of a layout, with nothing found so far. -/
def Position.scan (position : Position) (rest : JsString) : Scan where
  rest := rest
  regexAllowed := position.regexAllowed
  previousWord := position.previousWord
  afterDot := position.afterDot
  parens := position.parens
  braces := position.braces
  untrusted := false
  found := false

/-- What a round finds at a piece: a load at a word that is no property name. -/
def Piece.finds (piece : Piece) (position : Position) (next : JsString) : Bool :=
  match piece with
  | .word text =>
    !position.afterDot && loadKeywords.contains text && loadAtKeyword (text ++ next)
  | _ => false

section Round

variable {position : Position} {next : JsString}

theorem readToken_blank (hshaped : (Piece.blank text).Shaped)
    (hends : (Piece.blank text).EndsBefore next) :
    readToken (position.scan (text ++ next)) = (position.after (.blank text)).scan next := by
  obtain ⟨hsome, hall⟩ := hshaped
  obtain ⟨u, rest, rfl⟩ := List.exists_cons_of_ne_nil hsome
  have hkind : unitKind u = .space := unitKind_space (hall u List.mem_cons_self)
  have hdrop := dropWhile_run hall hends
  simp only [readToken, Position.scan, List.cons_append, hkind] at hdrop ⊢
  rw [hdrop]
  rfl

theorem readDot_digits {scan : Scan} (hdigit : text.head?.any isDigit = true)
    (hall : ∀ u ∈ text, isNumberPart u = true) (hnext : next.head?.any isNumberPart = false) :
    readDot scan (text ++ next) = endToken scan next false := by
  cases text with
  | nil => cases hdigit
  | cons u rest =>
    have hu : isDigit u = true := by simpa using hdigit
    have hdots : (u :: rest ++ next).take 2 ≠ [0x2e, 0x2e] := by
      intro htake
      have hhead : u = 0x2e := List.head_eq_of_cons_eq htake
      exact ne_of_class hu (by decide) hhead
    have hhead : (u :: rest ++ next).head?.any isDigit = true := hdigit
    unfold readDot
    rw [if_neg hdots, if_pos hhead, dropWhile_run hall hnext]

theorem readToken_number (hshaped : (Piece.number text).Shaped)
    (hends : (Piece.number text).EndsBefore next) :
    readToken (position.scan (text ++ next)) = (position.after (.number text)).scan next := by
  obtain ⟨hstart, hall⟩ := hshaped
  cases text with
  | nil => simp at hstart
  | cons u rest =>
    rcases hstart with hdigit | ⟨hdot, hdigit⟩
    · have hkind : unitKind u = .digit := unitKind_digit (by simpa using hdigit)
      have hdrop := dropWhile_run hall hends
      simp only [readToken, Position.scan, List.cons_append, hkind] at hdrop ⊢
      rw [hdrop]
      rfl
    · have hu : u = 0x2e := by simpa using hdot
      subst hu
      have hrest : ∀ v ∈ rest, isNumberPart v = true :=
        fun v hv => hall v (List.mem_cons_of_mem _ hv)
      exact readDot_digits hdigit hrest hends

theorem readToken_lineComment (hshaped : (Piece.lineComment text).Shaped)
    (hends : (Piece.lineComment text).EndsBefore next) :
    readToken (position.scan ((Piece.lineComment text).text ++ next)) =
      (position.after (.lineComment text)).scan next := by
  have hdrop := dropWhile_line hshaped hends
  change { position.scan _ with rest := (text ++ next).dropWhile fun u => !isLineBreak u } = _
  rw [hdrop]
  rfl

theorem readToken_blockComment (hshaped : (Piece.blockComment text).Shaped) :
    readToken (position.scan ((Piece.blockComment text).text ++ next)) =
      (position.after (.blockComment text)).scan next := by
  have hclose := afterBlockComment_text hshaped next
  change readBlockComment (position.scan _) (text ++ [0x2a, 0x2f] ++ next) = _
  rw [List.append_assoc]
  unfold readBlockComment
  rw [List.cons_append, List.cons_append, List.nil_append, hclose]
  rfl

theorem readToken_quoted {quote : UInt16}
    (hshaped : (Piece.quoted quote text).Shaped) :
    readToken (position.scan ((Piece.quoted quote text).text ++ next)) =
      (position.after (.quoted quote text)).scan next := by
  obtain ⟨hquote, htext⟩ := hshaped
  have hclose := afterQuoted_text htext hquote next
  have hread : readToken (position.scan ((Piece.quoted quote text).text ++ next)) =
      readQuoted (position.scan ((Piece.quoted quote text).text ++ next)) quote
        (text ++ [quote] ++ next) := by
    rcases hquote with rfl | rfl <;> rfl
  rw [hread, List.append_assoc]
  unfold readQuoted
  rw [List.singleton_append, hclose]
  rfl

theorem readTemplateText_text {scan : Scan} (h : TemplateText text)
    (substitutes : Bool) :
    readTemplateText scan (text ++ (if substitutes then [0x24, 0x7b] else [0x60]) ++ next) =
      endToken { scan with
        braces := if substitutes then true :: scan.braces else scan.braces } next substitutes := by
  cases substitutes with
  | false =>
    have hstop := afterTemplateText_text h ⟨next, .inl rfl⟩
    rw [List.append_assoc]
    unfold readTemplateText
    simp only [Bool.false_eq_true, if_false, List.singleton_append, hstop, if_true]
  | true =>
    have hstop := afterTemplateText_text h ⟨next, .inr rfl⟩
    rw [List.append_assoc]
    unfold readTemplateText
    simp only [if_true, List.cons_append, List.nil_append, hstop]
    rfl

theorem readToken_template {resumes substitutes : Bool}
    (hshaped : (Piece.template resumes text substitutes).Shaped)
    (hnests : position.Nests (.template resumes text substitutes)) :
    readToken (position.scan ((Piece.template resumes text substitutes).text ++ next)) =
      (position.after (.template resumes text substitutes)).scan next := by
  cases resumes with
  | false =>
    refine (readTemplateText_text hshaped substitutes).trans ?_
    cases substitutes <;> rfl
  | true =>
    have hbrace : position.braces.head? = some true := hnests
    change readCloseBrace (position.scan _) _ = _
    unfold readCloseBrace
    have hscan : (position.scan ((Piece.template true text substitutes).text ++ next)).braces.head? =
      some true := hbrace
    rw [if_pos hscan]
    refine (readTemplateText_text hshaped substitutes).trans ?_
    cases substitutes <;> rfl

theorem readToken_closeBrace (hnests : position.Nests .closeBrace) :
    readToken (position.scan (Piece.closeBrace.text ++ next)) =
      (position.after .closeBrace).scan next := by
  change readCloseBrace (position.scan (Piece.closeBrace.text ++ next)) next = _
  have hscan : (position.scan (Piece.closeBrace.text ++ next)).braces.head? ≠ some true := hnests
  unfold readCloseBrace
  rw [if_neg hscan]
  rfl

theorem readToken_divides {text : JsString} (hslash : text.head? ≠ some 0x2f)
    (hstar : text.head? ≠ some 0x2a) :
    readToken (position.scan (0x2f :: text)) =
      ((if position.regexAllowed then afterRegexLiteral text else none).map
        fun rest => (position.behind false).scan rest).getD ((position.behind true).scan text) := by
  change readSlash (position.scan (0x2f :: text)) text = _
  have hsame : (position.scan (0x2f :: text)).regexAllowed = position.regexAllowed := rfl
  unfold readSlash
  rw [if_neg hslash, if_neg hstar, hsame]
  cases (if position.regexAllowed then afterRegexLiteral text else none) with
  | none => rfl
  | some rest => rfl

theorem readToken_regex {body flags : JsString} (hshaped : (Piece.regex body flags).Shaped)
    (hends : (Piece.regex body flags).EndsBefore next)
    (husual : position.ReadsUsually (.regex body flags) next) :
    readToken (position.scan ((Piece.regex body flags).text ++ next)) =
      (position.after (.regex body flags)).scan next := by
  obtain ⟨hbody, hflags⟩ := hshaped
  have hallowed : position.regexAllowed = true := husual
  have htext : (Piece.regex body flags).text ++ next = 0x2f :: (body ++ 0x2f :: (flags ++ next)) := by
    simp [Piece.text]
  obtain ⟨hslash, hstar⟩ := hbody.head_ne (0x2f :: (flags ++ next))
  rw [htext, readToken_divides hslash hstar, hallowed, if_pos rfl,
    afterRegexLiteral_body hbody hflags hends]
  rfl

theorem readToken_slash (hends : Piece.slash.EndsBefore next)
    (husual : position.ReadsUsually .slash next) :
    readToken (position.scan (Piece.slash.text ++ next)) = (position.after .slash).scan next := by
  obtain ⟨hslash, hstar⟩ := hends
  have hnone : (if position.regexAllowed then afterRegexLiteral next else none) = none := by
    cases hallowed : position.regexAllowed with
    | false => rfl
    | true => exact afterRegexLiteral_eq_none hstar (husual hallowed)
  have hread := @readToken_divides position next hslash hstar
  rw [hnone] at hread
  exact hread

theorem readToken_dot (hends : Piece.dot.EndsBefore next) :
    readToken (position.scan (Piece.dot.text ++ next)) = (position.after .dot).scan next := by
  obtain ⟨hdots, hdigit⟩ := hends
  change readDot (position.scan (Piece.dot.text ++ next)) next = _
  unfold readDot
  rw [if_neg hdots, if_neg (by rw [hdigit]; exact Bool.false_ne_true)]
  rfl

variable {u : UInt16}

theorem readToken_sign (hshaped : (Piece.sign u).Shaped) (hends : (Piece.sign u).EndsBefore next) :
    readToken (position.scan ((Piece.sign u).text ++ next)) =
      (position.after (.sign u)).scan next := by
  have hread : readToken (position.scan ((Piece.sign u).text ++ next)) =
      readPlusOrMinus (position.scan ((Piece.sign u).text ++ next)) u next := by
    rcases hshaped with rfl | rfl <;> rfl
  rw [hread]
  unfold readPlusOrMinus
  rw [if_neg hends]
  rfl

theorem readToken_doubledSign (hshaped : (Piece.doubledSign u).Shaped) :
    readToken (position.scan ((Piece.doubledSign u).text ++ next)) =
      (position.after (.doubledSign u)).scan next := by
  rcases hshaped with rfl | rfl <;> rfl

theorem readToken_other (hshaped : (Piece.other u).Shaped) :
    readToken (position.scan ((Piece.other u).text ++ next)) =
      (position.after (.other u)).scan next := by
  have hkind : unitKind u = .other := hshaped
  change readToken (position.scan (u :: next)) = _
  simp only [readToken, Position.scan, hkind]
  rfl

theorem readToken_word (hshaped : (Piece.word text).Shaped)
    (hends : (Piece.word text).EndsBefore next) :
    readToken (position.scan (text ++ next)) =
      { (position.after (.word text)).scan next with
        found := (Piece.word text).finds position next } := by
  obtain ⟨hstart, hall⟩ := hshaped
  cases text with
  | nil => cases hstart
  | cons u rest =>
    have hkind : unitKind u = .wordStart := unitKind_wordStart (by simpa using hstart)
    have hread : readToken (position.scan (u :: rest ++ next)) =
        readWord (position.scan (u :: rest ++ next)) := by
      simp only [readToken, Position.scan, List.cons_append, hkind]
    have hdrop := dropWhile_run hall hends
    have htake := takeWhile_run hall hends
    rw [hread]
    have hrest : (position.scan (u :: rest ++ next)).rest = u :: rest ++ next := rfl
    unfold readWord
    rw [hrest, hdrop, htake]
    cases hdot : position.afterDot with
    | true => simp [Position.scan, Position.after, Position.behind, Piece.finds, endToken, hdot]
    | false =>
      by_cases hkeyword : u :: rest ∈ loadKeywords <;>
        simp [Position.scan, Position.after, Position.behind, Piece.finds, endToken, hdot, hkeyword]

theorem readToken_piece {piece : Piece} (hshaped : piece.Shaped) (hends : piece.EndsBefore next)
    (hnests : position.Nests piece) (husual : position.ReadsUsually piece next) :
    readToken (position.scan (piece.text ++ next)) =
      { (position.after piece).scan next with found := piece.finds position next } := by
  cases piece with
  | blank text => exact readToken_blank hshaped hends
  | lineComment text => exact readToken_lineComment hshaped hends
  | blockComment text => exact readToken_blockComment hshaped
  | word text => exact readToken_word hshaped hends
  | number text => exact readToken_number hshaped hends
  | quoted quote text => exact readToken_quoted hshaped
  | template resumes text substitutes => exact readToken_template hshaped hnests
  | regex body flags => exact readToken_regex hshaped hends husual
  | slash => exact readToken_slash hends husual
  | openBrace => rfl
  | closeBrace => exact readToken_closeBrace hnests
  | openParen => rfl
  | closeParen => rfl
  | closeBracket => rfl
  | dot => exact readToken_dot hends
  | spread => rfl
  | sign u => exact readToken_sign hshaped hends
  | doubledSign u => exact readToken_doubledSign hshaped
  | other u => exact readToken_other hshaped

end Round

end RefundStudy.Package.Bundles
