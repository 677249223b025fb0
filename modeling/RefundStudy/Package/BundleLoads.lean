/-
  What the scan of a bundle finds.
-/
import RefundStudy.Package.BundleWalk

set_option autoImplicit false

namespace RefundStudy.Package.Bundles

open Store (JsString jsString)
open Record (isSpace)

variable {text : JsString} {piece : Piece}

/-! ## The first unit of a piece -/

def Piece.kind : Piece → UnitKind
  | .blank _ => .space
  | .lineComment _ | .blockComment _ | .regex _ _ | .slash => .slash
  | .word _ => .wordStart
  | .number text => if text.head? = some 0x2e then .dot else .digit
  | .quoted quote _ => if quote = 0x22 then .doubleQuote else .singleQuote
  | .template resumes _ _ => if resumes then .closeBrace else .backtick
  | .openBrace => .openBrace
  | .closeBrace => .closeBrace
  | .openParen => .openParen
  | .closeParen => .closeParen
  | .closeBracket => .closeBracket
  | .dot | .spread => .dot
  | .sign _ | .doubledSign _ => .sign
  | .other _ => .other

theorem Piece.Shaped.first (h : piece.Shaped) :
    ∃ u rest, piece.text = u :: rest ∧ unitKind u = piece.kind := by
  cases piece with
  | blank text =>
    obtain ⟨u, rest, rfl⟩ := List.exists_cons_of_ne_nil h.1
    exact ⟨u, rest, rfl, unitKind_space (h.2 u List.mem_cons_self)⟩
  | word text =>
    cases text with
    | nil => cases h.1
    | cons u rest => exact ⟨u, rest, rfl, unitKind_wordStart h.1⟩
  | number text =>
    cases text with
    | nil => exact absurd h.1 (by simp)
    | cons u rest =>
      rcases h.1 with hdigit | ⟨hdot, -⟩
      · have hu : isDigit u = true := hdigit
        have hne : (u :: rest).head? ≠ some 0x2e := by
          intro hhead
          exact ne_of_class hu (by decide) (Option.some.inj hhead)
        refine ⟨u, rest, rfl, ?_⟩
        rw [Piece.kind, if_neg hne]
        exact unitKind_digit hdigit
      · obtain rfl : u = 0x2e := Option.some.inj hdot
        exact ⟨0x2e, rest, rfl, rfl⟩
  | quoted quote text =>
    refine ⟨quote, text ++ [quote], rfl, ?_⟩
    rcases h.1 with rfl | rfl <;> rfl
  | template resumes text substitutes =>
    refine ⟨_, _, rfl, ?_⟩
    cases resumes <;> rfl
  | sign u =>
    refine ⟨u, [], rfl, ?_⟩
    rcases h with rfl | rfl <;> rfl
  | doubledSign u =>
    refine ⟨u, [u], rfl, ?_⟩
    rcases h with rfl | rfl <;> rfl
  | other u => exact ⟨u, [], rfl, h⟩
  | lineComment _ | blockComment _ | regex _ _ | slash | openBrace | closeBrace | openParen |
    closeParen | closeBracket | dot | spread => exact ⟨_, _, rfl, rfl⟩

theorem render_cons (piece : Piece) (rest : List Piece) :
    render (piece :: rest) = piece.text ++ render rest :=
  List.flatMap_cons

theorem starts_no_space (h : piece.Shaped) (hblank : piece.isBlank = false)
    (next : JsString) : (piece.text ++ next).head?.any isSpace = false := by
  obtain ⟨u, rest, htext, hkind⟩ := h.first
  rw [htext, ← Bool.not_eq_true]
  intro hspace
  have hu : unitKind u = .space := unitKind_space hspace
  rw [hkind] at hu
  cases piece <;> simp [Piece.kind, Piece.isBlank] at hu hblank <;> split_ifs at hu

theorem quotesSdk_other (h : piece.Shaped)
    (hother : ∀ quote text, piece ≠ .quoted quote text) (next : JsString) :
    quotesSdk (piece.text ++ next) = false := by
  obtain ⟨u, rest, htext, hkind⟩ := h.first
  have hne : u ≠ 0x22 ∧ u ≠ 0x27 := by
    constructor
    · rintro rfl
      have hu : piece.kind = .doubleQuote := hkind.symm
      cases piece <;> simp [Piece.kind] at hu hother <;> split_ifs at hu
    · rintro rfl
      have hu : piece.kind = .singleQuote := hkind.symm
      cases piece <;> simp [Piece.kind] at hu hother <;> split_ifs at hu
  rw [htext, List.cons_append]
  simp [quotesSdk, hne]

theorem starts_no_paren (h : piece.Shaped) (hother : piece ≠ .openParen)
    (next : JsString) : (piece.text ++ next).head? ≠ some 0x28 := by
  obtain ⟨u, rest, htext, hkind⟩ := h.first
  rw [htext]
  intro hhead
  obtain rfl : u = 0x28 := Option.some.inj hhead
  have hu : piece.kind = .openParen := hkind.symm
  cases piece <;> simp [Piece.kind] at hu hother <;> split_ifs at hu

/-! ## The text behind a keyword -/

theorem isPrefixOf_append_stop {name text more : JsString} {stop : UInt16} (h : stop ∉ name) :
    name.isPrefixOf (text ++ stop :: more) = name.isPrefixOf text := by
  induction name generalizing text with
  | nil => simp
  | cons u name ih =>
    rw [List.mem_cons, not_or] at h
    cases text with
    | nil => simp [List.isPrefixOf, Ne.symm h.1]
    | cons v text => simp [List.isPrefixOf, ih h.2]

theorem keyword_units :
    jsString "from" = [0x66, 0x72, 0x6f, 0x6d] ∧
      jsString "import" = [0x69, 0x6d, 0x70, 0x6f, 0x72, 0x74] ∧
      jsString "require" = [0x72, 0x65, 0x71, 0x75, 0x69, 0x72, 0x65] ∧
      jsString "__require" = [0x5f, 0x5f, 0x72, 0x65, 0x71, 0x75, 0x69, 0x72, 0x65] := by
  decide

section Behind

variable {position : Position} {rest : List Piece}

theorem quotesSdk_render (h : Tokenizes position rest) :
    quotesSdk (render rest) = sdkLiteral rest := by
  cases rest with
  | nil => rfl
  | cons piece more =>
    rw [render_cons]
    by_cases hquoted : ∃ quote text, piece = .quoted quote text
    · obtain ⟨quote, text, rfl⟩ := hquoted
      have hquote : quote = 0x22 ∨ quote = 0x27 := h.1.1
      have hstop : quote ∉ jsString "@aws-sdk/" := by
        rcases hquote with rfl | rfl <;> decide
      have htext : (Piece.quoted quote text).text ++ render more =
          quote :: (text ++ quote :: render more) := by
        simp [Piece.text]
      have hmark : (quote == 0x22 || quote == 0x27) = true := by
        rcases hquote with rfl | rfl <;> rfl
      rw [htext, quotesSdk, isPrefixOf_append_stop hstop, hmark, Bool.true_and]
      rfl
    · have hother : ∀ quote text, piece ≠ .quoted quote text :=
        fun quote text hpiece => hquoted ⟨quote, text, hpiece⟩
      rw [quotesSdk_other h.1 hother]
      cases piece <;> simp [sdkLiteral] at hother ⊢

/-- Skipping the white space of the text skips the run of white space before the
next token. -/
theorem dropWhile_render (h : Tokenizes position rest) :
    (render rest).dropWhile isSpace = render (rest.dropWhile Piece.isBlank) ∧
      ∃ position', Tokenizes position' (rest.dropWhile Piece.isBlank) := by
  have hstop : ∀ {position : Position} {rest : List Piece}, Tokenizes position rest →
      (render rest).head?.any isSpace = false → rest.dropWhile Piece.isBlank = rest := by
    intro position rest hrest hhead
    cases rest with
    | nil => rfl
    | cons piece more =>
      cases piece with
      | blank text =>
        obtain ⟨u, units, rfl⟩ := List.exists_cons_of_ne_nil hrest.1.1
        have hspace : isSpace u = true := hrest.1.2 u List.mem_cons_self
        exact absurd hspace (by rw [Bool.not_eq_true]; exact hhead)
      | _ => rfl
  cases rest with
  | nil => exact ⟨rfl, position, h⟩
  | cons piece more =>
    cases hblank : piece.isBlank with
    | true =>
      cases piece with
      | blank text =>
        have hends : (render more).head?.any isSpace = false := h.2.1
        rw [List.dropWhile_cons_of_pos hblank, hstop h.2.2.2 hends, render_cons]
        exact ⟨dropWhile_run h.1.2 hends, _, h.2.2.2⟩
      | _ => cases hblank
    | false =>
      have hends := starts_no_space h.1 hblank (render more)
      rw [List.dropWhile_cons_of_neg (by rw [hblank]; exact Bool.false_ne_true), render_cons]
      exact ⟨@dropWhile_run isSpace [] _ (by simp) hends, position, h⟩

theorem namesSdk_render (h : Tokenizes position rest) :
    namesSdk (render rest) = sdkLiteral (rest.dropWhile Piece.isBlank) := by
  obtain ⟨hdrop, position', htokens⟩ := dropWhile_render h
  rw [namesSdk, hdrop, quotesSdk_render htokens]

theorem callsWithSdk_render (h : Tokenizes position rest) :
    callsWithSdk (render rest) = sdkCall Piece.isBlank rest := by
  obtain ⟨hdrop, position', htokens⟩ := dropWhile_render h
  unfold callsWithSdk sdkCall
  rw [hdrop]
  cases hrest : rest.dropWhile Piece.isBlank with
  | nil => rfl
  | cons piece more =>
    rw [hrest] at htokens
    by_cases hparen : piece = .openParen
    · subst hparen
      exact namesSdk_render htokens.2.2.2
    · obtain ⟨u, units, htext, -⟩ := htokens.1.first
      have hu : u ≠ 0x28 := by
        have hhead := starts_no_paren htokens.1 hparen (render more)
        rw [htext] at hhead
        exact fun hu => hhead (congrArg some hu)
      rw [render_cons, htext]
      have hfalse : (u == 0x28) = false := beq_eq_false_iff_ne.mpr hu
      simp only [List.cons_append, hfalse, Bool.false_and]
      cases piece <;> simp at hparen ⊢

theorem loadAtKeyword_render (h : Tokenizes position rest)
    (hkeyword : text ∈ loadKeywords) :
    loadAtKeyword (text ++ render rest) = loadFollows Piece.isBlank text rest := by
  have hnames := namesSdk_render h
  have hcalls := callsWithSdk_render h
  simp only [loadKeywords, List.map_cons, List.map_nil, List.mem_cons, List.not_mem_nil,
    or_false] at hkeyword
  obtain ⟨hfrom, himport, hrequire, hshim⟩ := keyword_units
  unfold loadAtKeyword loadFollows
  rw [hfrom, himport, hrequire, hshim] at hkeyword ⊢
  rcases hkeyword with rfl | rfl | rfl | rfl
  · simp [List.dropPrefix?, hnames]
  · simp [List.dropPrefix?, hnames, hcalls, Bool.or_comm]
  · simp [List.dropPrefix?, hcalls]
  · simp [List.dropPrefix?, hcalls]

theorem loadFollows_keyword {skipped : Piece → Bool}
    (hkeyword : text ∉ loadKeywords) : loadFollows skipped text rest = false := by
  simp only [loadKeywords, List.map_cons, List.map_nil, List.mem_cons, List.not_mem_nil, or_false,
    not_or] at hkeyword
  simp [loadFollows, hkeyword]

theorem finds_render (piece : Piece) (h : Tokenizes position rest) (at' : Position) :
    piece.finds at' (render rest) = (!at'.afterDot && piece.startsLoad Piece.isBlank rest) := by
  cases piece with
  | word text =>
    by_cases hkeyword : text ∈ loadKeywords
    · have hcontains : loadKeywords.contains text = true := List.contains_iff_mem.mpr hkeyword
      simp only [Piece.finds, Piece.startsLoad, hcontains, Bool.and_true,
        loadAtKeyword_render h hkeyword]
    · have hcontains : loadKeywords.contains text = false := by
        rw [← Bool.not_eq_true, List.contains_iff_mem]
        exact hkeyword
      simp only [Piece.finds, Piece.startsLoad, hcontains, loadFollows_keyword hkeyword,
        Bool.and_false, Bool.false_and]
  | _ => simp [Piece.finds, Piece.startsLoad]

end Behind

/-! ## The walk -/

theorem walk_stopped {scan : Scan} (h : scan.Stopped) (bound : Nat) : walk bound scan = scan := by
  cases bound with
  | zero => rfl
  | succ bound => rw [walk, if_pos h]

/-- A word that is no property name starts a load with white space alone inside. -/
def spacedLoad : Position → List Piece → Bool :=
  loadAmong (fun position => !position.afterDot) Piece.isBlank

/-- The loop on a layout: it finds a load exactly where the layout has one whose
tokens white space alone separates, and otherwise reads to the end. -/
theorem walk_layout (pieces : List Piece) : ∀ (position : Position) (bound : Nat),
    Tokenizes position pieces → UsualReading position pieces → (render pieces).length ≤ bound →
    (walk bound (position.scan (render pieces))).found = spacedLoad position pieces ∧
      (walk bound (position.scan (render pieces))).untrusted = false ∧
      (spacedLoad position pieces = false →
        true ∉ (walk bound (position.scan (render pieces))).braces) := by
  induction pieces with
  | nil =>
    intro position bound htokens _ _
    have hstopped : (position.scan (render [])).Stopped := .inl rfl
    rw [walk_stopped hstopped]
    exact ⟨rfl, rfl, fun _ => htokens⟩
  | cons piece rest ih =>
    intro position bound htokens husual hbound
    obtain ⟨u, units, htext, -⟩ := htokens.1.first
    have hlength : (render (piece :: rest)).length = units.length + 1 + (render rest).length := by
      rw [render_cons, htext, List.length_append, List.length_cons]
    obtain ⟨bound, rfl⟩ : ∃ less, bound = less + 1 := ⟨bound - 1, by omega⟩
    have hrunning : ¬ (position.scan (render (piece :: rest))).Stopped := by
      rw [render_cons, htext]
      simp [Scan.Stopped, Position.scan]
    have hround := readToken_piece htokens.1 htokens.2.1 htokens.2.2.1 husual.1
    rw [finds_render piece htokens.2.2.2 position] at hround
    rw [walk, if_neg hrunning, render_cons, hround]
    cases hfinds : (!position.afterDot && piece.startsLoad Piece.isBlank rest) with
    | true =>
      have hload : spacedLoad position (piece :: rest) = true := by
        rw [spacedLoad, loadAmong, hfinds, Bool.true_or]
      rw [walk_stopped (.inr (.inl rfl)), hload]
      exact ⟨rfl, rfl, fun h => by cases h⟩
    | false =>
      have hload : spacedLoad position (piece :: rest) =
          spacedLoad (position.after piece) rest := by
        rw [spacedLoad, loadAmong, hfinds, Bool.false_or]
      rw [hload]
      exact ih (position.after piece) bound htokens.2.2.2 husual.2 (by omega)

theorem afterHashbang_eq_none (h : text.take 2 ≠ [0x23, 0x21]) :
    afterHashbang text = none := by
  match text with
  | [] => rfl
  | [_] => rfl
  | first :: second :: rest =>
    rw [afterHashbang, if_neg]
    rintro ⟨rfl, rfl⟩
    exact h rfl

theorem startScan_source (layout : Layout) (h : layout.Tokenized) :
    startScan layout.source = Position.start.scan (render layout.pieces) := by
  have hskip : (afterHashbang layout.source).getD layout.source = render layout.pieces := by
    have hhashbang := h.hashbang
    unfold Layout.source
    cases hline : layout.hashbang with
    | none =>
      rw [hline] at hhashbang
      exact congrArg (Option.getD · (render layout.pieces)) (afterHashbang_eq_none hhashbang)
    | some line =>
      rw [hline] at hhashbang
      have hdrop := dropWhile_line hhashbang.1 hhashbang.2
      simp [afterHashbang, hdrop]
  unfold startScan
  rw [hskip]
  rfl

/-- On a module whose slashes have the usual reading, the scan finds exactly the
loads that white space alone separates. -/
theorem loadsBareAwsSdk_source (layout : Layout) (htokens : layout.Tokenized)
    (husual : UsualReading .start layout.pieces) :
    loadsBareAwsSdk layout.source = layout.loadsSdkSpaced := by
  have hlength : (render layout.pieces).length ≤ layout.source.length := by
    unfold Layout.source
    cases layout.hashbang with
    | none => exact le_rfl
    | some line =>
      simp only [List.length_cons, List.length_append]
      omega
  obtain ⟨hfound, htrusted, hclosed⟩ :=
    walk_layout layout.pieces .start layout.source.length htokens.pieces husual hlength
  rw [← startScan_source layout htokens] at hfound htrusted hclosed
  have hspaced : spacedLoad .start layout.pieces = layout.loadsSdkSpaced := rfl
  rw [hspaced] at hfound hclosed
  cases hload : layout.loadsSdkSpaced with
  | true => simp [loadsBareAwsSdk, hfound, hload]
  | false => simp [loadsBareAwsSdk, hfound, htrusted, hclosed hload, hload]

/-! ## Results -/

/-- A module that loads an `@aws-sdk/` literal in code position is found exactly
when one of its loads, keywords behind a number sign included, has white space
alone between its tokens. -/
theorem sdk_load_found_iff_spaced (layout : Layout) (htokens : layout.Tokenized)
    (husual : UsualReading .start layout.pieces) :
    layout.loadsSdk = true →
      (loadsBareAwsSdk layout.source = true ↔ layout.loadsSdkSpaced = true) := by
  intro _
  rw [loadsBareAwsSdk_source layout htokens husual]

theorem quotedText_plain {quote : UInt16}
    (h : text.all (fun u => u != quote && u != 0x5c && u != 0x0a && u != 0x0d) = true) :
    QuotedText quote text := by
  induction text with
  | nil => exact .nil
  | cons u rest ih =>
    simp only [List.all_cons, Bool.and_eq_true, bne_iff_ne] at h
    exact .plain h.1.1.1.1 h.1.1.1.2 h.1.1.2 h.1.2 (ih h.2)

theorem shaped_word (hstart : text.head?.any isWordStart = true)
    (hall : text.all isWordPart = true) : (Piece.word text).Shaped :=
  ⟨hstart, List.all_eq_true.mp hall⟩

def sdkName : JsString := jsString "@aws-sdk/x"

theorem sdkName_quoted : (Piece.quoted 0x22 sdkName).Shaped :=
  ⟨.inl rfl, quotedText_plain (by decide)⟩

def commentedImport : Layout :=
  ⟨none, [.word (jsString "import"), .blockComment [], .quoted 0x22 sdkName]⟩

def spacedImport : Layout :=
  ⟨none, [.word (jsString "import"), .blank [0x20], .quoted 0x22 sdkName]⟩

theorem commented_import_is_missed :
    commentedImport.Tokenized ∧ UsualReading .start commentedImport.pieces ∧
      commentedImport.loadsSdk = true ∧ loadsBareAwsSdk commentedImport.source = false := by
  have hcomment : (Piece.blockComment []).Shaped := by
    intro hclose
    cases List.eq_nil_of_infix_nil hclose
  have hword : (Piece.word (jsString "import")).Shaped := shaped_word (by decide) (by decide)
  have htokens : Tokenizes .start commentedImport.pieces :=
    ⟨hword, by decide, trivial, hcomment, trivial, trivial, sdkName_quoted, trivial, trivial,
      List.not_mem_nil⟩
  exact ⟨⟨by decide, htokens⟩, ⟨trivial, trivial, trivial, trivial⟩, by decide, by decide +kernel⟩

theorem spaced_import_is_found :
    spacedImport.loadsSdk = true ∧ loadsBareAwsSdk spacedImport.source = true := by
  have hword : (Piece.word (jsString "import")).Shaped := shaped_word (by decide) (by decide)
  have hblank : (Piece.blank [0x20]).Shaped := ⟨by decide, List.all_eq_true.mp (by decide)⟩
  have htokens : spacedImport.Tokenized :=
    ⟨by decide, hword, by decide, trivial, hblank, by decide, trivial, sdkName_quoted, trivial,
      trivial, List.not_mem_nil⟩
  have husual : UsualReading .start spacedImport.pieces := ⟨trivial, trivial, trivial, trivial⟩
  have hload : spacedImport.loadsSdk = true := by decide
  exact ⟨hload, (sdk_load_found_iff_spaced spacedImport htokens husual hload).mpr (by decide)⟩

end RefundStudy.Package.Bundles
