/-
  The scan for a bare `@aws-sdk/` module load in a bundled module, from
  `evidence-package/bundle-module-loads.ts`.
-/
import RefundStudy.Record.Text

set_option autoImplicit false

namespace RefundStudy.Package.Bundles

open Store (JsString jsString)
open Record (isSpace)

/-! ## Classes of code units -/

/-- `[\n\r\u2028\u2029]`. -/
def isLineBreak (u : UInt16) : Bool := u == 0x0a || u == 0x0d || u == 0x2028 || u == 0x2029

/-- `\d`. -/
def isDigit (u : UInt16) : Bool := 0x30 ≤ u && u ≤ 0x39

/-- `[A-Za-z_]`. -/
def isLetter (u : UInt16) : Bool :=
  (0x41 ≤ u && u ≤ 0x5a) || (0x61 ≤ u && u ≤ 0x7a) || u == 0x5f

/-- `\w`. -/
def isAsciiWord (u : UInt16) : Bool := isLetter u || isDigit u

/-- `(?!\s)[\w$\\\u0080-\uffff]`, one unit of `WORD`. -/
def isWordPart (u : UInt16) : Bool :=
  !isSpace u && (isAsciiWord u || u == 0x24 || u == 0x5c || 0x80 ≤ u)

/-- `WORD_START`: `(?!\s)[A-Za-z_$\\\u0080-\uffff]`. -/
def isWordStart (u : UInt16) : Bool :=
  !isSpace u && (isLetter u || u == 0x24 || u == 0x5c || 0x80 ≤ u)

/-- `[\w.]`, one further unit of `NUMBER`. -/
def isNumberPart (u : UInt16) : Bool := isAsciiWord u || u == 0x2e

/-- `[\w$]`, one flag of a regular expression. -/
def isFlag (u : UInt16) : Bool := isAsciiWord u || u == 0x24

/-! ## The sticky patterns -/

def afterHashbang : JsString → Option JsString
  | first :: second :: rest =>
    if first = 0x23 ∧ second = 0x21 then some (rest.dropWhile fun u => !isLineBreak u)
    else none
  | _ => none

/-- `DOUBLE_QUOTED` and `SINGLE_QUOTED`, behind the opening quote. -/
def afterQuoted (quote : UInt16) : JsString → Option JsString
  | [] => none
  | [u] => if u = quote then some [] else none
  | u :: v :: rest =>
    if u = quote then some (v :: rest)
    else if u = 0x5c then
      match rest with
      | [] => none
      | w :: more =>
        -- an escaped `\r\n` is one line continuation
        if v = 0x0d ∧ w = 0x0a then afterQuoted quote more else afterQuoted quote (w :: more)
    else if u = 0x0a ∨ u = 0x0d then none
    else afterQuoted quote (v :: rest)

/-- `TEMPLATE_TEXT`: what is left starts with a backtick, with the `$` of a
substitution, with a lone last backslash, or is empty. -/
def afterTemplateText : JsString → JsString
  | [] => []
  | [u] => if u = 0x60 ∨ u = 0x5c then [u] else []
  | u :: v :: rest =>
    if u = 0x60 then u :: v :: rest
    else if u = 0x5c then afterTemplateText rest
    else if u = 0x24 ∧ v = 0x7b then u :: v :: rest
    else afterTemplateText (v :: rest)

/-- The inside of `REGEX_LITERAL` up to its closing slash; `inClass` inside a
bracketed class, where a slash is plain. -/
def afterRegexBody : Bool → JsString → Option JsString
  | _, [] => none
  | inClass, [u] => if inClass = false ∧ u = 0x2f then some [] else none
  | inClass, u :: v :: rest =>
    if isLineBreak u then none
    else if u = 0x5c then if isLineBreak v then none else afterRegexBody inClass rest
    else if inClass then afterRegexBody (u != 0x5d) (v :: rest)
    else if u = 0x2f then some (v :: rest)
    else afterRegexBody (u == 0x5b) (v :: rest)

/-- `REGEX_LITERAL`, behind its opening slash; the body is not empty. -/
def afterRegexLiteral (text : JsString) : Option JsString :=
  if text.head? = some 0x2f then none
  else (afterRegexBody false text).map fun rest => rest.dropWhile isFlag

/-- `source.indexOf('*/', …) + 2`. -/
def afterBlockComment : JsString → Option JsString
  | u :: v :: rest =>
    if u = 0x2a ∧ v = 0x2f then some rest else afterBlockComment (v :: rest)
  | _ => none

/-! ## The load forms -/

/-- `["']@aws-sdk\/`. -/
def quotesSdk : JsString → Bool
  | [] => false
  | u :: rest => (u == 0x22 || u == 0x27) && (jsString "@aws-sdk/").isPrefixOf rest

/-- `\s*["']@aws-sdk\/`. -/
def namesSdk (text : JsString) : Bool := quotesSdk (text.dropWhile isSpace)

/-- `\s*\(\s*["']@aws-sdk\/`. -/
def callsWithSdk (text : JsString) : Bool :=
  match text.dropWhile isSpace with
  | [] => false
  | u :: rest => u == 0x28 && namesSdk rest

/-- `LOAD_AT_KEYWORD`, the alternatives in the pattern's order. -/
def loadAtKeyword (text : JsString) : Bool :=
  (text.dropPrefix? (jsString "from")).any namesSdk ||
    (text.dropPrefix? (jsString "import")).any callsWithSdk ||
    (text.dropPrefix? (jsString "import")).any namesSdk ||
    (text.dropPrefix? (jsString "__require")).any callsWithSdk ||
    (text.dropPrefix? (jsString "require")).any callsWithSdk

/-- `LOAD_ANYWHERE`: `afterWord` says whether a `\w` stands before the text, so
that no `\b` does. -/
def loadAnywhere : Bool → JsString → Bool
  | _, [] => false
  | afterWord, u :: rest =>
    (!afterWord && loadAtKeyword (u :: rest)) || loadAnywhere (isAsciiWord u) rest

def loadKeywords : List JsString := ["from", "import", "require", "__require"].map jsString

def regexAfterKeywords : List JsString :=
  ["await", "case", "delete", "do", "else", "in", "instanceof", "new", "of", "return", "throw",
    "typeof", "void", "yield"].map jsString

def controlKeywords : List JsString := ["if", "while", "for", "with"].map jsString

/-! ## The walk -/

/-- The state of one scan; the tops of `parens` and `braces` come first. -/
structure Scan where
  /-- the source from `index` on -/
  rest : JsString
  /-- whether a `/` here starts a regular expression -/
  regexAllowed : Bool
  /-- the word just read, or empty after any other token -/
  previousWord : JsString
  /-- whether the previous token was `.` -/
  afterDot : Bool
  /-- per open `(`: whether its `)` closes a statement condition -/
  parens : List Bool
  /-- per open brace: whether it opened a template substitution -/
  braces : List Bool
  /-- an unterminated comment or literal -/
  untrusted : Bool
  found : Bool

def startScan (source : JsString) : Scan where
  rest := (afterHashbang source).getD source
  regexAllowed := true
  previousWord := []
  afterDot := false
  parens := []
  braces := []
  untrusted := false
  found := false

variable (scan : Scan) (text : JsString)

def endToken (rest : JsString) (regexAllowed : Bool) : Scan :=
  { scan with rest, regexAllowed, previousWord := [], afterDot := false }

def markUntrusted : Scan := { scan with rest := [], untrusted := true }

def readBlockComment : Scan :=
  match afterBlockComment text with
  | none => markUntrusted scan
  | some rest => { scan with rest }

def readSlash : Scan :=
  if text.head? = some 0x2f then
    { scan with rest := text.tail.dropWhile fun u => !isLineBreak u }
  else if text.head? = some 0x2a then readBlockComment scan text.tail
  else
    match if scan.regexAllowed then afterRegexLiteral text else none with
    | some rest => endToken scan rest false
    | none => endToken scan text true

def readQuoted (quote : UInt16) (text : JsString) : Scan :=
  match afterQuoted quote text with
  | none => markUntrusted scan
  | some rest => endToken scan rest false

def readTemplateText : Scan :=
  match afterTemplateText text with
  | [] => markUntrusted scan
  | stop :: rest =>
    if stop = 0x60 then endToken scan rest false
    else if stop = 0x24 then
      endToken { scan with braces := true :: scan.braces } rest.tail true
    else markUntrusted scan

def readOpenBrace : Scan :=
  endToken { scan with braces := false :: scan.braces } text true

def readCloseBrace : Scan :=
  let popped := { scan with braces := scan.braces.tail }
  if scan.braces.head? = some true then readTemplateText popped text
  else endToken popped text true

def readOpenParen : Scan :=
  endToken { scan with parens := controlKeywords.contains scan.previousWord :: scan.parens } text
    true

def readCloseParen : Scan :=
  endToken { scan with parens := scan.parens.tail } text (scan.parens.head? == some true)

def readDot : Scan :=
  if text.take 2 = [0x2e, 0x2e] then endToken scan (text.drop 2) true
  else if text.head?.any isDigit then endToken scan (text.dropWhile isNumberPart) false
  else { endToken scan text true with afterDot := true }

/-- Behind the sign `u`. -/
def readPlusOrMinus (u : UInt16) (text : JsString) : Scan :=
  if text.head? = some u then endToken scan text.tail false else endToken scan text true

def readWord : Scan :=
  let word := scan.rest.takeWhile isWordPart
  let keyword := !scan.afterDot
  let scan' :=
    if keyword && loadKeywords.contains word then
      { scan with found := loadAtKeyword scan.rest }
    else scan
  { endToken scan' (scan.rest.dropWhile isWordPart)
      (keyword && regexAfterKeywords.contains word) with
    previousWord := if keyword then word else [] }

/-- What the first unit of a token selects in `readToken`. -/
inductive UnitKind where
  | slash
  | doubleQuote
  | singleQuote
  | backtick
  | openBrace
  | closeBrace
  | openParen
  | closeParen
  | closeBracket
  | dot
  | sign
  | wordStart
  | digit
  | space
  | other
  deriving DecidableEq

def punctuationReaders : List (UInt16 × UnitKind) :=
  [(0x2f, .slash), (0x22, .doubleQuote), (0x27, .singleQuote), (0x60, .backtick),
    (0x7b, .openBrace), (0x7d, .closeBrace), (0x28, .openParen), (0x29, .closeParen),
    (0x5d, .closeBracket), (0x2e, .dot), (0x2b, .sign), (0x2d, .sign)]

/-- `WORD_START`, `DIGIT` and `WHITESPACE`, in this order. -/
def classKind (u : UInt16) : UnitKind :=
  if isWordStart u then .wordStart
  else if isDigit u then .digit
  else if isSpace u then .space
  else .other

def unitKind (u : UInt16) : UnitKind := (punctuationReaders.lookup u).getD (classKind u)

def readToken : Scan :=
  match scan.rest with
  | [] => scan
  | u :: text =>
    match unitKind u with
    | .slash => readSlash scan text
    | .doubleQuote => readQuoted scan 0x22 text
    | .singleQuote => readQuoted scan 0x27 text
    | .backtick => readTemplateText scan text
    | .openBrace => readOpenBrace scan text
    | .closeBrace => readCloseBrace scan text
    | .openParen => readOpenParen scan text
    | .closeParen => readCloseParen scan text
    | .closeBracket => endToken scan text false
    | .dot => readDot scan text
    | .sign => readPlusOrMinus scan u text
    | .wordStart => readWord scan
    | .digit => endToken scan (scan.rest.dropWhile isNumberPart) false
    | .space => { scan with rest := scan.rest.dropWhile isSpace }
    | .other => endToken scan text true

/-- The loop's condition fails. -/
def Scan.Stopped : Prop :=
  scan.rest = [] ∨ scan.found = true ∨ scan.untrusted = true

instance (scan : Scan) : Decidable scan.Stopped := by
  unfold Scan.Stopped; exact inferInstance

/-- At most `bound` rounds of the loop. -/
def walk : Nat → Scan → Scan
  | 0, scan => scan
  | bound + 1, scan => if scan.Stopped then scan else walk bound (readToken scan)

def loadsBareAwsSdk (source : JsString) : Bool :=
  let scan := walk source.length (startScan source)
  let trusted := !scan.untrusted && !scan.braces.contains true
  if trusted then scan.found else scan.found || loadAnywhere false source

/-! ## The bound on the rounds

Every round consumes at least one unit, so as many rounds as the source has
units reach the end of the loop on any text. -/

theorem afterQuoted_shorter (quote : UInt16) (text : JsString) {rest : JsString}
    (h : afterQuoted quote text = some rest) : rest.length < text.length := by
  fun_induction afterQuoted quote text <;> simp_all <;> omega

theorem afterTemplateText_length : (afterTemplateText text).length ≤ text.length := by
  fun_induction afterTemplateText text <;> simp_all <;> omega

theorem afterRegexBody_shorter (inClass : Bool) (text : JsString) {rest : JsString}
    (h : afterRegexBody inClass text = some rest) : rest.length < text.length := by
  fun_induction afterRegexBody inClass text <;> simp_all <;> omega

theorem afterBlockComment_shorter {rest : JsString}
    (h : afterBlockComment text = some rest) : rest.length < text.length := by
  fun_induction afterBlockComment text <;> simp_all <;> omega

theorem length_dropWhile_le (p : UInt16 → Bool) (text : JsString) :
    (text.dropWhile p).length ≤ text.length :=
  (List.dropWhile_suffix p).length_le

theorem readTemplateText_shorter : (readTemplateText scan text).rest.length ≤ text.length := by
  have hlength := afterTemplateText_length text
  unfold readTemplateText
  split
  · exact Nat.zero_le _
  · rename_i stop rest htext
    rw [htext, List.length_cons] at hlength
    split_ifs
    · exact Nat.le_of_succ_le hlength
    · simp only [endToken, List.length_tail]
      omega
    · exact Nat.zero_le _

theorem readSlash_shorter : (readSlash scan text).rest.length ≤ text.length := by
  unfold readSlash
  split_ifs
  · refine (length_dropWhile_le _ _).trans ?_
    simp only [List.length_tail]
    omega
  · unfold readBlockComment
    split
    · exact Nat.zero_le _
    · rename_i rest hrest
      have := afterBlockComment_shorter _ hrest
      simp only [List.length_tail] at this
      simp only
      omega
  · split
    · rename_i rest hrest
      unfold afterRegexLiteral at hrest
      split_ifs at hrest
      rw [Option.map_eq_some_iff] at hrest
      obtain ⟨behind, hbehind, rfl⟩ := hrest
      have hbody := afterRegexBody_shorter false text hbehind
      have hflags := length_dropWhile_le isFlag behind
      simp only [endToken]
      omega
    · exact Nat.le_refl _
  · exact Nat.le_refl _

theorem readQuoted_shorter (quote : UInt16) (text : JsString) :
    (readQuoted scan quote text).rest.length ≤ text.length := by
  unfold readQuoted
  split
  · exact Nat.zero_le _
  · rename_i rest hrest
    exact (afterQuoted_shorter quote text hrest).le

theorem readCloseBrace_shorter : (readCloseBrace scan text).rest.length ≤ text.length := by
  unfold readCloseBrace
  split_ifs
  · exact readTemplateText_shorter _ text
  · exact Nat.le_refl _

theorem readDot_shorter : (readDot scan text).rest.length ≤ text.length := by
  unfold readDot
  split_ifs
  · simp only [endToken, List.length_drop]
    omega
  · exact length_dropWhile_le _ text
  · exact Nat.le_refl _

theorem readPlusOrMinus_shorter (u : UInt16) (text : JsString) :
    (readPlusOrMinus scan u text).rest.length ≤ text.length := by
  unfold readPlusOrMinus
  split_ifs
  · simp only [endToken, List.length_tail]
    omega
  · exact Nat.le_refl _

theorem length_dropWhile_lt {p : UInt16 → Bool} {u : UInt16} (hu : p u = true) (text : JsString) :
    ((u :: text).dropWhile p).length < (u :: text).length := by
  rw [List.dropWhile_cons_of_pos hu]
  exact Nat.lt_succ_of_le (length_dropWhile_le p text)

theorem classKind_of_kind {u : UInt16} {kind : UnitKind} (h : unitKind u = kind)
    (hkind : ∀ entry ∈ punctuationReaders, entry.2 ≠ kind) : classKind u = kind := by
  unfold unitKind at h
  cases hlookup : punctuationReaders.lookup u with
  | none =>
    rw [hlookup] at h
    exact h
  | some found =>
    rw [hlookup] at h
    obtain ⟨before, after, hsplit, -⟩ := List.lookup_eq_some_iff.mp hlookup
    have hmem : (u, found) ∈ punctuationReaders := by
      rw [hsplit]
      exact List.mem_append_right _ List.mem_cons_self
    exact absurd h (hkind _ hmem)

theorem isWordPart_of_kind {u : UInt16} (h : unitKind u = .wordStart) : isWordPart u = true := by
  have hclass := classKind_of_kind h (by decide)
  unfold classKind at hclass
  split_ifs at hclass with hstart
  simp only [isWordStart, isWordPart, isAsciiWord, Bool.and_eq_true, Bool.or_eq_true] at hstart ⊢
  tauto

theorem isNumberPart_of_kind {u : UInt16} (h : unitKind u = .digit) : isNumberPart u = true := by
  have hclass := classKind_of_kind h (by decide)
  unfold classKind at hclass
  split_ifs at hclass with _ hdigit
  simp [isNumberPart, isAsciiWord, hdigit]

theorem isSpace_of_kind {u : UInt16} (h : unitKind u = .space) : isSpace u = true := by
  have hclass := classKind_of_kind h (by decide)
  unfold classKind at hclass
  split_ifs at hclass with _ _ hspace
  exact hspace

theorem readToken_shorter {scan : Scan} (h : scan.rest ≠ []) :
    (readToken scan).rest.length < scan.rest.length := by
  unfold readToken
  cases hrest : scan.rest with
  | nil => exact absurd hrest h
  | cons u text =>
    simp only
    cases hkind : unitKind u with
    | slash => exact Nat.lt_succ_of_le (readSlash_shorter scan text)
    | doubleQuote => exact Nat.lt_succ_of_le (readQuoted_shorter scan _ text)
    | singleQuote => exact Nat.lt_succ_of_le (readQuoted_shorter scan _ text)
    | backtick => exact Nat.lt_succ_of_le (readTemplateText_shorter scan text)
    | closeBrace => exact Nat.lt_succ_of_le (readCloseBrace_shorter scan text)
    | dot => exact Nat.lt_succ_of_le (readDot_shorter scan text)
    | sign => exact Nat.lt_succ_of_le (readPlusOrMinus_shorter scan u text)
    | wordStart =>
      simp only [readWord, endToken, hrest]
      exact length_dropWhile_lt (isWordPart_of_kind hkind) text
    | digit => exact length_dropWhile_lt (isNumberPart_of_kind hkind) text
    | space => exact length_dropWhile_lt (isSpace_of_kind hkind) text
    | openBrace | openParen | closeParen | closeBracket | other => exact Nat.lt_succ_self _

theorem walk_stops_within (bound : Nat) : ∀ scan : Scan, scan.rest.length ≤ bound →
    (walk bound scan).Stopped := by
  induction bound with
  | zero =>
    intro scan hbound
    exact .inl (List.length_eq_zero_iff.mp (Nat.le_zero.mp hbound))
  | succ bound ih =>
    intro scan hbound
    rw [walk]
    split_ifs with hstopped
    · exact hstopped
    · have hsome : scan.rest ≠ [] := fun hrest => hstopped (.inl hrest)
      exact ih _ (Nat.le_of_lt_succ ((readToken_shorter hsome).trans_le hbound))

/-- Every token the scan reads takes a unit of the source, so its loop ends for every source. -/
theorem walk_stops (source : JsString) : (walk source.length (startScan source)).Stopped := by
  apply walk_stops_within
  unfold startScan
  cases hline : afterHashbang source with
  | none => exact Nat.le_refl _
  | some rest =>
    unfold afterHashbang at hline
    split at hline
    · split_ifs at hline
      cases hline
      refine (length_dropWhile_le _ _).trans ?_
      simp only [List.length_cons]
      omega
    · cases hline

end RefundStudy.Package.Bundles
