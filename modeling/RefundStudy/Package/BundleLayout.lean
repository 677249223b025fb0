/-
  The tokens of a module source, and the text a list of them stands for.

  Whether a slash divides or starts a regular expression is left open; `UsualReading` says that a
  layout takes the reading the token before the slash suggests.
-/
import RefundStudy.Package.BundleScan

set_option autoImplicit false

namespace RefundStudy.Package.Bundles

open Store (JsString jsString)
open Record (isSpace)

/-! ## Pieces -/

/-- A token, a comment or a run of white space. -/
inductive Piece where
  | blank (text : JsString)
  | lineComment (text : JsString)
  | blockComment (text : JsString)
  /-- an identifier or a keyword -/
  | word (text : JsString)
  /-- a number, with the member names written directly behind it -/
  | number (text : JsString)
  | quoted (quote : UInt16) (text : JsString)
  /-- template characters, behind a backtick or (`resumes`) the right brace of a
  substitution, up to a backtick or (`substitutes`) the next substitution -/
  | template (resumes : Bool) (text : JsString) (substitutes : Bool)
  | regex (body flags : JsString)
  /-- a division -/
  | slash
  | openBrace
  | closeBrace
  | openParen
  | closeParen
  | closeBracket
  | dot
  | spread
  /-- `+` or `-` -/
  | sign (u : UInt16)
  /-- `++` or `--` -/
  | doubledSign (u : UInt16)
  /-- any other punctuator, one unit at a time -/
  | other (u : UInt16)
  deriving DecidableEq

def Piece.text : Piece → JsString
  | .blank text => text
  | .lineComment text => 0x2f :: 0x2f :: text
  | .blockComment text => 0x2f :: 0x2a :: (text ++ [0x2a, 0x2f])
  | .word text => text
  | .number text => text
  | .quoted quote text => quote :: (text ++ [quote])
  | .template resumes text substitutes =>
    (if resumes then 0x7d else 0x60) :: (text ++ if substitutes then [0x24, 0x7b] else [0x60])
  | .regex body flags => 0x2f :: (body ++ 0x2f :: flags)
  | .slash => [0x2f]
  | .openBrace => [0x7b]
  | .closeBrace => [0x7d]
  | .openParen => [0x28]
  | .closeParen => [0x29]
  | .closeBracket => [0x5d]
  | .dot => [0x2e]
  | .spread => [0x2e, 0x2e, 0x2e]
  | .sign u => [u]
  | .doubledSign u => [u, u]
  | .other u => [u]

/-- The source text of a list of pieces. -/
def render (pieces : List Piece) : JsString := pieces.flatMap Piece.text

/-! ## The shapes of the literals -/

/-- String characters between two `quote`s. -/
inductive QuotedText (quote : UInt16) : JsString → Prop
  | nil : QuotedText quote []
  | plain {u : UInt16} {rest : JsString} (hquote : u ≠ quote) (hescape : u ≠ 0x5c)
      (hfeed : u ≠ 0x0a) (hreturn : u ≠ 0x0d) (h : QuotedText quote rest) :
      QuotedText quote (u :: rest)
  | escaped {u : UInt16} {rest : JsString} (h : QuotedText quote rest) :
      QuotedText quote (0x5c :: u :: rest)
  | continued {rest : JsString} (h : QuotedText quote rest) :
      QuotedText quote (0x5c :: 0x0d :: 0x0a :: rest)

inductive TemplateText : JsString → Prop
  | nil : TemplateText []
  | plain {u : UInt16} {rest : JsString} (hclose : u ≠ 0x60) (hescape : u ≠ 0x5c)
      (hdollar : u ≠ 0x24) (h : TemplateText rest) : TemplateText (u :: rest)
  | escaped {u : UInt16} {rest : JsString} (h : TemplateText rest) :
      TemplateText (0x5c :: u :: rest)
  | dollar {rest : JsString} (hplain : rest.head? ≠ some 0x7b) (h : TemplateText rest) :
      TemplateText (0x24 :: rest)

/-- Regular-expression characters from inside or outside a class up to the end
of the body. -/
inductive RegexText : Bool → JsString → Prop
  | nil : RegexText false []
  | plain {u : UInt16} {rest : JsString} (hline : isLineBreak u = false) (hescape : u ≠ 0x5c)
      (hclose : u ≠ 0x2f) (hclass : u ≠ 0x5b) (h : RegexText false rest) :
      RegexText false (u :: rest)
  | escaped {inClass : Bool} {u : UInt16} {rest : JsString} (hline : isLineBreak u = false)
      (h : RegexText inClass rest) : RegexText inClass (0x5c :: u :: rest)
  | openClass {rest : JsString} (h : RegexText true rest) : RegexText false (0x5b :: rest)
  | classUnit {u : UInt16} {rest : JsString} (hline : isLineBreak u = false)
      (hescape : u ≠ 0x5c) (hclose : u ≠ 0x5d) (h : RegexText true rest) :
      RegexText true (u :: rest)
  | closeClass {rest : JsString} (h : RegexText false rest) : RegexText true (0x5d :: rest)

/-- A regular expression's body: not empty, and no comment opening. -/
structure RegexBody (body : JsString) : Prop where
  text : RegexText false body
  nonempty : body ≠ []
  noComment : body.head? ≠ some 0x2a

def Piece.Shaped : Piece → Prop
  | .blank text => text ≠ [] ∧ ∀ u ∈ text, isSpace u = true
  | .lineComment text => ∀ u ∈ text, isLineBreak u = false
  | .blockComment text => ¬ [0x2a, 0x2f] <:+: text
  | .word text => text.head?.any isWordStart = true ∧ ∀ u ∈ text, isWordPart u = true
  | .number text =>
    (text.head?.any isDigit = true ∨
      text.head? = some 0x2e ∧ text.tail.head?.any isDigit = true) ∧
    ∀ u ∈ text, isNumberPart u = true
  | .quoted quote text => (quote = 0x22 ∨ quote = 0x27) ∧ QuotedText quote text
  | .template _ text _ => TemplateText text
  | .regex body flags => RegexBody body ∧ ∀ u ∈ flags, isFlag u = true
  | .sign u => u = 0x2b ∨ u = 0x2d
  | .doubledSign u => u = 0x2b ∨ u = 0x2d
  | .other u => unitKind u = .other
  | _ => True

/-- The text that follows does not continue the piece. -/
def Piece.EndsBefore : Piece → JsString → Prop
  | .blank _, next => next.head?.any isSpace = false
  | .lineComment _, next => next.head?.all isLineBreak = true
  | .word _, next => next.head?.any isWordPart = false
  | .number _, next => next.head?.any isNumberPart = false
  | .regex _ _, next => next.head?.any isFlag = false
  | .slash, next => next.head? ≠ some 0x2f ∧ next.head? ≠ some 0x2a
  | .dot, next => next.take 2 ≠ [0x2e, 0x2e] ∧ next.head?.any isDigit = false
  | .sign u, next => next.head? ≠ some u
  | _, _ => True

instance (piece : Piece) (next : JsString) : Decidable (piece.EndsBefore next) :=
  match piece with
  | .blank _ => inferInstanceAs (Decidable (next.head?.any isSpace = false))
  | .lineComment _ => inferInstanceAs (Decidable (next.head?.all isLineBreak = true))
  | .word _ => inferInstanceAs (Decidable (next.head?.any isWordPart = false))
  | .number _ => inferInstanceAs (Decidable (next.head?.any isNumberPart = false))
  | .regex _ _ => inferInstanceAs (Decidable (next.head?.any isFlag = false))
  | .slash => inferInstanceAs (Decidable (next.head? ≠ some 0x2f ∧ next.head? ≠ some 0x2a))
  | .dot =>
    inferInstanceAs (Decidable (next.take 2 ≠ [0x2e, 0x2e] ∧ next.head?.any isDigit = false))
  | .sign u => inferInstanceAs (Decidable (next.head? ≠ some u))
  | .blockComment _ | .quoted _ _ | .template _ _ _ | .openBrace | .closeBrace | .openParen
  | .closeParen | .closeBracket | .spread | .doubledSign _ | .other _ => .isTrue trivial

/-! ## Where a piece stands -/

/-- What the tokens before a piece say about it. -/
structure Position where
  /-- a slash here starts a regular expression in the usual reading -/
  regexAllowed : Bool
  /-- the word before, or empty behind any other token -/
  previousWord : JsString
  /-- the token before is a dot, so a word is a property name -/
  afterDot : Bool
  /-- the unit before is a number sign, so a word is a private name -/
  afterHash : Bool
  /-- per open parenthesis: it follows `if`, `while`, `for` or `with` -/
  parens : List Bool
  /-- per open brace: it opened a substitution -/
  braces : List Bool

def Position.start : Position := ⟨true, [], false, false, [], []⟩

variable (position : Position)

def Position.behind (regexAllowed : Bool) : Position :=
  { position with regexAllowed, previousWord := [], afterDot := false, afterHash := false }

/-- The position behind a piece: white space and comments leave the token
before as it is. -/
def Position.after : Piece → Position
  | .blank _ | .lineComment _ | .blockComment _ => { position with afterHash := false }
  | .word text =>
    { position.behind (!position.afterDot && regexAfterKeywords.contains text) with
      previousWord := if position.afterDot then [] else text }
  | .number _ | .quoted _ _ | .regex _ _ | .closeBracket | .doubledSign _ =>
    position.behind false
  | .template resumes _ substitutes =>
    let outer := if resumes then position.braces.tail else position.braces
    { position.behind substitutes with
      braces := if substitutes then true :: outer else outer }
  | .slash | .spread | .sign _ => position.behind true
  | .openBrace => { position.behind true with braces := false :: position.braces }
  | .closeBrace => { position.behind true with braces := position.braces.tail }
  | .openParen =>
    { position.behind true with
      parens := controlKeywords.contains position.previousWord :: position.parens }
  | .closeParen =>
    { position.behind (position.parens.head? == some true) with parens := position.parens.tail }
  | .dot => { position.behind true with afterDot := true }
  | .other u => { position.behind true with afterHash := u == 0x23 }

/-- A right brace resumes a template where it closes a substitution, and only
there. -/
def Position.Nests : Piece → Prop
  | .template true _ _ => position.braces.head? = some true
  | .closeBrace => position.braces.head? ≠ some true
  | _ => True

/-- The pieces are the tokens of their text, from a position to the end of the
source, where no substitution is left open. -/
def Tokenizes : Position → List Piece → Prop
  | position, [] => true ∉ position.braces
  | position, piece :: rest =>
    piece.Shaped ∧ piece.EndsBefore (render rest) ∧ position.Nests piece ∧
      Tokenizes (position.after piece) rest

/-- A regular expression starts at the text behind a slash. -/
def StartsRegex (next : JsString) : Prop :=
  ∃ body more, RegexBody body ∧ next = body ++ 0x2f :: more

def Position.ReadsUsually : Piece → JsString → Prop
  | .regex _ _, _ => position.regexAllowed = true
  | .slash, next => position.regexAllowed = true → ¬ StartsRegex next
  | _, _ => True

def UsualReading : Position → List Piece → Prop
  | _, [] => True
  | position, piece :: rest =>
    position.ReadsUsually piece (render rest) ∧ UsualReading (position.after piece) rest

/-- The layout of a module: its pieces, behind the text of a hashbang line if it has one. -/
structure Layout where
  hashbang : Option JsString
  pieces : List Piece

def Layout.source (layout : Layout) : JsString :=
  match layout.hashbang with
  | none => render layout.pieces
  | some line => 0x23 :: 0x21 :: (line ++ render layout.pieces)

/-- A source that starts with `#!` starts with a hashbang line, which ends with
the line. -/
def Hashbanged : Option JsString → JsString → Prop
  | none, next => next.take 2 ≠ [0x23, 0x21]
  | some line, next =>
    (∀ u ∈ line, isLineBreak u = false) ∧ next.head?.all isLineBreak = true

instance (line : Option JsString) (next : JsString) : Decidable (Hashbanged line next) :=
  match line with
  | none => inferInstanceAs (Decidable (next.take 2 ≠ [0x23, 0x21]))
  | some line =>
    inferInstanceAs (Decidable ((∀ u ∈ line, isLineBreak u = false) ∧
      next.head?.all isLineBreak = true))

/-- The hashbang line and the pieces are the tokens of the source. -/
structure Layout.Tokenized (layout : Layout) : Prop where
  hashbang : Hashbanged layout.hashbang (render layout.pieces)
  pieces : Tokenizes .start layout.pieces

/-! ## Loads -/

/-- A string literal whose text starts with `@aws-sdk/`. -/
def sdkLiteral : List Piece → Bool
  | .quoted _ text :: _ => (jsString "@aws-sdk/").isPrefixOf text
  | _ => false

def Piece.isTrivia : Piece → Bool
  | .blank _ | .lineComment _ | .blockComment _ => true
  | _ => false

def Piece.isBlank : Piece → Bool
  | .blank _ => true
  | _ => false

/-- A left parenthesis and a literal that starts with `@aws-sdk/`, with nothing but skipped
pieces before them. -/
def sdkCall (skipped : Piece → Bool) (rest : List Piece) : Bool :=
  match rest.dropWhile skipped with
  | .openParen :: more => sdkLiteral (more.dropWhile skipped)
  | _ => false

/-- The pieces behind `word` make it a load of an `@aws-sdk/` literal, with only
skipped pieces between the tokens of the load: `from` and `import` before the
literal, `import`, `require` and `__require` before the literal in parentheses. -/
def loadFollows (skipped : Piece → Bool) (word : JsString) (rest : List Piece) : Bool :=
  ((word == jsString "from" || word == jsString "import") &&
      sdkLiteral (rest.dropWhile skipped)) ||
    ((word == jsString "import" || word == jsString "require" || word == jsString "__require") &&
      sdkCall skipped rest)

def Piece.startsLoad (skipped : Piece → Bool) : Piece → List Piece → Bool
  | .word text, rest => loadFollows skipped text rest
  | _, _ => false

/-- Some word that stands where `among` says starts a load. -/
def loadAmong (among : Position → Bool) (skipped : Piece → Bool) :
    Position → List Piece → Bool
  | _, [] => false
  | position, piece :: rest =>
    among position && piece.startsLoad skipped rest ||
      loadAmong among skipped (position.after piece) rest

/-- A word in code position: neither a property name nor a private name. -/
def Position.inCode : Bool := !position.afterDot && !position.afterHash

/-- The module loads a literal that starts with `@aws-sdk/` in code position,
whatever white space and comments stand inside the load. -/
def Layout.loadsSdk (layout : Layout) : Bool :=
  loadAmong Position.inCode Piece.isTrivia .start layout.pieces

/-- The same with nothing but white space inside the load. -/
def Layout.loadsSdkSpaced (layout : Layout) : Bool :=
  loadAmong (fun position => !position.afterDot) Piece.isBlank .start layout.pieces

end RefundStudy.Package.Bundles
