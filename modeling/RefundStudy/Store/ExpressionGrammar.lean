/-
  How the service reads a condition expression.

  The text is split into words, placeholders and marks, and parsed by the part of the
  service's grammar that this store uses:

      conjunction ::= factor ( AND factor )*
      factor      ::= "(" conjunction ")"
                    | attribute_exists "(" name ")" | attribute_not_exists "(" name ")"
                    | operand "=" operand
                    | operand IN "(" operand ( "," operand )* ")"
      operand     ::= name placeholder | value placeholder

  An expression that does not parse, or uses a placeholder the request does not define, is refused,
  so it has no truth value.
-/
import RefundStudy.Store.AttributeValue

set_option autoImplicit false

namespace RefundStudy.Store

open Foundation

/-! ## Tokens -/

inductive Token where
  | name (placeholder : String)
  | value (placeholder : String)
  | word (word : String)
  | equals
  | lparen
  | rparen
  | comma
  deriving DecidableEq

def isWordChar (c : Char) : Bool := c.isAlphanum || c == '_'

/-- The token that the characters read so far make, if there are any. -/
def wordToken : List Char → List Token
  | [] => []
  | '#' :: rest => [.name (String.ofList ('#' :: rest))]
  | ':' :: rest => [.value (String.ofList (':' :: rest))]
  | chars => [.word (String.ofList chars)]

/-- The tokens of a character between words; `none` when it is no character of the grammar. -/
def separatorTokens (c : Char) : Option (List Token) :=
  if c = ' ' then some []
  else if c = '=' then some [.equals]
  else if c = '(' then some [.lparen]
  else if c = ')' then some [.rparen]
  else if c = ',' then some [.comma]
  else none

/-- The tokens of a text, after the characters `current` of a word. -/
def lexFrom (current : List Char) : List Char → Option (List Token)
  | [] => some (wordToken current)
  | c :: rest =>
    if isWordChar c then lexFrom (current ++ [c]) rest
    else if c = '#' ∨ c = ':' then (lexFrom [c] rest).map (wordToken current ++ ·)
    else
      (separatorTokens c).bind fun tokens =>
        (lexFrom [] rest).map (wordToken current ++ tokens ++ ·)

def tokensOf (expression : String) : Option (List Token) := lexFrom [] expression.toList

def namesAmong (tokens : List Token) : List String :=
  tokens.filterMap fun token =>
    match token with
    | .name placeholder => some placeholder
    | _ => none

def valuesAmong (tokens : List Token) : List String :=
  tokens.filterMap fun token =>
    match token with
    | .value placeholder => some placeholder
    | _ => none

/-! ## The grammar -/

inductive Operand where
  | name (placeholder : String)
  | value (placeholder : String)

inductive Expression where
  | equals (left right : Operand)
  | isIn (left : Operand) (list : List Operand)
  | attributeExists (placeholder : String)
  | attributeNotExists (placeholder : String)
  | and (left right : Expression)

def operandOf : Token → Option Operand
  | .name placeholder => some (.name placeholder)
  | .value placeholder => some (.value placeholder)
  | _ => none

/-- Keywords are read without regard to case. -/
def isKeyword (keyword word : String) : Bool := word.toList.map Char.toUpper == keyword.toList

/-- The keyword between two factors. -/
def isAnd : Token → Bool
  | .word word => isKeyword "AND" word
  | _ => false

/-- One or more operands up to the closing parenthesis. -/
def parseOperands : List Token → Option (List Operand × List Token)
  | first :: .rparen :: rest => (operandOf first).map fun operand => ([operand], rest)
  | first :: .comma :: rest =>
    (operandOf first).bind fun operand =>
      (parseOperands rest).map fun parsed => (operand :: parsed.1, parsed.2)
  | _ => none

def closeParenthesis (parsed : Expression × List Token) : Option (Expression × List Token) :=
  match parsed.2 with
  | .rparen :: rest => some (parsed.1, rest)
  | _ => none

/-- A factor that is no parenthesis: a function, a comparison or a membership. -/
def parseLeaf : List Token → Option (Expression × List Token)
  | .word function :: .lparen :: .name placeholder :: .rparen :: rest =>
    if function = "attribute_exists" then some (.attributeExists placeholder, rest)
    else if function = "attribute_not_exists" then some (.attributeNotExists placeholder, rest)
    else none
  | left :: .equals :: right :: rest =>
    (operandOf left).bind fun first =>
      (operandOf right).map fun second => (.equals first second, rest)
  | left :: .word keyword :: .lparen :: rest =>
    if isKeyword "IN" keyword then
      (operandOf left).bind fun first =>
        (parseOperands rest).map fun parsed => (.isIn first parsed.1, parsed.2)
    else none
  | _ => none

mutual

/-- A conjunction; `fuel` bounds the nesting. -/
def parseConjunction : Nat → List Token → Option (Expression × List Token)
  | 0, _ => none
  | fuel + 1, tokens =>
    (parseFactor fuel tokens).bind fun parsed => parseAnds fuel parsed.1 parsed.2

/-- The rest of a conjunction after its first factors. -/
def parseAnds : Nat → Expression → List Token → Option (Expression × List Token)
  | 0, _, _ => none
  | _ + 1, left, [] => some (left, [])
  | fuel + 1, left, token :: rest =>
    if isAnd token then
      (parseFactor fuel rest).bind fun parsed =>
        parseAnds fuel (.and left parsed.1) parsed.2
    else some (left, token :: rest)

def parseFactor : Nat → List Token → Option (Expression × List Token)
  | 0, _ => none
  | _ + 1, [] => none
  | fuel + 1, token :: rest =>
    if token = .lparen then (parseConjunction fuel rest).bind closeParenthesis
    else parseLeaf (token :: rest)

end

def readExpression (expression : String) : Option Expression :=
  (tokensOf expression).bind fun tokens =>
    (parseConjunction (tokens.length + 2) tokens).bind fun parsed =>
      if parsed.2 = [] then some parsed.1 else none

/-! ## What an expression says of an item -/

/-- Two values are equal: of the same type, and numbers by the number they denote.  Lists and
maps are never operands here. -/
def sameAttribute : AttributeValue → AttributeValue → Bool
  | .s first, .s second => decide (first = second)
  | .n first, .n second =>
    decide ((decimalValue first).isSome = true ∧ decimalValue first = decimalValue second)
  | .bool first, .bool second => decide (first = second)
  | .null, .null => true
  | _, _ => false

section Evaluation

variable (names : InsertionMap String String) (values : InsertionMap String AttributeValue)
  (item : Option AttributeMap)

def attributeNamed (name : String) : Option AttributeValue :=
  item.bind fun attributes => InsertionMap.get? attributes name

/-- What an operand stands for; the outer `none` is a placeholder the request does not define, the
inner one an attribute that is not there. -/
def operandValue : Operand → Option (Option AttributeValue)
  | .name placeholder => (names.get? placeholder).map (attributeNamed item)
  | .value placeholder => (values.get? placeholder).map some

def sameOperand : Option AttributeValue → Option AttributeValue → Bool
  | some first, some second => sameAttribute first second
  | _, _ => false

def Expression.evaluate : Expression → Option Bool
  | .equals left right =>
    (operandValue names values item left).bind fun first =>
      (operandValue names values item right).map (sameOperand first)
  | .isIn left list =>
    (operandValue names values item left).bind fun first =>
      (list.mapM (operandValue names values item)).map fun found =>
        found.any (sameOperand first)
  | .attributeExists placeholder =>
    (names.get? placeholder).map fun name => (attributeNamed item name).isSome
  | .attributeNotExists placeholder =>
    (names.get? placeholder).map fun name => (attributeNamed item name).isNone
  | .and left right =>
    (left.evaluate).bind fun first => (right.evaluate).map (first && ·)

def expressionTrue (expression : String) : Prop :=
  ((readExpression expression).bind fun parsed => parsed.evaluate names values item) = some true

end Evaluation

end RefundStudy.Store
