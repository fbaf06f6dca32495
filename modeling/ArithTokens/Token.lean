import ArithTokens.Overflow

/-!
# Tokens of arithmetic expressions

* the **symbols** are the five operators, the two brackets and the comma, one character each;
* the **keywords** are the names of the four functions;
* a **number** carries its value, and what fits nowhere else is **unknown** and carries its text.

`Token.ofLexeme` is the token that a lexeme's text determines.
-/

namespace ArithTokens

/-- A token of an arithmetic expression. -/
inductive Token where
  | openingBracket
  | closingBracket
  | comma
  | plus
  | minus
  | multiply
  | divide
  | modulo
  | min
  | max
  | abs
  | sqr
  | number (value : UInt64)
  | unknown (text : String)
deriving DecidableEq, Repr, Inhabited

namespace Token

/-! ## Tables -/

/-- The token of a symbol. -/
def ofSymbol? : Char → Option Token
  | '+' => some .plus
  | '-' => some .minus
  | '*' => some .multiply
  | '/' => some .divide
  | '%' => some .modulo
  | '(' => some .openingBracket
  | ')' => some .closingBracket
  | ',' => some .comma
  | _ => none

/-- The token of a keyword. Keywords are written in lower case. -/
def ofKeyword? : String → Option Token
  | "abs" => some .abs
  | "min" => some .min
  | "max" => some .max
  | "sqr" => some .sqr
  | _ => none

/-- The token of a word: its keyword's, or else an unknown token of the whole word. -/
def ofWord (word : String) : Token := (ofKeyword? word).getD (.unknown word)

/-- The token that a lexeme determines, where `c` is the lexeme's first character and `rest` the
others. -/
def ofLexeme (policy : Overflow) (c : Char) (rest : List Char) : Token :=
  if c.isDigit then
    .number (policy.ofDigits (c :: rest))
  else
    match ofSymbol? c with
    | some token => token
    | none => ofWord (String.ofList (c :: rest))

/-! ## Names and kinds -/

/-- The name of a token's kind. -/
def name : Token → String
  | .openingBracket => "OpeningBracket"
  | .closingBracket => "ClosingBracket"
  | .comma => "Comma"
  | .plus => "Plus"
  | .minus => "Minus"
  | .multiply => "Multiply"
  | .divide => "Divide"
  | .modulo => "Modulo"
  | .min => "Min"
  | .max => "Max"
  | .abs => "Abs"
  | .sqr => "Sqr"
  | .number _ => "Number"
  | .unknown _ => "Unknown"

/-- The five operators. -/
def isOperator : Token → Bool
  | .plus | .minus | .multiply | .divide | .modulo => true
  | _ => false

/-- The four function names. -/
def isKeyword : Token → Bool
  | .min | .max | .abs | .sqr => true
  | _ => false

/-- The brackets and the comma. -/
def isPunctuation : Token → Bool
  | .openingBracket | .closingBracket | .comma => true
  | _ => false

/-- Whether a token is text that fits nowhere else. -/
def isUnknown : Token → Bool
  | .unknown _ => true
  | _ => false

/-- A token's line of text: its kind, and after a blank its value if it has one. -/
def describe : Token → String
  | .number value => "NumberToken " ++ value.toNat.repr
  | .unknown text => "UnknownToken " ++ text
  | token => token.name ++ "Token"

end Token

end ArithTokens
