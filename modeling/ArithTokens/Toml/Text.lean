import ArithTokens.Toml.Reader

/-!
# Blanks, strings and keys of TOML

A string stands between double quotes, where a backslash **escapes**, or between single quotes,
where every character stands for itself. Three quotes instead of one let it go over several lines.
No string, key or comment holds a control character other than the tab.
-/

namespace ArithTokens.Toml

open Reader

/-! ## Blanks and comments -/

/-- Blanks within a line. -/
def isBlank (c : Char) : Bool := c == ' ' || c == '\t'

/-- Reads the blanks of a line. -/
def blanks : Reader Unit := skip isBlank

/-- Whether a character may stand in a comment: all but control characters, tabs apart. -/
def isPlain (c : Char) : Bool := c == '\t' || (0x20 ≤ c.toNat && c.toNat != 0x7f)

/-- Reads the end of a line. -/
def newline : Reader Unit := char '\n' <|> word ['\r', '\n']

/-- Reads a comment up to the end of its line. -/
def comment : Reader Unit := do
  char '#'
  skip isPlain

/-- Reads the rest of a line after a statement: blanks, and perhaps a comment. -/
def lineEnd : Reader Unit := do
  blanks
  let _ ← optional comment
  newline <|> atEnd

/-- Reads blanks, line ends and comments. -/
def padding : Reader Unit := do
  let _ ← many ((do let _ ← one isBlank) <|> newline <|> comment)

/-! ## Escapes -/

/-- The number that a hexadecimal digit stands for. -/
def hexValue (c : Char) : Nat :=
  if c.isDigit then c.toNat - 48
  else if c.toNat < 97 then c.toNat - 55
  else c.toNat - 87

/-- Whether a character is a hexadecimal digit. -/
def isHexDigit (c : Char) : Bool := c.isDigit || ('a' ≤ c && c ≤ 'f') || ('A' ≤ c && c ≤ 'F')

/-- Reads a character by its code point in `n` hexadecimal digits. -/
def codePoint (n : Nat) : Reader Char := do
  let digits ← exactly isHexDigit n
  let value := digits.foldl (fun value d => value * 16 + hexValue d) 0
  if value.isValidChar then return Char.ofNat value else failure

/-- Reads an escaped character. -/
def escape : Reader Char := do
  char '\\'
  match ← one fun _ => true with
  | 'b' => return '\x08'
  | 't' => return '\t'
  | 'n' => return '\n'
  | 'f' => return '\x0c'
  | 'r' => return '\r'
  | '"' => return '"'
  | '\\' => return '\\'
  | 'u' => codePoint 4
  | 'U' => codePoint 8
  | _ => failure

/-! ## Strings of one line -/

/-- Whether a character stands for itself between double quotes. -/
def isUnescaped (c : Char) : Bool := isPlain c && c != '"' && c != '\\'

/-- Reads a string between double quotes. -/
def basicString : Reader String := do
  char '"'
  let cs ← many (one isUnescaped <|> escape)
  char '"'
  return String.ofList cs

/-- Reads a string between single quotes. -/
def literalString : Reader String := do
  char '\x27'
  let cs ← many (one fun c => isPlain c && c != '\x27')
  char '\x27'
  return String.ofList cs

/-! ## Strings of several lines -/

/-- Reads a quote that does not begin the three that end the string. -/
def loneQuote (quote : Char) : Reader Char := do
  if ← startsWith [quote, quote, quote] then failure
  one (· == quote)

/-- Reads the quotes that end a string; up to two before the last three belong to it. -/
def closing (quote : Char) : Reader (List Char) := do
  let extra : List Char ←
    if ← startsWith (List.replicate 5 quote) then exactly (· == quote) 2
    else if ← startsWith (List.replicate 4 quote) then exactly (· == quote) 1
    else pure []
  word [quote, quote, quote]
  return extra

/-- Reads a backslash that stands before the end of a line: it takes the line end away, and all
blanks and line ends after it. -/
def continuation : Reader Unit := do
  char '\\'
  blanks
  newline
  let _ ← many ((do let _ ← one isBlank) <|> newline)

/-- Reads a line end of a string; however it is written, the string holds a line feed. -/
def lineFeed : Reader Char := do
  newline
  return '\n'

/-- Reads a string between three double quotes. -/
def longBasicString : Reader String := do
  word ['"', '"', '"']
  let _ ← optional newline
  let parts ← many (
    (do return [← one isUnescaped]) <|> (do continuation; return []) <|> (do return [← escape]) <|>
      (do return [← lineFeed]) <|> (do return [← loneQuote '"']))
  let extra ← closing '"'
  return String.ofList (parts.flatten ++ extra)

/-- Reads a string between three single quotes. -/
def longLiteralString : Reader String := do
  word ['\x27', '\x27', '\x27']
  let _ ← optional newline
  let cs ← many (one (fun c => isPlain c && c != '\x27') <|> lineFeed <|> loneQuote '\x27')
  let extra ← closing '\x27'
  return String.ofList (cs ++ extra)

/-- Reads a string. -/
def string : Reader String :=
  longBasicString <|> basicString <|> longLiteralString <|> literalString

/-! ## Keys -/

/-- Whether a character may stand in a key without quotes. -/
def isBare (c : Char) : Bool := c.isAlphanum || c == '-' || c == '_'

/-- Reads a key of one part. -/
def simpleKey : Reader String :=
  basicString <|> literalString <|> do
    let first ← one isBare
    let rest ← many (one isBare)
    return String.ofList (first :: rest)

/-- Values and keys are nested less deeply than this. -/
def deepest : Nat := 80

/-- Reads a key: parts divided by dots, with blanks around each. -/
def key : Reader (List String) := do
  let parts ← divided1 '.' (do
    blanks
    let part ← simpleKey
    blanks
    return part)
  if parts.length < deepest then return parts else failure

end ArithTokens.Toml
