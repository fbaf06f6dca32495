import ArithTokens.Text.Printable

/-!
# Quoted text

Quoted text stands between double quotes and holds **nothing that a reader cannot see**: quotes and
backslashes are escaped, and so is every character without a visible form of its own. A character
without a short escape is written by its code point in hexadecimal digits.
-/

namespace ArithTokens.Text

/-- How one character is written inside quotes. -/
def quoteChar (c : Char) : List Char :=
  match c with
  | '"' => ['\\', '"']
  | '\\' => ['\\', '\\']
  | '\n' => ['\\', 'n']
  | '\r' => ['\\', 'r']
  | '\t' => ['\\', 't']
  | '\x00' => ['\\', '0']
  | c => if isPrintable c then [c] else ['\\', 'u', '{'] ++ Nat.toDigits 16 c.toNat ++ ['}']

/-- A text between double quotes. -/
def quoted (text : String) : String :=
  String.ofList ('"' :: text.toList.flatMap quoteChar ++ ['"'])

end ArithTokens.Text
