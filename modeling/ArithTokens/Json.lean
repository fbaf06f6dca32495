/-!
# Flat JSON records

The program writes JSON arrays of **flat records**: objects whose values are numbers and strings.
They are written in compact form, without a blank between the parts. Strings keep every character
as it is but for quotes, backslashes and the characters below the blank.
-/

namespace ArithTokens.Json

/-- A value of a flat record. -/
inductive Scalar where
  | number (value : Nat)
  | text (value : String)
deriving DecidableEq, Repr

/-- The named values of a record, in the order in which they are written. -/
abbrev Record := List (String × Scalar)

/-- A digit of a hexadecimal number. -/
def hexDigit (n : Nat) : Char := Nat.digitChar (n % 16)

/-- How one character is written inside a string: quotes, backslashes and the control characters
below the blank are **escaped**, in the short form where there is one. -/
def escapeChar (c : Char) : List Char :=
  match c with
  | '"' => ['\\', '"']
  | '\\' => ['\\', '\\']
  | '\x08' => ['\\', 'b']
  | '\x0c' => ['\\', 'f']
  | '\n' => ['\\', 'n']
  | '\r' => ['\\', 'r']
  | '\t' => ['\\', 't']
  | c =>
    if c.toNat < 0x20 then
      ['\\', 'u', '0', '0', hexDigit (c.toNat / 16), hexDigit c.toNat]
    else
      [c]

/-- A string between its quotes. -/
def string (text : String) : String :=
  String.ofList ('"' :: text.toList.flatMap escapeChar ++ ['"'])

/-- A value of a record. -/
def Scalar.write : Scalar → String
  | .number value => value.repr
  | .text value => string value

/-- A record, as an object. -/
def Record.write (record : Record) : String :=
  "\x7b" ++ ",".intercalate (record.map fun (key, value) => string key ++ ":" ++ value.write) ++
    "\x7d"

/-- A list of records, as an array of objects. -/
def array (records : List Record) : String :=
  "[" ++ ",".intercalate (records.map Record.write) ++ "]"

end ArithTokens.Json
