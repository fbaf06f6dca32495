import ArithTokens.Toml.Scalar
import ArithTokens.Toml.Table

/-!
# TOML documents

A document is a list of **statements**, each on lines of its own: a value under a key, the header
of a table, or the header of one more table of an array. The values after a header belong to its
table. `parse?` reads a document, and fails on every text that is none.
-/

namespace ArithTokens.Toml

open Reader

/-! ## Values -/

/-- Reads an array, whose values are read by `item`. Blanks, line ends and comments may stand
around them, and a comma may follow the last. -/
def array (item : Reader Value) : Reader Value := do
  char '['
  let values ← divided ',' (do
    padding
    let value ← item
    padding
    return value)
  if !values.isEmpty then
    let _ ← optional (char ',')
  padding
  char ']'
  return .array values

/-- Reads a value under a key. -/
def pair (item : Reader Value) : Reader (List String × Value) := do
  let path ← key
  char '='
  blanks
  return (path, ← item)

/-- Reads a table that is written as a value, on one line. -/
def inlineTable (item : Reader Value) : Reader Value := do
  char '{'
  let pairs ← divided ',' (do
    let entry ← pair item
    blanks
    return entry)
  blanks
  char '}'
  match Items.addPairs pairs [] with
  | some items => return .table (finishEntries items)
  | none => failure

/-- Reads a value that holds others to at most this depth. -/
def valueTo : Nat → Reader Value
  | 0 => scalar
  | depth + 1 => scalar <|> array (valueTo depth) <|> inlineTable (valueTo depth)

/-- Reads a value. -/
def value : Reader Value := valueTo (deepest - 1)

/-! ## Statements -/

/-- A statement of a document. -/
inductive Statement where
  | pair (path : List String) (value : Value)
  | header (path : List String)
  | rowHeader (path : List String)

/-- Reads a header. -/
def header : Reader Statement := do
  if ← startsWith ['[', '['] then
    word ['[', '[']
    let path ← key
    word [']', ']']
    return .rowHeader path
  else
    char '['
    let path ← key
    char ']'
    return .header path

/-- Reads a line of a document: a statement, or a line without one. -/
def line : Reader (Option Statement) := do
  blanks
  (do newline; return none) <|>
    (do comment; lineEnd; return none) <|>
    (do let statement ← header; lineEnd; return some statement) <|>
    (do let (path, value) ← pair value; lineEnd; return some (.pair path value))

/-- Reads all statements of a document. -/
def statements : Reader (List Statement) := do
  let lines ← many line
  blanks
  atEnd
  return lines.filterMap id

/-! ## Documents -/

/-- The values that follow a header, up to the next one, and the statements from there on. -/
def takePairs : List Statement → List (List String × Value) × List Statement
  | .pair path value :: rest =>
    let (pairs, others) := takePairs rest
    ((path, value) :: pairs, others)
  | others => ([], others)

theorem length_takePairs (statements : List Statement) :
    (takePairs statements).2.length ≤ statements.length := by
  induction statements with
  | nil => exact Nat.le_refl _
  | cons statement rest ih =>
    cases statement with
    | pair path value => exact Nat.le_succ_of_le ih
    | header path => exact Nat.le_refl _
    | rowHeader path => exact Nat.le_refl _

/-- Adds the tables of all headers with their values. -/
def addSections (statements : List Statement) (items : Items) : Option Items :=
  match statements with
  | [] => some items
  | .pair _ _ :: _ => none
  | .header path :: rest => do
    addSections (takePairs rest).2 (← items.addTable path (takePairs rest).1)
  | .rowHeader path :: rest => do
    addSections (takePairs rest).2 (← items.addRow path (takePairs rest).1)
termination_by statements.length
decreasing_by all_goals exact Nat.lt_succ_of_le (length_takePairs rest)

/-- The table that statements describe. -/
def assemble (statements : List Statement) : Option Entries := do
  let (pairs, others) := takePairs statements
  let items ← addSections others (← Items.addPairs pairs [])
  return finishEntries items

/-- The mark that may stand before a text to show how it is encoded. -/
def byteOrderMark : Char := '\uFEFF'

/-- The table that a document describes. -/
def parse? (text : List Char) : Option Entries := do
  let body := if text.head? = some byteOrderMark then text.drop 1 else text
  let (read, _) ← statements body
  assemble read

end ArithTokens.Toml
