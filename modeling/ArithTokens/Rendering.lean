import ArithTokens.Json
import ArithTokens.Scan
import ArithTokens.Transcript

/-!
# Writing tokens out

Tokens are written as **text**, one line each, or as a **JSON** array of records on one line. Where
the tokens stand is written on request: as line and column before each line of text, as the four
parts of the span among the fields of each record.
-/

namespace ArithTokens

/-- The forms in which tokens are written. -/
inductive Format where
  | text
  | json
deriving DecidableEq, Repr, Inhabited

instance : Named Format where
  all := [.text, .json]
  name
    | .text => "text"
    | .json => "json"

/-- How tokens are written. -/
structure RenderOptions where
  format : Format := .text
  /-- Whether it is written where they stand. -/
  spans : Bool := false
deriving DecidableEq, Repr, Inhabited

namespace Token

/-- The value that a token carries, as a field of its record. -/
def valueFields : Token → Json.Record
  | .number value => [("value", .number value.toNat)]
  | .unknown text => [("value", .text text)]
  | _ => []

/-- A token's record: its kind, and its value if it has one. -/
def record (token : Token) : Json.Record := ("kind", .text token.name) :: token.valueFields

end Token

namespace Spanned

/-- A token's record with its span; the fields are in **alphabetical order**. -/
def record (lexed : Spanned) : Json.Record :=
  [("column", .number lexed.span.column.toNat), ("end", .number lexed.span.stop),
    ("kind", .text lexed.token.name), ("line", .number lexed.span.line.toNat),
    ("start", .number lexed.span.start)] ++ lexed.token.valueFields

/-- A token's line of text. -/
def line (spans : Bool) (lexed : Spanned) : String :=
  if spans then
    lexed.span.describe ++ "\t" ++ lexed.token.describe ++ "\n"
  else
    lexed.token.describe ++ "\n"

end Spanned

/-- The pieces of output for a list of tokens. -/
def render (options : RenderOptions) (tokens : List Spanned) : List Piece :=
  match options.format with
  | .text => tokens.map fun lexed => ⟨lexed.line options.spans, false⟩
  | .json =>
    let records := tokens.map fun lexed =>
      if options.spans then lexed.record else lexed.token.record
    [⟨Json.array records, true⟩, ⟨"\n", false⟩]

end ArithTokens
