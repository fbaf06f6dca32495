import ArithTokens.Chain.Traversal
import ArithTokens.Text.Quoted

/-!
# Writing chains out

A chain is written as its elements between square brackets, on **one line** or with **lines of its
own for each element**. `Listed` says how an element is written.
-/

namespace ArithTokens

/-- How an element of a chain is written. -/
class Listed (α : Type) where
  /-- The element's text. -/
  text : α → String

instance : Listed Int := ⟨fun n => n.repr⟩

instance : Listed String := ⟨Text.quoted⟩

/-- A value that is told apart by its key alone: the tag is carried along, and two values with one
key are **equal** whatever their tags. -/
structure Keyed where
  key : Int
  tag : String
deriving Repr

instance : BEq Keyed := ⟨fun a b => a.key == b.key⟩

instance : Listed Keyed := ⟨fun a => a.key.repr ++ ":" ++ a.tag⟩

namespace Chain

variable {α : Type} [Listed α]

/-- The elements on one line, divided by commas. -/
def listing (chain : Chain α) : String :=
  "[" ++ ", ".intercalate (chain.reader.rest.1.map Listed.text) ++ "]"

/-- A text with four blanks before each of its lines; `fresh` says that a line begins here. -/
def indent : (fresh : Bool) → List Char → List Char
  | _, [] => []
  | fresh, c :: cs => (if fresh then "    ".toList else []) ++ c :: indent (c == '\n') cs

/-- Each element on lines of its own, four blanks in, with a comma after it; the empty chain stays
on one line. -/
def longListing (chain : Chain α) : String :=
  if chain.isEmpty then
    "[]"
  else
    let lines := chain.reader.rest.1.flatMap fun a => (Listed.text a ++ ",\n").toList
    "[\n" ++ String.ofList (indent true lines) ++ "]"

end Chain

end ArithTokens
