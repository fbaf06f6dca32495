import ArithTokens.Place
import ArithTokens.Token

/-!
# Scanning a text into tokens

A text is **blanks** and **lexemes**. A lexeme is a longest run of digits, a longest run of
letters, or any other single character; `joins c d` says that `d` belongs to the lexeme that `c`
started. Digits, letters and blanks are the ASCII ones: every other character is a lexeme of its
own.

* `scan` is the list of tokens of a text, each with its span;
* `tokenize` forgets the spans.
-/

namespace ArithTokens

/-- A token and where it stands. -/
structure Spanned where
  token : Token
  span : Span
deriving DecidableEq, Repr, Inhabited

namespace Scan

/-! ## Character classes -/

/-- The six blanks: space, tab, line feed, vertical tab, form feed and carriage return. -/
def isBlank (c : Char) : Bool :=
  c = ' ' || c = '\t' || c = '\n' || c = '\x0b' || c = '\x0c' || c = '\r'

/-- Whether a character belongs to the lexeme that another character started: digits join a
**digit**, letters join a **letter**, and nothing joins any other character. -/
def joins (first next : Char) : Bool :=
  (first.isDigit && next.isDigit) || (first.isAlpha && next.isAlpha)

/-! ## Scanning -/

theorem length_dropWhile_le (p : Char → Bool) (text : List Char) :
    (text.dropWhile p).length ≤ text.length :=
  (List.dropWhile_sublist p).length_le

/-- The tokens of a text that starts at `here`, with their spans. -/
def scanFrom (policy : Overflow) (here : Place) (text : List Char) : List Spanned :=
  match _ahead : text.dropWhile isBlank with
  | [] => []
  | c :: cs =>
    let first := here.after (text.takeWhile isBlank)
    let rest := cs.takeWhile (joins c)
    let past := first.after (c :: rest)
    ⟨.ofLexeme policy c rest, first.spanTo past⟩ ::
      scanFrom policy past (cs.dropWhile (joins c))
termination_by text.length
decreasing_by
  have shorter := length_dropWhile_le isBlank text
  have rest := length_dropWhile_le (joins c) cs
  rw [_ahead, List.length_cons] at shorter
  omega

end Scan

/-- The tokens of a text, with their spans. -/
def scan (policy : Overflow) (text : String) : List Spanned :=
  Scan.scanFrom policy .start text.toList

/-- The tokens of a text. -/
def tokenize (policy : Overflow) (text : String) : List Token :=
  (scan policy text).map Spanned.token

end ArithTokens
