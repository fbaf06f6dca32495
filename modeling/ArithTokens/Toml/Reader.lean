/-!
# Readers

A reader takes something off the front of a text, or fails and takes nothing. Readers are joined by
`do`; `p <|> q` reads as `q` does where `p` fails, and `optional p` reads nothing there.
-/

namespace ArithTokens.Toml

/-- A function that reads a value off the front of a text. -/
abbrev Reader := StateT (List Char) Option

namespace Reader

variable {α : Type}

/-- Reads one character of a class. -/
def one (accept : Char → Bool) : Reader Char := fun text =>
  match text with
  | [] => none
  | c :: rest => if accept c then some (c, rest) else none

/-- Reads this character. -/
def char (c : Char) : Reader Unit := do
  let _ ← one (· == c)

/-- Reads these characters, one after the other. -/
def word : List Char → Reader Unit
  | [] => pure ()
  | c :: cs => do
    char c
    word cs

/-- Takes as many as there are, one after the other, off the front of a text. A reader that takes
nothing is not asked again. -/
def manyFrom (p : Reader α) (text : List Char) : List α × List Char :=
  match p text with
  | none => ([], text)
  | some (a, rest) =>
    if _shorter : rest.length < text.length then
      let (as, beyond) := manyFrom p rest
      (a :: as, beyond)
    else
      ([], text)
termination_by text.length

/-- Reads as many as there are, one after the other. -/
def many (p : Reader α) : Reader (List α) := fun text => some (manyFrom p text)

/-- Reads all characters of a class. -/
def skip (accept : Char → Bool) : Reader Unit := fun text => some ((), text.dropWhile accept)

/-- Reads values divided by a character; there may be none. -/
def divided (divider : Char) (p : Reader α) : Reader (List α) :=
  (do
    let first ← p
    let rest ← many (do
      char divider
      p)
    return first :: rest) <|> pure []

/-- Reads values divided by a character; there is at least one. -/
def divided1 (divider : Char) (p : Reader α) : Reader (List α) := do
  let values ← divided divider p
  if values.isEmpty then failure else return values

/-- Reads exactly `n` characters of a class. -/
def exactly (accept : Char → Bool) : Nat → Reader (List Char)
  | 0 => pure []
  | n + 1 => do
    let c ← one accept
    let cs ← exactly accept n
    return c :: cs

/-- Succeeds where a text begins with these characters, and reads nothing. -/
def startsWith (cs : List Char) : Reader Bool := fun text => some (cs.isPrefixOf text, text)

/-- Succeeds at the end of the text only. -/
def atEnd : Reader Unit := fun text => if text.isEmpty then some ((), text) else none

/-- Reads as `p` does, and gives the characters that it read. -/
def spelling (p : Reader α) : Reader String := fun text =>
  match p text with
  | none => none
  | some (_, rest) => some (String.ofList (text.take (text.length - rest.length)), rest)

end Reader

end ArithTokens.Toml
