import ArithTokens.Command.Tokenize

/-!
# The tokens of each line

Every line of the input is an expression of its own. An empty line of output divides the tokens of
one line from those of the next.
-/

namespace ArithTokens.Command

/-- The tokens of one line. -/
def lineTokens (policy : Overflow) (line : List UInt8) : List Spanned :=
  scan policy (String.ofList (Text.decodeLossy line))

/-- What is done with one line, where `before` lines came before it. -/
def replLine (settings : Settings) (before : Nat) (line : List UInt8) : List Event :=
  let tokens := lineTokens settings.policy line
  let divider : List Event := if before = 0 then [] else [.write ⟨"\n", false⟩]
  divider ++ .note (.tokenizedLine (before + 1) tokens.length) ::
    (render settings.render tokens).map .write

/-- What is done with the lines of an input, one after the other. -/
def replLines (settings : Settings) : Nat → List (List UInt8) → List Event
  | _, [] => []
  | before, line :: lines =>
    replLine settings before line ++ replLines settings (before + 1) lines

/-- The transcript of an input read line by line. It gives the number of lines. -/
def repl (settings : Settings) (feed : Feed) : Transcript Nat :=
  let lines := feed.lines
  ⟨replLines settings 0 lines,
    if feed.breaks then .error (.stream .readFailed) else .ok lines.length⟩

end ArithTokens.Command
