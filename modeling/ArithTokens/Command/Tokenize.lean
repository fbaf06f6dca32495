import ArithTokens.Feed
import ArithTokens.Rendering

/-!
# The tokens of one expression

The expression is given outright, or stands in a file, or is all of the input; the first of these
that is given counts. Bytes that are no text become the replacement character.
-/

namespace ArithTokens.Command

/-- How tokens are read and written. -/
structure Settings where
  render : RenderOptions := {}
  policy : Overflow := .wrapping
deriving DecidableEq, Repr

/-- The transcript of one expression's tokens. -/
def tokenizeText (settings : Settings) (source : String) : Transcript Unit :=
  let tokens := scan settings.policy source
  let unknown := tokens.countP (·.token.isUnknown)
  let summary : LogEntry :=
    .tokenizedInput (Text.byteSize source.toList) tokens.length unknown settings.policy
  ⟨.note summary :: (render settings.render tokens).map .write, .ok ()⟩

variable {m : Type → Type} [Monad m] [FileAccess m]

/-- The text of the expression: as given, or else of the file, or else of the input. -/
def readExpression (expr file : Option String) (feed : Feed) : m (Except Problem String) :=
  match expr, file with
  | some text, _ => pure (.ok text)
  | none, some path => do
    match ← FileAccess.read (Path.ofString path) with
    | .ok bytes => pure (.ok (String.ofList (Text.decodeLossy bytes)))
    | .error cause => pure (.error (.unreadable path cause))
  | none, none =>
    match feed.readAll with
    | .ok bytes => pure (.ok (String.ofList (Text.decodeLossy bytes)))
    | .error cause => pure (.error (.stream cause))

/-- Reads the expression and writes its tokens. -/
def tokenize (settings : Settings) (expr file : Option String) (feed : Feed) :
    m (Transcript Unit) := do
  match ← readExpression expr file feed with
  | .ok source => pure (tokenizeText settings source)
  | .error problem => pure ⟨[], .error problem⟩

end ArithTokens.Command
