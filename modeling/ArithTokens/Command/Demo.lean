import ArithTokens.Rendering

/-!
# A demonstration

The tokens of one fixed expression that has a token of most kinds.
-/

namespace ArithTokens.Command

/-- The expression that is shown. -/
def demoExpression : String := "(max(123, abs(456)) - sqr(7)) * 8 & 9"

/-- The transcript of the demonstration: a title, and a line for each token. -/
def demo : Transcript Unit :=
  let lines := (scan .wrapping demoExpression).map fun lexed => lexed.line false
  ⟨("Tokens:\n" :: lines).map fun text => .write ⟨text, false⟩, .ok ()⟩

end ArithTokens.Command
