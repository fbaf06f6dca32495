import ArithTokens.Lexer

/-!
# Sessions with a lexer

A session reads from one lexer and may keep a copy of it to go back to. Each step gives one answer;
a **fork** reads to the end from a copy, so that the lexer itself does not move.
-/

namespace ArithTokens.Lexer

/-- A lexer in use, and the copy kept last. -/
structure Session where
  lexer : Lexer
  kept : Option Lexer
deriving Repr

/-- What is asked of a session. -/
inductive Step where
  | next
  | nextSpanned
  | nth (n : Nat)
  | take (n : Nat)
  | rest
  | fork
  | save
  | restore
  | policy
  | look
deriving Repr

/-- What a step gives. -/
inductive Reply where
  | nothing
  | token (token : Option Token)
  | spanned (lexed : Option Spanned)
  | tokens (tokens : List Token)
  | restored (there : Bool)
  | policy (policy : Overflow)
deriving Repr

namespace Session

/-- A session at the front of a text, with nothing kept. -/
def ofText (policy : Overflow) (text : String) : Session := ⟨.ofText policy text, none⟩

/-- Takes one step. -/
def step (session : Session) : Step → Reply × Session
  | .next =>
    let (lexed, past) := session.lexer.next
    (.token (lexed.map Spanned.token), { session with lexer := past })
  | .nextSpanned =>
    let (lexed, past) := session.lexer.next
    (.spanned lexed, { session with lexer := past })
  | .nth n =>
    let (token, past) := session.lexer.nth n
    (.token token, { session with lexer := past })
  | .take n =>
    let (tokens, past) := session.lexer.take n
    (.tokens tokens, { session with lexer := past })
  | .rest =>
    let (tokens, past) := session.lexer.rest
    (.tokens tokens, { session with lexer := past })
  | .fork => (.tokens session.lexer.rest.1, session)
  | .save => (.nothing, { session with kept := some session.lexer })
  | .restore =>
    match session.kept with
    | none => (.restored false, session)
    | some lexer => (.restored true, { session with lexer })
  | .policy => (.policy session.lexer.policy, session)
  | .look => (.nothing, session)

end Session

end ArithTokens.Lexer
