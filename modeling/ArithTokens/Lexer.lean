import ArithTokens.Cursor
import ArithTokens.Scan

/-!
# Reading tokens one at a time

A lexer is a cursor and an overflow policy. `Lexer.next` skips the blanks ahead and reads one
lexeme; when there is none it has still passed the blanks. The lexer's value is all of its state,
so that keeping it is saving it, and reading from a kept one disturbs no other.
-/

namespace ArithTokens

/-- A source of tokens that is read one token at a time. -/
structure Lexer where
  cursor : Cursor
  policy : Overflow
deriving DecidableEq, Repr, Inhabited

namespace Lexer

/-- A lexer at the front of a text. -/
def ofText (policy : Overflow) (text : String) : Lexer := ⟨.ofText text.toList, policy⟩

/-- Reads the next token with its span, or passes the blanks that end the text. -/
def next (lexer : Lexer) : Option Spanned × Lexer :=
  let start := (lexer.cursor.eatWhile Scan.isBlank).2
  match start.advance with
  | (none, stop) => (none, { lexer with cursor := stop })
  | (some c, second) =>
    let (rest, past) := second.eatWhile (Scan.joins c)
    (some ⟨.ofLexeme lexer.policy c rest, start.place.spanTo past.place⟩,
      { lexer with cursor := past })

/-- Reads at most `n` tokens, and stops asking at the end of the text. -/
def take : Nat → Lexer → List Token × Lexer
  | 0, lexer => ([], lexer)
  | n + 1, lexer =>
    match lexer.next with
    | (none, stop) => ([], stop)
    | (some lexed, past) =>
      let (tokens, beyond) := take n past
      (lexed.token :: tokens, beyond)

/-- Skips `n` tokens and reads the next, and stops asking at the end of the text. -/
def nth : Nat → Lexer → Option Token × Lexer
  | 0, lexer =>
    let (lexed, past) := lexer.next
    (lexed.map Spanned.token, past)
  | n + 1, lexer =>
    match lexer.next with
    | (none, stop) => (none, stop)
    | (some _, past) => nth n past

/-! ## Reading to the end -/

theorem length_ahead_eat {σ : Type} (accept : σ → Char → Option σ) (memory : σ)
    (cursor : Cursor) : (cursor.eat accept memory).2.ahead.length ≤ cursor.ahead.length := by
  fun_induction Cursor.eat accept memory cursor with
  | case1 => exact Nat.le_refl _
  | case2 => exact Nat.le_refl _
  | case3 memory cursor c _ next _ past passed =>
    unfold Cursor.advance at passed
    split at passed
    · simp_all
    · simp at passed
  | case4 memory cursor c _ next _ d past passed cs beyond eaten ih =>
    have shorter := Cursor.length_ahead_advance passed
    rw [eaten] at ih
    exact Nat.le_trans ih (Nat.le_of_lt shorter)

/-- A token is made of at least one character. -/
theorem length_ahead_next {lexer past : Lexer} {lexed : Spanned}
    (h : lexer.next = (some lexed, past)) :
    past.cursor.ahead.length < lexer.cursor.ahead.length := by
  unfold next at h
  simp only at h
  split at h
  · simp at h
  · rename_i c second first
    have blanks := length_ahead_eat
      (fun (_ : Unit) c => if Scan.isBlank c then some () else none) () lexer.cursor
    have one := Cursor.length_ahead_advance first
    have rest := length_ahead_eat
      (fun (_ : Unit) d => if Scan.joins c d then some () else none) () second
    simp only [Prod.mk.injEq] at h
    obtain ⟨_, rfl⟩ := h
    simp only [Cursor.eatWhile] at *
    omega

/-- Reads all tokens that are left. -/
def rest (lexer : Lexer) : List Token × Lexer :=
  match _read : lexer.next with
  | (none, stop) => ([], stop)
  | (some lexed, past) =>
    let (tokens, beyond) := rest past
    (lexed.token :: tokens, beyond)
termination_by lexer.cursor.ahead.length
decreasing_by exact length_ahead_next _read

end Lexer

end ArithTokens
