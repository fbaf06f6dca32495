import ArithTokens.Place

/-!
# A cursor over a text

A cursor reads a text from front to back. It keeps the text **ahead** of it and the **place** it
has reached, and never goes back.

* `current?` and `peek?` look ahead;
* `advance` passes one character, `eat` all that a predicate accepts, which may remember what it
  has seen;
* `textSince?` is the text passed since an earlier offset.
-/

namespace ArithTokens

/-- A reader that stands at a place of a text. -/
structure Cursor where
  /-- The whole text. -/
  source : List Char
  /-- The characters not yet passed. -/
  ahead : List Char
  /-- Where the cursor stands. -/
  place : Place
deriving DecidableEq, Repr, Inhabited

namespace Cursor

/-- A cursor at the front of a text. -/
def ofText (text : List Char) : Cursor := ⟨text, text, .start⟩

/-- The number of bytes passed. -/
def offset (cursor : Cursor) : Nat := cursor.place.offset

/-- The next character. -/
def current? (cursor : Cursor) : Option Char := cursor.ahead.head?

/-- The character after `n` others. -/
def peek? (cursor : Cursor) (n : Nat) : Option Char := cursor.ahead[n]?

/-- Whether the whole text has been passed. -/
def atEnd (cursor : Cursor) : Bool := cursor.ahead.isEmpty

/-- Passes the next character and gives it; at the end nothing changes. -/
def advance (cursor : Cursor) : Option Char × Cursor :=
  match cursor.ahead with
  | [] => (none, cursor)
  | c :: cs => (some c, { cursor with ahead := cs, place := cursor.place.step c })

/-- Passes at most `n` characters and gives them. -/
def advanceMany : Nat → Cursor → List Char × Cursor
  | 0, cursor => ([], cursor)
  | n + 1, cursor =>
    match cursor.advance with
    | (none, past) => ([], past)
    | (some c, past) =>
      let (cs, beyond) := advanceMany n past
      (c :: cs, beyond)

theorem length_ahead_advance {cursor past : Cursor} {c : Char}
    (h : cursor.advance = (some c, past)) : past.ahead.length < cursor.ahead.length := by
  unfold advance at h
  split at h
  · simp at h
  · rename_i d ds ahead
    simp only [Prod.mk.injEq] at h
    obtain ⟨_, rfl⟩ := h
    simp [ahead]

/-- Passes the characters that `accept` takes, up to the first that it refuses, and gives them. The
predicate is asked **once per character, in order**, and hands what it remembers to the next
question. -/
def eat {σ : Type} (accept : σ → Char → Option σ) (memory : σ) (cursor : Cursor) :
    List Char × Cursor :=
  match cursor.current? with
  | none => ([], cursor)
  | some c =>
    match accept memory c with
    | none => ([], cursor)
    | some next =>
      match _passed : cursor.advance with
      | (none, past) => ([], past)
      | (some _, past) =>
        let (cs, beyond) := eat accept next past
        (c :: cs, beyond)
termination_by cursor.ahead.length
decreasing_by exact length_ahead_advance _passed

/-- Passes the characters of a class, up to the first of another, and gives them. -/
def eatWhile (accept : Char → Bool) (cursor : Cursor) : List Char × Cursor :=
  cursor.eat (fun (_ : Unit) c => if accept c then some () else none) ()

/-- Passes at most `n` characters by a predicate that counts its questions. -/
def eatCounted (n : Nat) (cursor : Cursor) : List Char × Cursor :=
  cursor.eat (fun left _ => match left with
    | 0 => none
    | k + 1 => some k) n

/-- The text passed since the cursor stood at byte `start`. There is none if `start` lies ahead of
the cursor or inside a character. -/
def textSince? (cursor : Cursor) (start : Nat) : Option (List Char) :=
  Text.slice? start cursor.offset cursor.source

end Cursor

end ArithTokens
