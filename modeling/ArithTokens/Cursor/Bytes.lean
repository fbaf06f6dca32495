import ArithTokens.Place
import ArithTokens.Text.Decode

/-!
# A cursor over the bytes of a text

A byte cursor keeps its text and the place it has reached, and nothing of what lies ahead: it looks
for the next character among the **bytes** of the text. A byte below 128 is a character of its own.
Where another byte stands, and wherever a stretch of text is wanted, the text is **cut**; a cut
beyond its end, inside a character or from back to front is a bad one.

* `current`, `peek` and `atEnd` look ahead;
* `advance` passes one character, and `eatWhile` all those of which a predicate says yes, which may
  remember what it was asked before;
* `textSince` is the text passed since an earlier offset.
-/

namespace ArithTokens

/-- The ends of a cut that cannot be made. -/
structure BadCut where
  start : Nat
  stop : Nat
deriving DecidableEq, Repr

/-- A reader that stands at a place of a text. -/
structure ByteCursor where
  /-- The whole text. -/
  source : List Char
  /-- Where the cursor stands. -/
  place : Place
deriving DecidableEq, Repr, Inhabited

namespace ByteCursor

/-- A cursor at the front of a text. -/
def ofText (text : List Char) : ByteCursor := ⟨text, .start⟩

/-- The number of bytes passed. -/
def offset (cursor : ByteCursor) : Nat := cursor.place.offset

/-- The bytes of the whole text. -/
def bytes (cursor : ByteCursor) : List UInt8 := Text.encode cursor.source

/-- The text from byte `start` up to byte `stop`. -/
def cut (cursor : ByteCursor) (start stop : Nat) : Except BadCut (List Char) :=
  match Text.slice? start stop cursor.source with
  | some inside => .ok inside
  | none => .error ⟨start, stop⟩

/-- The text not yet passed. -/
def ahead (cursor : ByteCursor) : Except BadCut (List Char) :=
  cursor.cut cursor.offset cursor.bytes.length

/-- The next character. -/
def current (cursor : ByteCursor) : Except BadCut (Option Char) :=
  match cursor.bytes[cursor.offset]? with
  | none => .ok none
  | some b => if b < 128 then .ok (some (Char.ofNat b.toNat)) else cursor.ahead.map List.head?

/-- The character after `n` others. -/
def peek (cursor : ByteCursor) (n : Nat) : Except BadCut (Option Char) :=
  cursor.ahead.map fun chars => chars[n]?

/-- Whether the whole text has been passed. -/
def atEnd (cursor : ByteCursor) : Bool := decide (cursor.bytes.length ≤ cursor.offset)

/-- Passes the next character and gives it; at the end nothing changes. -/
def advance (cursor : ByteCursor) : Except BadCut (Option Char × ByteCursor) :=
  match cursor.current with
  | .error bad => .error bad
  | .ok none => .ok (none, cursor)
  | .ok (some c) => .ok (some c, { cursor with place := cursor.place.step c })

/-- The text passed since the cursor stood at byte `start`. -/
def textSince (cursor : ByteCursor) (start : Nat) : Except BadCut (List Char) :=
  cursor.cut start cursor.offset

/-! ## Eating -/

theorem offset_lt_of_current {cursor : ByteCursor} {c : Char}
    (found : cursor.current = .ok (some c)) : cursor.offset < cursor.bytes.length := by
  unfold current at found
  split at found
  · cases found
  · rename_i b byte
    exact (List.getElem?_eq_some_iff.mp byte).1

theorem advance_of_current {cursor : ByteCursor} {c : Char}
    (found : cursor.current = .ok (some c)) :
    cursor.advance = .ok (some c, { cursor with place := cursor.place.step c }) := by
  rw [advance, found]

/-- A character that is passed is at least one byte. -/
theorem left_lt_of_advance {cursor past : ByteCursor} {c : Char} {answer : Option Char}
    (found : cursor.current = .ok (some c)) (passed : cursor.advance = .ok (answer, past)) :
    past.bytes.length - past.offset < cursor.bytes.length - cursor.offset := by
  have room := offset_lt_of_current found
  have size := c.utf8Size_pos
  rw [advance_of_current found, Except.ok.injEq, Prod.mk.injEq] at passed
  obtain ⟨-, rfl⟩ := passed
  simp only [offset, bytes, Place.step_offset] at room ⊢
  omega

/-- Goes on eating after `count` characters. -/
def eatFrom {σ : Type} (accept : σ → Char → Bool × σ) (memory : σ) (count : Nat)
    (cursor : ByteCursor) : Except BadCut (Nat × σ × ByteCursor) :=
  match _found : cursor.current with
  | .error bad => .error bad
  | .ok none => .ok (count, memory, cursor)
  | .ok (some c) =>
    let (yes, next) := accept memory c
    if yes then
      match _passed : cursor.advance with
      | .error bad => .error bad
      | .ok (_, past) => eatFrom accept next (count + 1) past
    else
      .ok (count, next, cursor)
termination_by cursor.bytes.length - cursor.offset
decreasing_by exact left_lt_of_advance _found _passed

/-- Passes the characters of which `accept` says yes, up to the first of which it says no. It gives
how many these are and what the predicate remembers after all that it was asked. -/
def eatWhile {σ : Type} (accept : σ → Char → Bool × σ) (memory : σ) (cursor : ByteCursor) :
    Except BadCut (Nat × σ × ByteCursor) :=
  cursor.eatFrom accept memory 0

end ByteCursor

end ArithTokens
