import ArithTokens.Cursor

/-!
# What a cursor passes

* A cursor that eats the characters of a class passes the longest beginning of the text ahead that
  is of that class, and stands at the place after it (`eatWhile_eq`).
* Whatever it eats, it stands at the place after that (`eat_passes`), so that a cursor that has
  `Reached` a place of a text goes on to reach another (`Move.reached`, `reached_travel`).
-/

namespace ArithTokens.Cursor

/-- A cursor that has passed one character. -/
theorem advance_cons {cursor : Cursor} {c : Char} {cs : List Char} (ahead : cursor.ahead = c :: cs) :
    cursor.advance = (some c, { cursor with ahead := cs, place := cursor.place.step c }) := by
  rw [advance]
  split
  · rename_i none
    rw [ahead] at none
    cases none
  · rename_i d ds some
    rw [ahead, List.cons.injEq] at some
    obtain ⟨rfl, rfl⟩ := some
    rfl

theorem advance_nil {cursor : Cursor} (ahead : cursor.ahead = []) :
    cursor.advance = (none, cursor) := by
  rw [advance]
  split
  · rfl
  · rename_i some
    rw [ahead] at some
    cases some

/-! ### Equation lemmas

`eat` is defined by well-founded recursion; these are the equations that proofs work with. -/

variable {σ : Type} {accept : σ → Char → Option σ} {memory next : σ} {c : Char} {cs : List Char}
  {cursor : Cursor}

theorem eat_nil (ahead : cursor.ahead = []) : cursor.eat accept memory = ([], cursor) := by
  rw [eat]
  simp [current?, ahead]

theorem eat_cons_none (ahead : cursor.ahead = c :: cs) (refused : accept memory c = none) :
    cursor.eat accept memory = ([], cursor) := by
  rw [eat]
  simp [current?, ahead, refused]

theorem eat_cons_some (ahead : cursor.ahead = c :: cs) (accepted : accept memory c = some next) :
    cursor.eat accept memory =
      let past := eat accept next { cursor with ahead := cs, place := cursor.place.step c }
      (c :: past.1, past.2) := by
  rw [eat]
  simp only [current?, ahead, List.head?_cons, accepted]
  split
  · rename_i passed
    rw [advance_cons ahead] at passed
    cases passed
  · rename_i passed
    rw [advance_cons ahead, Prod.mk.injEq] at passed
    obtain ⟨-, rfl⟩ := passed
    rfl

/-- **Eating a class** passes all characters of it up to the first of another. -/
theorem eatWhile_eq (p : Char → Bool) (cursor : Cursor) :
    cursor.eatWhile p = (cursor.ahead.takeWhile p,
      { cursor with
        ahead := cursor.ahead.dropWhile p
        place := cursor.place.after (cursor.ahead.takeWhile p) }) := by
  obtain ⟨source, text, place⟩ := cursor
  induction text generalizing place with
  | nil => rw [eatWhile, eat_nil rfl, List.takeWhile_nil, List.dropWhile_nil, Place.after_nil]
  | cons c cs ih =>
    by_cases accepted : p c = true
    · have rest := ih (place.step c)
      rw [eatWhile] at rest
      rw [eatWhile, eat_cons_some rfl (if_pos accepted), rest]
      simp [accepted]
    · rw [eatWhile, eat_cons_none rfl (if_neg accepted)]
      simp [accepted]

/-! ### Moving on -/

/-- What a cursor eats stood ahead of it, and it stands behind that, whatever the predicate. -/
theorem eat_passes (accept : σ → Char → Option σ) (memory : σ) (cursor : Cursor) :
    cursor.ahead = (cursor.eat accept memory).1 ++ (cursor.eat accept memory).2.ahead ∧
      (cursor.eat accept memory).2.place = cursor.place.after (cursor.eat accept memory).1 ∧
      (cursor.eat accept memory).2.source = cursor.source := by
  obtain ⟨source, text, place⟩ := cursor
  induction text generalizing memory place with
  | nil =>
    rw [eat_nil rfl]
    exact ⟨rfl, rfl, rfl⟩
  | cons c cs ih =>
    rcases accepted : accept memory c with _ | next
    · rw [eat_cons_none rfl accepted]
      exact ⟨rfl, rfl, rfl⟩
    · obtain ⟨ahead, place, source⟩ := ih next (place.step c)
      rw [eat_cons_some rfl accepted]
      exact ⟨congrArg (c :: ·) ahead, place, source⟩

/-- What moves a cursor. Nothing else that it is asked does. -/
inductive Move : Type 1 where
  | advance
  /-- To eat by any predicate, also by one that remembers what it has seen. -/
  | eat {σ : Type} (accept : σ → Char → Option σ) (memory : σ)

/-- The cursor after a move. -/
def Move.run (cursor : Cursor) : Move → Cursor
  | .advance => cursor.advance.2
  | .eat accept memory => (cursor.eat accept memory).2

/-- The cursor after some moves, one after the other. -/
def travel (moves : List Move) (cursor : Cursor) : Cursor := moves.foldl Move.run cursor

theorem travel_append (moves more : List Move) (cursor : Cursor) :
    travel (moves ++ more) cursor = travel more (travel moves cursor) :=
  List.foldl_append

/-- Whether a cursor stands at a place of a text that is counted from its start. -/
structure Reached (text : List Char) (cursor : Cursor) : Prop where
  source_eq : cursor.source = text
  place : ∃ passed, text = passed ++ cursor.ahead ∧ cursor.place = Place.start.after passed

variable {text : List Char}

theorem reached_ofText (text : List Char) : Reached text (ofText text) := ⟨rfl, [], rfl, rfl⟩

/-- A cursor that moves by some characters reaches the place behind them. -/
theorem Reached.pass {past : Cursor} (word : List Char) (reached : Reached text cursor)
    (ahead : cursor.ahead = word ++ past.ahead) (place : past.place = cursor.place.after word)
    (source : past.source = cursor.source) : Reached text past := by
  obtain ⟨whole, passed, rfl, here⟩ := reached
  refine ⟨source.trans whole, passed ++ word, ?_, ?_⟩
  · rw [ahead, List.append_assoc]
  · rw [place, here, Place.after_append]

/-- **A move leads from one place of a text to another.** -/
theorem Move.reached (reached : Reached text cursor) (move : Move) :
    Reached text (move.run cursor) := by
  cases move with
  | advance =>
    rw [run]
    rcases ahead : cursor.ahead with _ | ⟨c, cs⟩
    · rwa [advance_nil ahead]
    · rw [advance_cons ahead]
      exact reached.pass [c] ahead rfl rfl
  | eat accept memory =>
    obtain ⟨ahead, place, source⟩ := eat_passes accept memory cursor
    exact reached.pass _ ahead place source

theorem reached_travel (reached : Reached text cursor) (moves : List Move) :
    Reached text (travel moves cursor) := by
  induction moves generalizing cursor with
  | nil => exact reached
  | cons move moves ih => exact ih (move.reached reached)

end ArithTokens.Cursor
