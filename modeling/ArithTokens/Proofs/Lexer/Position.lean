import ArithTokens.Proofs.Cursor
import ArithTokens.Proofs.Lexer.Pool
import ArithTokens.Proofs.Place

/-!
# Lines and columns are true

Lines and columns are counted while a text is read, in words of 32 bits. They are what the text
itself tells: every place that a cursor or a lexer reaches is **exact**, and so is the place where a
token starts.

* cursors reach places by their moves (`Cursor.reached_travel`), lexers by the steps of a session
  (`follows_play`);
* `positions_exact` says the rest of all of them.
-/

namespace ArithTokens

namespace Lexer

open Cursor (Move travel)

variable {policy : Overflow} {text : String}

/-- What a session is asked, its track is asked, too. -/
theorem follows_play (policy : Overflow) (text : String) (asked : List Step) :
    Follows policy text (play (Track.step policy (scan policy text)) .start asked)
      (play Session.step (.ofText policy text) asked) := by
  induction asked using List.reverseRecOn with
  | nil => exact Follows.ofText policy text
  | append_singleton asked last ih =>
    rw [play, play, List.foldl_append, List.foldl_append]
    exact (ih.step last).2

/-- The copy that a session keeps is a lexer of its text, too. -/
theorem Follows.exists_kept {track : Track} {session : Session} {lexer : Lexer}
    (follows : Follows policy text track session) (mem : lexer ∈ session.kept) :
    ∃ mark, Stands policy text mark lexer := by
  obtain ⟨here, marks⟩ := track
  obtain ⟨reader, kept⟩ := session
  obtain rfl : kept = some lexer := mem
  cases follows.kept with
  | some stands => exact ⟨_, stands⟩

/-- A lexer at any mark stands at an exact place. -/
theorem Stands.exact {mark : Mark} {lexer : Lexer} (stands : Stands policy text mark lexer)
    (short : text.toList.length < UInt32.size - 1) : lexer.cursor.place.Exact text.toList := by
  obtain ⟨passed, chars, place⟩ := stands.place
  rw [place]
  exact Place.exact_after chars short

/-- **Lines and columns are exact**, in every text that is short enough for words of 32 bits: where
a cursor stands after any moves, where a lexer and the copy kept of it stand after any steps, and
where each token of the text starts. -/
theorem positions_exact (text : String) (short : text.toList.length < UInt32.size - 1) :
    (∀ moves : List Move, (travel moves (.ofText text.toList)).place.Exact text.toList) ∧
    (∀ (policy : Overflow) (asked : List Step),
      let session := play Session.step (.ofText policy text) asked
      session.lexer.cursor.place.Exact text.toList ∧
        ∀ lexer ∈ session.kept, lexer.cursor.place.Exact text.toList) ∧
    ∀ policy : Overflow, ∀ lexed ∈ scan policy text, lexed.span.place.Exact text.toList := by
  refine ⟨?_, ?_, ?_⟩
  · intro moves
    obtain ⟨-, passed, chars, place⟩ :=
      Cursor.reached_travel (Cursor.reached_ofText text.toList) moves
    rw [place]
    exact Place.exact_after chars short
  · intro policy asked session
    have follows := follows_play policy text asked
    refine ⟨follows.lexer.exact short, fun lexer mem => ?_⟩
    obtain ⟨mark, stands⟩ := follows.exists_kept mem
    exact stands.exact short
  · intro policy lexed mem
    obtain ⟨before, word, behind, chars, -, span⟩ := Scan.exists_of_mem_scanFrom mem
    rw [span]
    rw [List.append_assoc] at chars
    exact Place.exact_after chars short

/-- A line feed among the blanks, and a character of two bytes on the line behind it. -/
theorem positions_exact_second_line :
    let text := "\t\r\n é7"
    let eaten := travel [.eat (fun left c => if c = '7' then none else some (left + 1)) 0]
      (.ofText text.toList)
    let session := play Session.step (.ofText .wrapping text) [.next, .save, .rest]
    text.toList.length < UInt32.size - 1 ∧
      (eaten.place = ⟨6, 2, 3⟩ ∧ eaten.place.Exact text.toList) ∧
      (session.lexer.cursor.place = ⟨7, 2, 4⟩ ∧ session.lexer.cursor.place.Exact text.toList) ∧
      ∃ lexed ∈ scan .wrapping text, lexed.span.place = ⟨4, 2, 2⟩ ∧
        lexed.span.place.Exact text.toList := by
  intro text eaten session
  have short : text.toList.length < UInt32.size - 1 := by decide
  obtain ⟨cursors, sessions, tokens⟩ := positions_exact text short
  have first : ⟨.unknown "é", ⟨4, 6, 2, 2⟩⟩ ∈ scan .wrapping text := by decide +kernel
  have place : eaten.place = ⟨6, 2, 3⟩ := by decide +kernel
  have atEnd : session.lexer.cursor.place = ⟨7, 2, 4⟩ := by decide +kernel
  exact ⟨short, ⟨place, cursors _⟩, ⟨atEnd, (sessions _ _).1⟩, _, first, rfl, tokens _ _ first⟩

end Lexer

end ArithTokens
