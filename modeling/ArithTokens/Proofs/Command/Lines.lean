import ArithTokens.Proofs.Command.Repl

/-!
# The lines that are read

What the lines of an input are is said by its form alone: a line is **ended** by a line feed, or by
a carriage return and a line feed, and behind the last of these may stand a **rest** without a line
feed (`Feed.Ended`).

* `exists_ended` finds that form in all bytes, and `splitLines_ended` finds its parts again, so that
  bytes have it in one way only;
* `repl_lines` is what is read and written of an input, whether it ends or breaks.
-/

namespace ArithTokens

namespace Feed

variable {bytes line rest front : List UInt8} {bodies : List (List UInt8)}

/-- Whether bytes are these lines, each with its ending. A carriage return in front of a line feed
belongs to the ending; one in front of that one does not. -/
inductive Ended : List UInt8 → List (List UInt8) → Prop where
  | nil : Ended [] []
  | feed {line bytes : List UInt8} {bodies : List (List UInt8)} (plain : lineFeed ∉ line)
      (bare : line.getLast? ≠ some carriageReturn) (more : Ended bytes bodies) :
      Ended (line ++ lineFeed :: bytes) (line :: bodies)
  | returnFeed {line bytes : List UInt8} {bodies : List (List UInt8)} (plain : lineFeed ∉ line)
      (more : Ended bytes bodies) :
      Ended (line ++ carriageReturn :: lineFeed :: bytes) (line :: bodies)

theorem stripReturn_of_bare (bare : line.getLast? ≠ some carriageReturn) :
    stripReturn line = line :=
  if_neg bare

theorem stripReturn_concat (line : List UInt8) : stripReturn (line ++ [carriageReturn]) = line := by
  rw [stripReturn, if_pos List.getLast?_concat, List.dropLast_concat]

/-- A line with its line feed, in front of lines that are ended. -/
theorem Ended.cons (plain : lineFeed ∉ line) (ended : Ended bytes bodies) :
    Ended (line ++ lineFeed :: bytes) (stripReturn line :: bodies) := by
  rcases stripReturn_append line with same | split
  · by_cases bare : line.getLast? = some carriageReturn
    · -- A line that ends with a carriage return would be shorter without it.
      obtain ⟨body, rfl⟩ := List.getLast?_eq_some_iff.mp bare
      rw [stripReturn_concat] at same
      simp at same
    · rw [same]
      exact .feed plain bare ended
  · have plain' : lineFeed ∉ stripReturn line := by
      intro mem
      rw [split] at plain
      exact plain (List.mem_append_left _ mem)
    have ended' := Ended.returnFeed plain' ended
    rwa [List.append_cons, ← split] at ended'

/-- **All bytes are ended lines and a rest.** -/
theorem exists_ended (bytes : List UInt8) :
    ∃ front bodies rest, bytes = front ++ rest ∧ Ended front bodies ∧ lineFeed ∉ rest := by
  induction bytes using lineInduction with
  | last rest plain => exact ⟨[], [], rest, rfl, .nil, plain⟩
  | line line bytes plain ih =>
    obtain ⟨front, bodies, rest, rfl, ended, plain'⟩ := ih
    exact ⟨line ++ lineFeed :: front, stripReturn line :: bodies, rest, by simp, ended.cons plain,
      plain'⟩

/-- **Ended lines and a rest are found again.** -/
theorem splitLines_ended (ended : Ended front bodies) (plain : lineFeed ∉ rest) :
    (splitLines (front ++ rest)).1.map stripReturn = bodies ∧
      (splitLines (front ++ rest)).2 = rest := by
  induction ended with
  | nil =>
    rw [List.nil_append, splitLines_of_not_mem plain]
    exact ⟨rfl, rfl⟩
  | @feed line bytes bodies plain bare _ ih =>
    have found := splitLines_line plain (bytes ++ rest)
    rw [List.append_assoc, List.cons_append, found, List.map_cons, stripReturn_of_bare bare]
    exact ⟨congrArg _ ih.1, ih.2⟩
  | @returnFeed line bytes bodies plain _ ih =>
    have plain' : lineFeed ∉ line ++ [carriageReturn] := by
      rw [List.mem_append, not_or]
      exact ⟨plain, by decide⟩
    have found := splitLines_line plain' (bytes ++ rest)
    rw [List.append_assoc, List.cons_append, List.cons_append, List.append_cons, found,
      List.map_cons, stripReturn_concat]
    exact ⟨congrArg _ ih.1, ih.2⟩

/-- Bytes are ended lines and a rest in one way only. -/
theorem ended_unique {front' rest' : List UInt8} {bodies' : List (List UInt8)}
    (ended : Ended front bodies) (plain : lineFeed ∉ rest) (ended' : Ended front' bodies')
    (plain' : lineFeed ∉ rest') (same : front ++ rest = front' ++ rest') :
    front' = front ∧ bodies' = bodies ∧ rest' = rest := by
  obtain ⟨lines, last⟩ := splitLines_ended ended plain
  obtain ⟨lines', last'⟩ := splitLines_ended ended' plain'
  rw [← same] at lines' last'
  obtain rfl := last.symm.trans last'
  exact ⟨(List.append_cancel_right same).symm, lines'.symm.trans lines, rfl⟩

/-- The lines of an input are the ended ones, and the rest if there is any and nothing breaks. -/
theorem lines_ended (ended : Ended front bodies) (plain : lineFeed ∉ rest) (breaks : Bool) :
    lines ⟨front ++ rest, breaks⟩ = bodies ++ if rest = [] ∨ breaks = true then [] else [rest] := by
  obtain ⟨found, last⟩ := splitLines_ended ended plain
  simp only [lines, found, last]
  cases rest <;> cases breaks <;> simp

/-- Each line feed ends a line. -/
theorem count_ended (ended : Ended front bodies) : front.count lineFeed = bodies.length := by
  induction ended with
  | nil => rfl
  | feed plain bare more ih =>
    rw [List.count_append, List.count_cons_self, List.count_eq_zero.mpr plain, ih, Nat.zero_add,
      List.length_cons]
  | returnFeed plain more ih =>
    rw [List.count_append, List.count_cons_of_ne (by decide), List.count_cons_self,
      List.count_eq_zero.mpr plain, ih, Nat.zero_add, List.length_cons]

/-- Ended lines, if there are any, end with a line feed. -/
theorem getLast?_ended (ended : Ended front bodies) : ∀ b ∈ front.getLast?, b = lineFeed := by
  induction ended with
  | nil => simp
  | @feed line bytes bodies _ _ _ ih | @returnFeed line bytes bodies _ _ ih =>
    rcases bytes with _ | ⟨b, bytes⟩
    · simp
    · simpa [List.getLast?_append] using ih

/-- **The number of lines** is that of the line feeds, and one more if bytes stand behind the last
of them. -/
theorem length_lines (bytes : List UInt8) :
    (lines ⟨bytes, false⟩).length =
      bytes.count lineFeed + if bytes = [] ∨ bytes.getLast? = some lineFeed then 0 else 1 := by
  obtain ⟨front, bodies, rest, rfl, ended, plain⟩ := exists_ended bytes
  rw [lines_ended ended plain, List.count_append, count_ended ended, List.count_eq_zero.mpr plain,
    List.length_append]
  rcases List.eq_nil_or_concat rest with rfl | ⟨others, b, rfl⟩
  · have ends : front = [] ∨ front.getLast? = some lineFeed := by
      rcases last : front.getLast? with _ | b
      · exact Or.inl (List.getLast?_eq_none_iff.mp last)
      · exact Or.inr (congrArg some (getLast?_ended ended b last))
    simp [ends]
  · have other : b ≠ lineFeed := by
      rintro rfl
      simp at plain
    simp [other]

end Feed

namespace Command

open Feed (lineFeed Ended)
open Text (decodeLossy)

/-- What is written of one line. -/
def block (settings : Settings) (line : List UInt8) : List UInt8 :=
  rendered settings.render (scan settings.policy (String.ofList (decodeLossy line)))

theorem taken_repl_block (settings : Settings) (feed : Feed) :
    ((repl settings feed).deliver none).taken =
      [lineFeed].intercalate (feed.lines.map (block settings)) := by
  rw [taken_repl, List.map_map]
  rfl

theorem outcome_repl (settings : Settings) (feed : Feed) :
    ((repl settings feed).deliver none).outcome =
      if feed.breaks then .error (.stream .readFailed) else .ok feed.lines.length :=
  (Event.deliver_none _ _).2

/-- **An input is read line by line**, whatever its bytes and however it is written. The bytes are
ended lines and a rest, in one way only.

* If the input ends there, the blocks of all lines are written with a line feed between two of them,
  and the lines are counted. The rest is a line if there is any of it.
* If the input breaks there, this is the problem, and what is written is what is written of the
  ended lines alone. -/
theorem repl_lines (settings : Settings) (bytes : List UInt8) :
    ∃ front bodies rest, (bytes = front ++ rest ∧ Ended front bodies ∧ lineFeed ∉ rest) ∧
      (∀ front' bodies' rest', bytes = front' ++ rest' → Ended front' bodies' →
        lineFeed ∉ rest' → front' = front ∧ bodies' = bodies ∧ rest' = rest) ∧
      (let lines := bodies ++ if rest = [] then [] else [rest];
        ((repl settings ⟨bytes, false⟩).deliver none).taken =
            [lineFeed].intercalate (lines.map (block settings)) ∧
          ((repl settings ⟨bytes, false⟩).deliver none).outcome = .ok lines.length ∧
          lines.length = bytes.count lineFeed +
            if bytes = [] ∨ bytes.getLast? = some lineFeed then 0 else 1) ∧
      ((repl settings ⟨bytes, true⟩).deliver none).taken =
          ((repl settings ⟨front, false⟩).deliver none).taken ∧
        ((repl settings ⟨bytes, true⟩).deliver none).outcome = .error (.stream .readFailed) := by
  obtain ⟨front, bodies, rest, rfl, ended, plain⟩ := Feed.exists_ended bytes
  have whole := Feed.lines_ended ended plain false
  simp only [Bool.false_eq_true, or_false] at whole
  have cut : Feed.lines ⟨front ++ rest, true⟩ = Feed.lines ⟨front, false⟩ := by
    have alone := Feed.lines_ended ended (List.not_mem_nil (a := lineFeed)) false
    rw [List.append_nil] at alone
    rw [Feed.lines_ended ended plain true, alone]
    simp
  refine ⟨front, bodies, rest, ⟨rfl, ended, plain⟩, ?_, ⟨?_, ?_, ?_⟩, ?_, outcome_repl _ _⟩
  · intro front' bodies' rest' same ended' plain'
    exact Feed.ended_unique ended plain ended' plain' same
  · rw [taken_repl_block, whole]
  · rw [outcome_repl, whole]
    rfl
  · rw [← whole, Feed.length_lines]
  · rw [taken_repl_block, taken_repl_block, cut]

-- The line between the two endings holds a carriage return, and the broken rest is not read.
example : ((repl {} ⟨[49, 10, 13, 13, 10, 50], true⟩).deliver none).taken =
    block {} [49] ++ lineFeed :: block {} [13] := by
  decide +kernel

end Command

end ArithTokens
