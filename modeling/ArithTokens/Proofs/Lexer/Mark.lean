import ArithTokens.Lexer
import ArithTokens.Proofs.Cursor
import ArithTokens.Proofs.Scan.Segmentation

/-!
# How far a lexer has come

A lexer is known by its **mark**: how many tokens of its text it has passed, and whether it has
met the end. All that a lexer gives is found in the list of all tokens of its text at its mark.

* `Stands` ties a lexer to its mark, and `Stands.unique` says that nothing else is in it;
* `Stands.next` is what reading one token does, and from it come `Stands.take`, `Stands.nth` and
  `Stands.rest`.
-/

namespace ArithTokens.Lexer

open Text (byteSize)

/-- How many tokens a lexer has passed, and whether it has met the end of its text. -/
structure Mark where
  passed : Nat
  ended : Bool
deriving DecidableEq, Repr

namespace Mark

/-- The mark of a lexer that has read nothing. -/
def start : Mark := ⟨0, false⟩

/-- The mark after `n` tokens more. A lexer meets the end where there are not as many. -/
def skip (tokens : List Spanned) (n : Nat) (mark : Mark) : Mark :=
  if mark.passed + n ≤ tokens.length then
    ⟨mark.passed + n, mark.ended⟩
  else
    ⟨tokens.length, true⟩

/-- The bytes that a lexer has passed: all of them after it has met the end, and else those up to
the end of the last token. -/
def position (text : String) (tokens : List Spanned) (mark : Mark) : Nat :=
  if mark.ended then
    byteSize text.toList
  else
    match mark.passed with
    | 0 => 0
    | k + 1 => (tokens[k]?.map fun lexed => lexed.span.stop).getD 0

variable {tokens : List Spanned} {mark : Mark}

theorem skip_of_le {n : Nat} (enough : mark.passed + n ≤ tokens.length) :
    mark.skip tokens n = ⟨mark.passed + n, mark.ended⟩ :=
  if_pos enough

theorem skip_of_lt {n : Nat} (few : tokens.length < mark.passed + n) :
    mark.skip tokens n = ⟨tokens.length, true⟩ :=
  if_neg (Nat.not_le_of_lt few)

/-- Passing one token and then `n` more is passing `n + 1`. -/
theorem skip_succ (n : Nat) :
    mark.skip tokens (n + 1) = skip tokens n ⟨mark.passed + 1, mark.ended⟩ := by
  by_cases enough : mark.passed + 1 + n ≤ tokens.length
  · have past : skip tokens n ⟨mark.passed + 1, mark.ended⟩ = ⟨mark.passed + 1 + n, mark.ended⟩ :=
      skip_of_le enough
    rw [past, skip_of_le (by omega), Nat.add_assoc, Nat.add_comm 1]
  · have past : skip tokens n ⟨mark.passed + 1, mark.ended⟩ = ⟨tokens.length, true⟩ :=
      skip_of_lt (Nat.not_le.mp enough)
    rw [past, skip_of_lt (by omega)]

/-- Where there is no token, passing any more meets the end. -/
theorem skip_of_none (none : tokens.length ≤ mark.passed) (n : Nat) :
    mark.skip tokens (n + 1) = ⟨tokens.length, true⟩ :=
  skip_of_lt (by omega)

/-- The end is met once only. -/
theorem skip_end (n : Nat) : skip tokens n ⟨tokens.length, true⟩ = ⟨tokens.length, true⟩ := by
  cases n with
  | zero => exact skip_of_le le_rfl
  | succ n => exact skip_of_none le_rfl n

end Mark

/-! ## Reading one token -/

section Next

variable {lexer : Lexer} {g r t : List Char} {c : Char}

/-- With only blanks ahead there is no token, and the lexer passes them. -/
theorem next_gap (gap : Scan.IsGap lexer.cursor.ahead) :
    lexer.next = (none, { lexer with
      cursor := { lexer.cursor with
        ahead := []
        place := lexer.cursor.place.after lexer.cursor.ahead } }) := by
  have passed : lexer.cursor.ahead.takeWhile Scan.isBlank = lexer.cursor.ahead :=
    List.takeWhile_eq_self_iff.mpr gap
  have left : lexer.cursor.ahead.dropWhile Scan.isBlank = [] := List.dropWhile_eq_nil_iff.mpr gap
  rw [next, Cursor.eatWhile_eq, passed, left, Cursor.advance_nil rfl]

/-- A lexer passes a gap and the lexeme behind it, and gives the lexeme's token. -/
theorem next_lexeme (ahead : lexer.cursor.ahead = g ++ c :: r ++ t) (gap : Scan.IsGap g)
    (lexeme : Scan.IsLexeme c r) (ends : Scan.Ends c t) :
    lexer.next = (some ⟨.ofLexeme lexer.policy c r, (lexer.cursor.place.after g).spanTo
        (lexer.cursor.place.after (g ++ c :: r))⟩,
      { lexer with
        cursor := { lexer.cursor with
          ahead := t
          place := lexer.cursor.place.after (g ++ c :: r) } }) := by
  have stop : ∀ d ∈ (c :: (r ++ t)).head?, Scan.isBlank d = false := by
    simp [lexeme.1]
  rw [List.append_assoc, List.cons_append] at ahead
  rw [next, Cursor.eatWhile_eq, ahead, Scan.takeWhile_exact gap stop, Scan.dropWhile_exact gap stop,
    Cursor.advance_cons rfl]
  dsimp only
  rw [Cursor.eatWhile_eq]
  dsimp only
  rw [Scan.takeWhile_exact lexeme.2 ends, Scan.dropWhile_exact lexeme.2 ends, Place.after_append,
    Place.after_cons]

end Next

/-! ## Lexers at a mark -/

/-- Whether a lexer of a text stands at a mark. -/
structure Stands (policy : Overflow) (text : String) (mark : Mark) (lexer : Lexer) : Prop where
  policy_eq : lexer.policy = policy
  source_eq : lexer.cursor.source = text.toList
  /-- The lexer stands at the place after what it has passed. -/
  place : ∃ done, text.toList = done ++ lexer.cursor.ahead ∧
    lexer.cursor.place = Place.start.after done
  /-- What is ahead holds the tokens not yet passed. -/
  ahead : Scan.scanFrom policy lexer.cursor.place lexer.cursor.ahead =
    (scan policy text).drop mark.passed
  passed_le : mark.passed ≤ (scan policy text).length
  offset_eq : lexer.cursor.offset = mark.position text (scan policy text)

namespace Stands

variable {policy : Overflow} {text : String} {mark : Mark} {lexer other : Lexer}

/-- A new lexer has passed nothing. -/
theorem ofText (policy : Overflow) (text : String) :
    Stands policy text .start (Lexer.ofText policy text) where
  policy_eq := rfl
  source_eq := rfl
  place := ⟨[], rfl, rfl⟩
  ahead := rfl
  passed_le := Nat.zero_le _
  offset_eq := rfl

/-- **A lexer is determined by its text, its policy and its mark.** -/
theorem unique (stands : Stands policy text mark lexer) (also : Stands policy text mark other) :
    lexer = other := by
  obtain ⟨done, chars, place⟩ := stands.place
  obtain ⟨done', chars', place'⟩ := also.place
  -- Both have passed as many bytes of one text, and so the same characters.
  have size : byteSize done = byteSize done' := by
    have offset := stands.offset_eq.trans also.offset_eq.symm
    rw [Cursor.offset, Cursor.offset, place, place', Place.after_offset, Place.after_offset] at offset
    exact Nat.add_left_cancel offset
  obtain ⟨rfl, ahead⟩ := Text.append_inj_of_byteSize (chars.symm.trans chars') size
  obtain ⟨⟨source, ahead, place⟩, policy⟩ := lexer
  obtain ⟨⟨source', ahead', place'⟩, policy'⟩ := other
  simp only [Lexer.mk.injEq, Cursor.mk.injEq]
  exact ⟨⟨stands.source_eq.trans also.source_eq.symm, ahead, place.trans place'.symm⟩,
    stands.policy_eq.trans also.policy_eq.symm⟩

/-- The bytes that a lexer has passed and those ahead are all bytes of its text. -/
theorem offset_add (stands : Stands policy text mark lexer) :
    lexer.cursor.offset + byteSize lexer.cursor.ahead = byteSize text.toList := by
  obtain ⟨done, chars, place⟩ := stands.place
  rw [chars, Cursor.offset, place, Place.after_offset, Text.byteSize_append]
  simp [Place.start]

/-- A lexer that has met the end has passed the whole text. -/
theorem ahead_of_ended (stands : Stands policy text mark lexer) (ended : mark.ended = true) :
    lexer.cursor.ahead = [] ∧ mark.passed = (scan policy text).length := by
  have none : lexer.cursor.ahead = [] := by
    have whole := stands.offset_add
    rw [stands.offset_eq, Mark.position, if_pos ended] at whole
    rcases text : lexer.cursor.ahead with _ | ⟨c, cs⟩
    · rfl
    · have := Text.byteSize_pos (List.cons_ne_nil c cs)
      rw [text] at whole
      omega
  refine ⟨none, Nat.le_antisymm stands.passed_le ?_⟩
  have ahead := stands.ahead
  rw [none, Scan.scanFrom_gap Scan.isGap_nil] at ahead
  exact List.drop_eq_nil_iff.mp ahead.symm

/-! ### Reading -/

/-- **One token more**: a lexer gives the token at its mark, and its mark moves by one. -/
theorem next (stands : Stands policy text mark lexer) :
    lexer.next.1 = (scan policy text)[mark.passed]? ∧
      Stands policy text (mark.skip (scan policy text) 1) lexer.next.2 := by
  obtain ⟨done, chars, place⟩ := stands.place
  obtain rfl := stands.policy_eq
  induction ahead : lexer.cursor.ahead using Scan.lexemeInduction with
  | gap g gap =>
    have read := next_gap (ahead ▸ gap)
    have none : (scan lexer.policy text).length ≤ mark.passed := by
      have left := stands.ahead
      rw [ahead, Scan.scanFrom_gap gap] at left
      exact List.drop_eq_nil_iff.mp left.symm
    rw [read, Mark.skip_of_none none]
    refine ⟨(List.getElem?_eq_none none).symm, ?_⟩
    have past : lexer.cursor.place.after lexer.cursor.ahead = Place.start.after text.toList := by
      rw [chars, place, Place.after_append]
    refine ⟨rfl, stands.source_eq, ⟨text.toList, by simp, past⟩, ?_, le_rfl, ?_⟩
    · rw [Scan.scanFrom_gap Scan.isGap_nil, List.drop_length]
    · rw [Cursor.offset, past, Place.after_offset, Mark.position, if_pos rfl]
      simp [Place.start]
  | lexeme g c r t gap lexeme ends _ =>
    have read := next_lexeme ahead gap lexeme ends
    have left := stands.ahead
    rw [ahead, Scan.scanFrom_lexeme gap lexeme ends] at left
    have some : mark.passed < (scan lexer.policy text).length := by
      by_contra none
      rw [List.drop_eq_nil_of_le (Nat.not_lt.mp none)] at left
      cases left
    rw [List.drop_eq_getElem_cons some, List.cons.injEq] at left
    obtain ⟨first, left⟩ := left
    -- Past the end no text is ahead, so that the mark's position is that of its last token.
    have going : mark.ended = false := by
      by_contra ended
      obtain ⟨nothing, -⟩ := stands.ahead_of_ended (Bool.not_eq_false _ ▸ ended)
      simp [nothing] at ahead
    rw [read, Mark.skip_of_le some, List.getElem?_eq_getElem some, ← first]
    refine ⟨rfl, rfl, stands.source_eq, ⟨done ++ (g ++ c :: r), ?_, ?_⟩, left, some, ?_⟩
    · rw [chars, ahead, List.append_assoc done]
    · dsimp only
      rw [place, Place.after_append Place.start]
    · simp only [Mark.position, going, List.getElem?_eq_getElem some, ← first]
      rfl

/-- A lexer that gives a token has passed one more. -/
theorem next_some {lexed : Spanned} {past : Lexer} (stands : Stands policy text mark lexer)
    (read : lexer.next = (some lexed, past)) :
    (scan policy text)[mark.passed]? = some lexed ∧
      Stands policy text ⟨mark.passed + 1, mark.ended⟩ past := by
  obtain ⟨given, stands⟩ := stands.next
  rw [read] at given stands
  obtain ⟨enough, -⟩ := List.getElem?_eq_some_iff.mp given.symm
  rw [Mark.skip_of_le enough] at stands
  exact ⟨given.symm, stands⟩

/-- A lexer that gives no token has met the end. -/
theorem next_none {stop : Lexer} (stands : Stands policy text mark lexer)
    (read : lexer.next = (none, stop)) :
    (scan policy text).length ≤ mark.passed ∧
      Stands policy text ⟨(scan policy text).length, true⟩ stop := by
  obtain ⟨given, stands⟩ := stands.next
  rw [read] at given stands
  have few := List.getElem?_eq_none_iff.mp given.symm
  rw [Mark.skip_of_none few] at stands
  exact ⟨few, stands⟩

/-- Taking tokens is reading them one after the other. -/
theorem take (stands : Stands policy text mark lexer) (n : Nat) :
    (lexer.take n).1 = (((scan policy text).drop mark.passed).take n).map Spanned.token ∧
      Stands policy text (mark.skip (scan policy text) n) (lexer.take n).2 := by
  induction n generalizing mark lexer with
  | zero =>
    rw [Mark.skip_of_le stands.passed_le]
    exact ⟨rfl, stands⟩
  | succ n ih =>
    rw [Lexer.take]
    rcases read : lexer.next with ⟨_ | lexed, past⟩
    · obtain ⟨few, stands⟩ := stands.next_none read
      rw [Mark.skip_of_none few, List.drop_eq_nil_of_le few]
      exact ⟨rfl, stands⟩
    · obtain ⟨given, stands⟩ := stands.next_some read
      obtain ⟨tokens, beyond⟩ := ih stands
      rw [Mark.skip_succ, List.drop_eq_getElem?_toList_append, given]
      exact ⟨congrArg _ tokens, beyond⟩

/-- Reading the token after `n` others passes all of them. -/
theorem nth (stands : Stands policy text mark lexer) (n : Nat) :
    (lexer.nth n).1 = (scan policy text)[mark.passed + n]?.map Spanned.token ∧
      Stands policy text (mark.skip (scan policy text) (n + 1)) (lexer.nth n).2 := by
  induction n generalizing mark lexer with
  | zero =>
    obtain ⟨given, past⟩ := stands.next
    rw [Lexer.nth]
    exact ⟨congrArg (Option.map Spanned.token) given, past⟩
  | succ n ih =>
    rw [Lexer.nth]
    rcases read : lexer.next with ⟨_ | lexed, past⟩
    · obtain ⟨few, stands⟩ := stands.next_none read
      rw [Mark.skip_of_none few, List.getElem?_eq_none (by omega)]
      exact ⟨rfl, stands⟩
    · obtain ⟨-, stands⟩ := stands.next_some read
      obtain ⟨given, beyond⟩ := ih stands
      rw [Mark.skip_succ, ← Nat.add_assoc, Nat.add_right_comm]
      exact ⟨given, beyond⟩

/-- Reading to the end gives all tokens that are left. -/
theorem rest (stands : Stands policy text mark lexer) :
    lexer.rest.1 = ((scan policy text).drop mark.passed).map Spanned.token ∧
      Stands policy text ⟨(scan policy text).length, true⟩ lexer.rest.2 := by
  fun_induction Lexer.rest lexer generalizing mark with
  | case1 lexer stop read =>
    obtain ⟨few, stands⟩ := stands.next_none read
    rw [List.drop_eq_nil_of_le few]
    exact ⟨rfl, stands⟩
  | case2 lexer lexed past read tokens beyond left ih =>
    obtain ⟨given, stands⟩ := stands.next_some read
    obtain ⟨others, stop⟩ := ih stands
    rw [left] at others stop
    rw [List.drop_eq_getElem?_toList_append, given]
    exact ⟨congrArg _ others, stop⟩

/-- **Nothing moves a lexer that has met the end**, and nothing read from it gives a token. -/
theorem read_of_ended (stands : Stands policy text mark lexer) (ended : mark.ended = true) (n : Nat) :
    lexer.next = (none, lexer) ∧ lexer.nth n = (none, lexer) ∧ lexer.take n = ([], lexer) ∧
      lexer.rest = ([], lexer) := by
  obtain ⟨-, passed⟩ := stands.ahead_of_ended ended
  obtain rfl : mark = ⟨(scan policy text).length, true⟩ := Mark.mk.injEq .. ▸ ⟨passed, ended⟩
  -- Each of them leads to the same mark, and so to the same lexer.
  obtain ⟨next, next'⟩ := stands.next
  obtain ⟨nth, nth'⟩ := stands.nth n
  obtain ⟨take, take'⟩ := stands.take n
  obtain ⟨rest, rest'⟩ := stands.rest
  rw [Mark.skip_end] at next' nth' take'
  refine ⟨Prod.ext ?_ (next'.unique stands), Prod.ext ?_ (nth'.unique stands),
    Prod.ext ?_ (take'.unique stands), Prod.ext ?_ (rest'.unique stands)⟩
  · rw [next, List.getElem?_eq_none le_rfl]
  · rw [nth, List.getElem?_eq_none (Nat.le_add_right _ n), Option.map_none]
  · rw [take, List.drop_length, List.take_nil, List.map_nil]
  · rw [rest, List.drop_length, List.map_nil]

end Stands

end ArithTokens.Lexer
