import ArithTokens.Cursor.Bytes
import ArithTokens.Proofs.Cursor
import ArithTokens.Proofs.Text.Boundary
import ArithTokens.Proofs.Text.Encode

/-!
# Reading by bytes

A byte cursor makes **no bad cut on its way**: wherever its calls lead it, it stands between two
characters of its text, and it reads there what a cursor reads that keeps the text ahead.

* `accepted` is what a predicate takes of a text: the longest beginning of which it says yes,
  asked about one character after the other (`prefix_accepted`);
* while a cursor has `Reached` a place of a text, the byte cursor that stands there (`ofCursor`)
  gives the same answers and moves to the same places (`current_ofCursor`, `advance_ofCursor`,
  `eatFrom_ofCursor`);
* `run_ofCursor` carries this from one call to the next, and `run_reads` tells what all calls give
  by the text alone.
-/

namespace ArithTokens.ByteCursor

open Cursor (Move Reached advance_cons advance_nil eat_cons_none eat_cons_some eat_nil eat_passes
  reached_ofText reached_travel travel travel_append)
open Text (Holds IsBoundary Splits byteSize encode)

/-! ## Predicates that remember -/

section Predicates

variable {σ : Type} (accept : σ → Char → Bool × σ) {memory : σ} {text other : List Char}

/-- What a predicate remembers once it was asked about some characters, each once and in order. -/
def remembered (memory : σ) (asked : List Char) : σ :=
  asked.foldl (fun memory c => (accept memory c).2) memory

/-- Whether a predicate says yes each time it is asked about some characters, in order. -/
def accepts : σ → List Char → Bool
  | _, [] => true
  | memory, c :: cs => (accept memory c).1 && accepts (accept memory c).2 cs

/-- The characters of a text up to the first of which a predicate says no. -/
def accepted : σ → List Char → List Char
  | _, [] => []
  | memory, c :: cs =>
    if (accept memory c).1 then c :: accepted (accept memory c).2 cs else []

theorem accepted_isPrefix : accepted accept memory text <+: text := by
  induction text generalizing memory with
  | nil => exact List.nil_prefix
  | cons c cs ih =>
    rw [accepted]
    split
    · exact List.cons_prefix_cons.mpr ⟨rfl, ih⟩
    · exact List.nil_prefix

theorem accepts_accepted : accepts accept memory (accepted accept memory text) = true := by
  induction text generalizing memory with
  | nil => rfl
  | cons c cs ih =>
    rw [accepted]
    split
    · rename_i yes
      rw [accepts, yes, ih, Bool.and_true]
    · rfl

/-- **No longer beginning** of a text is accepted. -/
theorem prefix_accepted (front : other <+: text) (yes : accepts accept memory other = true) :
    other <+: accepted accept memory text := by
  induction text generalizing memory other with
  | nil => exact front
  | cons c cs ih =>
    cases other with
    | nil => exact List.nil_prefix
    | cons d other =>
      obtain ⟨rfl, behind⟩ := List.cons_prefix_cons.mp front
      rw [accepts, Bool.and_eq_true] at yes
      rw [accepted, if_pos yes.1]
      exact List.cons_prefix_cons.mpr ⟨rfl, ih behind yes.2⟩

/-- Whether a word is the **longest beginning** of a text of which a predicate says yes. -/
structure IsLongest (memory : σ) (text word : List Char) : Prop where
  front : word <+: text
  yes : accepts accept memory word = true
  longest : ∀ other, other <+: text → accepts accept memory other = true → other <+: word

theorem isLongest_accepted (memory : σ) (text : List Char) :
    IsLongest accept memory text (accepted accept memory text) :=
  ⟨accepted_isPrefix accept, accepts_accepted accept, fun _ => prefix_accepted accept⟩

/-- A predicate as one that hands on its memory only where it says yes. -/
def answering (memory : σ) (c : Char) : Option σ :=
  if (accept memory c).1 then some (accept memory c).2 else none

variable {accept} {c : Char} {next : σ}

theorem answering_no (answer : accept memory c = (false, next)) :
    answering accept memory c = none := by
  simp [answering, answer]

theorem answering_yes (answer : accept memory c = (true, next)) :
    answering accept memory c = some next := by
  simp [answering, answer]

end Predicates

/-! ## Calls -/

/-- What is asked of a byte cursor on its way. -/
inductive Call : Type 1 where
  | current
  | peek (n : Nat)
  | advance
  /-- To eat by any predicate, also by one that remembers what it was asked. -/
  | eatWhile {σ : Type} (accept : σ → Char → Bool × σ) (memory : σ)

/-- The byte cursor after a call. -/
def Call.run (cursor : ByteCursor) : Call → Except BadCut ByteCursor
  | .current => cursor.current.map fun _ => cursor
  | .peek n => (cursor.peek n).map fun _ => cursor
  | .advance => cursor.advance.map Prod.snd
  | .eatWhile accept memory => (cursor.eatWhile accept memory).map fun eaten => eaten.2.2

/-- The byte cursor after some calls, one after the other. -/
def run (calls : List Call) (cursor : ByteCursor) : Except BadCut ByteCursor :=
  calls.foldlM Call.run cursor

/-- The characters that a call takes of the text ahead. -/
def Call.takes (ahead : List Char) : Call → List Char
  | .current => []
  | .peek _ => []
  | .advance => ahead.take 1
  | .eatWhile accept memory => accepted accept memory ahead

/-- The characters that some calls take, one call after the other. -/
def taken : List Call → List Char → List Char
  | [], _ => []
  | call :: calls, ahead =>
    call.takes ahead ++ taken calls (ahead.drop (call.takes ahead).length)

/-- The moves of a cursor that keeps the text ahead, for a call of a byte cursor. -/
def Call.moves : Call → List Move
  | .current => []
  | .peek _ => []
  | .advance => [.advance]
  | .eatWhile accept memory => [.eat (answering accept) memory]

/-- The byte cursor that stands where a cursor stands. -/
def ofCursor (reader : Cursor) : ByteCursor := ⟨reader.source, reader.place⟩

/-! ### Equation lemmas

`eatFrom` is defined by well-founded recursion; these are the equations that proofs work with. -/

section Equations

variable {σ : Type} {accept : σ → Char → Bool × σ} {memory next : σ} {c : Char}
  {cursor : ByteCursor}

theorem eatFrom_end (found : cursor.current = .ok none) (count : Nat) :
    cursor.eatFrom accept memory count = .ok (count, memory, cursor) := by
  rw [eatFrom]
  split <;> rename_i also <;> cases found.symm.trans also
  rfl

theorem eatFrom_no (found : cursor.current = .ok (some c))
    (answer : accept memory c = (false, next)) (count : Nat) :
    cursor.eatFrom accept memory count = .ok (count, next, cursor) := by
  rw [eatFrom]
  split <;> rename_i also <;> cases found.symm.trans also
  rw [answer]
  rfl

theorem eatFrom_yes (found : cursor.current = .ok (some c))
    (answer : accept memory c = (true, next)) (count : Nat) :
    cursor.eatFrom accept memory count =
      eatFrom accept next (count + 1) { cursor with place := cursor.place.step c } := by
  rw [eatFrom]
  split <;> rename_i also <;> cases found.symm.trans also
  rw [answer]
  have passed := advance_of_current found
  simp only [↓reduceIte]
  split <;> rename_i also <;> cases passed.symm.trans also
  rfl

end Equations

/-! ## Standing where a cursor stands -/

variable {text : List Char} {reader : Cursor}

/-- The offset of a place that was reached is a boundary: behind what was passed. -/
theorem exists_passed (reached : Reached text reader) :
    ∃ passed, text = passed ++ reader.ahead ∧ (ofCursor reader).offset = byteSize passed := by
  obtain ⟨-, passed, chars, place⟩ := reached
  refine ⟨passed, chars, ?_⟩
  rw [offset, ofCursor, place, Place.after_offset]
  exact Nat.zero_add _

theorem bytes_ofCursor (reached : Reached text reader) : (ofCursor reader).bytes = encode text :=
  congrArg encode reached.source_eq

/-- A stretch that the text holds is cut out. -/
theorem cut_eq_ok {cursor : ByteCursor} {start stop : Nat} {word : List Char}
    (held : Holds 0 cursor.source start stop word) : cursor.cut start stop = .ok word := by
  rw [cut, Text.slice?_eq_some_iff.mpr held]

/-- **The cut at the offset is a good one**: it gives the text ahead. -/
theorem ahead_ofCursor (reached : Reached text reader) :
    (ofCursor reader).ahead = .ok reader.ahead := by
  obtain ⟨passed, chars, offset⟩ := exists_passed reached
  apply cut_eq_ok
  refine ⟨passed, [], ?_, ?_, ?_⟩
  · rw [List.append_nil, ← chars]
    exact reached.source_eq
  · rw [offset, Nat.zero_add]
  · rw [bytes_ofCursor reached, Text.length_encode, Nat.zero_add, chars]

/-- **The next character is the same**, whether it is told by its only byte or by a cut. -/
theorem current_ofCursor (reached : Reached text reader) :
    (ofCursor reader).current = .ok reader.current? := by
  obtain ⟨passed, chars, offset⟩ := exists_passed reached
  have byte : (ofCursor reader).bytes[(ofCursor reader).offset]? = (encode reader.ahead).head? := by
    rw [bytes_ofCursor reached, offset, chars]
    exact Text.getElem?_encode passed reader.ahead
  rw [current, byte]
  rcases first : (encode reader.ahead).head? with _ | b
  · rw [List.head?_eq_none_iff, Text.encode_eq_nil_iff] at first
    rw [Cursor.current?, first, List.head?_nil]
  · by_cases low : b < 128
    · obtain ⟨c, mem, code⟩ := Text.head?_encode low first
      have found : reader.ahead.head? = some c := mem
      simp only [if_pos low]
      rw [← code, Char.ofNat_toNat, Cursor.current?, found]
    · simp only [if_neg low]
      rw [ahead_ofCursor reached]
      rfl

theorem peek_ofCursor (reached : Reached text reader) (n : Nat) :
    (ofCursor reader).peek n = .ok (reader.peek? n) := by
  rw [peek, ahead_ofCursor reached]
  rfl

theorem atEnd_ofCursor (reached : Reached text reader) :
    (ofCursor reader).atEnd = reader.atEnd := by
  obtain ⟨passed, chars, offset⟩ := exists_passed reached
  rw [atEnd, Cursor.atEnd, bytes_ofCursor reached, Text.length_encode, offset, chars,
    Text.byteSize_append]
  rcases reader.ahead with _ | ⟨c, cs⟩
  · simp
  · have := c.utf8Size_pos
    rw [List.isEmpty_cons, decide_eq_false_iff_not, Text.byteSize_cons]
    omega

theorem advance_ofCursor (reached : Reached text reader) :
    (ofCursor reader).advance = .ok (reader.advance.1, ofCursor reader.advance.2) := by
  rw [advance, current_ofCursor reached, Cursor.current?]
  rcases chars : reader.ahead with _ | ⟨c, cs⟩
  · rw [advance_nil chars]
    rfl
  · rw [advance_cons chars]
    rfl

/-- **Eating takes what the predicate accepts**, which was asked about all these characters and the
one behind them, if there is one. -/
theorem eatFrom_ofCursor {σ : Type} (accept : σ → Char → Bool × σ) (memory : σ)
    (reached : Reached text reader) (count : Nat) :
    (ofCursor reader).eatFrom accept memory count =
      let word := accepted accept memory reader.ahead
      .ok (count + word.length, remembered accept memory (reader.ahead.take (word.length + 1)),
        ofCursor (reader.eat (answering accept) memory).2) := by
  obtain ⟨source, chars, place⟩ := reader
  induction chars generalizing memory count place with
  | nil =>
    rw [eatFrom_end (current_ofCursor reached), eat_nil rfl]
    rfl
  | cons c cs ih =>
    have found := current_ofCursor reached
    rcases answer : accept memory c with ⟨yes, next⟩
    cases yes with
    | false =>
      rw [eatFrom_no found answer, eat_cons_none rfl (answering_no answer)]
      simp [accepted, answer, remembered]
    | true =>
      have behind := Move.advance.reached reached
      rw [Move.run, advance_cons rfl] at behind
      rw [eatFrom_yes found answer, eat_cons_some rfl (answering_yes answer)]
      refine (ih next (count + 1) _ behind).trans ?_
      simp [accepted, answer, remembered, Nat.add_assoc, Nat.add_comm 1]

theorem eatWhile_ofCursor {σ : Type} (accept : σ → Char → Bool × σ) (memory : σ)
    (reached : Reached text reader) :
    (ofCursor reader).eatWhile accept memory =
      let word := accepted accept memory reader.ahead
      .ok (word.length, remembered accept memory (reader.ahead.take (word.length + 1)),
        ofCursor (reader.eat (answering accept) memory).2) := by
  rw [eatWhile, eatFrom_ofCursor accept memory reached]
  simp only [Nat.zero_add]

/-- A cursor that keeps the text ahead eats the same characters. -/
theorem eat_fst {σ : Type} (accept : σ → Char → Bool × σ) (memory : σ) (reader : Cursor) :
    (reader.eat (answering accept) memory).1 = accepted accept memory reader.ahead := by
  obtain ⟨source, chars, place⟩ := reader
  induction chars generalizing memory place with
  | nil =>
    rw [eat_nil rfl]
    rfl
  | cons c cs ih =>
    rcases answer : accept memory c with ⟨yes, next⟩
    cases yes with
    | false =>
      rw [eat_cons_none rfl (answering_no answer)]
      simp [accepted, answer]
    | true =>
      rw [eat_cons_some rfl (answering_yes answer)]
      simp [accepted, answer, ih]

/-! ## One call after the other -/

/-- **A call leads both cursors to the same place.** -/
theorem Call.run_ofCursor (reached : Reached text reader) (call : Call) :
    call.run (ofCursor reader) = .ok (ofCursor (travel call.moves reader)) := by
  cases call with
  | current =>
    rw [run, current_ofCursor reached]
    rfl
  | peek n =>
    rw [run, peek_ofCursor reached]
    rfl
  | advance =>
    rw [run, advance_ofCursor reached]
    rfl
  | eatWhile accept memory =>
    rw [run, eatWhile_ofCursor accept memory reached]
    rfl

/-- What a call takes stood ahead, and what it leaves still does. -/
theorem Call.ahead_eq (reader : Cursor) (call : Call) :
    reader.ahead = call.takes reader.ahead ++ (travel call.moves reader).ahead := by
  cases call with
  | current => rfl
  | peek n => rfl
  | advance =>
    show reader.ahead = reader.ahead.take 1 ++ reader.advance.2.ahead
    rcases chars : reader.ahead with _ | ⟨c, cs⟩
    · rw [advance_nil chars, chars]
      rfl
    · rw [advance_cons chars]
      rfl
  | eatWhile accept memory =>
    obtain ⟨ahead, -⟩ := eat_passes (answering accept) memory reader
    rwa [eat_fst] at ahead

theorem run_ofCursor (reached : Reached text reader) (calls : List Call) :
    run calls (ofCursor reader) = .ok (ofCursor (travel (calls.flatMap Call.moves) reader)) := by
  induction calls generalizing reader with
  | nil => rfl
  | cons call calls ih =>
    have next := ih (reached_travel reached call.moves)
    rw [run, List.foldlM_cons, call.run_ofCursor reached, List.flatMap_cons, travel_append]
    exact next

theorem ahead_eq (reader : Cursor) (calls : List Call) :
    reader.ahead =
      taken calls reader.ahead ++ (travel (calls.flatMap Call.moves) reader).ahead := by
  induction calls generalizing reader with
  | nil => rfl
  | cons call calls ih =>
    have split := call.ahead_eq reader
    have rest : reader.ahead.drop (call.takes reader.ahead).length =
        (travel call.moves reader).ahead :=
      calc reader.ahead.drop (call.takes reader.ahead).length
        _ = (call.takes reader.ahead ++ (travel call.moves reader).ahead).drop
              (call.takes reader.ahead).length := congrArg _ split
        _ = (travel call.moves reader).ahead := List.drop_left
    rw [taken, rest, List.flatMap_cons, travel_append, List.append_assoc, ← ih]
    exact split

/-! ## The theorem -/

/-- **What a byte cursor tells** between the characters `passed` of its text and the characters
`ahead`. -/
structure ReadsAt (passed ahead : List Char) (cursor : ByteCursor) : Prop where
  source_eq : cursor.source = passed ++ ahead
  offset_eq : cursor.offset = byteSize passed
  current_eq : cursor.current = .ok ahead.head?
  peek_eq (n : Nat) : cursor.peek n = .ok ahead[n]?
  peek_zero : cursor.peek 0 = cursor.current
  atEnd_iff : cursor.atEnd = true ↔ cursor.current = .ok none
  advance_eq : ∃ past, cursor.advance = .ok (ahead.head?, past) ∧
    past.offset = byteSize (passed ++ ahead.take 1)
  advance_end : cursor.atEnd = true → cursor.advance = .ok (none, cursor)
  /-- The predicate is asked about each character of the longest beginning that it accepts, and
  about the one behind that. -/
  eatWhile_eq {σ : Type} (accept : σ → Char → Bool × σ) (memory : σ) :
    let word := accepted accept memory ahead
    IsLongest accept memory ahead word ∧ ∃ past,
      cursor.eatWhile accept memory =
        .ok (word.length, remembered accept memory (ahead.take (word.length + 1)), past) ∧
      past.offset = byteSize (passed ++ word)
  textSince_refused (start : Nat) :
    (∃ bad, cursor.textSince start = .error bad) ↔
      cursor.offset < start ∨ Splits start (passed ++ ahead)

variable {passed : List Char}

theorem offset_ofCursor (reached : Reached text reader) (chars : text = passed ++ reader.ahead) :
    (ofCursor reader).offset = byteSize passed := by
  obtain ⟨_, also, offset⟩ := exists_passed reached
  obtain rfl := List.append_cancel_right (chars.symm.trans also)
  exact offset

/-- A call leads behind what it takes. -/
theorem Call.offset_eq (reached : Reached text reader) (chars : text = passed ++ reader.ahead)
    (call : Call) : (ofCursor (travel call.moves reader)).offset =
      byteSize (passed ++ call.takes reader.ahead) := by
  apply offset_ofCursor (reached_travel reached call.moves)
  rw [List.append_assoc, ← call.ahead_eq reader]
  exact chars

theorem readsAt_ofCursor (reached : Reached text reader) (chars : text = passed ++ reader.ahead) :
    ReadsAt passed reader.ahead (ofCursor reader) where
  source_eq := reached.source_eq.trans chars
  offset_eq := offset_ofCursor reached chars
  current_eq := current_ofCursor reached
  peek_eq n := peek_ofCursor reached n
  peek_zero := by
    rw [peek_ofCursor reached, current_ofCursor reached, Cursor.peek?, Cursor.current?,
      List.head?_eq_getElem?]
  atEnd_iff := by
    rw [atEnd_ofCursor reached, current_ofCursor reached, Cursor.atEnd, Cursor.current?,
      List.isEmpty_iff, Except.ok.injEq, List.head?_eq_none_iff]
  advance_eq := by
    refine ⟨ofCursor reader.advance.2, ?_, Call.advance.offset_eq reached chars⟩
    rw [advance_ofCursor reached, Cursor.advance]
    cases reader.ahead <;> rfl
  advance_end atEnd := by
    rw [atEnd_ofCursor reached, Cursor.atEnd, List.isEmpty_iff] at atEnd
    rw [advance_ofCursor reached, advance_nil atEnd]
  eatWhile_eq accept memory := by
    refine ⟨isLongest_accepted accept memory reader.ahead, _,
      eatWhile_ofCursor accept memory reached, ?_⟩
    exact (Call.eatWhile accept memory).offset_eq reached chars
  textSince_refused start := by
    have boundary : IsBoundary (ofCursor reader).offset text := by
      rw [offset_ofCursor reached chars, chars]
      exact Text.isBoundary_append passed reader.ahead
    rw [← chars, ← Text.slice?_eq_none_iff boundary, textSince, cut]
    rw [show (ofCursor reader).source = text from reached.source_eq]
    rcases Text.slice? start (ofCursor reader).offset text with _ | word
    · simp
    · simp

/-- **Further calls** lead on, and what they take is the text since then. -/
theorem exists_later (reached : Reached text reader) (chars : text = passed ++ reader.ahead)
    (more : List Call) :
    ∃ later, run more (ofCursor reader) = .ok later ∧
      (ofCursor reader).offset ≤ later.offset ∧
      later.textSince (ofCursor reader).offset = .ok (taken more reader.ahead) := by
  have beyond := reached_travel reached (more.flatMap Call.moves)
  have split : text = passed ++ taken more reader.ahead ++
      (travel (more.flatMap Call.moves) reader).ahead := by
    rw [List.append_assoc, ← ahead_eq reader more]
    exact chars
  have offset := offset_ofCursor reached chars
  have offset' := offset_ofCursor beyond split
  refine ⟨_, run_ofCursor reached more, ?_, ?_⟩
  · rw [offset, offset', Text.byteSize_append]
    exact Nat.le_add_right _ _
  · rw [offset, textSince, offset']
    apply cut_eq_ok
    refine ⟨passed, _, beyond.source_eq.trans split, ?_, ?_⟩
    · exact Nat.zero_add _
    · exact Nat.zero_add _

/-- **Byte cursors read their text.** Whatever is called, in whatever order, no call makes a bad
cut, and the cursor stands where one stands that keeps the text ahead: behind the characters that
were taken so far, which are a beginning of the text. There it reads the characters ahead
(`ReadsAt`). Further calls never lead it back, and the text since then is what these calls took. -/
theorem run_reads (text : List Char) (calls more : List Call) :
    ∃ cursor later ahead,
      run calls (.ofText text) = .ok cursor ∧
      cursor = ofCursor (travel (calls.flatMap Call.moves) (.ofText text)) ∧
      text = taken calls text ++ ahead ∧
      ReadsAt (taken calls text) ahead cursor ∧
      run more cursor = .ok later ∧
      cursor.offset ≤ later.offset ∧
      later.textSince cursor.offset = .ok (taken more ahead) := by
  have start := reached_ofText text
  have reached := reached_travel start (calls.flatMap Call.moves)
  have chars := ahead_eq (.ofText text) calls
  obtain ⟨later, led, order, since⟩ := exists_later reached chars more
  exact ⟨_, later, _, run_ofCursor start calls, rfl, chars, readsAt_ofCursor reached chars, led,
    order, since⟩

-- A character of four bytes is passed by a predicate that counts, and the last one is looked at.
example : (run [.eatWhile (fun left _ => (left != 0, left - 1)) 2, .peek 0]
    (.ofText ['a', '💡', '\n', 'b'])).toOption = some ⟨['a', '💡', '\n', 'b'], ⟨5, 1, 3⟩⟩ := by
  decide +kernel

end ArithTokens.ByteCursor
