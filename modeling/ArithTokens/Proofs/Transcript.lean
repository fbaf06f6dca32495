import ArithTokens.Proofs.Feed
import ArithTokens.Proofs.Json
import ArithTokens.Proofs.Text.Encode
import ArithTokens.Transcript

/-!
# Outputs that fail

An output with room for so many bytes takes **a prefix** of what a command writes, and where the
room ends decides the problem that the command ends with.

* `deliver_taken` and `deliver_fits` hold for all that a command may do, however it is cut into
  pieces (`deliver_finer`);
* `InArray` says of a byte, by the bytes around it alone, that it belongs to a JSON array on a line
  of its own;
* a list of events that is `Laid` out in lines of text and such arrays fails with the problem that
  `InArray` tells (`Laid.refusedAt`).
-/

namespace ArithTokens

open Feed (append_lineFeed_inj lineFeed)

variable {α : Type} {outcome : Except Problem α} {events more : List Event} {n : Nat}

/-- A receipt with bytes that were taken before. -/
def Receipt.behind (bytes : List UInt8) (receipt : Receipt α) : Receipt α :=
  { receipt with taken := bytes ++ receipt.taken }

theorem Receipt.behind_outcome (bytes : List UInt8) (receipt : Receipt α) :
    (receipt.behind bytes).outcome = receipt.outcome := rfl

namespace Event

/-! ## Pieces -/

/-- What comes of an output that takes a whole piece. -/
theorem deliver_write_of_le {text : String} (isArray : Bool)
    (fits : (Text.bytesOf text).length ≤ n) :
    deliver outcome (some n) (.write ⟨text, isArray⟩ :: events) =
      (deliver outcome (some (n - (Text.bytesOf text).length)) events).behind (Text.bytesOf text) :=
  if_pos fits

/-- What comes of an output that fails in a piece. -/
theorem deliver_write_of_lt {text : String} (isArray : Bool)
    (short : n < (Text.bytesOf text).length) :
    deliver outcome (some n) (.write ⟨text, isArray⟩ :: events) =
      ⟨(Text.bytesOf text).take n, [], .error (Piece.refusal ⟨text, isArray⟩)⟩ :=
  if_neg (Nat.not_le.mpr short)

/-- It makes no difference whether a piece is written at once or in two. -/
theorem deliver_split (outcome : Except Problem α) (room : Option Nat) (s t : String)
    (isArray : Bool) (events : List Event) :
    deliver outcome room (.write ⟨s ++ t, isArray⟩ :: events) =
      deliver outcome room (.write ⟨s, isArray⟩ :: .write ⟨t, isArray⟩ :: events) := by
  cases room with
  | none => simp [deliver]
  | some n =>
    have size : (Text.bytesOf (s ++ t)).length =
        (Text.bytesOf s).length + (Text.bytesOf t).length := by
      rw [Text.bytesOf_append, List.length_append]
    by_cases left : (Text.bytesOf s).length ≤ n
    · rw [deliver_write_of_le isArray left]
      by_cases right : (Text.bytesOf t).length ≤ n - (Text.bytesOf s).length
      · rw [deliver_write_of_le isArray right, deliver_write_of_le isArray (by omega)]
        simp [Receipt.behind, Nat.sub_sub]
      · rw [deliver_write_of_lt isArray (by omega), deliver_write_of_lt isArray (by omega)]
        simp [Receipt.behind, Piece.refusal, List.take_append, List.take_of_length_le left]
    · rw [deliver_write_of_lt isArray (by omega), deliver_write_of_lt isArray (by omega)]
      simp [Piece.refusal, List.take_append_of_le_length (Nat.le_of_not_le left)]

/-- Whether some events do what others do, with pieces cut into smaller ones. -/
inductive Finer : List Event → List Event → Prop where
  | nil : Finer [] []
  | keep (event : Event) {fine events : List Event} (rest : Finer fine events) :
      Finer (event :: fine) (event :: events)
  | split (s t : String) (isArray : Bool) {fine events : List Event}
      (cut : Finer fine (.write ⟨s, isArray⟩ :: .write ⟨t, isArray⟩ :: events)) :
      Finer fine (.write ⟨s ++ t, isArray⟩ :: events)

/-- **It makes no difference into how many pieces the output is cut**, with or without a limit. -/
theorem deliver_finer {fine : List Event} (finer : Finer fine events) (room : Option Nat) :
    deliver outcome room fine = deliver outcome room events := by
  induction finer generalizing room with
  | nil => rfl
  | keep event _ ih =>
    cases event with
    | note entry => rw [deliver, deliver, ih]
    | write piece => cases room <;> simp only [deliver, ih]
  | split s t isArray _ ih => rw [ih, deliver_split]

/-! ## Prefixes -/

/-- The bytes that are taken without a limit. -/
def written : List Event → List UInt8
  | [] => []
  | .note _ :: events => written events
  | .write piece :: events => Text.bytesOf piece.text ++ written events

theorem written_append (events more : List Event) :
    written (events ++ more) = written events ++ written more := by
  induction events with
  | nil => rfl
  | cons event events ih =>
    cases event with
    | note entry => exact ih
    | write piece => rw [List.cons_append, written, written, ih, List.append_assoc]

theorem written_split (s t : String) (isArray : Bool) (events : List Event) :
    written (.write ⟨s ++ t, isArray⟩ :: events) =
      written (.write ⟨s, isArray⟩ :: .write ⟨t, isArray⟩ :: events) := by
  rw [written, written, written, Text.bytesOf_append, List.append_assoc]

theorem deliver_none (outcome : Except Problem α) (events : List Event) :
    (deliver outcome none events).taken = written events ∧
      (deliver outcome none events).outcome = outcome := by
  induction events with
  | nil => exact ⟨rfl, rfl⟩
  | cons event events ih =>
    cases event with
    | note entry => exact ih
    | write piece => exact ⟨congrArg (Text.bytesOf piece.text ++ ·) ih.1, ih.2⟩

/-- An output with room for so many bytes takes as many of what is written. -/
theorem deliver_taken (outcome : Except Problem α) (n : Nat) (events : List Event) :
    (deliver outcome (some n) events).taken = (written events).take n := by
  induction events generalizing n with
  | nil => exact List.take_nil.symm
  | cons event events ih =>
    cases event with
    | note entry => exact ih n
    | write piece =>
      rw [written]
      by_cases fits : (Text.bytesOf piece.text).length ≤ n
      · rw [deliver_write_of_le _ fits, Receipt.behind, ih, List.take_append,
          List.take_of_length_le fits]
      · rw [deliver_write_of_lt _ (Nat.lt_of_not_le fits),
          List.take_append_of_le_length (Nat.le_of_not_le fits)]

/-- An output with room for all that is written does not fail. -/
theorem deliver_fits (fits : (written events).length ≤ n) :
    deliver outcome (some n) events = deliver outcome none events := by
  induction events generalizing n with
  | nil => rfl
  | cons event events ih =>
    cases event with
    | note entry => rw [deliver, deliver, ih fits]
    | write piece =>
      rw [written, List.length_append] at fits
      rw [deliver_write_of_le _ (by omega), ih (by omega)]
      rfl

end Event

/-! ## Arrays among lines -/

/-- Whether a byte belongs to a JSON array on a line of its own. -/
def InArray (bytes : List UInt8) (n : Nat) : Prop :=
  ∃ before records behind,
    bytes = before ++ (Text.bytesOf (Json.array records) ++ lineFeed :: behind) ∧
      (∀ b ∈ before.getLast?, b = lineFeed) ∧ before.length ≤ n ∧
      n < before.length + (Text.bytesOf (Json.array records)).length

variable {body t : List UInt8}

theorem lineFeed_not_mem_array (records : List Json.Record) :
    lineFeed ∉ Text.bytesOf (Json.array records) := by
  intro mem
  obtain ⟨c, inside, code⟩ := (Text.mem_encode (by decide)).mp mem
  have printed := Json.printed_array records c inside
  rw [code] at printed
  exact absurd printed (by decide)

/-- **A byte and the first line**: it belongs to the first line, or what matters are the lines
behind it. -/
theorem inArray_line (plain : lineFeed ∉ body) :
    InArray (body ++ lineFeed :: t) n ↔
      (n < body.length ∧ ∃ records, body = Text.bytesOf (Json.array records)) ∨
        (body.length < n ∧ InArray t (n - (body.length + 1))) := by
  constructor
  · rintro ⟨before, records, behind, eq, starts, lower, upper⟩
    rcases List.eq_nil_or_concat before with rfl | ⟨outer, b, rfl⟩
    · -- The array starts the first line, and so it is all of it.
      have ends := append_lineFeed_inj plain eq
      rcases ends with ⟨same, -⟩ | ⟨u, same, -⟩
      · exact Or.inl ⟨by simpa [same] using upper, records, same.symm⟩
      · exact absurd (by simp [same]) (lineFeed_not_mem_array records)
    · rw [List.concat_eq_append] at *
      obtain rfl := starts b (by simp)
      rw [List.append_assoc, List.singleton_append] at eq
      rw [List.length_append, List.length_singleton] at lower upper
      rcases append_lineFeed_inj plain eq with ⟨rfl, rfl⟩ | ⟨u, rfl, rfl⟩
      · exact Or.inr ⟨lower, [], records, behind, rfl, by simp, by simp, by simp; omega⟩
      · rw [List.length_append, List.length_cons] at lower upper
        refine Or.inr ⟨by omega, u ++ [lineFeed], records, behind, by simp, by simp, ?_, ?_⟩
        · simp; omega
        · simp; omega
  · rintro (⟨inside, records, rfl⟩ | ⟨past, before, records, behind, rfl, starts, lower, upper⟩)
    · exact ⟨[], records, t, rfl, by simp, by simp, by simpa using inside⟩
    · refine ⟨body ++ lineFeed :: before, records, behind, by simp, ?_, ?_, ?_⟩
      · cases before with
        | nil => simp
        | cons b before => simpa [List.getLast?_append] using starts
      · simp; omega
      · simp; omega

/-! ## Lines and arrays -/

/-- Whether an output with room for `n` bytes refuses the next one with the problem that `InArray`
tells. -/
def RefusedAt (outcome : Except Problem α) (events : List Event) (n : Nat) : Prop :=
  (InArray (Event.written events) n →
      (Event.deliver outcome (some n) events).outcome = .error (.array .writeFailed)) ∧
    (¬ InArray (Event.written events) n →
      (Event.deliver outcome (some n) events).outcome = .error (.stream .writeFailed))

/-- **One line**, if it is marked as an array just when it is one. -/
theorem refusedAt_line {text : String} {isArray : Bool} (plain : lineFeed ∉ Text.bytesOf text)
    (marked : isArray = true ↔ ∃ records, Text.bytesOf text = Text.bytesOf (Json.array records))
    (rest : ∀ n < (Event.written events).length, RefusedAt outcome events n)
    (short : n < (Event.written
      (.write ⟨text, isArray⟩ :: .write ⟨"\n", false⟩ :: events)).length) :
    RefusedAt outcome (.write ⟨text, isArray⟩ :: .write ⟨"\n", false⟩ :: events) n := by
  have ending : Text.bytesOf "\n" = [lineFeed] := rfl
  have lines : Event.written (.write ⟨text, isArray⟩ :: .write ⟨"\n", false⟩ :: events) =
      Text.bytesOf text ++ lineFeed :: Event.written events := by
    simp [Event.written, ending]
  rw [lines, List.length_append, List.length_cons] at short
  rw [RefusedAt, lines, inArray_line plain, ← marked]
  rcases Nat.lt_trichotomy n (Text.bytesOf text).length with inside | behind | past
  · rw [Event.deliver_write_of_lt _ inside]
    have before : ¬ (Text.bytesOf text).length < n := by omega
    cases isArray <;> simp [inside, before, Piece.refusal]
  · rw [Event.deliver_write_of_le _ (by omega),
      Event.deliver_write_of_lt _ (by rw [ending, List.length_singleton]; omega)]
    simp [behind, Receipt.behind, Piece.refusal]
  · rw [Event.deliver_write_of_le _ (by omega),
      Event.deliver_write_of_le _ (by rw [ending, List.length_singleton]; omega), ending,
      List.length_singleton, Nat.sub_sub]
    have outside : ¬ n < (Text.bytesOf text).length := by omega
    simp only [outside, past, false_and, false_or, true_and, Receipt.behind_outcome]
    exact rest _ (by omega)

/-- Whether some events write lines of text that are no arrays, and arrays that are marked as such
on lines of their own. -/
inductive Laid : List Event → Prop where
  | nil : Laid []
  | note (entry : LogEntry) {events : List Event} (rest : Laid events) :
      Laid (.note entry :: events)
  | line (text : String) (plain : '\n' ∉ text.toList) (other : '[' ∉ text.toList.head?)
      {events : List Event} (rest : Laid events) : Laid (.write ⟨text ++ "\n", false⟩ :: events)
  | array (records : List Json.Record) {events : List Event} (rest : Laid events) :
      Laid (.write ⟨Json.array records, true⟩ :: .write ⟨"\n", false⟩ :: events)

theorem Laid.append (left : Laid events) (right : Laid more) : Laid (events ++ more) := by
  induction left with
  | nil => exact right
  | note entry _ ih => exact .note entry ih
  | line text plain other _ ih => exact .line text plain other ih
  | array records _ ih => exact .array records ih

theorem lineFeed_not_mem_bytesOf {text : String} (plain : '\n' ∉ text.toList) :
    lineFeed ∉ Text.bytesOf text := by
  intro mem
  obtain ⟨c, inside, code⟩ := (Text.mem_encode (by decide)).mp mem
  obtain rfl : c = '\n' := Char.toNat_inj.mp code
  exact plain inside

theorem bytesOf_ne_array {text : String} (other : '[' ∉ text.toList.head?)
    (records : List Json.Record) : Text.bytesOf text ≠ Text.bytesOf (Json.array records) := by
  intro same
  have first : (Text.bytesOf text).head? = some 91 := by
    rw [same, Json.array, Text.bytesOf_append, Text.bytesOf_append]
    rfl
  obtain ⟨c, head, code⟩ := Text.head?_encode (by decide) first
  obtain rfl : c = '[' := Char.toNat_inj.mp code
  exact other head

/-- **The problem of an output that fails** in what is laid out: of the kind of arrays if the byte
that there is no room for belongs to an array, and else of the kind of all other output. -/
theorem Laid.refusedAt (laid : Laid events) (short : n < (Event.written events).length) :
    RefusedAt outcome events n := by
  induction laid generalizing n with
  | nil => cases short
  | note entry _ ih => exact ih short
  | line text plain other _ ih =>
    -- A line of text is written with its line feed, which makes no difference.
    have apart := fun room => Event.deliver_split outcome room text "\n" false
    have written := Event.written_split text "\n" false
    have never : ¬ ∃ records, Text.bytesOf text = Text.bytesOf (Json.array records) := by
      rintro ⟨records, same⟩
      exact bytesOf_ne_array other records same
    rw [written] at short
    rw [RefusedAt, apart, written]
    exact refusedAt_line (lineFeed_not_mem_bytesOf plain) (by simp [never]) (fun _ => ih) short
  | array records _ ih =>
    exact refusedAt_line (lineFeed_not_mem_array records) (iff_of_true rfl ⟨records, rfl⟩)
      (fun _ => ih) short

/-! ## Transcripts -/

/-- What a transcript comes to on an output with room for `n` bytes, as against one that takes
all. -/
structure Transcript.CutAt (transcript : Transcript α) (n : Nat) : Prop where
  /-- The output takes the first `n` bytes. -/
  taken : (transcript.deliver (some n)).taken = (transcript.deliver none).taken.take n
  /-- If these are all, nothing is different. -/
  fits : (transcript.deliver none).taken.length ≤ n →
    transcript.deliver (some n) = transcript.deliver none
  /-- A byte of an array is refused with a problem of the kind of arrays. -/
  array : n < (transcript.deliver none).taken.length → InArray (transcript.deliver none).taken n →
    (transcript.deliver (some n)).outcome = .error (.array .writeFailed)
  /-- Any other byte is refused with a problem of the kind of streams. -/
  other : n < (transcript.deliver none).taken.length → ¬ InArray (transcript.deliver none).taken n →
    (transcript.deliver (some n)).outcome = .error (.stream .writeFailed)
  /-- All this holds as well if the pieces are cut into smaller ones. -/
  finer : ∀ fine, Event.Finer fine transcript.events → ∀ room,
    Event.deliver transcript.outcome room fine = transcript.deliver room

theorem Transcript.cutAt {transcript : Transcript α} (laid : Laid transcript.events) (n : Nat) :
    transcript.CutAt n := by
  have all : (transcript.deliver none).taken = Event.written transcript.events :=
    (Event.deliver_none _ _).1
  constructor
  · rw [all]
    exact Event.deliver_taken _ _ _
  · rw [all]
    exact Event.deliver_fits
  · intro short
    rw [all] at short ⊢
    exact (laid.refusedAt short).1
  · intro short
    rw [all] at short ⊢
    exact (laid.refusedAt short).2
  · intro fine finer room
    exact Event.deliver_finer finer room

end ArithTokens
