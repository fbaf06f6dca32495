import ArithTokens.Text.Size

/-!
# Spans of source text

A span names a stretch of text by the byte offsets `start` and `stop` of its ends, and carries the
line and column of its first character for messages. Nothing keeps the two offsets in order: a
span may be **inverted**, and one made by hand need not fit any text.

* `Span.cover` is the least span around two spans;
* `Span.slice` cuts the named stretch out of a text, or says why there is none.
-/

namespace ArithTokens

/-- A stretch of text from byte `start` up to byte `stop`, whose first character stands at `line`
and `column`. -/
structure Span where
  start : Nat
  stop : Nat
  line : UInt32
  column : UInt32
deriving DecidableEq, Repr, Inhabited

/-- Why a span names no stretch of a text. -/
inductive SpanError where
  /-- The span ends before it starts. -/
  | inverted (start stop : Nat)
  /-- The span ends past the last byte of a text of `size` bytes. -/
  | outOfBounds (size start stop : Nat)
  /-- An end of the span lies inside a character. -/
  | splitsCharacter (offset : Nat)
deriving DecidableEq, Repr

/-- The wording of each cause. -/
def SpanError.message : SpanError → String
  | .inverted start stop => s!"Invalid span: start {start} > end {stop}"
  | .outOfBounds size start stop =>
    s!"Span out of bounds: source has {size} bytes, span is {start}..{stop}"
  | .splitsCharacter offset => s!"Span edge at byte {offset} is not on a character boundary"

namespace Span

/-- The span that stands for no place at all. -/
def nowhere : Span := ⟨0, 0, 0, 0⟩

/-- A place known by its line and column only. -/
def point (line column : UInt32) : Span := ⟨0, 0, line, column⟩

/-- A span is empty unless it starts before it ends. -/
def isEmpty (s : Span) : Bool := decide (s.stop ≤ s.start)

/-- The number of bytes of a span; an inverted span has none. -/
def length (s : Span) : Nat := s.stop - s.start

/-- Whether a byte offset lies inside a span. -/
def contains (s : Span) (offset : Nat) : Bool := decide (s.start ≤ offset ∧ offset < s.stop)

/-- The least span around two spans. It stands where the one that **starts first** stands, and the
left one if both start together. -/
def cover (s t : Span) : Span :=
  let first := if t.start < s.start then t else s
  { start := Nat.min s.start t.start
    stop := Nat.max s.stop t.stop
    line := first.line
    column := first.column }

/-- A span is written as the line and column of its first character. -/
def describe (s : Span) : String := s!"{s.line.toNat}:{s.column.toNat}"

/-- The stretch of `text` that a span names. The ends must be **in order**, then **within the
text**, then **between characters**, the first end before the second; the first rule that is broken
is the one reported. -/
def slice (s : Span) (text : String) : Except SpanError String :=
  let chars := text.toList
  let size := Text.byteSize chars
  if s.stop < s.start then
    .error (.inverted s.start s.stop)
  else if size < s.stop then
    .error (.outOfBounds size s.start s.stop)
  else
    match Text.dropBytes? s.start chars with
    | none => .error (.splitsCharacter s.start)
    | some rest =>
      match Text.takeBytes? (s.stop - s.start) rest with
      | none => .error (.splitsCharacter s.stop)
      | some inside => .ok (String.ofList inside)

/-- The least span around a list of spans, if there are any. -/
def coverAll? : List Span → Option Span
  | [] => none
  | s :: rest => some (rest.foldl cover s)

end Span

end ArithTokens
