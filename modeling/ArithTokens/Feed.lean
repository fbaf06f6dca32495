import ArithTokens.Problem
import ArithTokens.Text.Decode

/-!
# The input of a command

A feed is what a command reads from its input: some bytes, after which the input **ends** or
**breaks**. It is read as a whole or line by line. A line ends with a line feed, which does not
belong to it, nor does one carriage return before it; what follows the last line feed is a line if
there is any of it and the input does not break there.
-/

namespace ArithTokens

/-- The bytes of an input, and whether it breaks after them. -/
structure Feed where
  bytes : List UInt8
  breaks : Bool := false
deriving DecidableEq, Repr

namespace Feed

/-- The whole input; nothing of an input that breaks. -/
def readAll (feed : Feed) : Except StreamError (List UInt8) :=
  if feed.breaks then .error .readFailed else .ok feed.bytes

/-- The byte that ends a line. -/
def lineFeed : UInt8 := 10

/-- The byte that may stand before it. -/
def carriageReturn : UInt8 := 13

/-- The bytes up to each line feed, and those after the last one. -/
def splitLines : List UInt8 → List (List UInt8) × List UInt8
  | [] => ([], [])
  | b :: bytes =>
    let (lines, rest) := splitLines bytes
    if b = lineFeed then
      ([] :: lines, rest)
    else
      match lines with
      | [] => ([], b :: rest)
      | line :: others => ((b :: line) :: others, rest)

/-- A line without the carriage return that ends it. -/
def stripReturn (line : List UInt8) : List UInt8 :=
  if line.getLast? = some carriageReturn then line.dropLast else line

/-- The lines of an input. -/
def lines (feed : Feed) : List (List UInt8) :=
  let (complete, rest) := splitLines feed.bytes
  complete.map stripReturn ++ (if rest.isEmpty || feed.breaks then [] else [rest])

end Feed

end ArithTokens
