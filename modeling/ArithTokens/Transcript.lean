import ArithTokens.Log
import ArithTokens.Problem
import ArithTokens.Text.Decode

/-!
# What a command writes and notes

A command's **transcript** is the list of all that it writes and notes, in order, and how it ends.
`Transcript.deliver` hands a transcript to an output that may take only so many bytes: what it
takes is then a prefix of what the command writes, and the command ends where the output does.
-/

namespace ArithTokens

/-- A piece of output that is written as a whole. -/
structure Piece where
  text : String
  /-- Whether the piece is a JSON array: an output that fails inside one is a problem of its own
  kind. -/
  isArray : Bool
deriving DecidableEq, Repr

/-- One thing that a command does. -/
inductive Event where
  | write (piece : Piece)
  | note (entry : LogEntry)
deriving DecidableEq, Repr

/-- All that a command does, and how it ends. -/
structure Transcript (α : Type) where
  events : List Event
  outcome : Except Problem α

/-- What came of a transcript: the bytes taken, the notes made up to the end, and how it ended. -/
structure Receipt (α : Type) where
  taken : List UInt8
  notes : List LogEntry
  outcome : Except Problem α

/-- The problem of an output that fails while it takes this piece. -/
def Piece.refusal (piece : Piece) : Problem :=
  if piece.isArray then .array .writeFailed else .stream .writeFailed

/-- Does a list of events. An output with `room` for some number of bytes takes that many and
**fails at the next byte**; one without such a limit takes all. -/
def Event.deliver {α : Type} (outcome : Except Problem α) :
    Option Nat → List Event → Receipt α
  | _, [] => ⟨[], [], outcome⟩
  | room, .note entry :: events =>
    let receipt := deliver outcome room events
    { receipt with notes := entry :: receipt.notes }
  | none, .write piece :: events =>
    let receipt := deliver outcome none events
    { receipt with taken := Text.bytesOf piece.text ++ receipt.taken }
  | some room, .write piece :: events =>
    let bytes := Text.bytesOf piece.text
    if bytes.length ≤ room then
      let receipt := deliver outcome (some (room - bytes.length)) events
      { receipt with taken := bytes ++ receipt.taken }
    else
      ⟨bytes.take room, [], .error piece.refusal⟩

/-- Hands a transcript to an output with `room` for so many bytes, or for all. -/
def Transcript.deliver {α : Type} (transcript : Transcript α) (room : Option Nat) : Receipt α :=
  Event.deliver transcript.outcome room transcript.events

end ArithTokens
