import ArithTokens.Overflow

/-!
# Log lines

A command notes what it does. A note has a **level**; those at the lowest level are written only
when the program is told to be verbose.
-/

namespace ArithTokens

/-- How much a note matters. -/
inductive LogLevel where
  | debug
  | info
  | error
deriving DecidableEq, Repr

/-- The level's word in a log line. -/
def LogLevel.label : LogLevel → String
  | .debug => "DEBUG"
  | .info => "INFO"
  | .error => "ERROR"

/-- The number of the level's colour on a terminal. -/
def LogLevel.color : LogLevel → Nat
  | .debug => 34
  | .info => 32
  | .error => 31

/-- What a command notes. -/
inductive LogEntry where
  /-- A whole input was read: its size, its tokens, and how many of them are unknown. -/
  | tokenizedInput (bytes tokens unknown : Nat) (policy : Overflow)
  /-- A line was read. -/
  | tokenizedLine (line tokens : Nat)
  /-- The input of lines ended. -/
  | inputClosed (lines : Nat)
  /-- A default configuration was written. -/
  | wroteDefaults (path : String)
  /-- The command failed. -/
  | failed (message : String)
deriving DecidableEq, Repr

/-! ## Messages that come from outside -/

/-- How one character of a message is written. The characters that could **steer a terminal** are
written by their numbers: five control characters of one byte, and those from `80` to `9f`. -/
def defuseChar (c : Char) : List Char :=
  match c with
  | '\x07' => "\\x07".toList
  | '\x08' => "\\x08".toList
  | '\x0c' => "\\x0c".toList
  | '\x1b' => "\\x1b".toList
  | '\x7f' => "\\x7f".toList
  | c =>
    if 0x80 ≤ c.toNat && c.toNat ≤ 0x9f then
      ['\\', 'u', '{'] ++ Nat.toDigits 16 c.toNat ++ ['}']
    else
      [c]

/-- A message that cannot steer a terminal. -/
def defuse (message : String) : String := String.ofList (message.toList.flatMap defuseChar)

/-! ## Lines -/

namespace LogEntry

/-- The level of a note. -/
def level : LogEntry → LogLevel
  | .tokenizedInput .. | .tokenizedLine .. => .debug
  | .inputClosed _ | .wroteDefaults _ => .info
  | .failed _ => .error

/-- The words of a note, with its values by name. A value is written as it is. -/
def words : LogEntry → String
  | .tokenizedInput bytes tokens unknown policy =>
    s!"tokenized input bytes={bytes} tokens={tokens} unknown={unknown} policy={policy.label}"
  | .tokenizedLine line tokens => s!"tokenized line line={line} tokens={tokens}"
  | .inputClosed lines => s!"input closed lines={lines}"
  | .wroteDefaults path => s!"wrote default configuration path={path}"
  | .failed message => defuse message

/-- A note's line in the log. -/
def line (entry : LogEntry) : String := entry.level.label ++ " " ++ entry.words

/-- A note's line in a log that is in colour. -/
def colorLine (entry : LogEntry) : String :=
  "\x1b[" ++ entry.level.color.repr ++ "m" ++ entry.level.label ++ "\x1b[0m " ++ entry.words

/-- Whether a note is written. -/
def isShown (verbose : Bool) (entry : LogEntry) : Bool := verbose || entry.level != .debug

end LogEntry

end ArithTokens
