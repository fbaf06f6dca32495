import ArithTokens.Files.Access
import ArithTokens.Text.Quoted

/-!
# What can go wrong in a command

A command fails for one of a few causes. Each has a **kind**, a **message** for people, and a
**detail** that shows the kind and its content.
-/

namespace ArithTokens

/-- Why reading or writing a stream of bytes fails. -/
inductive StreamError where
  | file (cause : FileError)
  /-- A text file holds bytes that are no text. -/
  | notText
  | readFailed
  | writeFailed
deriving DecidableEq, Repr

namespace StreamError

/-- The wording of a cause. -/
def message : StreamError → String
  | .file cause => cause.message
  | .notText => "stream did not contain valid UTF-8"
  | .readFailed => "read failed"
  | .writeFailed => "write failed"

/-- A cause with its kind and content. -/
def detail : StreamError → String
  | .file cause =>
    let front :=
      match cause.code? with
      | some code => "Os \x7b code: " ++ code.repr ++ ", "
      | none => "Error \x7b "
    front ++ "kind: " ++ cause.kind ++ ", message: " ++ Text.quoted cause.reason ++ " \x7d"
  | .notText => "Error \x7b kind: InvalidData, message: " ++ Text.quoted notText.message ++ " \x7d"
  | e => "Custom \x7b kind: Other, error: " ++ Text.quoted e.message ++ " \x7d"

end StreamError

/-- Why a command fails. -/
inductive Problem where
  /-- The configuration file asked for is not there. -/
  | configNotFound (path : String)
  /-- The configuration file does not hold a configuration. -/
  | configInvalid
  /-- A file stands where the default configuration would be written. -/
  | targetExists (path : String)
  /-- The file of an expression cannot be read. -/
  | unreadable (path : String) (cause : FileError)
  /-- A stream or a file failed. -/
  | stream (cause : StreamError)
  /-- A stream failed inside a JSON array. -/
  | array (cause : StreamError)
deriving DecidableEq, Repr

/-- The kinds of problems. -/
inductive ProblemKind where
  | config
  | input
  | io
  | json
deriving DecidableEq, Repr

namespace ProblemKind

/-- The short name of a kind. -/
def name : ProblemKind → String
  | .config => "Config"
  | .input => "Input"
  | .io => "Io"
  | .json => "Json"

/-- The words that a message of this kind begins with. -/
def title : ProblemKind → String
  | .config => "Configuration error"
  | .input => "Input error"
  | .io => "IO error"
  | .json => "JSON error"

end ProblemKind

namespace Problem

/-- The kind of a problem. -/
def kind : Problem → ProblemKind
  | .configNotFound _ | .configInvalid | .targetExists _ => .config
  | .unreadable _ _ => .input
  | .stream _ => .io
  | .array _ => .json

/-- The wording of a problem, without its kind. -/
def reason : Problem → String
  | .configNotFound path => "Configuration file not found: " ++ path
  | .configInvalid => "Failed to parse configuration"
  | .targetExists path => path ++ " already exists (use --force to overwrite)"
  | .unreadable path cause => "cannot read " ++ path ++ ": " ++ cause.message
  | .stream cause | .array cause => cause.message

/-- The wording of a problem. -/
def message (problem : Problem) : String := problem.kind.title ++ ": " ++ problem.reason

/-- A problem with its kind and content. -/
def detail (problem : Problem) : String :=
  let content :=
    match problem with
    | .stream cause => cause.detail
    | .array cause => "Error(" ++ Text.quoted cause.message ++ ", line: 0, column: 0)"
    | problem => Text.quoted problem.reason
  problem.kind.name ++ "(" ++ content ++ ")"

end Problem

end ArithTokens
