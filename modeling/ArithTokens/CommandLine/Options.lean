import ArithTokens.Config

/-!
# The options of the command line

The program has four commands. Some options are **shared**: they may stand before the command and
after it. The others belong to a command and stand after it.
-/

namespace ArithTokens.CommandLine

/-- The commands. -/
inductive CommandName where
  | tokenize
  | repl
  | demo
  | init
deriving DecidableEq, Repr

instance : Named CommandName where
  all := [.tokenize, .repl, .demo, .init]
  name
    | .tokenize => "tokenize"
    | .repl => "repl"
    | .demo => "demo"
    | .init => "init"

/-- The options, shared ones first. -/
inductive Opt where
  | verbose
  | config
  | noColor
  | help
  | version
  | format
  | spans
  | overflow
  | file
  | path
  | force
deriving DecidableEq, Repr

namespace Opt

/-- The name of an option after two dashes. -/
def long : Opt → String
  | .verbose => "verbose"
  | .config => "config"
  | .noColor => "no-color"
  | .help => "help"
  | .version => "version"
  | .format => "format"
  | .spans => "spans"
  | .overflow => "overflow"
  | .file => "file"
  | .path => "path"
  | .force => "force"

/-- The letter of an option after one dash. -/
def short? : Opt → Option Char
  | .verbose => some 'v'
  | .config => some 'c'
  | .noColor => none
  | .help => some 'h'
  | .version => some 'V'
  | .format => some 'F'
  | .spans => some 's'
  | .overflow => none
  | .file => some 'f'
  | .path => some 'p'
  | .force => some 'f'

/-- Whether a value belongs to an option. -/
def takesValue : Opt → Bool
  | .config | .format | .overflow | .file | .path => true
  | _ => false

/-- Whether an option takes this value: a path is not empty, and a choice has one of its names. -/
def accepts (value : String) : Opt → Bool
  | .config | .file | .path => value != ""
  | .format => (Named.ofName? value : Option Format).isSome
  | .overflow => (Named.ofName? value : Option Overflow).isSome
  | _ => true

end Opt

/-- Where an argument stands: before the command, or after it. -/
inductive Level where
  | top
  | after (command : CommandName)
deriving DecidableEq, Repr

namespace Level

/-- The options that may stand before the command and after it. -/
def shared : List Opt := [.verbose, .config, .noColor, .help, .version]

/-- The options that may stand at a level. -/
def options : Level → List Opt
  | .top => shared
  | .after .tokenize => shared ++ [.file, .format, .spans, .overflow]
  | .after .repl => shared ++ [.format, .spans, .overflow]
  | .after .demo => shared
  | .after .init => shared ++ [.path, .force]

/-- How many arguments that are no options may stand at a level. -/
def wordLimit : Level → Nat
  | .after .tokenize => 1
  | _ => 0

/-- The program's name as it is shown at a level. -/
def programName : Level → String
  | .top => "calct"
  | .after command => "calct-" ++ Named.name command

end Level

/-! ## What was asked for -/

/-- The options that say how tokens are read and written. -/
structure OutputFlags where
  format : Option Format := none
  spans : Bool := false
  overflow : Option Overflow := none
deriving DecidableEq, Repr

/-- A command with its own arguments. -/
inductive Task where
  | tokenize (expr file : Option String) (output : OutputFlags)
  | repl (output : OutputFlags)
  | demo
  | init (path : Option String) (force : Bool)
deriving DecidableEq, Repr

/-- A command and the shared options. -/
structure Invocation where
  verbose : Bool
  noColor : Bool
  config : Option String
  task : Task
deriving DecidableEq, Repr

/-- Whether a command reads the input. -/
def Task.readsInput : Task → Bool
  | .tokenize none none _ | .repl _ => true
  | _ => false

end ArithTokens.CommandLine
