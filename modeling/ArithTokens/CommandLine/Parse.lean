import ArithTokens.CommandLine.Options

/-!
# Reading the command line

Arguments are read from left to right, first those before the command and then those after it.

* An option is written `--name value`, `--name=value`, `-n value`, `-nvalue` or `-n=value`; letters
  of options without a value may share one dash. An option stands at most once at each level.
* What begins with a dash is an option and never the value of one; a single dash is not an option.
* After two dashes alone there are no more options.
* Asking for the **version** or for **help** ends the reading at once; all else that is wrong is an
  error of usage.

An option whose value is the next argument is settled only when the next option is met, or at the
end of its level.
-/

namespace ArithTokens.CommandLine

/-- Why reading stops before there is something to do. -/
inductive Halt where
  | usage
  | help
  /-- The version is asked for, at a level. -/
  | version (level : Level)
deriving DecidableEq, Repr

/-- What has been read at one level. -/
structure Reading where
  /-- The options with their values; those without a value have an empty one. -/
  given : List (Opt × String) := []
  /-- The arguments that are no options. -/
  words : List String := []
  /-- The option met last, with the value that followed it. -/
  pending : Option (Opt × Option String) := none
deriving DecidableEq, Repr

namespace Reading

/-- Whether an option is given. -/
def has (reading : Reading) (option : Opt) : Bool := (reading.given.lookup option).isSome

/-- The value of an option that is given. -/
def value? (reading : Reading) (option : Opt) : Option String := reading.given.lookup option

/-- Adds an option with its value. It must be **new**, and must take the value. -/
def settle (reading : Reading) (option : Opt) (value : String) : Except Halt Reading :=
  if reading.has option || !option.accepts value then
    .error .usage
  else
    .ok { reading with given := reading.given ++ [(option, value)] }

/-- Settles the option met last. Its value must have followed. -/
def resolve (reading : Reading) : Except Halt Reading :=
  match reading.pending with
  | none => .ok reading
  | some (_, none) => .error .usage
  | some (option, some value) => { reading with pending := none }.settle option value

/-- Meets an option without a value. -/
def meetFlag (level : Level) (reading : Reading) (option : Opt) : Except Halt Reading := do
  let reading ← reading.resolve
  match option with
  | .version => .error (.version level)
  | .help => .error .help
  | option => reading.settle option ""

/-- Meets an option that takes a value, which stands in the same argument or in the next. -/
def meetOption (reading : Reading) (option : Opt) (attached : Option String) :
    Except Halt Reading := do
  let reading ← reading.resolve
  match attached with
  | some value => reading.settle option value
  | none => .ok { reading with pending := some (option, none) }

/-- Reads an argument that begins with two dashes. -/
def readLong (level : Level) (reading : Reading) (body : List Char) : Except Halt Reading :=
  let name := String.ofList (body.takeWhile (· != '='))
  let attached : Option String :=
    match body.dropWhile (· != '=') with
    | [] => none
    | _ :: value => some (String.ofList value)
  match level.options.find? (·.long == name) with
  | none => .error .usage
  | some option =>
    if option.takesValue then
      reading.meetOption option attached
    else if attached.isSome then
      .error .usage
    else
      reading.meetFlag level option

/-- Reads the letters after a single dash. -/
def readShort (level : Level) : Reading → List Char → Except Halt Reading
  | reading, [] => .ok reading
  | reading, c :: rest =>
    match level.options.find? (·.short? == some c) with
    | none => .error .usage
    | some option =>
      if option.takesValue then
        match rest with
        | [] => reading.meetOption option none
        | '=' :: value => reading.meetOption option (some (String.ofList value))
        | value => reading.meetOption option (some (String.ofList value))
      else do
        let reading ← reading.meetFlag level option
        readShort level reading rest

/-- Reads an argument that is no option. -/
def readWord (level : Level) (reading : Reading) (word : String) : Except Halt Reading := do
  let reading ← reading.resolve
  if reading.words.length < level.wordLimit then
    .ok { reading with words := reading.words ++ [word] }
  else
    .error .usage

end Reading

/-! ## Levels -/

/-- How an argument is written. -/
inductive Shape where
  /-- Two dashes alone. -/
  | divider
  | long (body : List Char)
  | short (letters : List Char)
  | word
deriving DecidableEq, Repr

/-- The shape of an argument. -/
def Shape.of (argument : String) : Shape :=
  match argument.toList with
  | ['-', '-'] => .divider
  | '-' :: '-' :: body => .long body
  | ['-'] => .word
  | '-' :: letters => .short letters
  | _ => .word

/-- Reads the arguments that are left after two dashes alone. -/
def readWords (level : Level) : Reading → List String → Except Halt Reading
  | reading, [] => .ok reading
  | reading, word :: rest => do
    let reading ← reading.readWord level word
    readWords level reading rest

/-- Reads the arguments after the command. -/
def readAfter (command : CommandName) : Reading → List String → Except Halt Reading
  | reading, [] => .ok reading
  | reading, argument :: rest =>
    match Shape.of argument with
    | .divider => readWords (.after command) reading rest
    | .long body => do
      let reading ← reading.readLong (.after command) body
      readAfter command reading rest
    | .short letters => do
      let reading ← reading.readShort (.after command) letters
      readAfter command reading rest
    | .word =>
      match reading.pending with
      | some (option, none) =>
        readAfter command { reading with pending := some (option, some argument) } rest
      | _ => do
        let reading ← reading.readWord (.after command) argument
        readAfter command reading rest

/-- Reads the arguments up to the command, and gives the command with those after it. -/
def readTop : Reading → List String → Except Halt (Reading × Option (CommandName × List String))
  | reading, [] => .ok (reading, none)
  | reading, argument :: rest =>
    match Shape.of argument with
    | .divider => do
      let reading ← readWords .top reading rest
      .ok (reading, none)
    | .long body => do
      let reading ← reading.readLong .top body
      readTop reading rest
    | .short letters => do
      let reading ← reading.readShort .top letters
      readTop reading rest
    | .word =>
      match reading.pending with
      | some (option, none) => readTop { reading with pending := some (option, some argument) } rest
      | _ =>
        match (Named.ofName? argument : Option CommandName) with
        | some command => .ok (reading, some (command, rest))
        | none => if argument = "help" then .error .help else .error .usage

/-! ## The environment -/

/-- The variables of the environment that stand for shared options. -/
structure Environment where
  verbose : Option String := none
  config : Option String := none
  noColor : Option String := none
deriving DecidableEq, Repr

namespace Environment

/-- Whether a variable for a yes or no is not set, or says one of the two. -/
def isFlag : Option String → Bool
  | none | some "true" | some "false" => true
  | some _ => false

/-- Checks the variables of the options that are **not given at this level**. -/
def check (environment : Environment) (reading : Reading) : Except Halt Unit :=
  if (reading.has .verbose || isFlag environment.verbose) &&
      (reading.has .noColor || isFlag environment.noColor) &&
      (reading.has .config || environment.config != some "") then
    .ok ()
  else
    .error .usage

end Environment

/-! ## The whole line -/

/-- The options of a command that say how tokens are read and written. -/
def outputFlags (reading : Reading) : OutputFlags where
  format := (reading.value? .format).bind Named.ofName?
  spans := reading.has .spans
  overflow := (reading.value? .overflow).bind Named.ofName?

/-- The command with its arguments. An expression and a file **exclude** each other. -/
def taskOf (reading : Reading) : CommandName → Except Halt Task
  | .tokenize =>
    let expr := reading.words.head?
    let file := reading.value? .file
    if expr.isSome && file.isSome then .error .usage
    else .ok (.tokenize expr file (outputFlags reading))
  | .repl => .ok (.repl (outputFlags reading))
  | .demo => .ok .demo
  | .init => .ok (.init (reading.value? .path) (reading.has .force))

/-- Reads the arguments and the environment. What stands after the command comes before what stands
ahead of it, and the command line before the environment. -/
def parse (environment : Environment) (arguments : List String) : Except Halt Invocation := do
  let (top, found) ← readTop {} arguments
  match found with
  | none => .error .usage
  | some (name, rest) =>
    let after ← readAfter name {} rest
    let after ← after.resolve
    environment.check after
    let task ← taskOf after name
    let top ← top.resolve
    environment.check top
    let isOn (option : Opt) (setting : Option String) : Bool :=
      after.has option || top.has option || setting == some "true"
    .ok {
      verbose := isOn .verbose environment.verbose
      noColor := isOn .noColor environment.noColor
      config := ((after.value? .config).or (top.value? .config)).or environment.config
      task }

end ArithTokens.CommandLine
