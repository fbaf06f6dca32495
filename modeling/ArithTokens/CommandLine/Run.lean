import ArithTokens.Command.Demo
import ArithTokens.Command.Init
import ArithTokens.Command.Repl
import ArithTokens.CommandLine.Parse

/-!
# Running the program

The program reads its command line, loads its configuration, and does what it is asked to. What it
notes is logged only once the configuration is loaded. An option of the command line comes before
the setting of the configuration; positions are written if **either** asks for them.
-/

namespace ArithTokens.CommandLine

/-- How a run ends. -/
inductive Outcome where
  | done
  /-- The command line is wrong. -/
  | usage
  | failed (problem : Problem)
deriving DecidableEq, Repr

/-- The number that a run ends with. -/
def Outcome.exitCode : Outcome → Nat
  | .done => 0
  | .failed _ => 1
  | .usage => 2

/-- What comes of a run. -/
structure Report where
  outcome : Outcome
  /-- What is written to the output. -/
  out : List UInt8 := []
  /-- What is logged. -/
  notes : List LogEntry := []
  /-- Whether the log is in colour. -/
  color : Bool := true
deriving DecidableEq, Repr

/-- The version of the program. -/
def versionNumber : String := "0.1.0"

/-- How the command line is written. -/
def usageText : String := "Usage: calct [OPTIONS] <tokenize|repl|demo|init>"

/-- What is shown to someone who asks for help. -/
def helpText : String := "Prints the tokens of calculator expressions\n\n" ++ usageText ++ "\n"

/-- The run of a command line that asks for nothing to be done. -/
def Halt.report : Halt → Report
  | .usage => { outcome := .usage }
  | .help => { outcome := .done, out := Text.bytesOf helpText }
  | .version level =>
    { outcome := .done, out := Text.bytesOf (level.programName ++ " " ++ versionNumber ++ "\n") }

/-- How tokens are read and written: as the command line says, or else as the configuration
says. -/
def OutputFlags.settings (flags : OutputFlags) (config : Config) : Command.Settings where
  render :=
    { format := flags.format.getD config.output.format
      spans := flags.spans || config.output.spans }
  policy := flags.overflow.getD config.overflow

/-- A transcript with a further note if all went well. -/
def noteEnd {α : Type} (entry : α → LogEntry) (transcript : Transcript α) : Transcript Unit :=
  match transcript.outcome with
  | .ok value => ⟨transcript.events ++ [.note (entry value)], .ok ()⟩
  | .error problem => ⟨transcript.events, .error problem⟩

variable {m : Type → Type} [Monad m] [FileAccess m]

/-- The transcript of a command. -/
def Task.transcript (config : Config) (feed : Feed) : Task → m (Transcript Unit)
  | .tokenize expr file output => Command.tokenize (output.settings config) expr file feed
  | .repl output => pure (noteEnd .inputClosed (Command.repl (output.settings config) feed))
  | .demo => pure Command.demo
  | .init path force => do
    let transcript ← Command.init path force
    pure ⟨transcript.events, transcript.outcome.map fun _ => ()⟩

/-- The report on a command whose transcript is known. A failure is noted last. -/
def reportOn (verbose color : Bool) (transcript : Transcript Unit) : Report :=
  let receipt := transcript.deliver none
  let (outcome, last) : Outcome × List LogEntry :=
    match receipt.outcome with
    | .ok () => (.done, [])
    | .error problem => (.failed problem, [.failed problem.message])
  { outcome
    out := receipt.taken
    notes := (receipt.notes ++ last).filter (·.isShown verbose)
    color }

/-- Does what the command line asks for. -/
def Invocation.run (site : Config.Site) (feed : Feed) (invocation : Invocation) : m Report := do
  match ← Config.load site invocation.config with
  | .error problem => pure { outcome := .failed problem }
  | .ok config =>
    let transcript ← invocation.task.transcript config feed
    pure (reportOn (invocation.verbose || config.verbose) (!invocation.noColor) transcript)

/-- Runs the program. -/
def run (site : Config.Site) (environment : Environment) (arguments : List String) (feed : Feed) :
    m Report :=
  match parse environment arguments with
  | .error halt => pure halt.report
  | .ok invocation => invocation.run site feed

end ArithTokens.CommandLine
