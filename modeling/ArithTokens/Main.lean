import ArithTokens.CommandLine.Run

/-!
# The program

The program proper is `CommandLine.run`. Here it meets the world: the arguments, the environment,
the files of the disk, and the three standard streams. The input is read only by a command that
asks for it.
-/

namespace ArithTokens.Main

/-- The number of a failure, which some operations give with its sign turned around. -/
def failureCode (code : UInt32) : Nat :=
  if code < 0x80000000 then code.toNat else (0 - code).toNat

/-- The cause of a failed file operation. -/
def fileError : IO.Error → FileError
  | .noFileOrDirectory _ code reason | .otherError code reason => .ofCode (failureCode code) reason
  | .alreadyExists _ code reason | .inappropriateType _ code reason
  | .noSuchThing _ code reason | .permissionDenied _ code reason
  | .resourceExhausted _ code reason | .invalidArgument _ code reason =>
    .ofCode (failureCode code) reason
  | e => .other 5 e.toString

/-- Does a file operation and catches its failure. -/
def attempt {α : Type} (action : IO α) : IO (Except FileError α) := do
  try
    return .ok (← action)
  catch e =>
    return .error (fileError e)

instance : FileAccess IO where
  kindOf path := attempt do
    let found ← IO.FS.realPath path.toString
    return if ← found.isDir then .directory else .file
  read path := attempt do
    return (← IO.FS.readBinFile path.toString).toList
  makeDirectory path := attempt (IO.FS.createDir path.toString)
  write path content := attempt (IO.FS.writeBinFile path.toString content.toByteArray)

/-- Reads what is left of a stream. -/
partial def readRest (stream : IO.FS.Stream) (read : ByteArray) : IO ByteArray := do
  let chunk ← stream.read 65536
  if chunk.isEmpty then return read else readRest stream (read ++ chunk)

/-- Reads the input, if it is asked for. -/
def readFeed (wanted : Bool) : IO Feed := do
  if !wanted then return ⟨[], false⟩
  let stream ← IO.getStdin
  try
    return ⟨(← readRest stream .empty).toList, false⟩
  catch _ =>
    return ⟨[], true⟩

/-- Writes what comes of a run, and gives the number that the program ends with. -/
def present (report : CommandLine.Report) : IO UInt32 := do
  let out ← IO.getStdout
  out.write report.out.toByteArray
  out.flush
  for entry in report.notes do
    IO.eprintln (if report.color then entry.colorLine else entry.line)
  match report.outcome with
  | .done => pure ()
  | .usage => IO.eprintln CommandLine.usageText
  | .failed problem => IO.eprintln ("Error: " ++ problem.detail)
  return UInt32.ofNat report.outcome.exitCode

/-- Runs the program in the world. -/
def runProgram (arguments : List String) : IO UInt32 := do
  let site := Config.Site.ofVariables (← IO.getEnv "HOME") (← IO.getEnv "XDG_CONFIG_HOME")
  let environment : CommandLine.Environment :=
    { verbose := ← IO.getEnv "CALCT_VERBOSE"
      config := ← IO.getEnv "CALCT_CONFIG"
      noColor := ← IO.getEnv "CALCT_NO_COLOR" }
  let wanted := (CommandLine.parse environment arguments).toOption.any (·.task.readsInput)
  present (← CommandLine.run site environment arguments (← readFeed wanted))

end ArithTokens.Main

/-- The program. -/
def main (arguments : List String) : IO UInt32 := ArithTokens.Main.runProgram arguments
