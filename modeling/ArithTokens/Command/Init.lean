import ArithTokens.Config.Store

/-!
# Writing a default configuration

The default configuration is written to a file. A file or directory that is there already is left
alone unless the command is **forced**.
-/

namespace ArithTokens.Command

variable {m : Type → Type} [Monad m] [FileAccess m]

/-- Writes the default configuration to the file of this name. -/
def writeDefaults (name : String) (force : Bool) : m (Except Problem Unit) := do
  let path := Path.ofString name
  let taken ← FileAccess.isThere path
  if taken && !force then
    pure (.error (.targetExists name))
  else
    match ← Config.save {} path with
    | .ok () => pure (.ok ())
    | .error cause => pure (.error (.stream (.file cause)))

/-- Writes the default configuration where it was asked for, or else in the working directory, and
gives the name of the file. -/
def init (target : Option String) (force : Bool) : m (Transcript String) := do
  let name := target.getD Config.fileName
  match ← writeDefaults name force with
  | .ok () => pure ⟨[.note (.wroteDefaults name)], .ok name⟩
  | .error problem => pure ⟨[], .error problem⟩

end ArithTokens.Command
