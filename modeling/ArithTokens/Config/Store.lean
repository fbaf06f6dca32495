import ArithTokens.Config
import ArithTokens.Files.Access
import ArithTokens.Toml.Document

/-!
# Configuration files

A configuration file is named on the command line, or it is the **first** of three that is there:
in the working directory, below the home directory, and in the directory for configurations. A file
that is there counts even if it cannot be read.
-/

namespace ArithTokens.Config

/-- The directories outside the working directory in which a configuration is looked for. -/
structure Site where
  home : Option String := none
  configHome : Option String := none
deriving DecidableEq, Repr

/-- The directories that the variables of the environment name. A home directory without a name
does not count; the directory for configurations must be named from the root, and is otherwise the
usual one in the home directory. -/
def Site.ofVariables (home configHome : Option String) : Site :=
  let home := home.filter (· != "")
  { home
    configHome := (configHome.filter fun name => (Path.ofString name).absolute).or
      (home.map fun name => ((Path.ofString name).join [".config"]).toString) }

/-- The name of a configuration file. -/
def fileName : String := "calct.toml"

/-- The name of the directory that holds configuration files. -/
def directoryName : String := "calct"

/-- The places of a configuration file, in the order in which they are tried. -/
def candidates (site : Site) : List Path :=
  [Path.ofString fileName] ++
    (site.home.map fun home =>
      (Path.ofString home).join [".config", directoryName, fileName]).toList ++
    (site.configHome.map fun home => (Path.ofString home).join [directoryName, fileName]).toList

variable {m : Type → Type} [Monad m] [FileAccess m]

/-- Reads the configuration of a file that is there. -/
def readFile (path : Path) : m (Except Problem Config) := do
  match ← FileAccess.read path with
  | .error cause => pure (.error (.stream (.file cause)))
  | .ok bytes =>
    match Text.decode? bytes with
    | none => pure (.error (.stream .notText))
    | some text =>
      match (Toml.parse? text).bind ofToml? with
      | none => pure (.error .configInvalid)
      | some config => pure (.ok config)

/-- Reads the configuration file of this name. -/
def loadFrom (name : String) : m (Except Problem Config) := do
  if ← FileAccess.isThere (Path.ofString name) then
    readFile (Path.ofString name)
  else
    pure (.error (.configNotFound name))

/-- The first of some paths that names anything. -/
def firstThere : List Path → m (Option Path)
  | [] => pure none
  | path :: paths => do if ← FileAccess.isThere path then pure (some path) else firstThere paths

/-- Reads the configuration file that is found, or takes the defaults where there is none. -/
def find (site : Site) : m (Except Problem Config) := do
  match ← firstThere (candidates site) with
  | some path => readFile path
  | none => pure (.ok {})

/-- Reads the configuration file of a name, or the one that is found. -/
def load (site : Site) : Option String → m (Except Problem Config)
  | some name => loadFrom name
  | none => find site

/-- Writes a configuration to a file, with the directories that lead to it. -/
def save (config : Config) (path : Path) : m (Except FileError Unit) := do
  let ready ← match path.parent? with
    | some parent => FileAccess.makeDirectories parent
    | none => pure (.ok ())
  match ready with
  | .ok () => FileAccess.write path (Text.bytesOf config.toToml)
  | .error cause => pure (.error cause)

end ArithTokens.Config
