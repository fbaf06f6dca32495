import ArithTokens.Files.Path

/-!
# Access to files

`FileAccess` is what the program needs of a file system: to ask what a path names, to read a file,
to make a directory and to write a file. Everything else is built from these, so that it is the
same on a disk and on a tree kept in memory.

`makeDirectories` makes a directory with all that lead to it, **from the outermost one on**.
-/

namespace ArithTokens

/-- Why a file operation fails. -/
inductive FileError where
  | notFound
  | alreadyExists
  | notADirectory
  | isADirectory
  /-- A name on the path, or the path itself, is too long. -/
  | nameTooLong
  /-- The path holds a character that ends texts in the file system. It is refused unseen. -/
  | holdsNull
  /-- Any other cause, by its number and its wording. -/
  | other (code : Nat) (reason : String)
deriving DecidableEq, Repr

namespace FileError

/-- The number of a cause, if the file system has one for it. -/
def code? : FileError → Option Nat
  | .notFound => some 2
  | .alreadyExists => some 17
  | .notADirectory => some 20
  | .isADirectory => some 21
  | .nameTooLong => some 36
  | .holdsNull => none
  | .other code _ => some code

/-- The name of a cause. -/
def kind : FileError → String
  | .notFound => "NotFound"
  | .alreadyExists => "AlreadyExists"
  | .notADirectory => "NotADirectory"
  | .isADirectory => "IsADirectory"
  | .nameTooLong => "InvalidFilename"
  | .holdsNull => "InvalidInput"
  | .other _ _ => "Uncategorized"

/-- The wording of a cause. -/
def reason : FileError → String
  | .notFound => "No such file or directory"
  | .alreadyExists => "File exists"
  | .notADirectory => "Not a directory"
  | .isADirectory => "Is a directory"
  | .nameTooLong => "File name too long"
  | .holdsNull => "file name contained an unexpected NUL byte"
  | .other _ reason => reason

/-- The cause with a number; its wording is needed only if no other cause has that number. -/
def ofCode (code : Nat) (reason : String) : FileError :=
  match code with
  | 2 => .notFound
  | 17 => .alreadyExists
  | 20 => .notADirectory
  | 21 => .isADirectory
  | 36 => .nameTooLong
  | code => .other code reason

/-- The wording of a cause, with its number. -/
def message (e : FileError) : String :=
  match e.code? with
  | some code => s!"{e.reason} (os error {code})"
  | none => e.reason

end FileError

/-- What a path names. -/
inductive FileKind where
  | file
  | directory
deriving DecidableEq, Repr

/-- The file operations of the program. -/
class FileAccess (m : Type → Type) where
  /-- What a path names. -/
  kindOf : Path → m (Except FileError FileKind)
  /-- The content of a file. -/
  read : Path → m (Except FileError (List UInt8))
  /-- Makes one directory. -/
  makeDirectory : Path → m (Except FileError Unit)
  /-- Makes a file with this content, or gives a file this content. -/
  write : Path → List UInt8 → m (Except FileError Unit)

namespace FileAccess

variable {m : Type → Type} [Monad m] [FileAccess m]

/-- Whether a path names anything. -/
def isThere (path : Path) : m Bool := do
  match ← kindOf path with
  | .ok _ => pure true
  | .error _ => pure false

/-- Whether a path names a directory. -/
def isDirectory (path : Path) : m Bool := do
  match ← kindOf path with
  | .ok .directory => pure true
  | _ => pure false

/-- Makes one directory, unless it is there already. -/
def ensureDirectory (path : Path) : m (Except FileError Unit) := do
  match ← makeDirectory path with
  | .ok () => pure (.ok ())
  | .error e => if ← isDirectory path then pure (.ok ()) else pure (.error e)

/-- Makes the first of some directories, each of which is held by the next. It is tried first on
its own; only if nothing is there to hold it are the others made, and then it is tried again. -/
def makeEach : List Path → m (Except FileError Unit)
  | [] => pure (.ok ())
  | path :: holders => do
    match ← ensureDirectory path with
    | .error .notFound =>
      match ← makeEach holders with
      | .ok () => ensureDirectory path
      | .error e => pure (.error e)
    | done => pure done

/-- Makes a directory and those that lead to it; the empty path needs nothing. -/
def makeDirectories (path : Path) : m (Except FileError Unit) := makeEach path.outward

end FileAccess

end ArithTokens
