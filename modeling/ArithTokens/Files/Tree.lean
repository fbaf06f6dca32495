import ArithTokens.Files.Access

/-!
# Trees of files

A tree holds directories and files below a root, each at its **spot**: the names that lead to it
from the root. A path is followed name by name from the root or from the working directory. A name
that is passed through must be a directory; `.` stays and `..` goes up, and the root is its own
parent. Names and paths are no longer than a file system allows.
-/

namespace ArithTokens

/-- What stands at a spot of a tree. -/
inductive Node where
  | directory
  | file (content : List UInt8)
deriving DecidableEq, Repr

/-- The names that lead from the root to a file or directory. -/
abbrev Spot := List String

/-- Directories and files below a root, and the working directory. -/
structure Tree where
  nodes : List (Spot × Node)
  working : Spot
deriving DecidableEq, Repr

namespace Tree

/-- What stands at a spot. The root is a directory. -/
def node? (tree : Tree) (spot : Spot) : Option Node :=
  if spot.isEmpty then some .directory else tree.nodes.lookup spot

/-- Puts a node at a spot, in the place of what stood there. -/
def put (tree : Tree) (spot : Spot) (node : Node) : Tree :=
  { tree with nodes := (spot, node) :: tree.nodes.filter (·.1 != spot) }

/-! ## Following paths -/

/-- The number of bytes that a name may have. -/
def longestName : Nat := 255

/-- The number of bytes that a path may have. -/
def longestPath : Nat := 4095

/-- What stands in a directory under a name, which must not be too long. -/
def entry? (tree : Tree) (here : Spot) (name : String) : Except FileError (Option Node) :=
  if longestName < Text.byteSize name.toList then .error .nameTooLong
  else .ok (tree.node? (here ++ [name]))

/-- Goes from a directory to the directory of this name. -/
def enter (tree : Tree) (here : Spot) (name : String) : Except FileError Spot :=
  if name = "." then .ok here
  else if name = ".." then .ok here.dropLast
  else
    match tree.entry? here name with
    | .error e => .error e
    | .ok (some .directory) => .ok (here ++ [name])
    | .ok (some (.file _)) => .error .notADirectory
    | .ok none => .error .notFound

/-- Goes from directory to directory. -/
def walk (tree : Tree) : Spot → List String → Except FileError Spot
  | here, [] => .ok here
  | here, name :: names =>
    match tree.enter here name with
    | .ok there => tree.walk there names
    | .error e => .error e

/-- Where a path ends. -/
inductive Target where
  /-- At a directory, by a dot or two, or because it is the root. -/
  | directory (spot : Spot)
  /-- At a name in a directory. -/
  | named (here : Spot) (last : String)
deriving DecidableEq, Repr

/-- Follows a path up to its last part, which need not be there. The empty path leads nowhere. -/
def approach (tree : Tree) (path : Path) : Except FileError Target :=
  if path.chars.contains '\x00' then .error .holdsNull
  else if longestPath < Text.byteSize path.chars then .error .nameTooLong
  else
    match path.parts.getLast? with
    | none => if path.absolute then .ok (.directory []) else .error .notFound
    | some last =>
      match tree.walk (if path.absolute then [] else tree.working) path.parts.dropLast with
      | .error e => .error e
      | .ok here =>
        if last = "." then .ok (.directory here)
        else if last = ".." then .ok (.directory here.dropLast)
        else .ok (.named here last)

/-- What a path leads to. -/
inductive Found where
  | directory (spot : Spot)
  | file (spot : Spot) (content : List UInt8)
  /-- Nothing, in a directory that is there. -/
  | nothing (spot : Spot)
deriving DecidableEq, Repr

/-- What stands where a path ends. -/
def Target.found (tree : Tree) : Target → Except FileError Found
  | .directory spot => .ok (.directory spot)
  | .named here name =>
    match tree.entry? here name with
    | .error e => .error e
    | .ok (some .directory) => .ok (.directory (here ++ [name]))
    | .ok (some (.file content)) => .ok (.file (here ++ [name]) content)
    | .ok none => .ok (.nothing (here ++ [name]))

/-- Follows a path to its end. -/
def find (tree : Tree) (path : Path) : Except FileError Found :=
  match tree.approach path with
  | .error e => .error e
  | .ok target => target.found tree

/-! ## File operations -/

/-- What a path names. A path that ends in a slash names no file. -/
def kindOf (tree : Tree) (path : Path) : Except FileError FileKind :=
  match tree.find path with
  | .error e => .error e
  | .ok (.directory _) => .ok .directory
  | .ok (.file _ _) => if path.slashed then .error .notADirectory else .ok .file
  | .ok (.nothing _) => .error .notFound

/-- The content of the file that a path names. -/
def read (tree : Tree) (path : Path) : Except FileError (List UInt8) :=
  match tree.find path with
  | .error e => .error e
  | .ok (.directory _) => .error .isADirectory
  | .ok (.file _ content) => if path.slashed then .error .notADirectory else .ok content
  | .ok (.nothing _) => .error .notFound

/-- Makes a directory where there is nothing yet. -/
def makeDirectory (tree : Tree) (path : Path) : Except FileError Unit × Tree :=
  match tree.find path with
  | .error e => (.error e, tree)
  | .ok (.nothing spot) => (.ok (), tree.put spot .directory)
  | .ok _ => (.error .alreadyExists, tree)

/-- Makes or replaces the file that a path names. A path that ends in a slash asks for a directory,
which cannot be written; its last name is **not even looked up**. -/
def write (tree : Tree) (path : Path) (content : List UInt8) : Except FileError Unit × Tree :=
  match tree.approach path with
  | .error e => (.error e, tree)
  | .ok target =>
    if path.slashed then (.error .isADirectory, tree)
    else
      match target.found tree with
      | .error e => (.error e, tree)
      | .ok (.directory _) => (.error .isADirectory, tree)
      | .ok (.file spot _) | .ok (.nothing spot) => (.ok (), tree.put spot (.file content))

instance : FileAccess (StateM Tree) where
  kindOf path := do return (← get).kindOf path
  read path := do return (← get).read path
  makeDirectory path := modifyGet (·.makeDirectory path)
  write path content := modifyGet (·.write path content)

/-! ## Listings -/

/-- Puts a node at a spot, and directories where they are missing on the way to it. -/
def plant (tree : Tree) (spot : Spot) (node : Node) : Tree :=
  let outer := (List.range spot.length).map spot.take
  let missing := outer.filter fun s => (tree.node? s).isNone
  (missing.foldl (fun t s => t.put s .directory) tree).put spot node

/-- The tree below a base: some directories, the first of which is the working directory, and
entries listed by path. An entry without content is a directory. -/
def ofListing (base : Spot) (directories : List String)
    (entries : List (String × Option (List UInt8))) : Tree :=
  let bare : Tree := ⟨[], base ++ directories.take 1⟩
  let furnished := directories.foldl (fun tree name => tree.plant (base ++ [name]) .directory) bare
  entries.foldl (fun tree (path, content) =>
    tree.plant (base ++ (Path.ofString path).parts) (content.elim .directory .file)) furnished

/-- All that lies below a base, listed by path, but for the given directories themselves. The path
of a directory ends in a slash. -/
def listing (tree : Tree) (base : Spot) (directories : List String) :
    List (String × Option (List UInt8)) :=
  tree.nodes.filterMap fun (spot, node) =>
    let below := spot.drop base.length
    if spot.take base.length != base || below.isEmpty || directories.any (below == [·]) then none
    else
      match node with
      | .directory => some ("/".intercalate below ++ "/", none)
      | .file content => some ("/".intercalate below, some content)

end Tree

end ArithTokens
