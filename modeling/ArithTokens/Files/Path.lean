import ArithTokens.Text.Size

/-!
# Paths

A path is kept as the **stretches** of text between its slashes, so that nothing of its spelling is
lost. It starts at the root if its first stretch is empty and not the only one, and at the working
directory otherwise. A stretch that is empty or a single dot **stays put**; every other one, and a
first dot, is a step.

* `Path.ofString` reads a path and `Path.toString` writes it, letter for letter;
* `Path.parent?` is the path without its last step;
* `Path.outward` is a path with all that lead to it.
-/

namespace ArithTokens

/-- A path of a file or directory. -/
structure Path where
  /-- The stretches between the slashes, of which there is one more than slashes. -/
  stretches : List String
deriving DecidableEq, Repr

namespace Path

/-! ## Reading and writing -/

/-- The stretches of a text between its slashes. -/
def split : List Char → List (List Char)
  | [] => [[]]
  | c :: cs =>
    if c = '/' then
      [] :: split cs
    else
      match split cs with
      | [] => [[c]]
      | s :: rest => (c :: s) :: rest

/-- Stretches with a slash between each two. -/
def unsplit : List (List Char) → List Char
  | [] => []
  | [s] => s
  | s :: rest => s ++ '/' :: unsplit rest

theorem split_ne_nil (text : List Char) : split text ≠ [] := by
  cases text with
  | nil => simp [split]
  | cons c cs =>
    rw [split]
    split
    · simp
    · split <;> simp

/-- The stretches of a text hold all of it. -/
theorem unsplit_split (text : List Char) : unsplit (split text) = text := by
  induction text with
  | nil => rfl
  | cons c cs ih =>
    rw [split]
    obtain ⟨s, rest, found⟩ := List.exists_cons_of_ne_nil (split_ne_nil cs)
    rw [found] at ih ⊢
    by_cases slash : c = '/'
    · simp [slash, unsplit, ih]
    · cases rest with
      | nil => simpa [slash, unsplit] using ih
      | cons t ts => simpa [slash, unsplit] using ih

/-- Reads a path. -/
def ofString (text : String) : Path := ⟨(split text.toList).map String.ofList⟩

/-- The characters of a path. -/
def chars (path : Path) : List Char := unsplit (path.stretches.map String.toList)

/-- Writes a path. -/
def toString (path : Path) : String := String.ofList path.chars

/-- A path that was read is written as it was. -/
theorem chars_ofString (text : String) : (ofString text).chars = text.toList := by
  simp only [chars, ofString, List.map_map]
  rw [List.map_congr_left (g := id) (by simp), List.map_id, unsplit_split]

/-! ## The parts of a path -/

/-- The path without any text. It names nothing. -/
def empty : Path := ⟨[""]⟩

/-- Whether a path starts at the root. -/
def absolute (path : Path) : Bool :=
  match path.stretches with
  | "" :: _ :: _ => true
  | _ => false

/-- Whether a path ends in a slash. Such a path can only name a directory. -/
def slashed (path : Path) : Bool :=
  match path.stretches with
  | [] => false
  | _ :: rest => rest.getLast? == some ""

/-- The names on a path, with the dots among them. -/
def parts (path : Path) : List String := path.stretches.filter (· != "")

/-- A path that goes on from this one. -/
def join (path : Path) (names : List String) : Path :=
  if path.slashed then ⟨path.stretches.dropLast ++ names⟩ else ⟨path.stretches ++ names⟩

/-! ## The way to a path -/

/-- Whether a stretch after the first one is no step. -/
def staysPut (stretch : String) : Bool := stretch == "" || stretch == "."

/-- The path of a first stretch and of others, which are given **last one first**, with all paths
that lead to it, the innermost first. None of them ends in a stretch that stays put, but for the
root. -/
def leading (first : String) : List String → List Path
  | [] => if first = "" then [⟨["", ""]⟩] else [⟨[first]⟩]
  | stretch :: before =>
    if staysPut stretch then leading first before
    else ⟨first :: (stretch :: before).reverse⟩ :: leading first before

/-- A path with all paths that lead to it, the innermost first; the empty path is none of them. -/
def outward (path : Path) : List Path :=
  match path.stretches with
  | [] | [""] => []
  | first :: rest => leading first rest.reverse

/-- The path without its last step. The empty path and the root have no parent; the parent of a
single step is the empty path. -/
def parent? (path : Path) : Option Path :=
  match path.stretches with
  | [] => none
  | first :: rest =>
    match rest.reverse.dropWhile staysPut with
    | [] => if first = "" then none else some empty
    | _ :: before => (leading first before).head?

end Path

end ArithTokens
