import ArithTokens.Rendering
import ArithTokens.Toml.Value

/-!
# Configurations

A configuration is written as a TOML table. Every setting has a default, and what is not a setting
is ignored.

* `Config.ofToml?` reads a configuration from a table;
* `Config.toToml` writes one.

A group of settings may also be given as an **array** of their values in order, of which the last
ones may be left out. A choice may also be given as a **table** with the name of the choice as its
only key and nothing under it.
-/

namespace ArithTokens

/-- The settings of the program. -/
structure Config where
  verbose : Bool := false
  overflow : Overflow := .wrapping
  output : RenderOptions := {}
deriving DecidableEq, Repr, Inhabited

namespace Config

/-! ## Reading -/

open Toml (Value Entries)

/-- A yes or no. -/
def flag? : Value → Option Bool
  | .boolean value => some value
  | _ => none

/-- Whether a value is a table or an array with nothing in it. -/
def isBare : Value → Bool
  | .table [] | .array [] => true
  | _ => false

/-- A choice by its name, or by a table whose only key is its name. -/
def choice? {α : Type} [Named α] : Value → Option α
  | .string name => Named.ofName? name
  | .table [(name, value)] => if isBare value then Named.ofName? name else none
  | _ => none

/-- How the settings of a group are found: each by its place in the group and its name. A **point
in time** stands for a group with no settings. -/
def group? : Value → Option (Nat → String → Option Value)
  | .table entries => some fun _ name => entries.lookup name
  | .array values => some fun place _ => values[place]?
  | .dateTime _ => some fun _ _ => none
  | _ => none

/-- Reads a setting, if it is given. -/
def setting {α : Type} (default : α) (read? : Value → Option α) : Option Value → Option α
  | none => some default
  | some value => read? value

/-- The settings of the group that says how numbers are read. -/
def lexing? (value : Value) : Option Overflow := do
  let field ← group? value
  setting default choice? (field 0 "overflow")

/-- The settings of the group that says how tokens are written. -/
def output? (value : Value) : Option RenderOptions := do
  let field ← group? value
  let format ← setting .text choice? (field 0 "format")
  let spans ← setting false flag? (field 1 "spans")
  return { format, spans }

/-- The configuration that a table describes. -/
def ofToml? (entries : Entries) : Option Config := do
  let verbose ← setting false flag? (entries.lookup "verbose")
  let overflow ← setting default lexing? (entries.lookup "lexer")
  let output ← setting default output? (entries.lookup "output")
  return { verbose, overflow, output }

/-! ## Writing -/

/-- A yes or no. -/
def flagText (value : Bool) : String := if value then "true" else "false"

/-- The document that describes a configuration. -/
def toToml (config : Config) : String :=
  "verbose = " ++ flagText config.verbose ++ "\n\n" ++
    "[lexer]\noverflow = \"" ++ Named.name config.overflow ++ "\"\n\n" ++
    "[output]\nformat = \"" ++ Named.name config.output.format ++ "\"\n" ++
    "spans = " ++ flagText config.output.spans ++ "\n"

end Config

end ArithTokens
