/-!
# Choices that are made by name

A few settings take one of a fixed set of values, and each value has a **name** by which the
command line and the configuration file choose it.
-/

namespace ArithTokens

/-- A type with finitely many values, each of which has a name. -/
class Named (α : Type) where
  /-- The values, in the order in which they are tried. -/
  all : List α
  /-- The name of a value. -/
  name : α → String

namespace Named

variable {α : Type} [Named α]

/-- Whether two texts agree, letter for letter or up to the case of ASCII letters. -/
def sameName (ignoreCase : Bool) (s t : String) : Bool :=
  if ignoreCase then s.toList.map Char.toLower == t.toList.map Char.toLower else s == t

/-- The value that a text names, **ignoring the case** of ASCII letters if asked to. -/
def find? (ignoreCase : Bool) (text : String) : Option α :=
  (all (α := α)).find? fun a => sameName ignoreCase (name a) text

/-- The value with exactly this name. -/
def ofName? (text : String) : Option α :=
  find? false text

end Named

end ArithTokens
