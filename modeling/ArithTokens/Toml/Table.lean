import ArithTokens.Toml.Value

/-!
# Putting tables together

A document names its tables piece by piece, and each table may be **defined once**. While a
document is read every table therefore carries its origin:

* an **implied** table was named on the way to another by a header, and its own header may follow;
* a **dotted** table was named by the dots of a key, and more such keys may follow;
* a **defined** table has had its header.

A table that is written as a value is complete: nothing is added to it.
-/

namespace ArithTokens.Toml

/-- How a table came to be. -/
inductive Origin where
  | implied
  | dotted
  | defined
deriving DecidableEq, Repr

/-- What a key of an unfinished document holds. -/
inductive Item where
  | value (value : Value)
  | table (origin : Origin) (entries : List (String × Item))
  /-- An array of tables, each of which is defined. -/
  | tables (rows : List (List (String × Item)))
deriving Inhabited

/-- What the keys of an unfinished table hold. -/
abbrev Items := List (String × Item)

namespace Items

/-- Gives a key this content. -/
def put (key : String) (item : Item) : Items → Items
  | [] => [(key, item)]
  | (k, old) :: rest => if k = key then (k, item) :: rest else (k, old) :: put key item rest

/-- Goes down a path of keys, with new tables of the `fresh` origin where there are none, and
changes the table at its end. A path of **dots** does not enter a defined table; the last table of
an array stands for the array. -/
def descend (fresh : Origin) (change : Origin → Items → Option Items) :
    Origin → List String → Items → Option Items
  | origin, [], items => change origin items
  | _, key :: path, items =>
    match items.lookup key with
    | none => do
      let inner ← descend fresh change fresh path []
      return items.put key (.table fresh inner)
    | some (.value _) => none
    | some (.table origin inner) => do
      if fresh = .dotted ∧ origin = .defined then none
      let inner ← descend fresh change origin path inner
      return items.put key (.table origin inner)
    | some (.tables rows) => do
      let row ← descend fresh change .defined path (← rows.getLast?)
      return items.put key (.tables (rows.dropLast ++ [row]))

/-- Adds a value under a key that is not there yet. -/
def add (key : String) (value : Value) (items : Items) : Option Items :=
  if (items.lookup key).isSome then none else some (items.put key (.value value))

/-- Adds a value under a key with dots: all parts but the last name tables, and the innermost of
them must come from dots, too. -/
def addPair (items : Items) : List String × Value → Option Items
  | (path, value) =>
    match path.getLast? with
    | none => none
    | some last =>
      if path.length = 1 then
        items.add last value
      else
        descend .dotted
          (fun origin inner => if origin = .dotted then inner.add last value else none)
          .defined path.dropLast items

/-- Adds values one after the other. -/
def addPairs (pairs : List (List String × Value)) (items : Items) : Option Items :=
  pairs.foldlM addPair items

/-- Adds the table of a header with its values. The table must be new or implied. -/
def addTable (path : List String) (pairs : List (List String × Value)) (items : Items) :
    Option Items := do
  let last ← path.getLast?
  descend .implied (fun _ parent =>
    match parent.lookup last with
    | none => do return parent.put last (.table .defined (← addPairs pairs []))
    | some (.table .implied inner) =>
      do return parent.put last (.table .defined (← addPairs pairs inner))
    | some _ => none) .defined path.dropLast items

/-- Adds one more table with its values to an array of tables. -/
def addRow (path : List String) (pairs : List (List String × Value)) (items : Items) :
    Option Items := do
  let last ← path.getLast?
  descend .implied (fun _ parent =>
    match parent.lookup last with
    | none => do return parent.put last (.tables [← addPairs pairs []])
    | some (.tables rows) => do return parent.put last (.tables (rows ++ [← addPairs pairs []]))
    | some _ => none) .defined path.dropLast items

end Items

/-! ## Finished tables -/

mutual

/-- The value of an item. -/
def Item.finish : Item → Value
  | .value value => value
  | .table _ entries => .table (finishEntries entries)
  | .tables rows => .array (finishRows rows)

/-- The values of a table's items. -/
def finishEntries : List (String × Item) → Entries
  | [] => []
  | (key, item) :: rest => (key, item.finish) :: finishEntries rest

/-- The values of the tables of an array. -/
def finishRows : List (List (String × Item)) → List Value
  | [] => []
  | row :: rest => .table (finishEntries row) :: finishRows rest

end

end ArithTokens.Toml
