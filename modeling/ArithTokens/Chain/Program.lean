import ArithTokens.Chain.Listing

/-!
# Programs over named chains

A **program** is a list of operations on chains that are kept in named registers. A register is
created, and empty, when an operation first mentions it. Each operation gives one answer.
-/

namespace ArithTokens.Chain

variable {α : Type}

/-- The chains by name, in the order of their first mention. -/
structure Registers (α : Type) where
  chains : List (String × Chain α)

namespace Registers

/-- No registers at all. -/
def none : Registers α := ⟨[]⟩

/-- The chain in a register; a register never mentioned holds the empty chain. -/
def get (registers : Registers α) (name : String) : Chain α :=
  (registers.chains.lookup name).getD .empty

/-- Puts a chain into a register. -/
def set (registers : Registers α) (name : String) (chain : Chain α) : Registers α :=
  if registers.chains.any (·.1 == name) then
    ⟨registers.chains.map fun (n, c) => if n == name then (n, chain) else (n, c)⟩
  else
    ⟨registers.chains ++ [(name, chain)]⟩

/-- Creates a register unless it is there already. -/
def mention (registers : Registers α) (name : String) : Registers α :=
  registers.set name (registers.get name)

end Registers

/-- What an operation does with the chain in its register. -/
inductive Op (α : Type) where
  | clear
  | single (value : α)
  | assign (values : List α)
  | push (value : α)
  | pushMany (value : α) (n : Nat)
  | pop
  | popMany (n : Nat)
  | front
  | setFront (value : α)
  | isEmpty
  | length
  | find (value : α)
  | findSet (value replacement : α)
  | overwrite (values : List α)
  | fill (value : α)
  | read (n : Nat)
  | drain (n : Nat)
  | listing
  | longListing
  /-- Copies the chain into another register. -/
  | copyTo (other : String)
  /-- Moves the chain into another register and leaves this one empty. -/
  | moveTo (other : String)
  /-- Compares the chain with that of another register. -/
  | equals (other : String)
deriving Repr

/-- What an operation answers. -/
inductive Answer (α : Type) where
  | nothing
  | flag (holds : Bool)
  | count (n : Nat)
  | item (value : Option α)
  | items (values : List α)
  /-- What a reader saw first, what a kept copy of it saw after that, what it saw itself, and its
  step past the end. -/
  | reading (first copy rest : List α) (beyond : Option α)
  | text (written : String)
deriving Repr

/-- Does one operation on the chain in the register `name`. -/
def Op.run [BEq α] [Listed α] (registers : Registers α) (name : String) (op : Op α) :
    Answer α × Registers α :=
  let registers := registers.mention name
  let chain := registers.get name
  match op with
  | .clear => (.nothing, registers.set name .empty)
  | .single value => (.nothing, registers.set name (.single value))
  | .assign values => (.nothing, registers.set name (.ofList values))
  | .push value => (.nothing, registers.set name (chain.push value))
  | .pushMany value n => (.nothing, registers.set name (chain.pushMany value n))
  | .pop =>
    let (value, rest) := chain.pop
    (.item value, registers.set name rest)
  | .popMany n =>
    let (taken, rest) := chain.popMany n
    (.count taken, registers.set name rest)
  | .front => (.item chain.front?, registers)
  | .setFront value =>
    let (old, changed) := chain.setFront value
    (.item old, registers.set name changed)
  | .isEmpty => (.flag chain.isEmpty, registers)
  | .length => (.count chain.length, registers)
  | .find value => (.item (chain.find? value), registers)
  | .findSet value replacement =>
    let (old, changed) := chain.findSet value replacement
    (.item old, registers.set name changed)
  | .overwrite values =>
    let (made, changed) := chain.overwrite values
    (.count made, registers.set name changed)
  | .fill value => (.nothing, registers.set name (chain.fill value))
  | .read n =>
    let (first, past) := chain.reader.take n
    let (copy, _) := past.rest
    let (rest, stop) := past.rest
    (.reading first copy rest stop.next.1, registers)
  | .drain n => (.items (chain.drain.take n).1, registers.set name .empty)
  | .listing => (.text chain.listing, registers)
  | .longListing => (.text chain.longListing, registers)
  | .copyTo other => (.nothing, registers.set other chain.copy)
  | .moveTo other => (.nothing, (registers.set name .empty).set other chain)
  | .equals other =>
    let registers := registers.mention other
    (.flag (chain == registers.get other), registers)

end ArithTokens.Chain
