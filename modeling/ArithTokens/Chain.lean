/-!
# Chains

A chain is a list whose first element is at hand: elements are added and taken away at the
**front**, and all others are reached by walking along it. Elements are compared by their own `==`,
which may hold of elements that differ.

The walks are in `Chain.Traversal`.
-/

namespace ArithTokens

/-- A singly linked list. -/
inductive Chain (α : Type) where
  /-- The chain without elements. -/
  | empty
  /-- An element in front of a chain. -/
  | link (value : α) (next : Chain α)
deriving Repr, Inhabited

namespace Chain

variable {α : Type}

/-! ## Building -/

/-- A chain of one element. -/
def single (value : α) : Chain α := .link value .empty

/-- The chain of a list's elements, in their order. -/
def ofList (values : List α) : Chain α := values.foldr .link .empty

/-- Puts an element in front. -/
def push (value : α) (chain : Chain α) : Chain α := .link value chain

/-- Puts an element in front `n` times. -/
def pushMany (value : α) : Nat → Chain α → Chain α
  | 0, chain => chain
  | n + 1, chain => pushMany value n (chain.push value)

/-! ## The front -/

/-- The first element. -/
def front? : Chain α → Option α
  | .empty => none
  | .link value _ => some value

/-- Takes the first element away and gives it. -/
def pop : Chain α → Option α × Chain α
  | .empty => (none, .empty)
  | .link value next => (some value, next)

/-- Takes at most `n` elements away and gives their number. -/
def popMany : Nat → Chain α → Nat × Chain α
  | n, chain => go n 0 chain
where
  /-- Adds the number of elements taken to `taken`. -/
  go : Nat → Nat → Chain α → Nat × Chain α
  | 0, taken, chain => (taken, chain)
  | n + 1, taken, chain =>
    match chain.pop with
    | (none, rest) => (taken, rest)
    | (some _, rest) => go n (taken + 1) rest

/-- Replaces the first element and gives the old one; an empty chain stays empty. -/
def setFront (value : α) : Chain α → Option α × Chain α
  | .empty => (none, .empty)
  | .link old next => (some old, .link value next)

/-! ## The whole chain -/

/-- Whether there are no elements. -/
def isEmpty : Chain α → Bool
  | .empty => true
  | .link _ _ => false

/-- The number of elements, added to `counted`. -/
def countFrom (counted : Nat) : Chain α → Nat
  | .empty => counted
  | .link _ next => countFrom (counted + 1) next

/-- The number of elements. -/
def length (chain : Chain α) : Nat := chain.countFrom 0

/-- Whether two chains have the same length and equal elements at every place. -/
def beq [BEq α] : Chain α → Chain α → Bool
  | .empty, .empty => true
  | .link a as, .link b bs => if a == b then beq as bs else false
  | _, _ => false

instance [BEq α] : BEq (Chain α) := ⟨beq⟩

/-- The elements, front to back. -/
def toList : Chain α → List α
  | .empty => []
  | .link value next => value :: next.toList

@[simp]
theorem toList_empty : (empty : Chain α).toList = [] := rfl

@[simp]
theorem toList_link (value : α) (next : Chain α) :
    (link value next).toList = value :: next.toList := rfl

@[simp]
theorem toList_push (value : α) (chain : Chain α) :
    (chain.push value).toList = value :: chain.toList := rfl

@[simp]
theorem toList_ofList (values : List α) : (ofList values).toList = values := by
  induction values with
  | nil => rfl
  | cons v vs ih =>
    have : ofList (v :: vs) = link v (ofList vs) := rfl
    rw [this, toList_link, ih]

end Chain

end ArithTokens
