import ArithTokens.Chain

/-!
# Walking along a chain

There are three ways to walk along a chain, each with its own state and a `next` step that gives
one element at a time, and nothing any more after the last:

* a **reader** looks at the elements; a kept reader goes on where it stood;
* an **editor** may assign a new value to the element it has just passed, and `close` gives the
  chain with the assignments made;
* a **drain** owns the chain and takes the elements out of it.
-/

namespace ArithTokens.Chain

variable {α : Type}

/-! ## Readers -/

/-- A walk that looks at the elements. -/
structure Reader (α : Type) where
  /-- The elements not yet seen. -/
  ahead : Chain α

/-- A reader at the front. -/
def reader (chain : Chain α) : Reader α := ⟨chain⟩

namespace Reader

/-- Looks at the next element. -/
def next (reader : Reader α) : Option α × Reader α :=
  match reader.ahead with
  | .empty => (none, reader)
  | .link value rest => (some value, ⟨rest⟩)

/-- Looks at the next `n` elements, or at all if there are fewer; those already `seen` are given
with them, the last one first. -/
def takeOnto : List α → Nat → Reader α → List α × Reader α
  | seen, 0, reader => (seen, reader)
  | seen, n + 1, reader =>
    match reader.next with
    | (none, stop) => (seen, stop)
    | (some value, past) => takeOnto (value :: seen) n past

/-- Looks at the next `n` elements, or at all if there are fewer. -/
def take (n : Nat) (reader : Reader α) : List α × Reader α :=
  let (seen, past) := reader.takeOnto [] n
  (seen.reverse, past)

/-- Looks at all elements that are left. -/
def rest (reader : Reader α) : List α × Reader α := reader.take reader.ahead.length

/-- The first element that equals a value. -/
def find? [BEq α] (value : α) (reader : Reader α) : Option α :=
  go reader.ahead
where
  /-- Walks along what is ahead. -/
  go : Chain α → Option α
  | .empty => none
  | .link candidate rest => if candidate == value then some candidate else go rest

end Reader

/-- The first element that equals a value. -/
def find? [BEq α] (value : α) (chain : Chain α) : Option α := chain.reader.find? value

/-- A chain of its own with the same elements, collected from a reader. -/
def copy (chain : Chain α) : Chain α := ofList chain.reader.rest.1

/-! ## Editors -/

/-- A walk that may assign to the elements it passes. -/
structure Editor (α : Type) where
  /-- The elements passed, the last one first. -/
  passed : List α
  /-- The elements not yet passed. -/
  ahead : Chain α

/-- An editor at the front. -/
def editor (chain : Chain α) : Editor α := ⟨[], chain⟩

namespace Editor

/-- Passes the next element and gives its value. -/
def next (editor : Editor α) : Option α × Editor α :=
  match editor.ahead with
  | .empty => (none, editor)
  | .link value rest => (some value, ⟨value :: editor.passed, rest⟩)

/-- Assigns to the element passed last. -/
def assign (value : α) (editor : Editor α) : Editor α :=
  match editor.passed with
  | [] => editor
  | _ :: earlier => ⟨value :: earlier, editor.ahead⟩

/-- The chain with all assignments made. -/
def close (editor : Editor α) : Chain α :=
  editor.passed.foldl (fun chain value => .link value chain) editor.ahead

theorem sizeOf_ahead_next {editor past : Editor α} {value : α}
    (h : editor.next = (some value, past)) : sizeOf past.ahead < sizeOf editor.ahead := by
  unfold next at h
  split at h
  · simp at h
  · rename_i v rest ahead
    simp only [Prod.mk.injEq] at h
    obtain ⟨_, rfl⟩ := h
    rw [ahead, Chain.link.sizeOf_spec]
    show sizeOf rest < 1 + sizeOf v + sizeOf rest
    omega

@[simp]
theorem ahead_assign (value : α) (editor : Editor α) :
    (editor.assign value).ahead = editor.ahead := by
  unfold assign
  split <;> rfl

/-- Passes elements up to the first that equals a value, and gives that one. -/
def seek [BEq α] (value : α) (editor : Editor α) : Option α × Editor α :=
  match _passed : editor.next with
  | (none, stop) => (none, stop)
  | (some candidate, past) =>
    if candidate == value then (some candidate, past) else seek value past
termination_by sizeOf editor.ahead
decreasing_by exact sizeOf_ahead_next _passed

/-- Assigns the given values to the elements ahead, one each, until either run out. Gives the
number of assignments, added to `made`. -/
def overwriteFrom : Nat → List α → Editor α → Nat × Editor α
  | made, [], editor => (made, editor)
  | made, value :: values, editor =>
    match editor.next with
    | (none, stop) => (made, stop)
    | (some _, past) => overwriteFrom (made + 1) values (past.assign value)

/-- Assigns one value to every element ahead. -/
def fill (value : α) (editor : Editor α) : Editor α :=
  match _passed : editor.next with
  | (none, stop) => stop
  | (some _, past) => fill value (past.assign value)
termination_by sizeOf editor.ahead
decreasing_by
  rw [ahead_assign]
  exact sizeOf_ahead_next _passed

end Editor

/-- Assigns to the first element that equals `value`, and gives what was there. -/
def findSet [BEq α] (value replacement : α) (chain : Chain α) : Option α × Chain α :=
  match chain.editor.seek value with
  | (none, stop) => (none, stop.close)
  | (some old, past) => (some old, (past.assign replacement).close)

/-- Assigns values to the first elements, one each, and gives the number of assignments. -/
def overwrite (values : List α) (chain : Chain α) : Nat × Chain α :=
  let (made, past) := chain.editor.overwriteFrom 0 values
  (made, past.close)

/-- Assigns one value to every element. -/
def fill (value : α) (chain : Chain α) : Chain α := (chain.editor.fill value).close

/-! ## Drains -/

/-- A walk that takes the elements out of the chain it owns. -/
structure Drain (α : Type) where
  /-- The elements not yet taken. -/
  owned : Chain α

/-- A drain of a chain. -/
def drain (chain : Chain α) : Drain α := ⟨chain⟩

namespace Drain

/-- Takes the next element out. -/
def next (drain : Drain α) : Option α × Drain α :=
  let (value, rest) := drain.owned.pop
  (value, ⟨rest⟩)

/-- Takes at most `n` elements out. -/
def take : Nat → Drain α → List α × Drain α
  | 0, drain => ([], drain)
  | n + 1, drain =>
    match drain.next with
    | (none, stop) => ([], stop)
    | (some value, past) =>
      let (values, beyond) := take n past
      (value :: values, beyond)

end Drain

end ArithTokens.Chain
