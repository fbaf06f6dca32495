import ArithTokens.Chain.Program
import ArithTokens.Proofs.Chain.Elements
import Mathlib.Logic.Function.Basic

/-!
# Programs over lists

A program over chains does what it does over **plain lists**: it gives the same answers and leaves
the same elements, register by register.

* `Op.act` is what an operation answers and makes of lists, without a chain or a walk along one;
* `Op.run_acts` compares one operation with it, and `perform_acts` carries what one operation
  keeps to whole programs;
* `Op.act_of_not_mem` says which lists an operation leaves alone.
-/

namespace ArithTokens.Chain

open Function (update)

variable {α : Type}

/-! ## Registers -/

namespace Registers

/-- The elements in each register. -/
def contents (registers : Registers α) (name : String) : List α := (registers.get name).toList

theorem lookup_replace (chains : List (String × Chain α)) (name other : String) (chain : Chain α) :
    (chains.map fun (n, c) => if n == name then (n, chain) else (n, c)).lookup other =
      if other = name then (chains.lookup other).map fun _ => chain else chains.lookup other := by
  induction chains with
  | nil => simp
  | cons entry chains ih =>
    obtain ⟨n, c⟩ := entry
    rw [List.map_cons]
    by_cases this : n = name
    · by_cases same : other = name
      · simp [this, same]
      · have miss : (other == name) = false := by simpa using same
        simpa [this, same, List.lookup_cons, miss] using ih
    · by_cases hit : other = n
      · simp [hit, this]
      · have miss : (other == n) = false := by simpa using hit
        simpa [this, List.lookup_cons, miss] using ih

/-- **Only the register that is set changes.** -/
theorem get_set (registers : Registers α) (name other : String) (chain : Chain α) :
    (registers.set name chain).get other = if other = name then chain else registers.get other := by
  have there : registers.chains.any (·.1 == name) = (registers.chains.lookup name).isSome := by
    rw [Bool.eq_iff_iff, List.lookup_isSome_iff, List.any_eq_true]
    simp only [beq_iff_eq, @eq_comm String name]
  rw [set, there]
  by_cases same : other = name
  · subst same
    rcases found : registers.chains.lookup other with _ | old
    · simp [get, List.lookup_append, found]
    · rw [Option.isSome_some, if_pos rfl, if_pos rfl, get, lookup_replace, if_pos rfl, found]
      rfl
  · have miss : (other == name) = false := by simpa using same
    rw [if_neg same]
    split
    · rw [get, lookup_replace, if_neg same, get]
    · simp [get, List.lookup_append, List.lookup_cons, miss]

/-- Setting a register to a chain replaces its list. -/
theorem contents_set (registers : Registers α) (name : String) {chain : Chain α} {list : List α}
    (elements : chain.toList = list) :
    (registers.set name chain).contents = update registers.contents name list := by
  funext other
  rw [contents, get_set, Function.update_apply, contents, ← elements]
  split <;> rfl

/-- A register that is created is as empty as it was before. -/
theorem get_mention (registers : Registers α) (name other : String) :
    (registers.mention name).get other = registers.get other := by
  rw [mention, get_set]
  split
  · rename_i same
    rw [same]
  · rfl

theorem contents_mention (registers : Registers α) (name : String) :
    (registers.mention name).contents = registers.contents := by
  funext other
  rw [contents, get_mention, contents]

end Registers

/-! ## Operations on lists -/

/-- What an operation answers and makes of **lists**, where `lists name` is the one that it is asked
of. The place of a value in a list is the least one whose element equals the value. -/
def Op.act [BEq α] [Listed α] (lists : String → List α) (name : String) (op : Op α) :
    Answer α × (String → List α) :=
  let list := lists name
  match op with
  | .clear => (.nothing, update lists name [])
  | .single value => (.nothing, update lists name [value])
  | .assign values => (.nothing, update lists name values)
  | .push value => (.nothing, update lists name (value :: list))
  | .pushMany value n => (.nothing, update lists name (List.replicate n value ++ list))
  | .pop => (.item list.head?, update lists name list.tail)
  | .popMany n => (.count (min n list.length), update lists name (list.drop n))
  | .front => (.item list.head?, lists)
  | .setFront value => (.item list.head?, update lists name (list.set 0 value))
  | .isEmpty => (.flag list.isEmpty, lists)
  | .length => (.count list.length, lists)
  | .find value => (.item list[list.findIdx (· == value)]?, lists)
  | .findSet value replacement =>
    (.item list[list.findIdx (· == value)]?,
      update lists name (list.set (list.findIdx (· == value)) replacement))
  | .overwrite values =>
    (.count (min values.length list.length),
      update lists name (values.take list.length ++ list.drop values.length))
  | .fill value => (.nothing, update lists name (List.replicate list.length value))
  | .read n => (.reading (list.take n) (list.drop n) (list.drop n) none, lists)
  | .drain n => (.items (list.take n), update lists name [])
  | .listing => (.text ("[" ++ ", ".intercalate (list.map Listed.text) ++ "]"), lists)
  | .longListing =>
    (.text (if list.isEmpty then "[]"
      else
        "[\n" ++ String.ofList (indent true
          (list.flatMap fun a => (Listed.text a ++ ",\n").toList)) ++ "]"), lists)
  | .copyTo other => (.nothing, update lists other list)
  | .moveTo other => (.nothing, update (update lists name []) other list)
  | .equals other => (.flag (list == lists other), lists)

/-- The registers that an operation may change. -/
def Op.changed (name : String) : Op α → List String
  | .front | .isEmpty | .length | .find _ | .read _ | .listing | .longListing | .equals _ => []
  | .copyTo other => [other]
  | .moveTo other => [name, other]
  | _ => [name]

/-- **An operation on chains is the operation on their lists.** -/
theorem Op.run_acts [BEq α] [Listed α] (registers : Registers α) (name : String) (op : Op α) :
    (op.run registers name).1 = (op.act registers.contents name).1 ∧
      (op.run registers name).2.contents = (op.act registers.contents name).2 := by
  rw [← registers.contents_mention name]
  unfold run act
  generalize registers.mention name = registers
  dsimp only
  generalize held : registers.get name = chain
  rw [show registers.contents name = chain.toList from congrArg toList held]
  cases op with
  | clear => exact ⟨rfl, registers.contents_set name rfl⟩
  | single value => exact ⟨rfl, registers.contents_set name rfl⟩
  | assign values => exact ⟨rfl, registers.contents_set name (toList_ofList values)⟩
  | push value => exact ⟨rfl, registers.contents_set name rfl⟩
  | pushMany value n => exact ⟨rfl, registers.contents_set name (toList_pushMany value n chain)⟩
  | pop =>
    exact ⟨congrArg Answer.item (pop_fst chain), registers.contents_set name (toList_pop chain)⟩
  | popMany n =>
    exact ⟨congrArg Answer.count (popMany_fst n chain),
      registers.contents_set name (toList_popMany n chain)⟩
  | front => exact ⟨congrArg Answer.item (front?_eq chain), rfl⟩
  | setFront value =>
    exact ⟨congrArg Answer.item (setFront_fst value chain),
      registers.contents_set name (toList_setFront value chain)⟩
  | isEmpty => exact ⟨congrArg Answer.flag (isEmpty_eq chain), rfl⟩
  | length => exact ⟨congrArg Answer.count (length_eq chain), rfl⟩
  | find value => exact ⟨congrArg Answer.item (find?_eq value chain), rfl⟩
  | findSet value replacement =>
    obtain ⟨item, edited⟩ := findSet_eq value replacement chain
    exact ⟨congrArg Answer.item item, registers.contents_set name edited⟩
  | overwrite values =>
    obtain ⟨count, edited⟩ := overwrite_eq values chain
    exact ⟨congrArg Answer.count count, registers.contents_set name edited⟩
  | fill value => exact ⟨rfl, registers.contents_set name (toList_fill value chain)⟩
  | read n =>
    obtain ⟨first, past⟩ := chain.reader.take_eq n
    obtain ⟨rest, beyond⟩ := (chain.reader.take n).2.rest_eq
    rw [past] at rest
    refine ⟨?_, rfl⟩
    change Answer.reading _ (chain.reader.take n).2.rest.1 (chain.reader.take n).2.rest.1 _ = _
    rw [rest]
    exact congrArg₂ (fun seen last => Answer.reading seen _ _ last) first beyond
  | drain n =>
    exact ⟨congrArg Answer.items (chain.drain.take_eq n).1, registers.contents_set name rfl⟩
  | listing => exact ⟨congrArg Answer.text (listing_eq chain), rfl⟩
  | longListing => exact ⟨congrArg Answer.text (longListing_eq chain), rfl⟩
  | copyTo other => exact ⟨rfl, registers.contents_set other (toList_copy chain)⟩
  | moveTo other =>
    refine ⟨rfl, ?_⟩
    rw [Registers.contents_set _ other rfl, registers.contents_set name rfl]
    rfl
  | equals other =>
    refine ⟨congrArg Answer.flag ?_, registers.contents_mention other⟩
    rw [beq_eq, registers.get_mention, Registers.contents]

/-- **An operation leaves alone** all lists but those that it says it changes. -/
theorem Op.act_of_not_mem [BEq α] [Listed α] (lists : String → List α) {name other : String}
    {op : Op α} (apart : other ∉ op.changed name) : (op.act lists name).2 other = lists other := by
  cases op <;> simp_all [changed, act, Function.update_of_ne]

/-! ## Programs -/

/-- Does the operations of a program one after the other. -/
def perform {σ : Type} (f : σ → String → Op α → Answer α × σ) (state : σ) :
    List (String × Op α) → List (Answer α) × σ
  | [] => ([], state)
  | (name, op) :: program =>
    let (answer, next) := f state name op
    let (answers, last) := perform f next program
    (answer :: answers, last)

variable [BEq α] [Listed α]

theorem perform_acts (registers : Registers α) (program : List (String × Op α)) :
    (perform Op.run registers program).1 = (perform Op.act registers.contents program).1 ∧
      (perform Op.run registers program).2.contents =
        (perform Op.act registers.contents program).2 := by
  induction program generalizing registers with
  | nil => exact ⟨rfl, rfl⟩
  | cons step program ih =>
    obtain ⟨name, op⟩ := step
    obtain ⟨answer, lists⟩ := op.run_acts registers name
    obtain ⟨answers, last⟩ := ih (op.run registers name).2
    rw [lists] at answers last
    exact ⟨congrArg₂ List.cons answer answers, last⟩

theorem perform_of_not_mem (lists : String → List α) {other : String}
    {program : List (String × Op α)} (apart : ∀ step ∈ program, other ∉ step.2.changed step.1) :
    (perform Op.act lists program).2 other = lists other := by
  induction program generalizing lists with
  | nil => rfl
  | cons step program ih =>
    obtain ⟨name, op⟩ := step
    have first := Op.act_of_not_mem lists (apart _ List.mem_cons_self)
    exact (ih _ fun step mem => apart step (List.mem_cons_of_mem _ mem)).trans first

/-- **A program over chains is the program over plain lists.** Each answer is the one that the lists
give, and in the end each register holds its list, front to back; and a register that no operation
of the program changes holds what it held before. -/
theorem perform_refines_lists (registers : Registers α) (program : List (String × Op α)) :
    let made := perform Op.run registers program
    let told := perform Op.act registers.contents program
    made.1 = told.1 ∧ (∀ name, (made.2.get name).toList = told.2 name) ∧
      ∀ name, (∀ step ∈ program, name ∉ step.2.changed step.1) →
        (made.2.get name).toList = (registers.get name).toList := by
  obtain ⟨answers, lists⟩ := perform_acts registers program
  refine ⟨answers, congrFun lists, fun name apart => ?_⟩
  exact (congrFun lists name).trans (perform_of_not_mem registers.contents apart)

/-- A copy keeps its elements when the first of two that are equal, but not the same, is replaced
in the chain that was copied. -/
theorem perform_refines_lists_keyed_copy :
    let start : Registers Keyed :=
      (perform Op.run .none [("a", .assign [⟨1, "x"⟩, ⟨1, "y"⟩]), ("a", .copyTo "b")]).2
    let program : List (String × Op Keyed) :=
      [("a", .findSet ⟨1, "z"⟩ ⟨2, "w"⟩), ("a", .equals "b")]
    (∀ step ∈ program, "b" ∉ step.2.changed step.1) ∧
      (perform Op.run start program).1 = [.item (some ⟨1, "x"⟩), .flag false] ∧
      ((perform Op.run start program).2.get "a").toList = [⟨2, "w"⟩, ⟨1, "y"⟩] ∧
      ((perform Op.run start program).2.get "b").toList = [⟨1, "x"⟩, ⟨1, "y"⟩] := by
  intro start program
  have apart : ∀ step ∈ program, "b" ∉ step.2.changed step.1 := by simp [program, Op.changed]
  obtain ⟨answers, lists, others⟩ := perform_refines_lists start program
  exact ⟨apart, answers.trans rfl, (lists "a").trans rfl, (others "b" apart).trans rfl⟩

end ArithTokens.Chain
