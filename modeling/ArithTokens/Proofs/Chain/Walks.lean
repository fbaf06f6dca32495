import ArithTokens.Proofs.Chain.Elements
import Mathlib.Logic.Function.Basic

/-!
# The three walks, call by call

Readers, editors and drains are asked for the next element again and again. They give the **same
elements in the same order**, and none any more after the last.

* `Walks` is what they have in common, and `Walks.calls` says what any number of calls gives and
  what is left ahead;
* `serve` and `serveAll` are requests to readers of one chain, of which each may be copied at any
  time: `serveAll_readers` tells them from the number of calls of each reader;
* `Editor.pass` and `Editor.passAll` are calls with an assignment each, and `Editor.passAll_eq` says
  what they make of the chain.
-/

namespace ArithTokens.Chain

open Function (update)

variable {α : Type}

/-! ## Walks in general -/

/-- Whether a step gives the first of the elements **ahead** of a walk, and passes it. -/
structure Walks {σ : Type} (next : σ → Option α × σ) (ahead : σ → List α) : Prop where
  gives : ∀ walk, (next walk).1 = (ahead walk).head?
  passes : ∀ walk, ahead (next walk).2 = (ahead walk).tail

/-- What `n` calls of a step give, one after the other. -/
def calls {σ : Type} (next : σ → Option α × σ) : Nat → σ → List (Option α) × σ
  | 0, walk => ([], walk)
  | n + 1, walk =>
    let (value, past) := next walk
    let (values, beyond) := calls next n past
    (value :: values, beyond)

/-- What `n` calls are to give from a place in a list on: its elements, and nothing behind the last
of them. -/
def answers (list : List α) (place n : Nat) : List (Option α) :=
  (List.range n).map fun i => list[place + i]?

theorem answers_succ (list : List α) (place n : Nat) :
    answers list place (n + 1) = list[place]? :: answers list (place + 1) n := by
  simp [answers, List.range_succ_eq_map, Nat.add_assoc, Nat.add_comm 1, Function.comp_def]

theorem answers_drop (list : List α) (place n : Nat) :
    answers (list.drop place) 0 n = answers list place n := by
  simp [answers]

section Walk

variable {σ : Type} {next : σ → Option α × σ} {ahead : σ → List α}

/-- **Calls** give the elements ahead, in their order, and leave the others ahead. -/
theorem Walks.calls (walks : Walks next ahead) (n : Nat) (walk : σ) :
    (calls next n walk).1 = answers (ahead walk) 0 n ∧
      ahead (calls next n walk).2 = (ahead walk).drop n := by
  induction n generalizing walk with
  | zero => exact ⟨rfl, rfl⟩
  | succ n ih =>
    obtain ⟨values, beyond⟩ := ih (next walk).2
    rw [walks.passes] at values beyond
    constructor
    · have first : (next walk).1 = (ahead walk)[0]? := by
        rw [walks.gives, List.head?_eq_getElem?]
      rw [answers_succ, ← first, ← answers_drop, List.drop_one, ← values]
      rfl
    · rw [List.drop_tail] at beyond
      exact beyond

end Walk

/-! ## Each of the walks -/

theorem Reader.walks : Walks next fun reader : Reader α => reader.ahead.toList where
  gives reader := by
    obtain ⟨ahead⟩ := reader
    cases ahead <;> rfl
  passes reader := by
    obtain ⟨ahead⟩ := reader
    cases ahead <;> rfl

theorem Editor.walks : Walks next fun editor : Editor α => editor.ahead.toList where
  gives editor := by
    obtain ⟨passed, ahead⟩ := editor
    cases ahead <;> rfl
  passes editor := by
    obtain ⟨passed, ahead⟩ := editor
    cases ahead <;> rfl

theorem Drain.walks : Walks next fun drain : Drain α => drain.owned.toList where
  gives drain := pop_fst drain.owned
  passes drain := toList_pop drain.owned

/-! ## Readers and their copies -/

/-- What is asked of numbered readers: the next element of one of them, or that one becomes a copy
of another. -/
inductive Request where
  | next (i : Nat)
  | copy (i j : Nat)
deriving Repr

/-- Serves a request, and gives what there is to give. Only the member that is asked, or becomes a
copy, changes. -/
def serve {σ β : Type} (next : σ → β × σ) (pool : Nat → σ) : Request → List β × (Nat → σ)
  | .next i =>
    let (value, past) := next (pool i)
    ([value], update pool i past)
  | .copy i j => ([], update pool j (pool i))

/-- Serves requests one after the other. -/
def serveAll {σ β : Type} (next : σ → β × σ) (pool : Nat → σ) :
    List Request → List β × (Nat → σ)
  | [] => ([], pool)
  | request :: requests =>
    let (values, past) := serve next pool request
    let (more, beyond) := serveAll next past requests
    (values ++ more, beyond)

/-- A reader told by the number of its calls so far: this is the **place** of what it gives next. -/
def countCall (drawn : Nat) : Nat × Nat := (drawn, drawn + 1)

theorem serve_next {σ β : Type} (next : σ → β × σ) (pool : Nat → σ) (j i : Nat) :
    (serve next pool (.next j)).2 i = if i = j then (next (pool j)).2 else pool i :=
  Function.update_apply ..

theorem serve_copy {σ β : Type} (next : σ → β × σ) (pool : Nat → σ) (j k i : Nat) :
    (serve next pool (.copy j k)).2 i = if i = k then pool j else pool i :=
  Function.update_apply ..

section Pool

variable {list : List α} {readers : Nat → Reader α} {drawn : Nat → Nat}

/-- **A request to readers** gives the element at the place that the number of calls tells, and the
numbers tell what is ahead after it, too. -/
theorem serve_readers (stand : ∀ i, (readers i).ahead.toList = list.drop (drawn i))
    (request : Request) :
    (serve Reader.next readers request).1 = (serve countCall drawn request).1.map (list[·]?) ∧
      ∀ i, ((serve Reader.next readers request).2 i).ahead.toList =
        list.drop ((serve countCall drawn request).2 i) := by
  cases request with
  | next j =>
    have value : (readers j).next.1 = list[drawn j]? := by
      rw [Reader.walks.gives, stand, List.head?_drop]
    have past : (readers j).next.2.ahead.toList = (readers j).ahead.toList.tail :=
      Reader.walks.passes (readers j)
    refine ⟨congrArg ([·]) value, fun i => ?_⟩
    rw [serve_next, serve_next]
    split
    · rw [past, stand, List.tail_drop]
      rfl
    · exact stand i
  | copy j k =>
    refine ⟨rfl, fun i => ?_⟩
    rw [serve_copy, serve_copy]
    split
    · exact stand j
    · exact stand i

/-- **Readers are told by their numbers of calls**, over any requests. -/
theorem serveAll_readers (readers : Nat → Reader α) (drawn : Nat → Nat)
    (stand : ∀ i, (readers i).ahead.toList = list.drop (drawn i)) (requests : List Request) :
    (serveAll Reader.next readers requests).1 =
        (serveAll countCall drawn requests).1.map (list[·]?) ∧
      ∀ i, ((serveAll Reader.next readers requests).2 i).ahead.toList =
        list.drop ((serveAll countCall drawn requests).2 i) := by
  induction requests generalizing readers drawn with
  | nil => exact ⟨rfl, stand⟩
  | cons request requests ih =>
    obtain ⟨values, past⟩ := serve_readers stand request
    obtain ⟨more, beyond⟩ := ih _ _ past
    refine ⟨?_, beyond⟩
    rw [serveAll, serveAll, List.map_append, ← values, ← more]

end Pool

/-! ## Editors that assign -/

namespace Editor

/-- Passes the next element, and assigns a new value to it if there is one. -/
def pass (new : Option α) (editor : Editor α) : Option α × Editor α :=
  match editor.next, new with
  | (some value, past), some new => (some value, past.assign new)
  | step, _ => step

/-- Passes an element for each of the edits, and assigns the new values to those that have one. -/
def passAll : List (Option α) → Editor α → List (Option α) × Editor α
  | [], editor => ([], editor)
  | new :: edits, editor =>
    let (value, past) := editor.pass new
    let (values, beyond) := passAll edits past
    (value :: values, beyond)

/-- A list with the values that the edits have for its first elements. -/
def edited (edits : List (Option α)) (list : List α) : List α :=
  list.mapIdx fun i old => (edits[i]?.join).getD old

@[simp]
theorem edited_nil (list : List α) : edited [] list = list := by
  apply List.ext_getElem?
  intro i
  simp [edited]

@[simp]
theorem edited_cons (new : Option α) (edits : List (Option α)) (old : α) (list : List α) :
    edited (new :: edits) (old :: list) = new.getD old :: edited edits list := by
  simp [edited]

/-- What one call with an assignment gives and makes of an editor. -/
theorem pass_eq (new : Option α) (passed : List α) (ahead : Chain α) :
    pass new ⟨passed, ahead⟩ =
      match ahead with
      | .empty => (none, ⟨passed, .empty⟩)
      | .link old rest => (some old, ⟨new.getD old :: passed, rest⟩) := by
  cases ahead with
  | empty => rfl
  | link old rest => cases new <;> rfl

/-- **Calls with assignments** give what calls without them give, and the new values take the place
of the first elements ahead. -/
theorem passAll_eq (edits : List (Option α)) (passed : List α) (ahead : Chain α) :
    (passAll edits ⟨passed, ahead⟩).1 = answers ahead.toList 0 edits.length ∧
      (passAll edits ⟨passed, ahead⟩).2.contents = passed.reverse ++ edited edits ahead.toList := by
  induction edits generalizing passed ahead with
  | nil => exact ⟨rfl, by simp [passAll, contents]⟩
  | cons new edits ih =>
    cases ahead with
    | empty =>
      obtain ⟨values, contents⟩ := ih passed empty
      refine ⟨?_, contents⟩
      rw [List.length_cons, toList_empty, answers_succ, ← answers_drop [] (0 + 1), List.drop_nil]
      exact congrArg (none :: ·) values
    | link old rest =>
      obtain ⟨values, contents⟩ := ih (new.getD old :: passed) rest
      simp only [passAll, pass_eq]
      constructor
      · rw [values, List.length_cons, toList_link, answers_succ, ← answers_drop _ (0 + 1)]
        rfl
      · rw [contents, List.reverse_cons, List.append_assoc, toList_link, edited_cons]
        rfl

end Editor

/-! ## The theorem -/

/-- **The three walks agree after every call.** Readers of a chain that are copied at any time each
give the element at the place that their own number of calls tells, then all that follow it in
order, and nothing ever after; editors and drains give the same elements as a reader, whatever the
editor assigns, and a drain owns just those that it has not given; and a chain that was edited
holds the new values at the places that were assigned to, and its own elements at all others. -/
theorem walks_agree (chain : Chain α) :
    let list := chain.toList
    (∀ requests,
      let served := serveAll Reader.next (fun _ => chain.reader) requests
      let told := serveAll countCall (fun _ => 0) requests
      served.1 = told.1.map (list[·]?) ∧
        ∀ i n, (calls Reader.next n (served.2 i)).1 = answers list (told.2 i) n) ∧
    (∀ n, (calls Editor.next n chain.editor).1 = answers list 0 n ∧
      (calls Drain.next n chain.drain).1 = answers list 0 n ∧
      (calls Drain.next n chain.drain).2.owned.toList = list.drop n) ∧
    ∀ edits, (chain.editor.passAll edits).1 = answers list 0 edits.length ∧
      (chain.editor.passAll edits).2.close.toList = Editor.edited edits list := by
  intro list
  refine ⟨fun requests => ?_, fun n => ?_, fun edits => ?_⟩
  · obtain ⟨values, stand⟩ :=
      serveAll_readers (fun _ => chain.reader) (fun _ => 0) (fun _ => List.drop_zero.symm) requests
    refine ⟨values, fun i n => ?_⟩
    rw [(Reader.walks.calls n _).1, stand, answers_drop]
    rfl
  · obtain ⟨taken, owned⟩ := Drain.walks.calls n chain.drain
    exact ⟨(Editor.walks.calls n chain.editor).1, taken, owned⟩
  · obtain ⟨values, contents⟩ := Editor.passAll_eq edits [] chain
    exact ⟨values, (Editor.toList_close _).trans contents⟩

-- A copy taken after one call goes on by itself, and both end after the last element.
example :
    (serveAll Reader.next (fun _ => (ofList [1, 2]).reader)
      [.next 0, .copy 0 1, .next 1, .next 1, .next 0, .next 0]).1 =
        [some 1, some 2, none, some 2, none] := rfl

end ArithTokens.Chain
