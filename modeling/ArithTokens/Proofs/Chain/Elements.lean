import ArithTokens.Chain.Listing
import Mathlib.Data.List.Basic

/-!
# Chains by their elements

A chain is known by the list of its elements, and each operation on chains is one on lists. There
is one lemma for each operation, and no other proof looks inside it.

* a reader has a list ahead of it (`Reader.take_eq`);
* an editor has a list that is partly passed: `Editor.contents` is all of it, with the assignments
  made, and `seek`, `overwriteFrom` and `fill` are told by what they make of it;
* a drain has the list that it still owns (`Drain.take_eq`).
-/

namespace ArithTokens.Chain

variable {α : Type}

/-! ## Building and the front -/

@[simp]
theorem toList_single (value : α) : (single value).toList = [value] := rfl

@[simp]
theorem toList_pushMany (value : α) (n : Nat) (chain : Chain α) :
    (chain.pushMany value n).toList = List.replicate n value ++ chain.toList := by
  induction n generalizing chain with
  | zero => rfl
  | succ n ih =>
    rw [pushMany, ih, toList_push, List.replicate_succ', List.append_assoc, List.singleton_append]

theorem front?_eq (chain : Chain α) : chain.front? = chain.toList.head? := by
  cases chain <;> rfl

theorem pop_fst (chain : Chain α) : chain.pop.1 = chain.toList.head? := by
  cases chain <;> rfl

@[simp]
theorem toList_pop (chain : Chain α) : chain.pop.2.toList = chain.toList.tail := by
  cases chain <;> rfl

theorem popMany_go (n taken : Nat) (chain : Chain α) :
    (popMany.go n taken chain).1 = taken + min n chain.toList.length ∧
      (popMany.go n taken chain).2.toList = chain.toList.drop n := by
  induction n generalizing taken chain with
  | zero => simp [popMany.go]
  | succ n ih =>
    cases chain with
    | empty => simp [popMany.go, pop]
    | link value next =>
      obtain ⟨count, rest⟩ := ih (taken + 1) next
      refine ⟨?_, rest⟩
      rw [popMany.go, pop, count, toList_link, List.length_cons]
      omega

theorem popMany_fst (n : Nat) (chain : Chain α) :
    (chain.popMany n).1 = min n chain.toList.length := by
  rw [popMany, (popMany_go n 0 chain).1, Nat.zero_add]

@[simp]
theorem toList_popMany (n : Nat) (chain : Chain α) :
    (chain.popMany n).2.toList = chain.toList.drop n :=
  (popMany_go n 0 chain).2

theorem setFront_fst (value : α) (chain : Chain α) :
    (chain.setFront value).1 = chain.toList.head? := by
  cases chain <;> rfl

@[simp]
theorem toList_setFront (value : α) (chain : Chain α) :
    (chain.setFront value).2.toList = chain.toList.set 0 value := by
  cases chain <;> rfl

/-! ## The whole chain -/

theorem isEmpty_eq (chain : Chain α) : chain.isEmpty = chain.toList.isEmpty := by
  cases chain <;> rfl

theorem countFrom_eq (counted : Nat) (chain : Chain α) :
    chain.countFrom counted = counted + chain.toList.length := by
  induction chain generalizing counted with
  | empty => rfl
  | link value next ih => rw [countFrom, ih, toList_link, List.length_cons, Nat.add_assoc, Nat.add_comm 1]

theorem length_eq (chain : Chain α) : chain.length = chain.toList.length := by
  rw [length, countFrom_eq, Nat.zero_add]

/-- **Chains are equal** just where the lists of their elements are. -/
theorem beq_eq [BEq α] (s t : Chain α) : (s == t) = (s.toList == t.toList) := by
  change beq s t = _
  induction s generalizing t with
  | empty => cases t <;> rfl
  | link a s ih =>
    cases t with
    | empty => rfl
    | link b t =>
      rw [beq, ih, toList_link, toList_link, List.cons_beq_cons]
      cases a == b <;> rfl

/-! ## Readers -/

theorem Reader.takeOnto_eq (seen : List α) (n : Nat) (reader : Reader α) :
    (reader.takeOnto seen n).1 = (reader.ahead.toList.take n).reverse ++ seen ∧
      (reader.takeOnto seen n).2.ahead.toList = reader.ahead.toList.drop n := by
  induction n generalizing seen reader with
  | zero => simp [takeOnto]
  | succ n ih =>
    obtain ⟨ahead⟩ := reader
    cases ahead with
    | empty => simp [takeOnto, next]
    | link value rest =>
      obtain ⟨values, past⟩ := ih (value :: seen) ⟨rest⟩
      refine ⟨?_, past⟩
      rw [takeOnto, next, values, toList_link, List.take_succ_cons, List.reverse_cons,
        List.append_assoc, List.singleton_append]

/-- A reader gives the elements ahead of it in their order. -/
theorem Reader.take_eq (n : Nat) (reader : Reader α) :
    (reader.take n).1 = reader.ahead.toList.take n ∧
      (reader.take n).2.ahead.toList = reader.ahead.toList.drop n := by
  obtain ⟨values, past⟩ := reader.takeOnto_eq [] n
  refine ⟨?_, past⟩
  simp only [take]
  rw [values, List.append_nil, List.reverse_reverse]

/-- The elements that are left are all of those ahead, and after them there are none. -/
theorem Reader.rest_eq (reader : Reader α) :
    reader.rest.1 = reader.ahead.toList ∧ reader.rest.2.next.1 = none := by
  obtain ⟨values, past⟩ := reader.take_eq reader.ahead.length
  rw [length_eq] at values past
  rw [List.take_length] at values
  rw [List.drop_length] at past
  refine ⟨by rw [rest, length_eq, values], ?_⟩
  rw [rest, length_eq]
  revert past
  rcases Reader.take reader.ahead.toList.length reader with ⟨_, ⟨ahead⟩⟩
  cases ahead with
  | empty => exact fun _ => rfl
  | link value rest => exact fun past => nomatch past

theorem reader_rest (chain : Chain α) : chain.reader.rest.1 = chain.toList :=
  chain.reader.rest_eq.1

@[simp]
theorem toList_copy (chain : Chain α) : chain.copy.toList = chain.toList := by
  rw [copy, toList_ofList, reader_rest]

/-- A search stops at the first element that equals the value. -/
theorem find?_eq [BEq α] (value : α) (chain : Chain α) :
    chain.find? value = chain.toList[chain.toList.findIdx (· == value)]? := by
  change Reader.find?.go value chain = _
  induction chain with
  | empty => rfl
  | link candidate rest ih =>
    rw [Reader.find?.go, toList_link, List.findIdx_cons]
    cases candidate == value with
    | true => rfl
    | false => exact ih

/-! ## Editors -/

namespace Editor

/-- All elements of an edited chain, with the assignments made. -/
def contents (editor : Editor α) : List α := editor.passed.reverse ++ editor.ahead.toList

@[simp]
theorem contents_editor (chain : Chain α) : chain.editor.contents = chain.toList := rfl

@[simp]
theorem toList_close (editor : Editor α) : editor.close.toList = editor.contents := by
  obtain ⟨passed, ahead⟩ := editor
  rw [close, contents]
  induction passed generalizing ahead with
  | nil => rfl
  | cons value earlier ih =>
    rw [List.foldl_cons, ih, List.reverse_cons, List.append_assoc, toList_link, List.singleton_append]

/-! ### Equation lemmas

`seek` and `fill` are defined by well-founded recursion; these are the equations that proofs work
with. -/

theorem seek_empty [BEq α] (value : α) (passed : List α) :
    seek value ⟨passed, empty⟩ = (none, ⟨passed, empty⟩) := by
  rw [seek]
  rfl

theorem seek_link [BEq α] (value candidate : α) (passed : List α) (rest : Chain α) :
    seek value ⟨passed, link candidate rest⟩ =
      if candidate == value then (some candidate, ⟨candidate :: passed, rest⟩)
      else seek value ⟨candidate :: passed, rest⟩ := by
  rw [seek]
  rfl

theorem fill_empty (value : α) (passed : List α) :
    fill value ⟨passed, empty⟩ = ⟨passed, empty⟩ := by
  rw [fill]
  rfl

theorem fill_link (value old : α) (passed : List α) (rest : Chain α) :
    fill value ⟨passed, link old rest⟩ = fill value ⟨value :: passed, rest⟩ := by
  rw [fill]
  rfl

/-! ### What editors do -/

/-- **A search** stops behind the first element that equals the value, where that element is the
one to be assigned to; if there is none, it stops at the end. -/
theorem seek_eq [BEq α] (value replacement : α) (passed : List α) (ahead : Chain α) :
    let place := ahead.toList.findIdx (· == value)
    let found := seek value ⟨passed, ahead⟩
    found.1 = ahead.toList[place]? ∧
      (if found.1.isSome then found.2.assign replacement else found.2).contents =
        passed.reverse ++ ahead.toList.set place replacement := by
  induction ahead generalizing passed with
  | empty => simp [seek_empty, contents]
  | link candidate rest ih =>
    simp only [seek_link, toList_link, List.findIdx_cons]
    cases candidate == value with
    | true => simp [assign, contents]
    | false =>
      obtain ⟨item, edited⟩ := ih (candidate :: passed)
      refine ⟨item, edited.trans ?_⟩
      simp

/-- Values are assigned one each, until they or the elements run out. -/
theorem overwriteFrom_eq (made : Nat) (values passed : List α) (ahead : Chain α) :
    let done := overwriteFrom made values ⟨passed, ahead⟩
    done.1 = made + min values.length ahead.toList.length ∧
      done.2.contents = passed.reverse ++
        (values.take ahead.toList.length ++ ahead.toList.drop values.length) := by
  induction values generalizing made passed ahead with
  | nil => simp [overwriteFrom, contents]
  | cons value values ih =>
    cases ahead with
    | empty => simp [overwriteFrom, next, contents]
    | link old rest =>
      obtain ⟨count, edited⟩ := ih (made + 1) (value :: passed) rest
      refine ⟨count.trans ?_, edited.trans ?_⟩
      · simp only [toList_link, List.length_cons]
        omega
      · simp

theorem contents_fill (value : α) (passed : List α) (ahead : Chain α) :
    (fill value ⟨passed, ahead⟩).contents =
      passed.reverse ++ List.replicate ahead.toList.length value := by
  induction ahead generalizing passed with
  | empty => simp [fill_empty, contents]
  | link old rest ih =>
    rw [fill_link, ih, toList_link, List.length_cons, List.replicate_succ, List.reverse_cons,
      List.append_assoc, List.singleton_append]

end Editor

theorem findSet_eq [BEq α] (value replacement : α) (chain : Chain α) :
    let place := chain.toList.findIdx (· == value)
    (chain.findSet value replacement).1 = chain.toList[place]? ∧
      (chain.findSet value replacement).2.toList = chain.toList.set place replacement := by
  obtain ⟨item, edited⟩ := Editor.seek_eq value replacement [] chain
  rw [findSet, editor]
  rcases sought : Editor.seek value ⟨[], chain⟩ with ⟨_ | old, past⟩
  · rw [sought] at item edited
    exact ⟨item, past.toList_close.trans edited⟩
  · rw [sought] at item edited
    exact ⟨item, (past.assign replacement).toList_close.trans edited⟩

theorem overwrite_eq (values : List α) (chain : Chain α) :
    (chain.overwrite values).1 = min values.length chain.toList.length ∧
      (chain.overwrite values).2.toList =
        values.take chain.toList.length ++ chain.toList.drop values.length := by
  obtain ⟨count, edited⟩ := Editor.overwriteFrom_eq 0 values [] chain
  refine ⟨count.trans (Nat.zero_add _), ?_⟩
  exact (Editor.toList_close _).trans edited

@[simp]
theorem toList_fill (value : α) (chain : Chain α) :
    (chain.fill value).toList = List.replicate chain.toList.length value := by
  rw [fill, Editor.toList_close]
  exact Editor.contents_fill value [] chain

/-! ## Drains -/

/-- A drain gives the elements that it owns in their order, and owns those that it has not given. -/
theorem Drain.take_eq (n : Nat) (drain : Drain α) :
    (drain.take n).1 = drain.owned.toList.take n ∧
      (drain.take n).2.owned.toList = drain.owned.toList.drop n := by
  induction n generalizing drain with
  | zero => simp [take]
  | succ n ih =>
    obtain ⟨owned⟩ := drain
    cases owned with
    | empty => simp [take, next, pop]
    | link value rest =>
      obtain ⟨values, left⟩ := ih ⟨rest⟩
      exact ⟨congrArg (value :: ·) values, left⟩

/-! ## Listings -/

variable [Listed α]

theorem listing_eq (chain : Chain α) :
    chain.listing = "[" ++ ", ".intercalate (chain.toList.map Listed.text) ++ "]" := by
  rw [listing, reader_rest]

theorem longListing_eq (chain : Chain α) :
    chain.longListing =
      if chain.toList.isEmpty then "[]"
      else
        "[\n" ++ String.ofList (indent true
          (chain.toList.flatMap fun a => (Listed.text a ++ ",\n").toList)) ++ "]" := by
  rw [longListing, isEmpty_eq, reader_rest]

end ArithTokens.Chain
