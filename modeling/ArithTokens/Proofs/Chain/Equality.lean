import ArithTokens.Proofs.Chain.Elements

/-!
# Equality of chains

Chains are compared element by element, by an `==` that may hold of elements that differ. If it is
an **equivalence** of elements, it is one of chains, and no operation tells equal chains apart.

* `beq_link` and its like compare chains by their first elements, and all other proofs go by them;
* `beq_iff_places` is equality by length and places;
* `place` is the place that a search finds, and `place_congr` says that it is the same for equal
  values in equal chains.
-/

namespace ArithTokens.Chain

variable {α : Type} [BEq α] {a b : α} {s t u : Chain α}

/-! ## Comparing the first elements -/

@[simp]
theorem empty_beq_empty : ((empty : Chain α) == empty) = true := rfl

@[simp]
theorem empty_beq_link : (empty == link b t) = false := rfl

@[simp]
theorem link_beq_empty : (link a s == empty) = false := rfl

@[simp]
theorem beq_link : (link a s == link b t) = (a == b && s == t) := by
  change beq (link a s) (link b t) = (a == b && beq s t)
  rw [beq]
  cases a == b <;> rfl

/-! ## An equivalence -/

theorem refl_beq [ReflBEq α] (s : Chain α) : (s == s) = true := by
  induction s with
  | empty => rfl
  | link a s ih => rw [beq_link, ih, BEq.rfl, Bool.and_self]

section

variable [PartialEquivBEq α]

theorem symm_beq (equal : s == t) : t == s := by
  induction s generalizing t with
  | empty =>
    cases t with
    | empty => rfl
    | link b t => cases equal
  | link a s ih =>
    cases t with
    | empty => cases equal
    | link b t =>
      rw [beq_link, Bool.and_eq_true] at equal ⊢
      obtain ⟨first, rest⟩ := equal
      exact ⟨BEq.symm first, ih rest⟩

theorem trans_beq (equal : s == t) (also : t == u) : s == u := by
  induction s generalizing t u with
  | empty =>
    cases t with
    | empty => exact also
    | link b t => cases equal
  | link a s ih =>
    cases t with
    | empty => cases equal
    | link b t =>
      cases u with
      | empty => cases also
      | link c u =>
        rw [beq_link, Bool.and_eq_true] at equal also ⊢
        exact ⟨BEq.trans equal.1 also.1, ih equal.2 also.2⟩

end

instance [EquivBEq α] : EquivBEq (Chain α) where
  rfl := refl_beq _
  symm := symm_beq
  trans := trans_beq

/-! ## Places -/

/-- **Chains are equal** if they have the same length and equal elements at every place. -/
theorem beq_iff_places :
    s == t ↔ s.length = t.length ∧
      ∀ (i : Nat) (a b : α), s.toList[i]? = some a → t.toList[i]? = some b → a == b := by
  rw [length_eq, length_eq]
  induction s generalizing t with
  | empty => cases t <;> simp
  | link a s ih =>
    cases t with
    | empty => simp
    | link b t =>
      rw [beq_link, Bool.and_eq_true, ih]
      constructor
      · rintro ⟨first, length, places⟩
        refine ⟨congrArg (· + 1) length, ?_⟩
        rintro (_ | i) c d here there
        · obtain rfl := Option.some.inj here
          obtain rfl := Option.some.inj there
          exact first
        · exact places i c d here there
      · rintro ⟨length, places⟩
        exact ⟨places 0 a b rfl rfl, Nat.succ.inj length, fun i c d => places (i + 1) c d⟩

/-- The place of the first element that equals a value; the length if there is none. -/
def place (value : α) (chain : Chain α) : Nat := chain.toList.findIdx (· == value)

/-- **Equal values are found at the same place** in equal chains. -/
theorem place_congr [PartialEquivBEq α] (values : a == b) (chains : s == t) :
    s.place a = t.place b := by
  unfold place
  induction s generalizing t with
  | empty =>
    cases t with
    | empty => rfl
    | link d t => cases chains
  | link c s ih =>
    cases t with
    | empty => cases chains
    | link d t =>
      rw [beq_link, Bool.and_eq_true] at chains
      obtain ⟨first, rest⟩ := chains
      have alike : (c == a) = (d == b) := (BEq.congr_left first).trans (BEq.congr_right values)
      rw [toList_link, toList_link, List.findIdx_cons, List.findIdx_cons, alike, ih rest]

/-! ## Operations on equal chains -/

theorem push_beq_push : s.push a == t.push b ↔ a == b ∧ s == t := by
  rw [push, push, beq_link, Bool.and_eq_true]

theorem pop_congr (equal : s == t) :
    Option.Rel (fun x y => x == y) s.pop.1 t.pop.1 ∧ s.pop.2 == t.pop.2 := by
  cases s with
  | empty =>
    cases t with
    | empty => exact ⟨.none, rfl⟩
    | link b t => cases equal
  | link a s =>
    cases t with
    | empty => cases equal
    | link b t =>
      rw [beq_link, Bool.and_eq_true] at equal
      exact ⟨.some equal.1, equal.2⟩

theorem copy_beq [ReflBEq α] (s : Chain α) : (s.copy == s) = true := by
  rw [beq_eq, toList_copy]
  exact BEq.rfl

/-! ## The theorem -/

/-- **An equivalence of elements is one of chains, and all operations respect it.** Chains are equal
if they have the same length and equal elements at every place; adding elements to chains gives
equal ones just if both the elements and the chains are equal; equal chains give up equal elements
and leave equal chains; a copy is equal to what was copied; and searches for equal values in equal
chains, whether they look or assign, find the same place, or none in either. -/
theorem beq_respected [EquivBEq α] :
    (∀ s : Chain α, s == s) ∧ (∀ s t : Chain α, s == t → t == s) ∧
    (∀ s t u : Chain α, s == t → t == u → s == u) ∧
    (∀ s t : Chain α, s == t ↔ s.length = t.length ∧
      ∀ (i : Nat) (a b : α), s.toList[i]? = some a → t.toList[i]? = some b → a == b) ∧
    (∀ (a b : α) (s t : Chain α), s.push a == t.push b ↔ a == b ∧ s == t) ∧
    (∀ s t : Chain α, s == t →
      Option.Rel (fun x y => x == y) s.pop.1 t.pop.1 ∧ s.pop.2 == t.pop.2) ∧
    (∀ s : Chain α, s.copy == s) ∧
    ∀ (a b : α) (s t : Chain α), a == b → s == t →
      ∃ place, s.place a = place ∧ t.place b = place ∧
        s.find? a = s.toList[place]? ∧ t.find? b = t.toList[place]? ∧
        ∀ new,
          (s.findSet a new).1 = s.toList[place]? ∧
          (s.findSet a new).2.toList = s.toList.set place new ∧
          (t.findSet b new).1 = t.toList[place]? ∧
          (t.findSet b new).2.toList = t.toList.set place new := by
  refine ⟨refl_beq, fun _ _ => symm_beq, fun _ _ _ => trans_beq, fun _ _ => beq_iff_places,
    fun _ _ _ _ => push_beq_push, fun _ _ => pop_congr, copy_beq, ?_⟩
  intro a b s t values chains
  have same : t.place b = s.place a := (place_congr values chains).symm
  have there : t.find? b = t.toList[s.place a]? := by
    rw [← same]
    exact find?_eq b t
  refine ⟨s.place a, rfl, same, find?_eq a s, there, fun new => ?_⟩
  obtain ⟨old, edited⟩ := findSet_eq a new s
  obtain ⟨old', edited'⟩ := findSet_eq b new t
  change _ = t.toList[t.place b]? at old'
  change _ = t.toList.set (t.place b) new at edited'
  rw [same] at old' edited'
  exact ⟨old, edited, old', edited'⟩

/-- A value that is told apart by its key is equal to the values with that key. -/
instance : EquivBEq Keyed where
  rfl := BEq.rfl (α := Int)
  symm := BEq.symm (α := Int)
  trans := BEq.trans (α := Int)

/-- Values with one key are found at the second place of two chains that have no tag in common. -/
theorem beq_respected_keyed :
    let s : Chain Keyed := .ofList [⟨1, "a"⟩, ⟨2, "b"⟩, ⟨2, "c"⟩]
    let t : Chain Keyed := .ofList [⟨1, "x"⟩, ⟨2, "y"⟩, ⟨2, "z"⟩]
    s == t ∧ t == s ∧ s.find? ⟨2, "m"⟩ = some ⟨2, "b"⟩ ∧ t.find? ⟨2, "n"⟩ = some ⟨2, "y"⟩ := by
  intro s t
  have chains : s == t := rfl
  obtain ⟨-, symm, -, -, -, -, -, searches⟩ := beq_respected (α := Keyed)
  obtain ⟨place, first, -, here, there, -⟩ := searches ⟨2, "m"⟩ ⟨2, "n"⟩ s t rfl chains
  obtain rfl : 1 = place := first
  exact ⟨chains, symm s t chains, here, there⟩

end ArithTokens.Chain
