import ArithTokens.Span

/-!
# Stretches of a text

A text holds a word from one byte offset up to another if the word stands there between two
characters each time.

* byte sizes tell the beginnings of a text apart (`append_inj_of_byteSize`), so what a text holds
  between two offsets is **unique**;
* cutting at an offset that is a boundary **succeeds** (`Holds.slice`).
-/

namespace ArithTokens

namespace Text

theorem byteSize_pos {text : List Char} (some : text ≠ []) : 0 < byteSize text := by
  obtain ⟨c, cs, rfl⟩ := List.exists_cons_of_ne_nil some
  have := c.utf8Size_pos
  rw [byteSize_cons]
  omega

/-- A text splits in one way only into a beginning of a given size and the rest. -/
theorem append_inj_of_byteSize {s t s' t' : List Char} (same : s ++ t = s' ++ t')
    (size : byteSize s = byteSize s') : s = s' ∧ t = t' := by
  induction s generalizing s' with
  | nil =>
    cases s' with
    | nil => exact ⟨rfl, same⟩
    | cons d ds =>
      have := byteSize_pos (List.cons_ne_nil d ds)
      rw [byteSize_nil] at size
      omega
  | cons c cs ih =>
    cases s' with
    | nil =>
      have := byteSize_pos (List.cons_ne_nil c cs)
      rw [byteSize_nil] at size
      omega
    | cons d ds =>
      rw [List.cons_append, List.cons_append, List.cons.injEq] at same
      obtain ⟨rfl, same⟩ := same
      rw [byteSize_cons, byteSize_cons] at size
      obtain ⟨rfl, rest⟩ := ih same (by omega)
      exact ⟨rfl, rest⟩

/-- The shorter of two beginnings of a text is a beginning of the other. -/
theorem exists_append_of_byteSize_le {s t s' t' : List Char} (same : s ++ t = s' ++ t')
    (size : byteSize s ≤ byteSize s') : ∃ m, s' = s ++ m ∧ t = m ++ t' := by
  rcases List.append_eq_append_iff.mp same with ⟨m, split⟩ | ⟨m, rfl, rest⟩
  · exact ⟨m, split⟩
  · cases m with
    | nil => exact ⟨[], by simp, by simpa using rest.symm⟩
    | cons c m =>
      have := byteSize_pos (List.cons_ne_nil c m)
      rw [byteSize_append] at size
      omega

/-- A character of two texts in a row stands in the first or in the second. -/
theorem append_eq_append_cons {s t before behind : List Char} {c : Char}
    (same : s ++ t = before ++ c :: behind) :
    (∃ m, s = before ++ c :: m ∧ behind = m ++ t) ∨ ∃ m, before = s ++ m ∧ t = m ++ c :: behind := by
  rcases Nat.lt_or_ge (byteSize before) (byteSize s) with size | size
  · obtain ⟨m, rfl, rest⟩ := exists_append_of_byteSize_le same.symm (Nat.le_of_lt size)
    cases m with
    | nil => simp at size
    | cons d m =>
      rw [List.cons_append, List.cons.injEq] at rest
      obtain ⟨rfl, rest⟩ := rest
      exact Or.inl ⟨m, rfl, rest⟩
  · exact Or.inr (exists_append_of_byteSize_le same size)

/-! ## Cutting at a boundary -/

theorem dropBytes?_append (s t : List Char) : dropBytes? (byteSize s) (s ++ t) = some t := by
  induction s with
  | nil => cases t <;> rfl
  | cons c cs ih =>
    obtain ⟨n, size⟩ := Nat.exists_eq_succ_of_ne_zero
      (Nat.ne_of_gt (byteSize_pos (List.cons_ne_nil c cs)))
    rw [size, List.cons_append, dropBytes?]
    rw [byteSize_cons] at size
    rw [if_pos (by omega), show n + 1 - c.utf8Size = byteSize cs by omega, ih]

theorem takeBytes?_append (s t : List Char) : takeBytes? (byteSize s) (s ++ t) = some s := by
  induction s with
  | nil => cases t <;> rfl
  | cons c cs ih =>
    obtain ⟨n, size⟩ := Nat.exists_eq_succ_of_ne_zero
      (Nat.ne_of_gt (byteSize_pos (List.cons_ne_nil c cs)))
    rw [size, List.cons_append, takeBytes?]
    rw [byteSize_cons] at size
    rw [if_pos (by omega), show n + 1 - c.utf8Size = byteSize cs by omega, ih, Option.map_some]

/-! ## What a text holds -/

/-- Whether `word` is what a text, whose own first byte is byte `base`, holds from byte `start` up
to byte `stop`. -/
def Holds (base : Nat) (text : List Char) (start stop : Nat) (word : List Char) : Prop :=
  ∃ before behind, text = before ++ word ++ behind ∧
    base + byteSize before = start ∧ base + byteSize (before ++ word) = stop

variable {base start stop : Nat} {s t text word other : List Char}

theorem Holds.le_start (held : Holds base text start stop word) : base ≤ start := by
  obtain ⟨before, behind, -, rfl, -⟩ := held
  exact Nat.le_add_right base _

theorem Holds.stop_eq (held : Holds base text start stop word) : stop = start + byteSize word := by
  obtain ⟨before, behind, -, rfl, rfl⟩ := held
  rw [byteSize_append, Nat.add_assoc]

/-- What a text holds between two offsets is unique. -/
theorem Holds.unique (held : Holds base text start stop word)
    (also : Holds base text start stop other) : word = other := by
  have size : byteSize word = byteSize other := by
    have := held.stop_eq
    have := also.stop_eq
    omega
  obtain ⟨before, behind, rfl, rfl, -⟩ := held
  obtain ⟨before', behind', same, start', -⟩ := also
  rw [List.append_assoc, List.append_assoc] at same
  obtain ⟨-, rest⟩ := append_inj_of_byteSize same (by omega)
  exact (append_inj_of_byteSize rest size).1

/-- The end of a text is held by the whole text, too. -/
theorem Holds.skip (held : Holds (base + byteSize s) t start stop word) :
    Holds base (s ++ t) start stop word := by
  obtain ⟨before, behind, rfl, rfl, rfl⟩ := held
  refine ⟨s ++ before, behind, by simp, ?_, ?_⟩
  · rw [byteSize_append, Nat.add_assoc]
  · rw [List.append_assoc, byteSize_append, Nat.add_assoc]

/-- What stands behind the beginning of a text is held by the rest. -/
theorem Holds.of_skip (held : Holds base (s ++ t) start stop word)
    (past : base + byteSize s ≤ start) : Holds (base + byteSize s) t start stop word := by
  obtain ⟨before, behind, same, rfl, rfl⟩ := held
  rw [List.append_assoc] at same
  obtain ⟨m, rfl, rfl⟩ := exists_append_of_byteSize_le same (by omega)
  refine ⟨m, behind, by simp, ?_, ?_⟩
  · rw [byteSize_append, Nat.add_assoc]
  · simp only [byteSize_append, Nat.add_assoc]

end Text

/-- A span whose ends are boundaries of a text names what the text holds there. -/
theorem Text.Holds.slice {text : String} {s : Span} {word : List Char}
    (held : Text.Holds 0 text.toList s.start s.stop word) :
    s.slice text = .ok (String.ofList word) := by
  obtain ⟨before, behind, chars, start, stop⟩ := held
  rw [Nat.zero_add] at start stop
  have whole : Text.byteSize text.toList = s.stop + Text.byteSize behind := by
    rw [chars, Text.byteSize_append, stop]
  have length : s.stop - s.start = Text.byteSize word := by
    rw [← start, ← stop, Text.byteSize_append, Nat.add_sub_cancel_left]
  have order : s.start ≤ s.stop := by
    rw [← start, ← stop, Text.byteSize_append]
    exact Nat.le_add_right _ _
  simp only [Span.slice]
  rw [if_neg (by omega), if_neg (by omega), length, chars, ← start, List.append_assoc,
    Text.dropBytes?_append]
  simp only [Text.takeBytes?_append]

end ArithTokens
