import ArithTokens.Proofs.Text.Stretch

/-!
# Byte offsets in a text

A byte offset within a text stands **between** two characters, or at an end, or it lies **inside**
a character; and it is one of the two only.

* `IsBoundary` and `Splits` are the two kinds of offsets, and `isBoundary_or_splits` says that
  there are no others;
* a text is cut just at its boundaries (`dropBytes?_eq_some_iff`, `takeBytes?_eq_some_iff`), and a
  stretch is cut out of it just between two of them (`slice?_eq_some_iff`, `slice?_eq_none_iff`).
-/

namespace ArithTokens.Text

variable {offset base start stop low high : Nat} {text rest word inside : List Char}

/-- Whether a text has a beginning of this number of bytes. -/
def IsBoundary (offset : Nat) (text : List Char) : Prop :=
  ∃ before behind, text = before ++ behind ∧ byteSize before = offset

/-- Whether a byte offset lies **inside a character** of a text. -/
def Splits (offset : Nat) (text : List Char) : Prop :=
  ∃ before c behind, text = before ++ c :: behind ∧
    byteSize before < offset ∧ offset < byteSize before + c.utf8Size

theorem byteSize_toList (s : String) : byteSize s.toList = s.utf8ByteSize := by
  have chars (cs : List Char) : byteSize cs = (String.ofList cs).utf8ByteSize := by
    induction cs with
    | nil => rfl
    | cons c cs ih =>
      rw [byteSize_cons, ih, String.ofList_cons, String.utf8ByteSize_append,
        String.utf8ByteSize_singleton]
  rw [chars, String.ofList_toList]

/-! ## The two kinds of offsets -/

theorem isBoundary_append (s t : List Char) : IsBoundary (byteSize s) (s ++ t) := ⟨s, t, rfl, rfl⟩

theorem IsBoundary.not_splits (boundary : IsBoundary offset text) : ¬ Splits offset text := by
  rintro ⟨before, c, behind, split, past, short⟩
  obtain ⟨s, t, rfl, rfl⟩ := boundary
  -- The beginning up to the offset goes past the text before the character, so it has that
  -- character in it, and then it is too long.
  obtain ⟨m, rfl, rest⟩ := exists_append_of_byteSize_le split.symm (Nat.le_of_lt past)
  cases m with
  | nil => simp at past
  | cons d m =>
    rw [List.cons_append, List.cons.injEq] at rest
    obtain ⟨rfl, -⟩ := rest
    rw [byteSize_append, byteSize_cons] at short
    omega

theorem IsBoundary.le (boundary : IsBoundary offset text) : offset ≤ byteSize text := by
  obtain ⟨before, behind, rfl, rfl⟩ := boundary
  rw [byteSize_append]
  exact Nat.le_add_right _ _

/-- **Every offset within a text** is a boundary or lies inside a character. -/
theorem isBoundary_or_splits (within : offset ≤ byteSize text) :
    IsBoundary offset text ∨ Splits offset text := by
  induction text generalizing offset with
  | nil =>
    rw [byteSize_nil] at within
    exact Or.inl ⟨[], [], rfl, by rw [byteSize_nil]; omega⟩
  | cons c cs ih =>
    rw [byteSize_cons] at within
    rcases Nat.lt_or_ge offset c.utf8Size with short | past
    · rcases Nat.eq_zero_or_pos offset with rfl | some
      · exact Or.inl (isBoundary_append [] (c :: cs))
      · exact Or.inr ⟨[], c, cs, rfl, some, by rwa [byteSize_nil, Nat.zero_add]⟩
    · have further : offset - c.utf8Size ≤ byteSize cs := by omega
      rcases ih further with ⟨before, behind, rfl, size⟩ | ⟨before, d, behind, rfl, low, high⟩
      · refine Or.inl ⟨c :: before, behind, rfl, ?_⟩
        rw [byteSize_cons]
        omega
      · refine Or.inr ⟨c :: before, d, behind, rfl, ?_, ?_⟩ <;> rw [byteSize_cons] <;> omega

/-! ## Cutting -/

/-- A text is cut off **just at its boundaries**. -/
theorem dropBytes?_eq_some_iff :
    dropBytes? offset text = some rest ↔
      ∃ before, text = before ++ rest ∧ byteSize before = offset := by
  constructor
  · intro cut
    fun_induction dropBytes? offset text with
    | case1 text => exact ⟨[], by simpa using cut, rfl⟩
    | case2 n => cases cut
    | case3 n c cs fits ih =>
      obtain ⟨before, rfl, size⟩ := ih cut
      refine ⟨c :: before, rfl, ?_⟩
      rw [byteSize_cons]
      omega
    | case4 n c cs splits => cases cut
  · rintro ⟨before, rfl, rfl⟩
    exact dropBytes?_append before rest

theorem takeBytes?_eq_some_iff :
    takeBytes? offset text = some inside ↔
      ∃ rest, text = inside ++ rest ∧ byteSize inside = offset := by
  constructor
  · intro cut
    fun_induction takeBytes? offset text generalizing inside with
    | case1 text =>
      obtain rfl := Option.some.inj cut
      exact ⟨text, rfl, rfl⟩
    | case2 n => cases cut
    | case3 n c cs fits ih =>
      obtain ⟨tail, shorter, rfl⟩ := Option.map_eq_some_iff.mp cut
      obtain ⟨rest, rfl, size⟩ := ih shorter
      refine ⟨rest, rfl, ?_⟩
      rw [byteSize_cons]
      omega
    | case4 n c cs splits => cases cut
  · rintro ⟨rest, rfl, rfl⟩
    exact takeBytes?_append inside rest

/-- A cut at an offset inside a character fails. -/
theorem dropBytes?_of_splits (splits : Splits offset text) : dropBytes? offset text = none := by
  rw [Option.eq_none_iff_forall_ne_some]
  intro rest cut
  obtain ⟨before, split, size⟩ := dropBytes?_eq_some_iff.mp cut
  have boundary : IsBoundary offset text := ⟨before, rest, split, size⟩
  exact boundary.not_splits splits

theorem takeBytes?_of_splits {before : List Char}
    (splits : Splits (byteSize before + offset) (before ++ text)) :
    takeBytes? offset text = none := by
  rw [Option.eq_none_iff_forall_ne_some]
  intro inside cut
  obtain ⟨behind, rfl, rfl⟩ := takeBytes?_eq_some_iff.mp cut
  rw [← List.append_assoc, ← byteSize_append] at splits
  exact (isBoundary_append (before ++ inside) behind).not_splits splits

/-! ## Stretches between two offsets -/

/-- A stretch is cut out **just where the text holds it**. -/
theorem slice?_eq_some_iff :
    slice? start stop text = some word ↔ Holds 0 text start stop word := by
  constructor
  · intro cut
    rw [slice?] at cut
    split at cut
    · rename_i order
      obtain ⟨rest, first, last⟩ := Option.bind_eq_some_iff.mp cut
      obtain ⟨before, rfl, rfl⟩ := dropBytes?_eq_some_iff.mp first
      obtain ⟨behind, rfl, size⟩ := takeBytes?_eq_some_iff.mp last
      refine ⟨before, behind, by rw [List.append_assoc], Nat.zero_add _, ?_⟩
      rw [byteSize_append, size]
      omega
    · cases cut
  · rintro ⟨before, behind, rfl, rfl, rfl⟩
    rw [Nat.zero_add, Nat.zero_add, slice?, if_pos (by simp), List.append_assoc,
      dropBytes?_append, Option.bind_some, byteSize_append, Nat.add_sub_cancel_left,
      takeBytes?_append]

/-! ## What a text holds between boundaries -/

/-- Between two boundaries, a text holds a word. -/
theorem exists_holds (first : IsBoundary start text) (last : IsBoundary stop text)
    (order : start ≤ stop) : ∃ word, Holds 0 text start stop word := by
  obtain ⟨before, behind, rfl, rfl⟩ := first
  obtain ⟨front, back, split, rfl⟩ := last
  obtain ⟨word, rfl, rfl⟩ := exists_append_of_byteSize_le split order
  exact ⟨word, before, back, by simp, by simp, by simp⟩

theorem Holds.isBoundary_start (held : Holds 0 text start stop word) : IsBoundary start text := by
  obtain ⟨before, behind, rfl, rfl, -⟩ := held
  rw [Nat.zero_add, List.append_assoc]
  exact isBoundary_append before _

theorem Holds.isBoundary_stop (held : Holds 0 text start stop word) : IsBoundary stop text := by
  obtain ⟨before, behind, rfl, -, rfl⟩ := held
  rw [Nat.zero_add]
  exact isBoundary_append _ behind

/-- What a text holds between two offsets holds all that the text holds **further inside**. -/
theorem Holds.within (outer : Holds base text start stop inside)
    (inner : Holds base text low high word) (front : start ≤ low) (back : high ≤ stop) :
    Holds start inside low high word := by
  obtain ⟨before, behind, rfl, rfl, rfl⟩ := outer
  obtain ⟨ahead, beyond, same, rfl, rfl⟩ := inner
  rw [List.append_assoc, List.append_assoc] at same
  obtain ⟨m, rfl, rest⟩ := exists_append_of_byteSize_le same (by omega)
  rw [← List.append_assoc] at rest
  simp only [byteSize_append] at back
  obtain ⟨n, rfl, -⟩ := exists_append_of_byteSize_le rest.symm (by rw [byteSize_append]; omega)
  exact ⟨m, n, rfl, by simp [Nat.add_assoc], by simp [Nat.add_assoc]⟩

/-- **No stretch up to a boundary** is cut out from behind it, or from inside a character. -/
theorem slice?_eq_none_iff (last : IsBoundary stop text) :
    slice? start stop text = none ↔ stop < start ∨ Splits start text := by
  constructor
  · intro none
    rcases Nat.lt_or_ge stop start with order | order
    · exact Or.inl order
    right
    apply (isBoundary_or_splits (Nat.le_trans order last.le)).resolve_left
    intro first
    obtain ⟨word, held⟩ := exists_holds first last order
    rw [slice?_eq_some_iff.mpr held] at none
    cases none
  · intro broken
    rw [Option.eq_none_iff_forall_ne_some]
    intro word cut
    have held := slice?_eq_some_iff.mp cut
    rcases broken with order | splits
    · have := held.stop_eq
      omega
    · exact held.isBoundary_start.not_splits splits

end ArithTokens.Text
