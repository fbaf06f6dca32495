import ArithTokens.Proofs.Span
import ArithTokens.Proofs.Text.Boundary

/-!
# What a span cuts out of a text

Every span, in whatever way it was made, either names a stretch of a text or breaks a rule.

* `Refuses` is the **first rule** that a span breaks, without a cut being tried;
* `holds_or_refuses` says that a span that breaks none names a stretch, and `slice_eq_ok_iff` and
  `slice_eq_error_iff` that the cut tells which of the two it is;
* `holds_cover` is the stretch of a cover, which has those of the two spans in it.
-/

namespace ArithTokens.Span

open Text (Holds IsBoundary Splits byteSize byteSize_toList)

variable {text word whole : String} {s t : Span} {cause : SpanError}

/-- **The first rule that a span breaks**: its ends are in order, within the text, and between
characters, the first end before the second. -/
inductive Refuses (text : String) (s : Span) : SpanError → Prop
  | inverted (order : s.stop < s.start) : Refuses text s (.inverted s.start s.stop)
  | outOfBounds (order : s.start ≤ s.stop) (beyond : text.utf8ByteSize < s.stop) :
      Refuses text s (.outOfBounds text.utf8ByteSize s.start s.stop)
  | startSplits (order : s.start ≤ s.stop) (within : s.stop ≤ text.utf8ByteSize)
      (splits : Splits s.start text.toList) : Refuses text s (.splitsCharacter s.start)
  | stopSplits (order : s.start ≤ s.stop) (within : s.stop ≤ text.utf8ByteSize)
      (unsplit : ¬ Splits s.start text.toList) (splits : Splits s.stop text.toList) :
      Refuses text s (.splitsCharacter s.stop)

/-- Whether a text holds a word from a byte offset on. -/
def HoldsAt (whole : String) (offset : Nat) (word : String) : Prop :=
  ∃ p q, whole = p ++ word ++ q ∧ p.utf8ByteSize = offset

/-! ## Cuts that are refused -/

/-- **A broken rule is the one that is reported.** -/
theorem Refuses.slice (refuses : Refuses text s cause) : s.slice text = .error cause := by
  cases refuses with
  | inverted order => rw [Span.slice, if_pos order]
  | outOfBounds order beyond =>
    rw [Span.slice, if_neg (Nat.not_lt.mpr order), byteSize_toList, if_pos beyond]
  | startSplits order within splits =>
    rw [Span.slice, if_neg (Nat.not_lt.mpr order), byteSize_toList, if_neg (Nat.not_lt.mpr within)]
    rw [Text.dropBytes?_of_splits splits]
  | stopSplits order within unsplit splits =>
    have within' : s.stop ≤ byteSize text.toList := by rwa [byteSize_toList]
    obtain ⟨before, rest, chars, size⟩ :=
      (Text.isBoundary_or_splits (Nat.le_trans order within')).resolve_right unsplit
    have ends : byteSize before + (s.stop - s.start) = s.stop := by omega
    rw [chars, ← ends] at splits
    rw [Span.slice, if_neg (Nat.not_lt.mpr order), if_neg (Nat.not_lt.mpr within')]
    simp only [Text.dropBytes?_eq_some_iff.mpr ⟨before, chars, size⟩,
      Text.takeBytes?_of_splits splits]

/-! ## Cuts that succeed -/

/-- **A span that breaks no rule** names a stretch of the text. -/
theorem holds_or_refuses (text : String) (s : Span) :
    (∃ word, Holds 0 text.toList s.start s.stop word) ∨ ∃ cause, Refuses text s cause := by
  rcases Nat.lt_or_ge s.stop s.start with order | order
  · exact Or.inr ⟨_, .inverted order⟩
  rcases Nat.lt_or_ge text.utf8ByteSize s.stop with beyond | within
  · exact Or.inr ⟨_, .outOfBounds order beyond⟩
  have within' : s.stop ≤ byteSize text.toList := by rwa [byteSize_toList]
  rcases Text.isBoundary_or_splits (Nat.le_trans order within') with first | splits
  · rcases Text.isBoundary_or_splits within' with last | splits
    · exact Or.inl (Text.exists_holds first last order)
    · exact Or.inr ⟨_, .stopSplits order within first.not_splits splits⟩
  · exact Or.inr ⟨_, .startSplits order within splits⟩

/-- **A cut succeeds** just where the text holds the word between the ends of the span. -/
theorem slice_eq_ok_iff :
    s.slice text = .ok word ↔ Holds 0 text.toList s.start s.stop word.toList := by
  constructor
  · intro cut
    rcases holds_or_refuses text s with ⟨chars, held⟩ | ⟨cause, refuses⟩
    · obtain rfl := Except.ok.inj (cut.symm.trans held.slice)
      rwa [String.toList_ofList]
    · cases cut.symm.trans refuses.slice
  · intro held
    rw [held.slice, String.ofList_toList]

/-- **A cut fails** just where a rule is broken. -/
theorem slice_eq_error_iff : s.slice text = .error cause ↔ Refuses text s cause := by
  constructor
  · intro cut
    rcases holds_or_refuses text s with ⟨chars, held⟩ | ⟨broken, refuses⟩
    · cases cut.symm.trans held.slice
    · obtain rfl := Except.error.inj (cut.symm.trans refuses.slice)
      exact refuses
  · exact Refuses.slice

/-! ## Stretches as texts -/

/-- What a text holds, with the texts in front of it and behind it. -/
theorem holds_iff {start stop : Nat} :
    Holds 0 text.toList start stop word.toList ↔
      ∃ p q, text = p ++ word ++ q ∧ p.utf8ByteSize = start ∧ (p ++ word).utf8ByteSize = stop := by
  constructor
  · rintro ⟨before, behind, chars, rfl, rfl⟩
    refine ⟨String.ofList before, String.ofList behind, ?_, ?_, ?_⟩
    · rw [← String.toList_inj, chars]
      simp
    · rw [← byteSize_toList, String.toList_ofList, Nat.zero_add]
    · rw [← byteSize_toList, String.toList_append, String.toList_ofList, Nat.zero_add]
  · rintro ⟨p, q, rfl, rfl, rfl⟩
    refine ⟨p.toList, q.toList, by simp, ?_, ?_⟩
    · rw [byteSize_toList, Nat.zero_add]
    · rw [← String.toList_append, byteSize_toList, Nat.zero_add]

/-- A word that stands in a stretch stands in it as far on as the two starts are apart. -/
theorem holdsAt_of_holds {start low high : Nat}
    (held : Holds start whole.toList low high word.toList) :
    HoldsAt whole (low - start) word := by
  obtain ⟨before, behind, chars, rfl, -⟩ := held
  refine ⟨String.ofList before, String.ofList behind, ?_, ?_⟩
  · rw [← String.toList_inj, chars]
    simp
  · rw [← byteSize_toList, String.toList_ofList, Nat.add_sub_cancel_left]

/-! ## Covers -/

/-- **The cover of two spans** that name stretches of a text names a stretch, which has the two in
it. -/
theorem holds_cover {inside beside : List Char} (left : Holds 0 text.toList s.start s.stop inside)
    (right : Holds 0 text.toList t.start t.stop beside) :
    ∃ around, Holds 0 text.toList (s.cover t).start (s.cover t).stop around ∧
      Holds (s.cover t).start around s.start s.stop inside ∧
      Holds (s.cover t).start around t.start t.stop beside := by
  have first : IsBoundary (s.cover t).start text.toList := by
    rw [cover_start]
    rcases Nat.le_total s.start t.start with order | order
    · rw [Nat.min_eq_left order]
      exact left.isBoundary_start
    · rw [Nat.min_eq_right order]
      exact right.isBoundary_start
  have last : IsBoundary (s.cover t).stop text.toList := by
    rw [cover_stop]
    rcases Nat.le_total s.stop t.stop with order | order
    · rw [Nat.max_eq_right order]
      exact right.isBoundary_stop
    · rw [Nat.max_eq_left order]
      exact left.isBoundary_stop
  have order : (s.cover t).start ≤ (s.cover t).stop := by
    have := left.stop_eq
    rw [cover_start, cover_stop]
    omega
  obtain ⟨around, held⟩ := Text.exists_holds first last order
  refine ⟨around, held, ?_, ?_⟩
  · apply held.within left
    · exact Nat.min_le_left s.start t.start
    · exact Nat.le_max_left s.stop t.stop
  · apply held.within right
    · exact Nat.min_le_right s.start t.start
    · exact Nat.le_max_right s.stop t.stop

/-! ## The theorem -/

/-- **A cut gives what stands between the ends of a span, or the first rule that the span breaks.**
It gives a word just where the text is made of this word, a text in front of it that is as long as
the start and another behind it; it gives a cause just where the span breaks that rule and none
before it. And if two spans name words of a text, so does their cover, and the two words stand in
the word of the cover, each as far on as its span starts behind the cover. -/
theorem slice_exact (text : String) (s : Span) :
    (∀ word, s.slice text = .ok word ↔
      ∃ p q, text = p ++ word ++ q ∧ p.utf8ByteSize = s.start ∧ (p ++ word).utf8ByteSize = s.stop) ∧
    (∀ cause, s.slice text = .error cause ↔ Refuses text s cause) ∧
    ∀ t word other, s.slice text = .ok word → t.slice text = .ok other →
      ∃ whole, (s.cover t).slice text = .ok whole ∧
        HoldsAt whole (s.start - (s.cover t).start) word ∧
        HoldsAt whole (t.start - (s.cover t).start) other := by
  refine ⟨fun word => slice_eq_ok_iff.trans holds_iff, fun cause => slice_eq_error_iff, ?_⟩
  intro t word other cut also
  obtain ⟨around, held, left, right⟩ :=
    holds_cover (slice_eq_ok_iff.mp cut) (slice_eq_ok_iff.mp also)
  have chars : (String.ofList around).toList = around := String.toList_ofList
  refine ⟨String.ofList around, held.slice, ?_, ?_⟩
  · apply holdsAt_of_holds
    rwa [chars]
  · apply holdsAt_of_holds
    rwa [chars]

/-- Two words with a character of two bytes between them, the later one first. -/
theorem slice_exact_later_first :
    let text := "aé💡b"
    let s : Span := ⟨3, 7, 1, 3⟩
    let t : Span := ⟨0, 1, 1, 1⟩
    s.slice text = .ok "💡" ∧ t.slice text = .ok "a" ∧
      ∃ whole, (s.cover t).slice text = .ok whole ∧ HoldsAt whole 3 "💡" ∧ HoldsAt whole 0 "a" := by
  intro text s t
  have cut : s.slice text = .ok "💡" := by decide +kernel
  have also : t.slice text = .ok "a" := by decide +kernel
  obtain ⟨-, -, covers⟩ := slice_exact text s
  exact ⟨cut, also, covers t _ _ cut also⟩

-- Both ends lie inside characters, and the first is told.
example : Span.slice ⟨2, 5, 1, 1⟩ "aé💡b" = .error (.splitsCharacter 2) := by decide +kernel

end ArithTokens.Span
