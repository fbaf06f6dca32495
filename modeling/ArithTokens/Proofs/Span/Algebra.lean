import ArithTokens.Place
import ArithTokens.Proofs.Span

/-!
# The algebra of covers

Covering is **associative**, and it commutes but for the place of two spans that start together.
Inverted and empty spans are no exception.

* a span is its place and its stop (`eq_iff_place`), and the place of a cover is the place of the
  span that starts first (`place_cover_of_le`, `place_cover_of_lt`);
* `contains_cover` says that a cover loses no offset, and `le_of_covers` that a span that has every
  offset of a non-empty one reaches as far on both sides;
* `cover_laws` puts them together.
-/

namespace ArithTokens.Span

variable {s t u w : Span} {offset : Nat}

/-- Whether every offset in a span is in another. -/
def Covers (w s : Span) : Prop := ∀ offset, s.contains offset = true → w.contains offset = true

/-! ## The place of a cover -/

/-- A span is where it starts, with its line and column, and where it stops. -/
theorem eq_iff_place : s = t ↔ s.place = t.place ∧ s.stop = t.stop := by
  cases s
  cases t
  simp only [place, mk.injEq, Place.mk.injEq]
  tauto

theorem place_cover_of_le (first : s.start ≤ t.start) : (s.cover t).place = s.place := by
  rcases cover_begins s t with ⟨-, line, column⟩ | ⟨later, -⟩
  · rw [place, cover_start, Nat.min_eq_left first, line, column, place]
  · omega

theorem place_cover_of_lt (first : t.start < s.start) : (s.cover t).place = t.place := by
  rcases cover_begins s t with ⟨later, -⟩ | ⟨-, line, column⟩
  · omega
  · rw [place, cover_start, Nat.min_eq_right (Nat.le_of_lt first), line, column, place]

/-- Of the left span, only the place matters for the place of a cover. -/
theorem place_cover_congr (same : s.place = t.place) : (s.cover u).place = (t.cover u).place := by
  have start : s.start = t.start := congrArg Place.offset same
  rcases Nat.lt_or_ge u.start s.start with first | first
  · rw [place_cover_of_lt first, place_cover_of_lt (start ▸ first)]
  · rw [place_cover_of_le first, place_cover_of_le (start ▸ first), same]

/-! ## Laws -/

/-- **Covers of three spans** do not depend on which two are covered first. -/
theorem cover_assoc (a b c : Span) : (a.cover b).cover c = a.cover (b.cover c) := by
  apply eq_iff_place.mpr
  refine ⟨?_, Nat.max_assoc a.stop b.stop c.stop⟩
  rcases Nat.lt_or_ge b.start a.start with first | first
  · -- The left span gives way to the middle one, whether the right one is covered yet or not.
    have later : (b.cover c).start < a.start := by
      rw [cover_start]
      omega
    rw [place_cover_of_lt later]
    apply place_cover_congr
    exact place_cover_of_lt first
  rw [place_cover_congr (place_cover_of_le first)]
  rcases Nat.lt_or_ge c.start b.start with last | last
  · -- The middle span gives way to the right one.
    have inner : (b.cover c).start = c.start := congrArg Place.offset (place_cover_of_lt last)
    rcases Nat.lt_or_ge c.start a.start with final | final
    · rw [place_cover_of_lt final, place_cover_of_lt (inner ▸ final), place_cover_of_lt last]
    · rw [place_cover_of_le final, place_cover_of_le (inner ▸ final)]
  · have inner : (b.cover c).start = b.start := congrArg Place.offset (place_cover_of_le last)
    rw [place_cover_of_le (Nat.le_trans first last), place_cover_of_le (inner ▸ first)]

theorem cover_self (s : Span) : s.cover s = s := by
  apply eq_iff_place.mpr
  exact ⟨place_cover_of_le (Nat.le_refl s.start), Nat.max_self s.stop⟩

/-- Spans that start together are covered from the place of the left one, others in any order. -/
theorem cover_comm_iff (s t : Span) :
    s.cover t = t.cover s ↔ s.start ≠ t.start ∨ s.line = t.line ∧ s.column = t.column := by
  have stops : (s.cover t).stop = (t.cover s).stop := Nat.max_comm s.stop t.stop
  rw [eq_iff_place, and_iff_left stops]
  rcases Nat.lt_trichotomy s.start t.start with first | together | first
  · rw [place_cover_of_le (Nat.le_of_lt first), place_cover_of_lt first]
    exact iff_of_true rfl (Or.inl (Nat.ne_of_lt first))
  · rw [place_cover_of_le (Nat.le_of_eq together), place_cover_of_le (Nat.le_of_eq together.symm)]
    simp [place, together]
  · rw [place_cover_of_lt first, place_cover_of_le (Nat.le_of_lt first)]
    exact iff_of_true rfl (Or.inl (Nat.ne_of_gt first))

/-! ## Offsets -/

theorem contains_iff : s.contains offset = true ↔ s.start ≤ offset ∧ offset < s.stop :=
  decide_eq_true_iff

/-- **A cover has every offset** of its two spans. -/
theorem contains_cover (mem : s.contains offset = true ∨ t.contains offset = true) :
    (s.cover t).contains offset = true := by
  rw [contains_iff, cover_start, cover_stop]
  rcases mem with mem | mem
  · rw [contains_iff] at mem
    omega
  · rw [contains_iff] at mem
    omega

/-- A cover is at least as long as its two spans. -/
theorem length_le_length_cover (s t : Span) :
    s.length ≤ (s.cover t).length ∧ t.length ≤ (s.cover t).length := by
  simp only [length, cover_start, cover_stop]
  omega

/-- A span that has every offset of a non-empty one has its first and its last. -/
theorem le_of_covers (nonempty : s.isEmpty = false) (covers : w.Covers s) :
    w.start ≤ s.start ∧ s.stop ≤ w.stop := by
  have order : s.start < s.stop := Nat.not_le.mp (of_decide_eq_false nonempty)
  have first := covers s.start (contains_iff.mpr ⟨Nat.le_refl s.start, order⟩)
  have last := covers (s.stop - 1) (contains_iff.mpr (by omega))
  rw [contains_iff] at first last
  omega

/-! ## The theorem -/

/-- **Covers are a semigroup** of spans, in which each span is its own square and two commute unless
they start together at different places. A cover has every offset of its two spans and is at least
as long as each; and for spans that are not empty it is the least such span. -/
theorem cover_laws (a b c : Span) :
    (a.cover b).cover c = a.cover (b.cover c) ∧
    a.cover a = a ∧
    (a.cover b = b.cover a ↔ a.start ≠ b.start ∨ a.line = b.line ∧ a.column = b.column) ∧
    (a.cover b).Covers a ∧ (a.cover b).Covers b ∧
    a.length ≤ (a.cover b).length ∧ b.length ≤ (a.cover b).length ∧
    (a.isEmpty = false → b.isEmpty = false → ∀ w : Span, w.Covers a → w.Covers b →
      w.start ≤ (a.cover b).start ∧ (a.cover b).stop ≤ w.stop) := by
  refine ⟨cover_assoc a b c, cover_self a, cover_comm_iff a b, fun _ mem => ?_, fun _ mem => ?_,
    (length_le_length_cover a b).1, (length_le_length_cover a b).2, ?_⟩
  · exact contains_cover (Or.inl mem)
  · exact contains_cover (Or.inr mem)
  · intro some also w left right
    have left := le_of_covers some left
    have right := le_of_covers also right
    rw [cover_start, cover_stop]
    omega

/-- Two spans that start together on different lines, and an inverted one. -/
theorem cover_laws_together :
    let a : Span := ⟨4, 6, 1, 5⟩
    let b : Span := ⟨4, 9, 2, 1⟩
    let c : Span := ⟨7, 2, 3, 3⟩
    (a.cover b).cover c = ⟨4, 9, 1, 5⟩ ∧ (a.cover b).cover c = a.cover (b.cover c) ∧
      a.cover b ≠ b.cover a ∧
      a.isEmpty = false ∧ b.isEmpty = false ∧
      (⟨0, 9, 1, 1⟩ : Span).Covers a ∧ (⟨0, 9, 1, 1⟩ : Span).Covers b ∧
      0 ≤ (a.cover b).start ∧ (a.cover b).stop ≤ 9 := by
  intro a b c
  obtain ⟨assoc, -, comm, -, -, -, -, least⟩ := cover_laws a b c
  have around (s : Span) (stop : s.stop ≤ 9) : (⟨0, 9, 1, 1⟩ : Span).Covers s := by
    intro offset mem
    rw [contains_iff] at mem ⊢
    exact ⟨Nat.zero_le offset, Nat.lt_of_lt_of_le mem.2 stop⟩
  have left := around a (by decide)
  have right := around b (by decide)
  have apart : ¬ (a.start ≠ b.start ∨ a.line = b.line ∧ a.column = b.column) := by decide
  refine ⟨by decide, assoc, fun same => apart (comm.mp same), rfl, rfl, left, right, ?_⟩
  exact least rfl rfl ⟨0, 9, 1, 1⟩ left right

end ArithTokens.Span
