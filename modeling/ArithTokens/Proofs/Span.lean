import ArithTokens.Span
import Mathlib.Data.List.Nodup

/-!
# Covers of many spans

The cover of two spans stands where the one that starts first stands, so that the order of the two
counts if both start together. The cover of many spans is **the same in every order** if no two of
them start together.

* `Encloses` says what a cover of some spans is, without an order among them;
* `encloses_of_coverAll?` says that covering one after the other gives such a span, and
  `Encloses.unique` that there is only one;
* `encloses_of_ordered` is the cover of spans that follow each other.
-/

namespace ArithTokens.Span

variable {s w w' : Span} {spans others : List Span}

/-- **Whether a span is a least one around some spans**: it begins as one of those that start first
does, and stops with one of those that stop last. -/
structure Encloses (w : Span) (spans : List Span) : Prop where
  start_le : ∀ s ∈ spans, w.start ≤ s.start
  le_stop : ∀ s ∈ spans, s.stop ≤ w.stop
  begins : ∃ s ∈ spans, w.start = s.start ∧ w.line = s.line ∧ w.column = s.column
  stops : ∃ s ∈ spans, w.stop = s.stop

/-! ## Covering one span after the other -/

theorem cover_start (s t : Span) : (s.cover t).start = min s.start t.start := rfl

theorem cover_stop (s t : Span) : (s.cover t).stop = max s.stop t.stop := rfl

/-- A cover begins as the span that starts first, which is the left one if both start together. -/
theorem cover_begins (s t : Span) :
    (s.start ≤ t.start ∧ (s.cover t).line = s.line ∧ (s.cover t).column = s.column) ∨
      (t.start < s.start ∧ (s.cover t).line = t.line ∧ (s.cover t).column = t.column) := by
  by_cases earlier : t.start < s.start
  · exact Or.inr ⟨earlier, by simp [cover, earlier], by simp [cover, earlier]⟩
  · exact Or.inl ⟨Nat.not_lt.mp earlier, by simp [cover, earlier], by simp [cover, earlier]⟩

theorem encloses_singleton (s : Span) : s.Encloses [s] := by
  refine ⟨?_, ?_, ⟨s, by simp⟩, ⟨s, by simp⟩⟩ <;> simp

/-- One more span is covered. -/
theorem Encloses.cover (encloses : w.Encloses spans) (s : Span) :
    (w.cover s).Encloses (spans ++ [s]) := by
  constructor
  case start_le =>
    intro t mem
    rw [cover_start]
    rcases List.mem_append.mp mem with mem | mem
    · have := encloses.start_le t mem
      omega
    · obtain rfl := List.mem_singleton.mp mem
      omega
  case le_stop =>
    intro t mem
    rw [cover_stop]
    rcases List.mem_append.mp mem with mem | mem
    · have := encloses.le_stop t mem
      omega
    · obtain rfl := List.mem_singleton.mp mem
      omega
  case begins =>
    rcases cover_begins w s with ⟨first, line, column⟩ | ⟨first, line, column⟩
    · obtain ⟨t, mem, start, line', column'⟩ := encloses.begins
      refine ⟨t, List.mem_append_left [s] mem, ?_, line.trans line', column.trans column'⟩
      rw [cover_start]
      omega
    · refine ⟨s, by simp, ?_, line, column⟩
      rw [cover_start]
      omega
  case stops =>
    rw [cover_stop]
    rcases Nat.le_total s.stop w.stop with last | last
    · obtain ⟨t, mem, stop⟩ := encloses.stops
      exact ⟨t, List.mem_append_left [s] mem, (Nat.max_eq_left last).trans stop⟩
    · exact ⟨s, by simp, Nat.max_eq_right last⟩

theorem Encloses.foldl_cover (encloses : w.Encloses spans) (others : List Span) :
    (others.foldl Span.cover w).Encloses (spans ++ others) := by
  induction others generalizing w spans with
  | nil => rwa [List.append_nil]
  | cons s others ih =>
    rw [List.foldl_cons, List.append_cons]
    exact ih (encloses.cover s)

/-- **Covering spans one after the other** gives a least span around them. -/
theorem encloses_of_coverAll? (covered : coverAll? spans = some w) : w.Encloses spans := by
  cases spans with
  | nil => cases covered
  | cons s others =>
    obtain rfl := Option.some.inj covered
    exact (encloses_singleton s).foldl_cover others

/-! ## The order of the spans -/

/-- What encloses some spans encloses them in another order. -/
theorem Encloses.perm (encloses : w.Encloses spans) (perm : spans.Perm others) :
    w.Encloses others := by
  obtain ⟨s, first, begins⟩ := encloses.begins
  obtain ⟨t, last, stops⟩ := encloses.stops
  exact ⟨fun r mem => encloses.start_le r (perm.mem_iff.mpr mem),
    fun r mem => encloses.le_stop r (perm.mem_iff.mpr mem),
    ⟨s, perm.mem_iff.mp first, begins⟩, ⟨t, perm.mem_iff.mp last, stops⟩⟩

/-- **There is one least span** around spans of which no two start together. -/
theorem Encloses.unique (distinct : (spans.map Span.start).Nodup) (encloses : w.Encloses spans)
    (also : w'.Encloses spans) : w = w' := by
  obtain ⟨s, mem, start, line, column⟩ := encloses.begins
  obtain ⟨s', mem', start', line', column'⟩ := also.begins
  obtain ⟨t, last, stop⟩ := encloses.stops
  obtain ⟨t', last', stop'⟩ := also.stops
  have starts : w.start = w'.start := by
    have := encloses.start_le s' mem'
    have := also.start_le s mem
    omega
  have stops : w.stop = w'.stop := by
    have := encloses.le_stop t' last'
    have := also.le_stop t last
    omega
  obtain rfl : s = s' := List.inj_on_of_nodup_map distinct mem mem' (by omega)
  cases w
  cases w'
  exact Span.mk.injEq .. ▸ ⟨starts, stops, line.trans line'.symm, column.trans column'.symm⟩

/-- The cover of spans of which no two start together, taken in any order. -/
theorem coverAll?_of_perm (distinct : (spans.map Span.start).Nodup) (encloses : w.Encloses spans)
    (perm : others.Perm spans) : coverAll? others = some w := by
  obtain ⟨s, mem, -⟩ := encloses.begins
  rcases covered : coverAll? others with _ | w'
  · cases others with
    | nil => cases perm.mem_iff.mpr mem
    | cons => cases covered
  · exact congrArg some (((encloses_of_coverAll? covered).perm perm).unique distinct encloses)

/-! ## Spans that follow each other -/

/-- The span that begins as one span does and stops where another stops. -/
def upTo (first last : Span) : Span := { first with stop := last.stop }

variable (nonempty : ∀ s ∈ spans, s.start < s.stop)
  (ordered : spans.Pairwise fun s t => s.stop ≤ t.start)

include nonempty ordered

theorem nodup_start_of_ordered : (spans.map Span.start).Nodup := by
  refine List.pairwise_map.mpr (ordered.imp_of_mem fun {s t} mem _ order => ?_)
  have := nonempty s mem
  omega

/-- Spans that follow each other are enclosed by the span from the first of them to the last. -/
theorem encloses_of_ordered (some : spans ≠ []) :
    ((spans.head some).upTo (spans.getLast some)).Encloses spans := by
  refine ⟨?_, ?_, ⟨spans.head some, List.head_mem some, rfl, rfl, rfl⟩,
    ⟨spans.getLast some, List.getLast_mem some, rfl⟩⟩
  · intro s mem
    obtain ⟨first, rest, rfl⟩ := List.exists_cons_of_ne_nil some
    rcases List.mem_cons.mp mem with rfl | mem
    · exact Nat.le_refl _
    · have order := (List.pairwise_cons.mp ordered).1 s mem
      exact Nat.le_trans (Nat.le_of_lt (nonempty first List.mem_cons_self)) order
  · intro s mem
    have split := List.dropLast_append_getLast some
    have final := nonempty _ (List.getLast_mem some)
    rw [← split] at mem ordered
    rcases List.mem_append.mp mem with mem | mem
    · have order := (List.pairwise_append.mp ordered).2.2 s mem _ List.mem_cons_self
      exact Nat.le_trans order (Nat.le_of_lt final)
    · obtain rfl := List.mem_singleton.mp mem
      exact Nat.le_refl _

end ArithTokens.Span
