import ArithTokens.Place
import ArithTokens.Proofs.Text.Stretch
import Mathlib.Data.List.DropRight

/-!
# Lines and columns of places

The line of a place is the number of line feeds in front of it, and the column is the number of
characters behind the last of them; both count from one (`line_after`, `column_after`). So the
place after two texts in a row is the place after the second, **moved** by the first
(`spanTo_after_append`).

Lines and columns are words of 32 bits. The counts are exact as long as the text in front of a
place is shorter than `UInt32.size - 1` characters: no counter overflows then (`after?_start`), and
every place is **exact** (`exact_after`).
-/

namespace ArithTokens

/-- The characters behind the last line feed of a text; all of them if there is none. -/
def Text.lastLine (text : List Char) : List Char := text.rtakeWhile (· != '\n')

/-- A span of a text as it stands when `front` is put before the text. Only tokens on the first
line change their column. -/
def Span.moved (front : List Char) (s : Span) : Span :=
  { start := s.start + Text.byteSize front
    stop := s.stop + Text.byteSize front
    line := s.line + UInt32.ofNat (front.count '\n')
    column :=
      if s.line = 1 then s.column + UInt32.ofNat (Text.lastLine front).length else s.column }

namespace Text

theorem length_lastLine_le (text : List Char) : (lastLine text).length ≤ text.length :=
  (List.rtakeWhile_suffix (fun c => c != '\n') text).length_le

theorem lastLine_concat (text : List Char) (c : Char) :
    lastLine (text ++ [c]) = if c = '\n' then [] else lastLine text ++ [c] := by
  rw [lastLine, List.rtakeWhile_concat]
  by_cases feed : c = '\n' <;> simp [feed, lastLine]

theorem lastLine_append {s t : List Char} :
    lastLine (s ++ t) = if '\n' ∈ t then lastLine t else lastLine s ++ t := by
  induction t using List.reverseRecOn with
  | nil => simp
  | append_singleton t c ih =>
    rw [← List.append_assoc, lastLine_concat, lastLine_concat, ih]
    by_cases feed : c = '\n'
    · simp [feed]
    · by_cases inside : '\n' ∈ t <;> simp [feed, inside, Ne.symm feed]

theorem lastLine_of_not_mem {text : List Char} (h : '\n' ∉ text) : lastLine text = text :=
  (lastLine_append (s := [])).trans (if_neg h)

end Text

namespace Place

open Text (lastLine byteSize)

/-! ## Counting -/

theorem line_after (text : List Char) :
    (start.after text).line = UInt32.ofNat (1 + text.count '\n') := by
  induction text using List.reverseRecOn with
  | nil => rfl
  | append_singleton text c ih =>
    rw [after_append, after_cons, after_nil, step, List.count_append]
    by_cases feed : c = '\n'
    · simp [feed, ih, ← Nat.add_assoc, UInt32.ofNat_add]
    · simp [feed, ih]

theorem column_after (text : List Char) :
    (start.after text).column = UInt32.ofNat (1 + (lastLine text).length) := by
  induction text using List.reverseRecOn with
  | nil => rfl
  | append_singleton text c ih =>
    rw [after_append, after_cons, after_nil, step, Text.lastLine_concat]
    by_cases feed : c = '\n'
    · simp [feed]
    · simp [feed, ih, ← Nat.add_assoc, UInt32.ofNat_add]

variable {text : List Char}

theorem toNat_line_after (short : text.length < UInt32.size - 1) :
    (start.after text).line.toNat = 1 + text.count '\n' := by
  have := List.count_le_length (a := '\n') (l := text)
  rw [line_after, UInt32.toNat_ofNat_of_lt' (by omega)]

theorem toNat_column_after (short : text.length < UInt32.size - 1) :
    (start.after text).column.toNat = 1 + (lastLine text).length := by
  have := Text.length_lastLine_le text
  rw [column_after, UInt32.toNat_ofNat_of_lt' (by omega)]

/-- A place is on the first line as long as no line feed stands before it. -/
theorem line_after_eq_one_iff (short : text.length < UInt32.size - 1) :
    (start.after text).line = 1 ↔ '\n' ∉ text := by
  rw [← UInt32.toNat_inj, toNat_line_after short, ← List.count_eq_zero]
  simp

/-! ## Counting without overflow -/

/-- The place after one more character, unless the counter that moves is at its greatest word. -/
def step? (here : Place) (c : Char) : Option Place :=
  if (if c = '\n' then here.line else here.column).toNat + 1 < UInt32.size then some (here.step c)
  else none

/-- The place after a text, unless a counter goes past its greatest word on the way. -/
def after? (here : Place) (text : List Char) : Option Place := text.foldlM step? here

/-- **No counter overflows** in a text that is short enough. -/
theorem after?_start (short : text.length < UInt32.size - 1) :
    start.after? text = some (start.after text) := by
  induction text using List.reverseRecOn with
  | nil => rfl
  | append_singleton text c ih =>
    rw [List.length_append, List.length_singleton] at short
    have front : text.length < UInt32.size - 1 := by omega
    have line := toNat_line_after front
    have column := toNat_column_after front
    have := List.count_le_length (a := '\n') (l := text)
    have := Text.length_lastLine_le text
    have fits : (if c = '\n' then (start.after text).line
        else (start.after text).column).toNat + 1 < UInt32.size := by
      split <;> omega
    rw [after?, List.foldlM_append, ← after?, ih front, after_append, after_cons, after_nil]
    exact (bind_pure (step? (start.after text) c)).trans (if_pos fits)

/-- **Whether a place of a text is what the text before it tells**: its line is one more than the
number of line feeds there, its column one more than that of the characters behind the last of
them, and neither of the two overflows on the way. -/
def Exact (text : List Char) (here : Place) : Prop :=
  ∃ passed, Text.takeBytes? here.offset text = some passed ∧
    here.line.toNat = 1 + passed.count '\n' ∧ here.column.toNat = 1 + (lastLine passed).length ∧
    start.after? passed = some here

/-- Every place that is counted from the start is exact. -/
theorem exact_after {passed ahead : List Char} (chars : text = passed ++ ahead)
    (short : text.length < UInt32.size - 1) : (start.after passed).Exact text := by
  have front : passed.length < UInt32.size - 1 := by
    rw [chars, List.length_append] at short
    omega
  refine ⟨passed, ?_, toNat_line_after front, toNat_column_after front, after?_start front⟩
  rw [chars, after_offset, start, Nat.zero_add, Text.takeBytes?_append]

/-! ## Moving -/

/-- **The span between two places moves with the text in front of it.** -/
theorem spanTo_after_append (front past : List Char) (short : text.length < UInt32.size - 1) :
    (start.after (front ++ text)).spanTo (start.after (front ++ past)) =
      ((start.after text).spanTo (start.after past)).moved front := by
  have line : (start.after (front ++ text)).line =
      (start.after text).line + UInt32.ofNat (front.count '\n') := by
    rw [line_after, line_after, List.count_append, ← UInt32.ofNat_add]
    congr 1
    omega
  have column : (start.after (front ++ text)).column =
      if (start.after text).line = 1 then
        (start.after text).column + UInt32.ofNat (lastLine front).length
      else (start.after text).column := by
    rw [column_after, column_after, Text.lastLine_append]
    by_cases feed : '\n' ∈ text
    · rw [if_pos feed, if_neg (fun one => (line_after_eq_one_iff short).mp one feed)]
    · rw [if_neg feed, if_pos ((line_after_eq_one_iff short).mpr feed), List.length_append,
        Text.lastLine_of_not_mem feed, ← UInt32.ofNat_add]
      congr 1
      omega
  simp only [spanTo, Span.moved, Span.mk.injEq]
  refine ⟨?_, ?_, line, column⟩ <;> simp only [after_offset, Text.byteSize_append] <;> omega

end Place

end ArithTokens
