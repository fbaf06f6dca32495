import ArithTokens.Feed

/-!
# Lines of an input

Bytes are taken apart at their **first line feed** (`lineInduction`): there, or nowhere, a line
ends. What is said of lines is said of the first one and carried to the others.
-/

namespace ArithTokens.Feed

variable {line rest bytes s t : List UInt8}

/-! ## The first line -/

/-- A line feed in front of which there is no other is the first one. -/
theorem append_lineFeed_inj (plain : lineFeed ∉ line)
    (eq : line ++ lineFeed :: rest = s ++ lineFeed :: t) :
    (s = line ∧ t = rest) ∨ ∃ u, s = line ++ lineFeed :: u ∧ rest = u ++ lineFeed :: t := by
  rcases List.append_eq_append_iff.mp eq with ⟨u, rfl, tail⟩ | ⟨u, rfl, tail⟩
  · cases u with
    | nil => exact Or.inl (by simpa [eq_comm] using tail)
    | cons b u =>
      obtain ⟨rfl, rfl⟩ := List.cons.inj tail
      exact Or.inr ⟨u, rfl, rfl⟩
  · cases u with
    | nil => exact Or.inl (by simpa using tail)
    | cons b u =>
      obtain ⟨rfl, -⟩ := List.cons.inj tail
      simp at plain

/-- **Induction on the lines of bytes**: first those after the last line feed, then each line in
front of others. -/
theorem lineInduction {motive : List UInt8 → Prop}
    (last : ∀ rest, lineFeed ∉ rest → motive rest)
    (line : ∀ line bytes, lineFeed ∉ line → motive bytes → motive (line ++ lineFeed :: bytes))
    (bytes : List UInt8) : motive bytes := by
  by_cases mem : lineFeed ∈ bytes
  · obtain ⟨first, behind, split, plain⟩ := List.eq_append_cons_of_mem mem
    have shorter : behind.length < bytes.length := by
      rw [split, List.length_append, List.length_cons]
      omega
    rw [split]
    exact line first behind plain (lineInduction last line behind)
  · exact last bytes mem
termination_by bytes.length

theorem splitLines_of_not_mem (plain : lineFeed ∉ rest) : splitLines rest = ([], rest) := by
  induction rest with
  | nil => rfl
  | cons b rest ih =>
    rw [List.mem_cons, not_or] at plain
    rw [splitLines, ih plain.2]
    exact if_neg (Ne.symm plain.1)

theorem splitLines_line (plain : lineFeed ∉ line) (bytes : List UInt8) :
    splitLines (line ++ lineFeed :: bytes) =
      (line :: (splitLines bytes).1, (splitLines bytes).2) := by
  induction line with
  | nil => simp [splitLines]
  | cons b line ih =>
    rw [List.mem_cons, not_or] at plain
    rw [List.cons_append, splitLines, ih plain.2]
    exact if_neg (Ne.symm plain.1)

/-! ## All lines -/

theorem lines_of_not_mem (plain : lineFeed ∉ rest) :
    lines ⟨rest, false⟩ = if rest = [] then [] else [rest] := by
  rw [lines, splitLines_of_not_mem plain]
  cases rest <;> rfl

theorem lines_line (plain : lineFeed ∉ line) (bytes : List UInt8) :
    lines ⟨line ++ lineFeed :: bytes, false⟩ = stripReturn line :: lines ⟨bytes, false⟩ := by
  rw [lines, splitLines_line plain]
  rfl

theorem length_lines_le (bytes : List UInt8) : (lines ⟨bytes, false⟩).length ≤ bytes.length := by
  induction bytes using lineInduction with
  | last rest plain =>
    rw [lines_of_not_mem plain]
    split
    · exact Nat.zero_le _
    · exact List.length_pos_iff.mpr ‹_›
  | line line bytes plain ih =>
    rw [lines_line plain, List.length_cons, List.length_append, List.length_cons]
    omega

/-- A line loses nothing but one carriage return at its end. -/
theorem stripReturn_append (line : List UInt8) :
    stripReturn line = line ∨ line = stripReturn line ++ [carriageReturn] := by
  rw [stripReturn]
  split
  · rename_i last
    obtain ⟨front, rfl⟩ := List.getLast?_eq_some_iff.mp last
    exact Or.inr (by rw [List.dropLast_concat])
  · exact Or.inl rfl

/-! ## Empty lines -/

/-- Bytes without their empty lines. -/
def withoutEmptyLines (bytes : List UInt8) : List UInt8 :=
  ((splitLines bytes).1.filter (· ≠ [])).flatMap (· ++ [lineFeed]) ++ (splitLines bytes).2

theorem withoutEmptyLines_nil : withoutEmptyLines [] = [] := rfl

theorem withoutEmptyLines_lineFeed (bytes : List UInt8) :
    withoutEmptyLines (lineFeed :: bytes) = withoutEmptyLines bytes := by
  have first := splitLines_line (List.not_mem_nil (a := lineFeed)) bytes
  rw [List.nil_append] at first
  simp [withoutEmptyLines, first]

theorem withoutEmptyLines_line (plain : lineFeed ∉ line) (some : line ≠ []) (bytes : List UInt8) :
    withoutEmptyLines (line ++ lineFeed :: bytes) =
      line ++ lineFeed :: withoutEmptyLines bytes := by
  simp [withoutEmptyLines, splitLines_line plain, some]

end ArithTokens.Feed
