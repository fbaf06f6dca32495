import ArithTokens.Json

/-!
# Arrays of records

What is written of any records has **no control character** below the blank in it, whatever the
records' texts hold, and so no line feed.
-/

namespace ArithTokens.Json

/-- Whether a text has no character below the blank. -/
def Printed (text : String) : Prop := ∀ c ∈ text.toList, 0x20 ≤ c.toNat

namespace Printed

variable {s t : String}

theorem append (left : Printed s) (right : Printed t) : Printed (s ++ t) := by
  intro c mem
  rw [String.toList_append, List.mem_append] at mem
  exact mem.elim (left c) (right c)

theorem intercalate {texts : List String} (between : Printed s)
    (all : ∀ text ∈ texts, Printed text) : Printed (s.intercalate texts) := by
  induction texts with
  | nil => simp [Printed]
  | cons text texts ih =>
    have rest := ih fun other mem => all other (List.mem_cons_of_mem text mem)
    have first := all text List.mem_cons_self
    cases texts with
    | nil => simpa using first
    | cons other texts =>
      rw [String.intercalate_cons_cons]
      exact (first.append between).append rest

end Printed

theorem printed_hexDigit (n : Nat) : 0x20 ≤ (hexDigit n).toNat := by
  have digits : ∀ k < 16, 0x20 ≤ (Nat.digitChar k).toNat := by decide
  exact digits _ (Nat.mod_lt n (by decide))

theorem printed_escapeChar (c : Char) : ∀ d ∈ escapeChar c, 0x20 ≤ d.toNat := by
  unfold escapeChar
  split
  case h_8 =>
    split
    · simp [printed_hexDigit]
    · rename_i other
      simpa using other
  all_goals simp

theorem printed_string (text : String) : Printed (string text) := by
  intro d mem
  rw [string, String.toList_ofList] at mem
  simp only [List.mem_append, List.mem_cons, List.mem_flatMap, List.not_mem_nil, or_false] at mem
  rcases mem with (rfl | ⟨c, -, mem⟩) | rfl
  · simp
  · exact printed_escapeChar c d mem
  · simp

theorem printed_write (value : Scalar) : Printed value.write := by
  cases value with
  | number value =>
    intro d mem
    rw [Scalar.write, Nat.toList_repr] at mem
    have digit := Nat.isDigit_of_mem_toDigits (by decide) (by decide) mem
    exact Nat.le_trans (by decide) (Char.isDigit_iff_toNat.mp digit).1
  | text value => exact printed_string value

theorem Record.printed_write (record : Record) : Printed record.write := by
  refine .append (.append (by simp [Printed]) (.intercalate (by simp [Printed]) ?_))
    (by simp [Printed])
  intro text mem
  obtain ⟨⟨key, value⟩, -, rfl⟩ := List.mem_map.mp mem
  exact ((printed_string key).append (by simp [Printed])).append (Json.printed_write value)

/-- **No array has a control character in it.** -/
theorem printed_array (records : List Record) : Printed (array records) := by
  refine .append (.append (by simp [Printed]) (.intercalate (by simp [Printed]) ?_))
    (by simp [Printed])
  intro text mem
  obtain ⟨record, -, rfl⟩ := List.mem_map.mp mem
  exact record.printed_write

end ArithTokens.Json
