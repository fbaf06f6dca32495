import ArithTokens.Proofs.Json
import ArithTokens.Proofs.Json.Grammar

/-!
# Arrays of records as JSON texts

What is written of records is a text of the grammar, and a **compact** one: it denotes the records
even where no character may stand as a blank (`denotes_array`). Each way of escaping a character is
one of the spellings of the character (`spells_escapeChar`), and a number is written in a numeral
without zeros in front (`isNumeral_toDigits`).
-/

namespace ArithTokens.Json

open Scan (IsRun)

variable {blank : Char → Bool}

/-- The value that is written of a scalar. -/
def Scalar.value : Scalar → Value
  | .number value => .number (Nat.toDigits 10 value)
  | .text value => .text value

/-- The object that is written of a record. -/
def Record.value (record : Record) : Value :=
  .object (record.map fun (name, value) => (name, value.value))

/-! ## Numbers -/

theorem head?_toDigits {n : Nat} (positive : n ≠ 0) : (Nat.toDigits 10 n).head? ≠ some '0' := by
  induction n using Nat.strongRecOn with
  | ind n ih =>
    rcases Nat.lt_or_ge n 10 with small | large
    · have digits : ∀ k < 10, k ≠ 0 → some (Nat.digitChar k) ≠ some '0' := by decide
      rw [Nat.toDigits_of_lt_base small]
      exact digits n small positive
    · have rest := ih (n / 10) (by omega) (by omega)
      rwa [Nat.toDigits_of_base_le (by decide) large, List.head?_append,
        Option.or_of_isSome (List.isSome_head?.mpr Nat.toDigits_ne_nil)]

/-- The digits of a number are a numeral. -/
theorem isNumeral_toDigits (n : Nat) : IsNumeral (Nat.toDigits 10 n) := by
  have whole : IsWhole (Nat.toDigits 10 n) := by
    by_cases zero : n = 0
    · subst zero
      exact Or.inl rfl
    · have digits : IsRun Char.isDigit (Nat.toDigits 10 n) :=
        ⟨Nat.toDigits_ne_nil, fun c => Nat.isDigit_of_mem_toDigits (by decide) (by decide)⟩
      exact Or.inr ⟨digits, head?_toDigits zero⟩
  have numeral := IsNumeral.parts (Or.inl rfl) whole (Or.inl rfl) (Or.inl rfl)
  simpa using numeral

/-! ## Strings -/

/-- **Every character is spelled** by the way it is escaped, or by itself. -/
theorem spells_escapeChar (c : Char) : Spells (escapeChar c) c := by
  unfold escapeChar
  split
  case h_8 quote backslash _ _ _ _ _ =>
    split
    · rename_i control
      have units : ∀ n < 0x20, unit? '0' '0' (hexDigit (n / 16)) (hexDigit n) = some n := by decide
      have whole : IsWholeUnit c.toNat := Or.inl (by omega)
      have spells := Spells.unit (units c.toNat control) whole
      rwa [Char.ofNat_toNat] at spells
    · rename_i printed
      exact .plain (Nat.le_of_not_lt printed) quote backslash
  all_goals exact .short (by decide)

theorem spellsAll_escapeChar (text : List Char) : SpellsAll (text.flatMap escapeChar) text := by
  induction text with
  | nil => exact .nil
  | cons c text ih => exact .cons (spells_escapeChar c) ih

theorem toList_string (text : String) :
    (string text).toList = '"' :: (text.toList.flatMap escapeChar ++ ['"']) := by
  rw [string, String.toList_ofList, List.cons_append]

theorem denotes_string (text : String) : Denotes blank (string text).toList (.text text) := by
  have denotes : Denotes blank _ _ := .text (spellsAll_escapeChar text.toList)
  rwa [String.ofList_toList, ← toList_string] at denotes

-- A separator of lines is no control character, and stays as it is.
example : string "\"\\\n\x01\u2028" = "\"\\\"\\\\\\n\\u0001\u2028\"" := by decide

/-! ## Values -/

theorem denotes_write (value : Scalar) : Denotes blank value.write.toList value.value := by
  cases value with
  | number value =>
    rw [Scalar.write, Nat.toList_repr]
    exact .number (isNumeral_toDigits value)
  | text value => exact denotes_string value

/-- Texts with commas between them are the inside of a list. -/
theorem listed_intercalate (texts : List String) :
    Listed blank (",".intercalate texts).toList (texts.map String.toList) := by
  have gap : IsGap blank [] := fun c mem => absurd mem List.not_mem_nil
  induction texts with
  | nil => exact .none gap
  | cons text texts ih =>
    cases texts with
    | nil =>
      have single : Listed blank ([] ++ text.toList ++ []) [text.toList] := .last gap gap
      simpa using single
    | cons next texts =>
      have several : Listed blank ([] ++ text.toList ++ [] ++ ',' :: _) (text.toList :: _) :=
        .more gap gap ih
      simpa [String.intercalate_cons_cons] using several

/-- A named value of a record, as a member that is written without gaps. -/
def written (field : String × Scalar) : Member where
  spelling := field.1.toList.flatMap escapeChar
  name := field.1.toList
  before := []
  behind := []
  chars := field.2.write.toList
  value := field.2.value

theorem text_written (field : String × Scalar) :
    (written field).text = (string field.1 ++ ":" ++ field.2.write).toList := by
  simp [written, Member.text, toList_string]

theorem Record.denotes_write (record : Record) : Denotes blank record.write.toList record.value := by
  have texts : Listed blank _ _ :=
    listed_intercalate (record.map fun (name, value) => string name ++ ":" ++ value.write)
  have members : (record.map written).map Member.text =
      (record.map fun (name, value) => string name ++ ":" ++ value.write).map String.toList := by
    rw [List.map_map, List.map_map]
    exact List.map_congr_left fun field _ => text_written field
  rw [← members] at texts
  have denotes := Denotes.object texts ?_ ?_
  · simpa [Record.write, Record.value, written, Function.comp_def] using denotes
  · refine List.forall_mem_map.mpr fun field _ => ⟨spellsAll_escapeChar _, ?_, ?_⟩ <;>
      exact fun c mem => absurd mem List.not_mem_nil
  · exact List.forall_mem_map.mpr fun field _ => Json.denotes_write field.2

/-- **An array is written as a text of JSON**, without a blank between its parts. -/
theorem denotes_array (records : List Record) :
    Denotes blank (array records).toList (.array (records.map Record.value)) := by
  have texts : Listed blank _ _ := listed_intercalate (records.map Record.write)
  have items : (records.map fun record => (record.write.toList, record.value)).map Prod.fst =
      (records.map Record.write).map String.toList := by
    rw [List.map_map, List.map_map]
    rfl
  rw [← items] at texts
  have denotes := Denotes.array texts
    (List.forall_mem_map.mpr fun record _ => record.denotes_write)
  simpa [array, Function.comp_def] using denotes

end ArithTokens.Json
