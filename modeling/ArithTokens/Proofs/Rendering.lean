import ArithTokens.Proofs.Scan.Spelling
import ArithTokens.Proofs.Transcript
import ArithTokens.Rendering

/-!
# What is written of tokens

The tokens of a text are written as lines that the text cannot forge: a token's line holds **one**
line feed, which ends it, and it does not look like an array. What is written of a list of tokens
is therefore `Laid` out, in either form.
-/

namespace ArithTokens

/-! ## One line -/

namespace Span

variable {span : Span}

theorem describe_eq (span : Span) :
    span.describe = span.line.toNat.repr ++ ":" ++ span.column.toNat.repr := by
  simp [describe, toString]

theorem mem_describe {c : Char} (mem : c ∈ span.describe.toList) : c.isDigit = true ∨ c = ':' := by
  have digits : ∀ {n : Nat}, c ∈ Nat.toDigits 10 n → c.isDigit = true :=
    Nat.isDigit_of_mem_toDigits (by decide) (by decide)
  simp only [describe_eq, String.toList_append, List.mem_append, Nat.toList_repr] at mem
  rcases mem with (line | colon) | column
  · exact Or.inl (digits line)
  · exact Or.inr (by simpa using colon)
  · exact Or.inl (digits column)

end Span

namespace Token

variable {token : Token}

theorem lineFeed_not_mem_describe (wellFormed : token.WellFormed) :
    '\n' ∉ token.describe.toList := by
  cases token with
  | number value =>
    intro mem
    rw [describe, String.toList_append, List.mem_append, Nat.toList_repr] at mem
    rcases mem with label | digits
    · exact absurd label (by decide)
    · exact absurd (Nat.isDigit_of_mem_toDigits (by decide) (by decide) digits) (by decide)
  | unknown text =>
    intro mem
    rw [describe, String.toList_append, List.mem_append] at mem
    rcases mem with label | payload
    · exact absurd label (by decide)
    rcases wellFormed with ⟨letters, -⟩ | ⟨c, rfl, blank, -⟩
    · exact absurd (letters.2 _ payload) (by decide)
    · rw [String.toList_singleton, List.mem_singleton] at payload
      exact absurd blank (by rw [← payload]; decide)
  | _ => decide

theorem head?_describe (token : Token) : '[' ∉ token.describe.toList.head? := by
  cases token with
  | number value => simp [describe]
  | unknown text => simp [describe]
  | _ => decide

theorem bytesOf_describe_ne_nil (token : Token) : Text.bytesOf token.describe ≠ [] := by
  cases token with
  | number value =>
    rw [describe, Text.bytesOf_append]
    exact List.append_ne_nil_of_left_ne_nil (by decide) _
  | unknown text =>
    rw [describe, Text.bytesOf_append]
    exact List.append_ne_nil_of_left_ne_nil (by decide) _
  | _ => decide

/-! ## Names -/

/-- The tokens that carry no value. -/
def valueless : List Token :=
  [.openingBracket, .closingBracket, .comma, .plus, .minus, .multiply, .divide, .modulo, .min, .max,
    .abs, .sqr]

/-- The token without a value that has this name. -/
def ofName? (name : String) : Option Token := valueless.find? (·.name == name)

theorem ofName?_name (mem : token ∈ valueless) : ofName? token.name = some token := by
  have all : ∀ token ∈ valueless, ofName? token.name = some token := by decide
  exact all token mem

/-- A token is a number, or unknown, or it carries no value. -/
theorem kinds (token : Token) :
    (∃ value, token = .number value) ∨ (∃ text, token = .unknown text) ∨ token ∈ valueless := by
  cases token with
  | number value => exact Or.inl ⟨value, rfl⟩
  | unknown text => exact Or.inr (Or.inl ⟨text, rfl⟩)
  | _ => exact Or.inr (Or.inr (by decide))

end Token

namespace Spanned

variable {lexed : Spanned}

theorem laid_line (wellFormed : lexed.token.WellFormed) (spans : Bool) {events : List Event}
    (rest : Laid events) : Laid (.write ⟨lexed.line spans, false⟩ :: events) := by
  have plain := Token.lineFeed_not_mem_describe wellFormed
  cases spans with
  | false => exact .line _ plain lexed.token.head?_describe rest
  | true =>
    have place : ∀ {c}, c ∈ lexed.span.describe.toList → c.isDigit = true ∨ c = ':' :=
      Span.mem_describe
    refine .line (lexed.span.describe ++ "\t" ++ lexed.token.describe) ?_ ?_ rest
    · intro mem
      simp only [String.toList_append, List.mem_append] at mem
      rcases mem with (front | tab) | back
      · exact absurd (place front) (by decide)
      · exact absurd tab (by decide)
      · exact plain back
    · intro first
      rcases chars : lexed.span.describe.toList with _ | ⟨c, cs⟩
      · simp [chars] at first
      · obtain rfl : c = '[' := by simpa [chars] using first
        exact absurd (place (c := '[') (by simp [chars])) (by decide)

end Spanned

/-! ## Lists of tokens -/

/-- **What is written of tokens is laid out** in lines and arrays. -/
theorem laid_render (options : RenderOptions) {tokens : List Spanned}
    (wellFormed : ∀ lexed ∈ tokens, lexed.token.WellFormed) :
    Laid ((render options tokens).map .write) := by
  obtain ⟨format, spans⟩ := options
  cases format with
  | json => exact .array _ .nil
  | text =>
    rw [render, List.map_map]
    induction tokens with
    | nil => exact .nil
    | cons lexed tokens ih =>
      exact Spanned.laid_line (wellFormed lexed List.mem_cons_self) spans
        (ih fun other mem => wellFormed other (List.mem_cons_of_mem lexed mem))

end ArithTokens
