import ArithTokens.Text.Decode
import ArithTokens.Text.Size
import Mathlib.Tactic.SplitIfs

/-!
# Bytes of a text

The UTF-8 form of a text is the forms of its characters, one after the other. A byte below 128
**stands for a character of its own**: it is no part of the form of any other.
-/

namespace ArithTokens.Text

variable {b : UInt8} {c : Char} {text : List Char}

@[simp]
theorem encode_nil : encode [] = [] := rfl

theorem encode_cons (c : Char) (cs : List Char) :
    encode (c :: cs) = String.utf8EncodeChar c ++ encode cs := rfl

@[simp]
theorem encode_append (s t : List Char) : encode (s ++ t) = encode s ++ encode t :=
  List.flatMap_append

@[simp]
theorem bytesOf_append (s t : String) : bytesOf (s ++ t) = bytesOf s ++ bytesOf t := by
  rw [bytesOf, String.toList_append, encode_append, ← bytesOf, ← bytesOf]

/-- A text has as many bytes as its size says. -/
theorem length_encode (text : List Char) : (encode text).length = byteSize text := by
  induction text with
  | nil => rfl
  | cons c cs ih =>
    rw [encode_cons, List.length_append, String.length_utf8EncodeChar, ih, byteSize_cons]

/-- The byte behind a beginning of a text is the first one of the rest. -/
theorem getElem?_encode (s t : List Char) :
    (encode (s ++ t))[byteSize s]? = (encode t).head? := by
  rw [encode_append, ← length_encode, List.getElem?_append_right (Nat.le_refl _), Nat.sub_self,
    List.head?_eq_getElem?]

theorem mem_utf8EncodeChar (low : b < 0x80) :
    b ∈ String.utf8EncodeChar c ↔ c.toNat = b.toNat := by
  have small : b.toNat < 128 := low
  rw [Char.toNat, String.utf8EncodeChar]
  generalize c.val.toNat = value
  -- All bytes of a longer form have their highest bit set.
  split_ifs with one two three <;>
    simp only [List.mem_cons, List.not_mem_nil, or_false, ← UInt8.toNat_inj, UInt8.toNat_ofNat'] <;>
    omega

theorem mem_encode (low : b < 0x80) : b ∈ encode text ↔ ∃ c ∈ text, c.toNat = b.toNat := by
  rw [encode, List.mem_flatMap]
  exact exists_congr fun c => and_congr_right fun _ => mem_utf8EncodeChar low

/-- The first byte of a text, if it is below 128, is its first character. -/
theorem head?_encode (low : b < 0x80) (first : (encode text).head? = some b) :
    ∃ c ∈ text.head?, c.toNat = b.toNat := by
  cases text with
  | nil => cases first
  | cons c cs =>
    obtain ⟨lead, more, form⟩ := List.exists_cons_of_ne_nil (String.utf8EncodeChar_ne_nil (c := c))
    rw [encode_cons, form, List.cons_append, List.head?_cons, Option.some.injEq] at first
    exact ⟨c, rfl, (mem_utf8EncodeChar low).mp (by simp [form, first])⟩

theorem encode_eq_nil_iff : encode text = [] ↔ text = [] := by
  cases text with
  | nil => exact iff_of_true rfl rfl
  | cons c cs =>
    apply iff_of_false
    · rw [encode_cons, List.append_eq_nil_iff]
      exact fun empty => String.utf8EncodeChar_ne_nil empty.1
    · exact List.cons_ne_nil c cs

/-! ## Bytes tell texts apart -/

/-- Different texts have different bytes. -/
theorem encode_inj {s t : List Char} (same : encode s = encode t) : s = t := by
  have bytes : s.utf8Encode = t.utf8Encode := congrArg List.toByteArray same
  have chars : some s.toArray = some t.toArray := by
    rw [← List.utf8Decode?_utf8Encode, bytes, List.utf8Decode?_utf8Encode]
  exact Array.toList_inj.mpr (Option.some.inj chars)

theorem bytesOf_inj {s t : String} (same : bytesOf s = bytesOf t) : s = t :=
  String.toList_inj.mp (encode_inj same)

end ArithTokens.Text
