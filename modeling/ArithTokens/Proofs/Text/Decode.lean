import ArithTokens.Text.Decode
import Mathlib.Tactic.SplitIfs

/-!
# Decoding in parts

A byte below 128 belongs to no ill-formed piece and to no longer character, so that bytes may be
**decoded apart** on both sides of it.

* `ofByte_cases` says which bytes lead others, and `bounds_of_lead` where those may lie;
* `pieces_append` and `decodeLossy_append` cut a byte string there.
-/

namespace ArithTokens.Text

variable {b low high : UInt8} {more : Nat}

/-! ## Lead bytes -/

/-- The announcements by numbers. -/
theorem ofByte_eq (b : UInt8) : Lead.ofByte b =
    if b.toNat < 0x80 then .single
    else if b.toNat < 0xc2 then .stray
    else if b.toNat < 0xe0 then .several 1 0x80 0xbf
    else if b.toNat = 0xe0 then .several 2 0xa0 0xbf
    else if b.toNat = 0xed then .several 2 0x80 0x9f
    else if b.toNat < 0xf0 then .several 2 0x80 0xbf
    else if b.toNat = 0xf0 then .several 3 0x90 0xbf
    else if b.toNat < 0xf4 then .several 3 0x80 0xbf
    else if b.toNat = 0xf4 then .several 3 0x80 0x8f
    else .stray := by
  simp only [Lead.ofByte, UInt8.lt_iff_toNat_lt, ← UInt8.toNat_inj, UInt8.reduceToNat]

theorem ofByte_two (lower : 0xc2 ≤ b.toNat) (upper : b.toNat < 0xe0) :
    Lead.ofByte b = .several 1 0x80 0xbf := by
  rw [ofByte_eq, if_neg (by omega), if_neg (by omega), if_pos upper]

theorem ofByte_three (lower : 0xe0 ≤ b.toNat) (upper : b.toNat < 0xf0) :
    Lead.ofByte b = .several 2 (if b.toNat = 0xe0 then 0xa0 else 0x80)
      (if b.toNat = 0xed then 0x9f else 0xbf) := by
  rw [ofByte_eq, if_neg (by omega), if_neg (by omega), if_neg (by omega)]
  by_cases first : b.toNat = 0xe0
  · rw [if_pos first, if_pos first, if_neg (by omega)]
  by_cases last : b.toNat = 0xed
  · rw [if_neg first, if_pos last, if_neg first, if_pos last]
  · rw [if_neg first, if_neg last, if_pos upper, if_neg first, if_neg last]

theorem ofByte_four (lower : 0xf0 ≤ b.toNat) (upper : b.toNat ≤ 0xf4) :
    Lead.ofByte b = .several 3 (if b.toNat = 0xf0 then 0x90 else 0x80)
      (if b.toNat = 0xf4 then 0x8f else 0xbf) := by
  rw [ofByte_eq, if_neg (by omega), if_neg (by omega), if_neg (by omega), if_neg (by omega),
    if_neg (by omega), if_neg (by omega)]
  by_cases first : b.toNat = 0xf0
  · rw [if_pos first, if_pos first, if_neg (by omega)]
  by_cases last : b.toNat = 0xf4
  · rw [if_neg first, if_neg (by omega), if_pos last, if_neg first, if_pos last]
  · rw [if_neg first, if_pos (by omega), if_neg first, if_neg last]

/-- A lead byte with further ones is of one of three sizes. -/
theorem ofByte_cases (lead : Lead.ofByte b = .several more low high) :
    (0xc2 ≤ b.toNat ∧ b.toNat < 0xe0) ∨ (0xe0 ≤ b.toNat ∧ b.toNat < 0xf0) ∨
      (0xf0 ≤ b.toNat ∧ b.toNat ≤ 0xf4) := by
  rw [ofByte_eq] at lead
  by_cases single : b.toNat < 0x80
  · rw [if_pos single] at lead
    cases lead
  by_cases stray : b.toNat < 0xc2
  · rw [if_neg single, if_pos stray] at lead
    cases lead
  by_cases past : 0xf4 < b.toNat
  · rw [if_neg single, if_neg stray, if_neg (by omega), if_neg (by omega), if_neg (by omega),
      if_neg (by omega), if_neg (by omega), if_neg (by omega), if_neg (by omega)] at lead
    cases lead
  · omega

/-- A first further byte has its highest bit set, and no range of it is empty. -/
theorem bounds_of_lead (lead : Lead.ofByte b = .several more low high) :
    0x80 ≤ low ∧ low ≤ high := by
  rcases ofByte_cases lead with ⟨lower, upper⟩ | ⟨lower, upper⟩ | ⟨lower, upper⟩
  · rw [ofByte_two lower upper] at lead
    cases lead
    decide
  · rw [ofByte_three lower upper] at lead
    cases lead
    split_ifs <;> first | decide | omega
  · rw [ofByte_four lower upper] at lead
    cases lead
    split_ifs <;> first | decide | omega

/-! ## Cutting at a single byte -/

theorem continueWith_append (single : b < 0x80) (bounds : 0x80 ≤ low) (more value : Nat)
    (high : UInt8) (bytes rest : List UInt8) :
    continueWith more low high value (bytes ++ b :: rest) =
      ((continueWith more low high value bytes).1,
        (continueWith more low high value bytes).2 ++ b :: rest) := by
  induction more generalizing low high value bytes with
  | zero => rfl
  | succ more ih =>
    cases bytes with
    | nil =>
      have out : ¬ (low ≤ b ∧ b ≤ high) := fun inside =>
        absurd (UInt8.le_trans bounds inside.1) (UInt8.not_le.mpr single)
      simp only [List.nil_append, continueWith, if_neg out]
    | cons a bytes =>
      rw [List.cons_append, continueWith, continueWith]
      split
      · exact ih (UInt8.le_refl _) _ _ _
      · rfl

theorem decodeNext_append (single : b < 0x80) (a : UInt8) (bytes rest : List UInt8) :
    decodeNext a (bytes ++ b :: rest) =
      ((decodeNext a bytes).1, (decodeNext a bytes).2 ++ b :: rest) := by
  unfold decodeNext
  split
  · rfl
  · rfl
  · rename_i more low high lead
    rw [continueWith_append single (bounds_of_lead lead).1]

theorem pieces_cons (b : UInt8) (bytes : List UInt8) :
    pieces (b :: bytes) = (decodeNext b bytes).1 :: pieces (decodeNext b bytes).2 := by
  rw [pieces]

theorem pieces_single (single : b < 0x80) (bytes : List UInt8) :
    pieces (b :: bytes) = some (Char.ofNat b.toNat) :: pieces bytes := by
  have lead : Lead.ofByte b = .single := if_pos single
  rw [pieces_cons, decodeNext, lead]

/-- **Bytes are decoded apart** before and behind a byte below 128. -/
theorem pieces_append (single : b < 0x80) (bytes rest : List UInt8) :
    pieces (bytes ++ b :: rest) = pieces bytes ++ some (Char.ofNat b.toNat) :: pieces rest := by
  induction bytes using pieces.induct with
  | case1 => rw [List.nil_append, pieces_single single, pieces, List.nil_append]
  | case2 a bytes ih =>
    rw [List.cons_append, pieces_cons, pieces_cons, decodeNext_append single, ih, List.cons_append]

theorem decodeLossy_append (single : b < 0x80) (bytes rest : List UInt8) :
    decodeLossy (bytes ++ b :: rest) =
      decodeLossy bytes ++ Char.ofNat b.toNat :: decodeLossy rest := by
  rw [decodeLossy, pieces_append single, List.map_append]
  rfl

end ArithTokens.Text
