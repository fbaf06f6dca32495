import ArithTokens.Proofs.Text.Decode

/-!
# Forms of characters

The form of a character in UTF-8 is a **lead byte** and the further bytes that it announces.

* `Follows` says what the further bytes may be, and `valueOf` is the number that they carry;
* `encode_cases` says that each form is one that its lead byte announces, and `exists_form` that
  each announcement is kept by the form of some character;
* `decodeNext_form` reads a form back, and `continueWith_eq_none` says what is taken where the
  further bytes break off.
-/

namespace ArithTokens.Text

variable {b low high : UInt8} {more value : Nat} {bytes tail rest : List UInt8} {c : Char}

/-! ## Further bytes -/

/-- Whether some bytes are `more` further bytes of a character, of which the first lies from `low`
to `high`. -/
inductive Follows : Nat → UInt8 → UInt8 → List UInt8 → Prop where
  | done {low high : UInt8} : Follows 0 low high []
  | next {more : Nat} {low high b : UInt8} {rest : List UInt8} (lower : low ≤ b) (upper : b ≤ high)
      (follows : Follows more 0x80 0xbf rest) : Follows (more + 1) low high (b :: rest)

/-- The code point that further bytes make of the part that the lead byte carries. -/
def valueOf (value : Nat) (tail : List UInt8) : Nat :=
  tail.foldl (fun value b => value * 64 + b.toNat % 64) value

/-- Further bytes are taken to the last. -/
theorem continueWith_follows (follows : Follows more low high tail) (value : Nat)
    (rest : List UInt8) :
    continueWith more low high value (tail ++ rest) = (some (valueOf value tail), rest) := by
  induction follows generalizing value with
  | done => rfl
  | next lower upper _ ih =>
    rw [List.cons_append, continueWith, if_pos ⟨lower, upper⟩, ih]
    rfl

/-- What is taken with success are all further bytes. -/
theorem follows_of_continueWith {code : Nat}
    (found : (continueWith more low high value bytes).1 = some code) :
    ∃ tail, bytes = tail ++ (continueWith more low high value bytes).2 ∧
      Follows more low high tail := by
  induction more generalizing low high value bytes with
  | zero => exact ⟨[], rfl, .done⟩
  | succ more ih =>
    cases bytes with
    | nil => cases found
    | cons b bytes =>
      rw [continueWith] at found ⊢
      split at found
      · rename_i inside
        obtain ⟨tail, split, follows⟩ := ih found
        rw [if_pos inside]
        exact ⟨b :: tail, congrArg (b :: ·) split, .next inside.1 inside.2 follows⟩
      · cases found

/-- Further bytes can be made up. -/
theorem exists_follows (order : low ≤ high) (more : Nat) : ∃ tail, Follows more low high tail := by
  induction more generalizing low high with
  | zero => exact ⟨[], .done⟩
  | succ more ih =>
    obtain ⟨tail, follows⟩ := ih (show (0x80 : UInt8) ≤ 0xbf by decide)
    exact ⟨low :: tail, .next (UInt8.le_refl low) order follows⟩

/-- No further byte is taken where the next one does not belong. -/
theorem eq_nil_of_follows {other extra : List UInt8}
    (outside : ∀ b ∈ bytes.head?, ¬ (low ≤ b ∧ b ≤ high)) (front : other <+: bytes)
    (follows : Follows (more + 1) low high (other ++ extra)) : other = [] := by
  cases other with
  | nil => rfl
  | cons b other =>
    obtain ⟨rest, rfl⟩ := front
    cases follows with
    | next lower upper => exact absurd ⟨lower, upper⟩ (outside b rfl)

/-- **Where further bytes break off**, those that were taken could have gone on, and no more of them
could have been taken. -/
theorem continueWith_eq_none (order : low ≤ high)
    (broken : (continueWith more low high value bytes).1 = none) :
    ∃ taken extra, bytes = taken ++ (continueWith more low high value bytes).2 ∧ extra ≠ [] ∧
      Follows more low high (taken ++ extra) ∧
      ∀ other extra', other <+: bytes → Follows more low high (other ++ extra') →
        other.length ≤ taken.length := by
  induction more generalizing low high value bytes with
  | zero => cases broken
  | succ more ih =>
    obtain ⟨extra, start⟩ := exists_follows order (more + 1)
    have filled : extra ≠ [] := by
      cases start
      exact List.cons_ne_nil _ _
    cases bytes with
    | nil =>
      refine ⟨[], extra, rfl, filled, start, fun other extra' front follows => ?_⟩
      exact Nat.le_of_eq (congrArg List.length (eq_nil_of_follows (by simp) front follows))
    | cons b bytes =>
      rw [continueWith] at broken ⊢
      split at broken
      · rename_i inside
        rw [if_pos inside]
        obtain ⟨taken, extra, split, filled, follows, longest⟩ := ih (by decide) broken
        refine ⟨b :: taken, extra, congrArg (b :: ·) split, filled,
          .next inside.1 inside.2 follows, fun other extra' front follows => ?_⟩
        cases other with
        | nil => exact Nat.zero_le _
        | cons d other =>
          obtain ⟨-, front⟩ := List.cons_prefix_cons.mp front
          cases follows with
          | next _ _ follows => exact Nat.succ_le_succ (longest other extra' front follows)
      · rename_i outside
        rw [if_neg outside]
        refine ⟨[], extra, rfl, filled, start, fun other extra' front follows => ?_⟩
        exact Nat.le_of_eq (congrArg List.length
          (eq_nil_of_follows (by simpa using outside) front follows))

/-! ## Forms -/

/-- The further byte that carries the last six bits of a number. -/
theorem toNat_further (value : Nat) : (UInt8.ofNat (value % 64 + 128)).toNat = value % 64 + 128 :=
  UInt8.toNat_ofNat_of_lt' (show value % 64 + 128 < 256 by omega)

/-- A further byte belongs wherever no range is narrowed. -/
theorem Follows.further (value : Nat) (follows : Follows more 0x80 0xbf tail) :
    Follows (more + 1) 0x80 0xbf (UInt8.ofNat (value % 64 + 128) :: tail) := by
  refine .next ?_ ?_ follows <;> rw [UInt8.le_iff_toNat_le, toNat_further]
  · exact Nat.le_add_left 128 _
  · exact Nat.add_le_add_right (Nat.le_of_lt_succ (Nat.mod_lt value (by decide))) 128

/-- **Each form is announced by its lead byte**, and its bytes carry the code point. -/
theorem encode_cases (c : Char) :
    (∃ b, String.utf8EncodeChar c = [b] ∧ Lead.ofByte b = .single ∧ b.toNat = c.toNat) ∨
      ∃ b tail more low high, String.utf8EncodeChar c = b :: tail ∧
        Lead.ofByte b = .several more low high ∧ Follows more low high tail ∧
        valueOf (leadBits more b) tail = c.toNat := by
  have valid : c.toNat < 0xd800 ∨ 0xdfff < c.toNat ∧ c.toNat < 0x110000 := c.valid
  rw [String.utf8EncodeChar, ← Char.toNat]
  generalize c.toNat = value at valid ⊢
  by_cases one : value ≤ 127
  · have lead := UInt8.toNat_ofNat_of_lt' (show value < 256 by omega)
    rw [if_pos one]
    refine Or.inl ⟨_, rfl, if_pos (UInt8.lt_iff_toNat_lt.mpr ?_), lead⟩
    rw [lead]
    exact Nat.lt_succ_of_le one
  by_cases two : value ≤ 2047
  · have lead := UInt8.toNat_ofNat_of_lt' (show value / 64 % 32 + 192 < 256 by omega)
    rw [if_neg one, if_pos two]
    refine Or.inr ⟨_, _, 1, _, _, rfl, ofByte_two (by omega) (by omega), .further value .done, ?_⟩
    show (_ % 32) * 64 + _ % 64 = value
    rw [lead, toNat_further]
    omega
  by_cases three : value ≤ 65535
  · have lead := UInt8.toNat_ofNat_of_lt' (show value / 4096 % 16 + 224 < 256 by omega)
    rw [if_neg one, if_neg two, if_pos three]
    refine Or.inr ⟨_, _, 2, _, _, rfl, ofByte_three (by omega) (by omega),
      .next ?_ ?_ (.further value .done), ?_⟩
    · rw [lead, UInt8.le_iff_toNat_le, toNat_further]
      split_ifs <;> simp only [UInt8.reduceToNat] <;> omega
    · rw [lead, UInt8.le_iff_toNat_le, toNat_further]
      split_ifs <;> simp only [UInt8.reduceToNat] <;> omega
    · show ((_ % 16) * 64 + _ % 64) * 64 + _ % 64 = value
      rw [lead, toNat_further, toNat_further]
      omega
  · have lead := UInt8.toNat_ofNat_of_lt' (show value / 262144 % 8 + 240 < 256 by omega)
    rw [if_neg one, if_neg two, if_neg three]
    refine Or.inr ⟨_, _, 3, _, _, rfl, ofByte_four (by omega) (by omega),
      .next ?_ ?_ (.further _ (.further value .done)), ?_⟩
    · rw [lead, UInt8.le_iff_toNat_le, toNat_further]
      split_ifs <;> simp only [UInt8.reduceToNat] <;> omega
    · rw [lead, UInt8.le_iff_toNat_le, toNat_further]
      split_ifs <;> simp only [UInt8.reduceToNat] <;> omega
    · show (((_ % 8) * 64 + _ % 64) * 64 + _ % 64) * 64 + _ % 64 = value
      rw [lead, toNat_further, toNat_further, toNat_further]
      omega

/-- **A form is read back**, whatever is behind it. -/
theorem decodeNext_form (form : String.utf8EncodeChar c = b :: tail) (rest : List UInt8) :
    decodeNext b (tail ++ rest) = (some c, rest) := by
  rcases encode_cases c with
    ⟨b', single, lead, code⟩ | ⟨b', tail', more, low, high, several, lead, follows, code⟩
  · rw [form, List.cons.injEq] at single
    obtain ⟨rfl, rfl⟩ := single
    rw [decodeNext, lead, List.nil_append, code, Char.ofNat_toNat]
  · rw [form, List.cons.injEq] at several
    obtain ⟨rfl, rfl⟩ := several
    simp only [decodeNext, lead, continueWith_follows follows, code, Option.map_some,
      Char.ofNat_toNat]

theorem exists_toNat {value : Nat} (valid : value.isValidChar) : ∃ c : Char, c.toNat = value := by
  refine ⟨Char.ofNat value, ?_⟩
  rw [Char.ofNat, dif_pos valid]
  rfl

/-- A byte that announces no further ones is the form of a character. -/
theorem exists_form_single (lead : Lead.ofByte b = .single) :
    ∃ c, String.utf8EncodeChar c = [b] := by
  have small : b.toNat < 0x80 := by
    rcases Nat.lt_or_ge b.toNat 0x80 with below | past
    · exact below
    · rw [ofByte_eq, if_neg (Nat.not_lt.mpr past)] at lead
      repeat' split at lead
      all_goals cases lead
  obtain ⟨c, code⟩ := exists_toNat (show b.toNat.isValidChar from Or.inl (by omega))
  refine ⟨c, ?_⟩
  rw [String.utf8EncodeChar, ← Char.toNat, code, if_pos (by omega), UInt8.ofNat_toNat]

/-- **Each announcement is kept** by the form of some character. -/
theorem exists_form (lead : Lead.ofByte b = .several more low high)
    (follows : Follows more low high tail) : ∃ c, String.utf8EncodeChar c = b :: tail := by
  -- The code point is put together, and its form is taken apart into the same bytes again.
  rcases ofByte_cases lead with ⟨lower, upper⟩ | ⟨lower, upper⟩ | ⟨lower, upper⟩
  · rw [ofByte_two lower upper] at lead
    cases lead
    rcases follows with - | ⟨low₁, high₁, - | -⟩
    rename_i x
    simp only [UInt8.le_iff_toNat_le, UInt8.reduceToNat] at low₁ high₁
    obtain ⟨value, sum⟩ : ∃ value, value = b.toNat % 32 * 64 + x.toNat % 64 := ⟨_, rfl⟩
    obtain ⟨c, code⟩ := exists_toNat (show value.isValidChar from Or.inl (by omega))
    have first : value / 64 % 32 + 192 = b.toNat := by omega
    have second : value % 64 + 128 = x.toNat := by omega
    refine ⟨c, ?_⟩
    rw [String.utf8EncodeChar, ← Char.toNat, code, if_neg (by omega), if_pos (by omega), first,
      second, UInt8.ofNat_toNat, UInt8.ofNat_toNat]
  · rw [ofByte_three lower upper] at lead
    cases lead
    rcases follows with - | ⟨low₁, high₁, - | ⟨low₂, high₂, - | -⟩⟩
    rename_i x y
    simp only [UInt8.le_iff_toNat_le, UInt8.reduceToNat, apply_ite UInt8.toNat]
      at low₁ high₁ low₂ high₂
    have narrow : (b.toNat = 0xe0 → 0xa0 ≤ x.toNat) ∧ (b.toNat = 0xed → x.toNat ≤ 0x9f) ∧
        0x80 ≤ x.toNat ∧ x.toNat ≤ 0xbf := by
      split_ifs at low₁ high₁ <;> omega
    obtain ⟨value, sum⟩ : ∃ value, value = (b.toNat % 16 * 64 + x.toNat % 64) * 64 + y.toNat % 64 :=
      ⟨_, rfl⟩
    obtain ⟨c, code⟩ := exists_toNat (show value.isValidChar by unfold Nat.isValidChar; omega)
    have first : value / 4096 % 16 + 224 = b.toNat := by omega
    have second : value / 64 % 64 + 128 = x.toNat := by omega
    have third : value % 64 + 128 = y.toNat := by omega
    refine ⟨c, ?_⟩
    rw [String.utf8EncodeChar, ← Char.toNat, code, if_neg (by omega), if_neg (by omega),
      if_pos (by omega), first, second, third, UInt8.ofNat_toNat, UInt8.ofNat_toNat,
      UInt8.ofNat_toNat]
  · rw [ofByte_four lower upper] at lead
    cases lead
    rcases follows with - | ⟨low₁, high₁, - | ⟨low₂, high₂, - | ⟨low₃, high₃, - | -⟩⟩⟩
    rename_i x y z
    simp only [UInt8.le_iff_toNat_le, UInt8.reduceToNat, apply_ite UInt8.toNat]
      at low₁ high₁ low₂ high₂ low₃ high₃
    have narrow : (b.toNat = 0xf0 → 0x90 ≤ x.toNat) ∧ (b.toNat = 0xf4 → x.toNat ≤ 0x8f) ∧
        0x80 ≤ x.toNat ∧ x.toNat ≤ 0xbf := by
      split_ifs at low₁ high₁ <;> omega
    obtain ⟨value, sum⟩ : ∃ value,
        value = ((b.toNat % 8 * 64 + x.toNat % 64) * 64 + y.toNat % 64) * 64 + z.toNat % 64 :=
      ⟨_, rfl⟩
    obtain ⟨c, code⟩ := exists_toNat (show value.isValidChar by unfold Nat.isValidChar; omega)
    have first : value / 262144 % 8 + 240 = b.toNat := by omega
    have second : value / 4096 % 64 + 128 = x.toNat := by omega
    have third : value / 64 % 64 + 128 = y.toNat := by omega
    have fourth : value % 64 + 128 = z.toNat := by omega
    refine ⟨c, ?_⟩
    rw [String.utf8EncodeChar, ← Char.toNat, code, if_neg (by omega), if_neg (by omega),
      if_neg (by omega), first, second, third, fourth, UInt8.ofNat_toNat, UInt8.ofNat_toNat,
      UInt8.ofNat_toNat, UInt8.ofNat_toNat]

end ArithTokens.Text
