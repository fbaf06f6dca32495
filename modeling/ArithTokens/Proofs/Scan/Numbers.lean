import ArithTokens.Proofs.Overflow
import ArithTokens.Proofs.Scan.Append
import Mathlib.Data.Nat.Digits.Defs

/-!
# Numbers are exact

Digits are folded into a word one at a time, with a cut after each, and what comes out is **one cut**
of the exact number. A digit may be any word of 32 bits.

* `decimal_eq` gives the exact number as a sum of powers of ten;
* `getElem?_pushDigits` finds each value on the way as the fold of the digits so far;
* `tokenize_digits` reads a run of digits as one number;
* `numbers_exact` puts these together.
-/

namespace ArithTokens

namespace Overflow

variable {policy : Overflow}

/-- Digits read behind a value move it up by a power of ten each, and count from the last one. -/
theorem decimal_eq (value : Nat) (digits : List UInt32) :
    decimal value digits =
      value * 10 ^ digits.length + Nat.ofDigits 10 (digits.map UInt32.toNat).reverse := by
  induction digits generalizing value with
  | nil => simp [decimal]
  | cons d ds ih =>
    have rest : decimal value (d :: ds) = decimal (10 * value + d.toNat) ds := rfl
    rw [rest, ih, List.map_cons, List.reverse_cons, Nat.ofDigits_append, Nat.ofDigits_singleton,
      List.length_cons, List.length_reverse, List.length_map, Nat.pow_succ]
    ring

/-- The value after each digit is the fold of the digits up to it. -/
theorem getElem?_pushDigits (value : UInt64) (digits : List UInt32) (i : Nat) :
    (policy.pushDigits value digits)[i]? =
      if i < digits.length then some ((digits.take (i + 1)).foldl policy.pushDigit value)
      else none := by
  induction digits generalizing value i with
  | nil => rfl
  | cons d ds ih =>
    cases i with
    | zero => simp [pushDigits]
    | succ i => simp [pushDigits, ih]

end Overflow

namespace Scan

open Overflow (decimal)

variable {policy : Overflow} {run : List Char}

/-- The exact value of a run of digits, as a sum of powers of ten. -/
theorem ofDigitChars_eq (digits : ∀ c ∈ run, c.isDigit = true) :
    Nat.ofDigitChars 10 run 0 =
      Nat.ofDigits 10 (run.map fun c => c.toNat - '0'.toNat).reverse := by
  have values : (run.map Overflow.digitValue).map UInt32.toNat =
      run.map fun c => c.toNat - '0'.toNat := by
    rw [List.map_map]
    exact List.map_congr_left fun c mem => Overflow.toNat_digitValue (digits c mem)
  rw [← Overflow.decimal_map_digitValue digits, Overflow.decimal_eq, values, Nat.zero_mul,
    Nat.zero_add]

/-- Zeros in front of a run of digits make a run of digits. -/
theorem isRun_zeros (digits : IsRun Char.isDigit run) (zeros : Nat) :
    IsRun Char.isDigit (List.replicate zeros '0' ++ run) := by
  refine ⟨List.append_ne_nil_of_right_ne_nil _ digits.1, fun c mem => ?_⟩
  rcases List.mem_append.mp mem with mem | mem
  · rw [List.eq_of_mem_replicate mem]
    rfl
  · exact digits.2 c mem

/-- **A run of digits is one number**, whatever zeros stand in front of it. -/
theorem tokenize_digits (policy : Overflow) (digits : IsRun Char.isDigit run) (zeros : Nat) :
    ∃ value, tokenize policy (String.ofList (List.replicate zeros '0' ++ run)) = [.number value] ∧
      value.toNat =
        policy.keep (Nat.ofDigits 10 (run.map fun c => c.toNat - '0'.toNat).reverse) := by
  have whole := isRun_zeros digits zeros
  refine ⟨policy.ofDigits (List.replicate zeros '0' ++ run), ?_, ?_⟩
  · obtain ⟨c, r, word⟩ := List.exists_cons_of_ne_nil whole.1
    rw [word] at whole ⊢
    obtain ⟨digit, joined⟩ := isRun_isDigit_iff.mp whole
    rw [tokenize, scan, String.toList_ofList, scanFrom_word ⟨not_isBlank_of_isDigit digit, joined⟩,
      ofLexeme_of_isDigit digit]
    rfl
  · rw [Overflow.toNat_ofDigits whole.2, Nat.ofDigitChars_append, Nat.ofDigitChars_replicate_zero,
      Nat.mul_zero, ofDigitChars_eq digits.2]

/-- **Numbers are exact up to one cut at the end.** The digits folded into a word that holds `value`
leave their exact number behind it, modulo `2 ^ 64` under the one policy and up to the greatest word
under the other; so does each row of first digits on the way. A run of decimal digits is one
number, its value cut in the same way, and zeros in front of it change nothing. -/
theorem numbers_exact (value : UInt64) (digits : List UInt32) :
    ((digits.foldl Overflow.wrapping.pushDigit value).toNat =
        decimal value.toNat digits % 2 ^ 64 ∧
      (digits.foldl Overflow.saturating.pushDigit value).toNat =
        min (decimal value.toNat digits) (2 ^ 64 - 1)) ∧
    decimal value.toNat digits =
      value.toNat * 10 ^ digits.length + Nat.ofDigits 10 (digits.map UInt32.toNat).reverse ∧
    (∀ (policy : Overflow) (i : Nat), (policy.pushDigits value digits)[i]? =
      if i < digits.length then some ((digits.take (i + 1)).foldl policy.pushDigit value)
      else none) ∧
    ∀ run, IsRun Char.isDigit run →
      let number := Nat.ofDigits 10 (run.map fun c => c.toNat - '0'.toNat).reverse
      ∃ wrapped capped : UInt64,
        wrapped.toNat = number % 2 ^ 64 ∧ capped.toNat = min number (2 ^ 64 - 1) ∧
          ∀ zeros : Nat,
            tokenize .wrapping (String.ofList (List.replicate zeros '0' ++ run)) =
                [.number wrapped] ∧
              tokenize .saturating (String.ofList (List.replicate zeros '0' ++ run)) =
                [.number capped] := by
  refine ⟨⟨Overflow.toNat_foldl_pushDigit value digits, Overflow.toNat_foldl_pushDigit value digits⟩,
    Overflow.decimal_eq _ _, fun policy => Overflow.getElem?_pushDigits value digits, ?_⟩
  intro run isRun number
  -- The value does not tell how many zeros there are.
  have read : ∀ policy : Overflow, ∃ kept : UInt64, kept.toNat = policy.keep number ∧
      ∀ zeros : Nat, tokenize policy (String.ofList (List.replicate zeros '0' ++ run)) =
        [.number kept] := by
    intro policy
    obtain ⟨kept, -, exact⟩ := tokenize_digits policy isRun 0
    refine ⟨kept, exact, fun zeros => ?_⟩
    obtain ⟨other, tokens, exact'⟩ := tokenize_digits policy isRun zeros
    rw [tokens, UInt64.toNat_inj.mp (exact'.trans exact.symm)]
  obtain ⟨wrapped, remainder, wraps⟩ := read .wrapping
  obtain ⟨capped, clamped, caps⟩ := read .saturating
  exact ⟨wrapped, capped, remainder, clamped, fun zeros => ⟨wraps zeros, caps zeros⟩⟩

/-- The first number that does not fit, with zeros in front. -/
theorem numbers_exact_first_oversized :
    IsRun Char.isDigit "18446744073709551616".toList ∧
      tokenize .wrapping "00018446744073709551616" = [.number 0] ∧
      tokenize .saturating "00018446744073709551616" = [.number 18446744073709551615] := by
  have run : IsRun Char.isDigit "18446744073709551616".toList :=
    ⟨by decide, List.all_eq_true.mp (by decide)⟩
  obtain ⟨-, -, -, reads⟩ := numbers_exact 0 []
  obtain ⟨wrapped, capped, remainder, clamped, tokens⟩ := reads _ run
  have wraps : wrapped = 0 := UInt64.toNat_inj.mp (remainder.trans (by decide +kernel))
  have caps : capped = 18446744073709551615 :=
    UInt64.toNat_inj.mp (clamped.trans (by decide +kernel))
  rw [wraps, caps] at tokens
  exact ⟨run, tokens 3⟩

end Scan

end ArithTokens
