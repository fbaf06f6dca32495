import ArithTokens.Overflow
import Mathlib.Data.List.Induction

/-!
# The values of numbers

Reading digits under a policy is exact arithmetic with one cut at the end: the value is the one
that the policy **keeps** of the exact value, however often it was cut on the way
(`toNat_foldl_pushDigit`). A number that fits is read exactly, with any number of zeros in front
(`ofDigits_toDigits`).
-/

namespace ArithTokens.Overflow

variable {policy : Overflow}

/-- What a policy keeps of an exact value: its remainder modulo `UInt64.size`, or the value itself up
to the greatest word. -/
def keep : Overflow → Nat → Nat
  | .wrapping, n => n % UInt64.size
  | .saturating, n => min n (UInt64.size - 1)

/-- The exact value of digits read behind `value`. -/
def decimal (value : Nat) (digits : List UInt32) : Nat :=
  digits.foldl (fun n d => 10 * n + d.toNat) value

theorem keep_of_lt {n : Nat} (small : n < UInt64.size) : policy.keep n = n := by
  cases policy with
  | wrapping => exact Nat.mod_eq_of_lt small
  | saturating => exact Nat.min_eq_left (by omega)

/-- What was cut off before a digit is cut off behind it, too. -/
theorem keep_step (n d : Nat) : policy.keep (10 * policy.keep n + d) = policy.keep (10 * n + d) := by
  cases policy with
  | wrapping =>
    simp only [keep, UInt64.size]
    omega
  | saturating =>
    simp only [keep]
    omega

/-- One more digit is one step of exact arithmetic, cut to a word. -/
theorem toNat_pushDigit (value : UInt64) (digit : UInt32) :
    (policy.pushDigit value digit).toNat = policy.keep (10 * value.toNat + digit.toNat) := by
  have hv := value.toNat_lt
  have hd := digit.toNat_lt
  cases policy with
  | wrapping =>
    simp only [pushDigit, keep, UInt64.size, UInt64.toNat_add, UInt64.toNat_mul,
      UInt32.toNat_toUInt64, UInt64.reduceToNat]
    omega
  | saturating =>
    have top : Nat.min limit (Nat.min limit (value.toNat * 10) + digit.toNat) =
        min (10 * value.toNat + digit.toNat) (UInt64.size - 1) := by
      simp only [limit, UInt64.size]
      change min _ (min _ _ + _) = _
      omega
    rw [pushDigit, keep, top, UInt64.toNat_ofNat_of_lt' (by rw [UInt64.size]; omega)]

/-- **Digits are folded into what the policy keeps of their exact value.** -/
theorem toNat_foldl_pushDigit (value : UInt64) (digits : List UInt32) :
    (digits.foldl policy.pushDigit value).toNat = policy.keep (decimal value.toNat digits) := by
  induction digits using List.reverseRecOn with
  | nil => exact (keep_of_lt value.toNat_lt).symm
  | append_singleton digits d ih =>
    rw [List.foldl_append, List.foldl_cons, List.foldl_nil, toNat_pushDigit, ih, keep_step, decimal,
      decimal, List.foldl_append]
    rfl

/-! ## Texts of digits -/

theorem toNat_digitValue {c : Char} (digit : c.isDigit = true) :
    (digitValue c).toNat = c.toNat - '0'.toNat := by
  simp only [Char.isDigit, Bool.and_eq_true, decide_eq_true_eq] at digit
  exact UInt32.toNat_sub_of_le c.val 48 digit.1

/-- The exact value of a text of digits. -/
theorem decimal_map_digitValue {digits : List Char} (all : ∀ c ∈ digits, c.isDigit = true)
    (value : Nat) :
    decimal value (digits.map digitValue) = Nat.ofDigitChars 10 digits value := by
  induction digits generalizing value with
  | nil => rfl
  | cons c cs ih =>
    rw [Nat.ofDigitChars_cons, ← toNat_digitValue (all c List.mem_cons_self),
      ← ih fun d mem => all d (List.mem_cons_of_mem c mem)]
    rfl

theorem toNat_ofDigits {digits : List Char} (all : ∀ c ∈ digits, c.isDigit = true) :
    (policy.ofDigits digits).toNat = policy.keep (Nat.ofDigitChars 10 digits 0) := by
  rw [← decimal_map_digitValue all, ofDigits, ← UInt64.toNat_zero, ← toNat_foldl_pushDigit,
    List.foldl_map]

/-- A number is written in digits, and so are the zeros in front. -/
theorem isDigit_of_mem_digits {zeros n : Nat} {c : Char}
    (mem : c ∈ List.replicate zeros '0' ++ Nat.toDigits 10 n) : c.isDigit = true := by
  rcases List.mem_append.mp mem with mem | mem
  · rw [List.eq_of_mem_replicate mem]
    rfl
  · exact Nat.isDigit_of_mem_toDigits (by decide) (by decide) mem

/-- **A word is read back from its digits**, whatever the policy and the zeros in front. -/
theorem ofDigits_toDigits (zeros : Nat) (value : UInt64) :
    policy.ofDigits (List.replicate zeros '0' ++ Nat.toDigits 10 value.toNat) = value := by
  rw [← UInt64.toNat_inj, toNat_ofDigits fun c mem => isDigit_of_mem_digits mem, Nat.ofDigitChars_append,
    Nat.ofDigitChars_replicate_zero, Nat.mul_zero, Nat.ofDigitChars_ten_toDigits,
    keep_of_lt value.toNat_lt]

end ArithTokens.Overflow
