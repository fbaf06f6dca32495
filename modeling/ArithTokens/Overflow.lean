import ArithTokens.Text.Named

/-!
# Reading decimal numbers into 64 bits

A number is read digit by digit into a word of 64 bits. What happens when it does not fit is a
**policy**: the value is kept modulo `2 ^ 64`, or it stays at the greatest word.
-/

namespace ArithTokens

/-- What a number too large for 64 bits becomes. -/
inductive Overflow where
  /-- Its value modulo `2 ^ 64`. -/
  | wrapping
  /-- The greatest word. -/
  | saturating
deriving DecidableEq, Repr, Inhabited

instance : Named Overflow where
  all := [.wrapping, .saturating]
  name
    | .wrapping => "wrapping"
    | .saturating => "saturating"

namespace Overflow

/-- The policy's name as it stands in log lines. -/
def label : Overflow → String
  | .wrapping => "Wrapping"
  | .saturating => "Saturating"

/-- The greatest value of a word. -/
def limit : Nat := UInt64.size - 1

/-- The value after one more decimal digit. The **saturating** policy stops at the greatest word
after the multiplication and again after the addition. -/
def pushDigit (policy : Overflow) (value : UInt64) (digit : UInt32) : UInt64 :=
  match policy with
  | .wrapping => value * 10 + digit.toUInt64
  | .saturating =>
    UInt64.ofNat (Nat.min limit (Nat.min limit (value.toNat * 10) + digit.toNat))

/-- The values after each of a row of digits. -/
def pushDigits (policy : Overflow) : UInt64 → List UInt32 → List UInt64
  | _, [] => []
  | value, d :: ds =>
    let next := policy.pushDigit value d
    next :: pushDigits policy next ds

/-- The number that a decimal digit stands for. -/
def digitValue (c : Char) : UInt32 := c.val - 48

/-- The value of a text of decimal digits. -/
def ofDigits (policy : Overflow) (digits : List Char) : UInt64 :=
  digits.foldl (fun value c => policy.pushDigit value (digitValue c)) 0

end Overflow

end ArithTokens
