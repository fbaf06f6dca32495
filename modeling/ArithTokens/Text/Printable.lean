import ArithTokens.Text.Combining
import ArithTokens.Text.Invisible

/-!
# Characters with a visible form

A character is **printable** if a reader can see it and tell it apart from its neighbours: it is
neither invisible nor combining.
-/

namespace ArithTokens.Text

/-- Whether a code point lies in one of some ranges. -/
def isWithin (ranges : List (Nat × Nat)) (n : Nat) : Bool :=
  ranges.any fun (first, last) => first ≤ n && n ≤ last

/-- Whether a character has a visible form of its own. -/
def isPrintable (c : Char) : Bool :=
  !isWithin invisibleRanges c.toNat && !isWithin combiningRanges c.toNat

end ArithTokens.Text
