/-!
# Decoding UTF-8

Bytes are read as UTF-8 one character at a time. Where they are not well formed, the **longest
piece that could still have become a character** is one ill-formed piece, and reading goes on at
the first byte that does not belong to it.

* `pieces` lists the characters of a byte string, with `none` for each ill-formed piece;
* `decodeLossy` puts the replacement character in the place of each ill-formed piece;
* `decode?` refuses a byte string that has one.
-/

namespace ArithTokens.Text

/-! ## Encoding -/

/-- The bytes of a text in UTF-8. -/
def encode (text : List Char) : List UInt8 := text.flatMap String.utf8EncodeChar

/-- The bytes of a string in UTF-8. -/
def bytesOf (text : String) : List UInt8 := encode text.toList

/-! ## One character -/

/-- What a byte announces when it stands where a character may start. -/
inductive Lead where
  /-- A character of one byte. -/
  | single
  /-- A character with `more` further bytes, the first of which lies from `low` to `high`. -/
  | several (more : Nat) (low high : UInt8)
  /-- No character starts with this byte. -/
  | stray
deriving DecidableEq, Repr

/-- The announcement of each byte. The narrowed ranges keep out overlong forms, surrogates and
values past the last code point. -/
def Lead.ofByte (b : UInt8) : Lead :=
  if b < 0x80 then .single
  else if b < 0xc2 then .stray
  else if b < 0xe0 then .several 1 0x80 0xbf
  else if b = 0xe0 then .several 2 0xa0 0xbf
  else if b = 0xed then .several 2 0x80 0x9f
  else if b < 0xf0 then .several 2 0x80 0xbf
  else if b = 0xf0 then .several 3 0x90 0xbf
  else if b < 0xf4 then .several 3 0x80 0xbf
  else if b = 0xf4 then .several 3 0x80 0x8f
  else .stray

/-- The part of the code point that a lead byte carries, where `more` bytes follow it. -/
def leadBits (more : Nat) (b : UInt8) : Nat := b.toNat % Nat.pow 2 (6 - more)

/-- Reads `more` further bytes of a character, the first of which lies from `low` to `high`, and
gives the whole code point. At the first byte that does not belong the character is given up, and
that byte is kept. -/
def continueWith : (more : Nat) → (low high : UInt8) → (value : Nat) → List UInt8 →
    Option Nat × List UInt8
  | 0, _, _, value, bytes => (some value, bytes)
  | _ + 1, _, _, _, [] => (none, [])
  | more + 1, low, high, value, b :: bytes =>
    if low ≤ b ∧ b ≤ high then
      continueWith more 0x80 0xbf (value * 64 + b.toNat % 64) bytes
    else
      (none, b :: bytes)

/-- Reads the character that starts with the byte `b`, or the ill-formed piece. -/
def decodeNext (b : UInt8) (bytes : List UInt8) : Option Char × List UInt8 :=
  match Lead.ofByte b with
  | .single => (some (Char.ofNat b.toNat), bytes)
  | .stray => (none, bytes)
  | .several more low high =>
    let (value, rest) := continueWith more low high (leadBits more b) bytes
    (value.map Char.ofNat, rest)

theorem length_continueWith (more : Nat) (low high : UInt8) (value : Nat) (bytes : List UInt8) :
    (continueWith more low high value bytes).2.length ≤ bytes.length := by
  induction more generalizing low high value bytes with
  | zero => simp [continueWith]
  | succ more ih =>
    cases bytes with
    | nil => simp [continueWith]
    | cons b bytes =>
      rw [continueWith]
      split
      · exact Nat.le_succ_of_le (ih _ _ _ _)
      · exact Nat.le_refl _

theorem length_decodeNext (b : UInt8) (bytes : List UInt8) :
    (decodeNext b bytes).2.length ≤ bytes.length := by
  unfold decodeNext
  split
  · exact Nat.le_refl _
  · exact Nat.le_refl _
  · exact length_continueWith _ _ _ _ _

/-! ## Whole byte strings -/

/-- The characters of a byte string, in order, with `none` for each ill-formed piece. -/
def pieces : List UInt8 → List (Option Char)
  | [] => []
  | b :: bytes => (decodeNext b bytes).1 :: pieces (decodeNext b bytes).2
termination_by bytes => bytes.length
decreasing_by exact Nat.lt_succ_of_le (length_decodeNext b bytes)

/-- The character that stands for an ill-formed piece. -/
def replacement : Char := '\uFFFD'

/-- The text of a byte string, with the replacement character for each ill-formed piece. -/
def decodeLossy (bytes : List UInt8) : List Char :=
  (pieces bytes).map (Option.getD · replacement)

/-- The text of a byte string that is well formed throughout. -/
def decode? (bytes : List UInt8) : Option (List Char) :=
  (pieces bytes).mapM id

end ArithTokens.Text
