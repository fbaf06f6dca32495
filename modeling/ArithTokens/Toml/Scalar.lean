import ArithTokens.Toml.Text
import ArithTokens.Toml.Value

/-!
# Numbers and points in time of TOML

Integers have 64 bits and a sign. An underscore may stand between two digits of a number. A date
is a day of the calendar; a time runs from midnight to the last second of the day, which may be a
leap second.
-/

namespace ArithTokens.Toml

open Reader

/-! ## Digits -/

/-- Reads digits of a class, with single underscores between them left out. -/
def digitRun (accept : Char → Bool) : Reader (List Char) := do
  let first ← one accept
  let rest ← many (one accept <|> do
    char '_'
    one accept)
  return first :: rest

/-- The number that digits of a base stand for. -/
def digitsValue (base : Nat) (digits : List Char) : Nat :=
  digits.foldl (fun value d => value * base + hexValue d) 0

/-- Reads a sign; `true` is minus. -/
def sign : Reader Bool := do
  match ← optional (one fun c => c == '+' || c == '-') with
  | some c => return c == '-'
  | none => return false

/-- Reads a whole number with a sign: zero alone, or digits that do not begin with zero. -/
def wholeNumber : Reader (Bool × List Char) := do
  let negative ← sign
  let digits ← (do char '0'; return ['0']) <|> digitRun Char.isDigit
  return (negative, digits)

/-! ## Integers -/

/-- Whether a number has a place among the integers of 64 bits. -/
def inRange (n : Int) : Bool := Int64.minValue.toInt ≤ n && n ≤ Int64.maxValue.toInt

/-- Reads an integer in a base that its first two characters name. -/
def basedInteger (mark : Char) (base : Nat) (accept : Char → Bool) : Reader Int := do
  word ['0', mark]
  return digitsValue base (← digitRun accept)

/-- Reads an integer of any base. -/
def anyInteger : Reader Int :=
  basedInteger 'x' 16 isHexDigit <|>
    basedInteger 'o' 8 (fun c => '0' ≤ c && c ≤ '7') <|>
    basedInteger 'b' 2 (fun c => c == '0' || c == '1') <|> do
      let (negative, digits) ← wholeNumber
      let value : Int := digitsValue 10 digits
      return if negative then -value else value

/-- Reads an integer. -/
def integer : Reader Int := do
  let value ← anyInteger
  if inRange value then return value else failure

/-! ## Numbers with a fraction or an exponent -/

/-- The exponent of ten after an `e`. -/
def exponent : Reader Int := do
  let _ ← one fun c => c == 'e' || c == 'E'
  let negative ← sign
  let value : Int := digitsValue 10 (← digitRun Char.isDigit)
  return if negative then -value else value

/-- The least number that is too great for a float of double precision, half a unit past the
greatest. -/
def floatLimit : Nat := Nat.pow 2 1024 - Nat.pow 2 970

/-- Whether `digits · 10 ^ exponent` is too great for a float. The number of digits settles all but
the closest cases. -/
def isTooGreat (digits : List Char) (exponent : Int) : Bool :=
  let significant := digits.dropWhile (· == '0')
  let magnitude := significant.length + exponent
  if significant.isEmpty || magnitude < 309 then false
  else if 309 < magnitude then true
  else
    let value := digitsValue 10 significant
    if 0 ≤ exponent then decide (floatLimit ≤ value * Nat.pow 10 exponent.toNat)
    else decide (floatLimit * Nat.pow 10 (-exponent).toNat ≤ value)

/-- Reads a number with a fraction, an exponent or both. A **positive** number must not be too
great. -/
def decimalFloat : Reader Unit := do
  let (negative, digits) ← wholeNumber
  let (fraction, power) ← (do return ([], ← exponent)) <|> (do
    char '.'
    let fraction ← digitRun Char.isDigit
    return (fraction, (← optional exponent).getD 0))
  if !negative && isTooGreat (digits ++ fraction) (power - fraction.length) then failure

/-- Reads infinity, or what is not a number. -/
def specialFloat : Reader Unit := do
  let _ ← sign
  word ['i', 'n', 'f'] <|> word ['n', 'a', 'n']

/-! ## Points in time -/

/-- Reads a number of exactly `n` digits that lies from `low` to `high`. -/
def fixedNumber (n low high : Nat) : Reader Nat := do
  let value := digitsValue 10 (← exactly Char.isDigit n)
  if low ≤ value && value ≤ high then return value else failure

/-- The number of days of a month. -/
def daysOf (year month : Nat) : Nat :=
  if month = 2 then
    if year % 4 = 0 && (year % 100 ≠ 0 || year % 400 = 0) then 29 else 28
  else if month = 4 || month = 6 || month = 9 || month = 11 then 30
  else 31

/-- Reads a day. -/
def date : Reader Unit := do
  let year ← fixedNumber 4 0 9999
  char '-'
  let month ← fixedNumber 2 1 12
  char '-'
  let _ ← fixedNumber 2 1 (daysOf year month)

/-- Reads a time of the day, to the second or to a part of it. -/
def time : Reader Unit := do
  let _ ← fixedNumber 2 0 23
  char ':'
  let _ ← fixedNumber 2 0 59
  char ':'
  let _ ← fixedNumber 2 0 60
  let _ ← optional (do
    char '.'
    let _ ← one Char.isDigit
    skip Char.isDigit)

/-- Reads the distance from universal time. -/
def timeOffset : Reader Unit :=
  (do let _ ← one fun c => c == 'Z' || c == 'z') <|> do
    let _ ← one fun c => c == '+' || c == '-'
    let _ ← fixedNumber 2 0 23
    char ':'
    let _ ← fixedNumber 2 0 59

/-- Reads a day, a time of the day, or both. -/
def dateTime : Reader Unit :=
  (do
    date
    let _ ← optional (do
      let _ ← one fun c => c == 'T' || c == 't' || c == ' '
      time
      let _ ← optional timeOffset)) <|> time

/-! ## Scalars -/

/-- Reads a value that holds no other values. -/
def scalar : Reader Value :=
  (do return .string (← string)) <|>
    (do return .dateTime (← spelling dateTime)) <|>
    (do return .float (← spelling (decimalFloat <|> specialFloat))) <|>
    (do return .integer (← integer)) <|>
    (do word "true".toList; return .boolean true) <|>
    (do word "false".toList; return .boolean false)

end ArithTokens.Toml
