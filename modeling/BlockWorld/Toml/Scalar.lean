import BlockWorld.Toml.Lexeme
import BlockWorld.Toml.Value

/-!
# TOML numbers, dates and times

* `integer`: a signed 64-bit integer, decimal or in base 16, 8 or 2.
* `decimal`: a floating-point number in decimal notation; `special`: an infinity or NaN.
* `moment`: a date, a time or both. Only its form is checked.
* `scalar`: a value that is neither an array nor a table. -/

namespace BlockWorld.Toml

open Reader

def isDigit (c : Char) : Bool := '0' ≤ c && c ≤ '9'

/-- Digits, between which single underscores may stand. -/
def digitRun (ok : Char → Bool) : Reader (List Char) := do
  let d ← satisfy ok
  let ds ← many (satisfy ok <|> (do discard (char '_'); satisfy ok))
  return d :: ds

/-- The number that digits of a base up to 16 write. -/
def digitsValue (base : Nat) (ds : List Char) : Nat :=
  ds.foldl (fun n d => base * n + (Hex.digit? d).getD 0) 0

/-- A sign; `true` for minus. -/
def sign : Reader Bool := do
  match ← option (satisfy fun c => c == '+' || c == '-') with
  | some '-' => return true
  | _ => return false

/-- The digits of a decimal integer: no zero in front of another digit. -/
def decimalDigits : Reader (List Char) := do
  match ← peek with
  | some '0' => return [← satisfy fun _ => true]
  | _ => digitRun isDigit

def toInt64? (n : Int) : Option Int64 :=
  if -9223372036854775808 ≤ n ∧ n ≤ 9223372036854775807 then some (Int64.ofInt n) else none

/-- An integer of another base, after its mark. -/
def basedInteger (mark : String) (base : Nat) : Reader Int64 := do
  text mark
  let ds ← digitRun fun c => (Hex.digit? c).any (· < base)
  toInt64? (digitsValue base ds)

def integer : Reader Int64 :=
  basedInteger "0x" 16 <|> basedInteger "0o" 8 <|> basedInteger "0b" 2 <|> do
    let negative ← sign
    let n := digitsValue 10 (← decimalDigits)
    toInt64? (if negative then -(n : Int) else n)

/-- The 64-bit float nearest to `digits * 10 ^ exponent`. Whatever lies beyond the range of floats is
decided by its order of magnitude alone. -/
def nearestFloat (digits : Nat) (exponent : Int) : Float :=
  let magnitude := exponent + (Nat.toDigits 10 digits).length
  if digits = 0 ∨ magnitude < -330 then 0.0
  else if 310 < magnitude then 1.0 / 0.0
  else Float.ofScientific digits (exponent < 0) exponent.natAbs

/-- The exponent of a decimal notation. -/
def exponentPart : Reader Int := do
  discard (char 'e' <|> char 'E')
  let negative ← sign
  let n := digitsValue 10 (← digitRun isDigit)
  return if negative then -(n : Int) else n

def fractionPart : Reader (List Char) := do
  discard (char '.')
  digitRun isDigit

/-- A decimal notation with a fraction, an exponent or both. One too large for a float is refused,
unless it is negative. -/
def decimal : Reader Float := do
  let negative ← sign
  let whole ← decimalDigits
  let fraction ← option fractionPart
  let exponent ← if fraction.isSome then option exponentPart else some <$> exponentPart
  let places := fraction.getD []
  let x := nearestFloat (digitsValue 10 (whole ++ places)) (exponent.getD 0 - places.length)
  guard (negative || !x.isInf)
  return if negative then -x else x

def special : Reader Float := do
  let negative ← sign
  let x ← (do text "inf"; return (1.0 / 0.0 : Float)) <|> (do text "nan"; return (0.0 / 0.0 : Float))
  return if negative then -x else x

/-! ## Dates and times -/

/-- A number of exactly `width` digits from `low` to `high`. -/
def fixedNumber (width low high : Nat) : Reader Nat := fun cs => do
  let ds := cs.take width
  guard (ds.length = width && ds.all isDigit)
  let n := digitsValue 10 ds
  guard (low ≤ n && n ≤ high)
  return (n, cs.drop width)

def daysInMonth (year month : Nat) : Nat :=
  if month = 2 then
    if year % 4 = 0 ∧ (year % 100 ≠ 0 ∨ year % 400 = 0) then 29 else 28
  else if month = 4 ∨ month = 6 ∨ month = 9 ∨ month = 11 then 30
  else 31

def date : Reader Unit := do
  let year ← fixedNumber 4 0 9999
  discard (char '-')
  let month ← fixedNumber 2 1 12
  discard (char '-')
  discard (fixedNumber 2 1 (daysInMonth year month))

/-- A time of day; a sixtieth second may be a leap second. -/
def time : Reader Unit := do
  discard (fixedNumber 2 0 23)
  discard (char ':')
  discard (fixedNumber 2 0 59)
  discard (char ':')
  discard (fixedNumber 2 0 60)
  discard (option (do discard (char '.'); takeWhile1 isDigit))

def timeOffset : Reader Unit :=
  discard (char 'Z' <|> char 'z') <|> do
    discard (char '+' <|> char '-')
    discard (fixedNumber 2 0 23)
    discard (char ':')
    discard (fixedNumber 2 0 59)

def moment : Reader Unit :=
  (do
    date
    discard (option (do
      discard (char 'T' <|> char 't' <|> char ' ')
      time
      discard (option timeOffset)))) <|> time

def boolean : Reader Bool :=
  (do text "true"; return true) <|> (do text "false"; return false)

def scalar : Reader Value :=
  Value.string <$> string <|> Value.boolean <$> boolean <|> (do moment; return Value.moment) <|>
    Value.float <$> decimal <|> Value.float <$> special <|> Value.integer <$> integer

end BlockWorld.Toml
