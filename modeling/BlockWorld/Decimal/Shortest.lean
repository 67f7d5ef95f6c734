import BlockWorld.Decimal.Floor

/-!
# The shortest decimal text of a 32-bit float

A float is written with the fewest digits that read back as the same float, and of those with the
ones nearest to it; always positionally, with no exponent and no trailing zeros.

All numbers here are natural numbers counting `10 ^ (-60) / 2 ^ 152`: fine enough for every binary32
value, the midpoints to its neighbours and every decimal of nine significant digits.

* `Decimal.Interval`: the decimals that read back as a given float.
* `Decimal.onGrid?`: the decimal of a grid nearest to the float, if it reads back.
* `Decimal.shortest`: the text. -/

namespace BlockWorld.Decimal

/-- Number of decimal places that are kept. -/
def places : Nat := 60

/-- How many counting units make one `10 ^ (-60)`. -/
def unitsPerPlace : Nat := Nat.pow 2 152

/-- The numbers that read back as one float: those between the midpoints to its neighbours. The
midpoints themselves belong to the float whose significand is even. -/
structure Interval where
  value : Nat
  low : Nat
  high : Nat
  closed : Bool

/-- The interval of the magnitude of `v`. Below a power of two the neighbours are twice as near. -/
def Interval.of (v : Float32) : Interval :=
  let m := Binary.significand v
  let unit := Nat.pow 2 (Binary.scale v) * Nat.pow 10 places
  let below := if m = Binary.leadingBit ∧ 1 < Binary.scale v then 1 else 2
  { value := 4 * m * unit
    low := (4 * m - below) * unit
    high := (4 * m + 2) * unit
    closed := m % 2 == 0 }

/-- Whether the number `x` reads back as the float. -/
def Interval.holds (i : Interval) (x : Nat) : Bool :=
  if i.closed then i.low ≤ x && x ≤ i.high else i.low < x && x < i.high

/-- The multiple of `unit` nearest to the float among its two neighbours that read back. -/
def onGrid? (i : Interval) (unit : Nat) : Option Nat :=
  let below := i.value / unit * unit
  let above := below + unit
  if i.holds below && (!i.holds above || i.value - below < above - i.value) then some below
  else if i.holds above then some above
  else none

/-- The grids of one significant digit, two digits and so on: powers of ten from the greatest that
is not above the float downwards. -/
def grids (i : Interval) : List Nat :=
  ((List.range 100).reverse.map fun place => Nat.pow 10 place * unitsPerPlace).dropWhile (i.value < ·)

/-- The decimal with the fewest digits that reads back, in counting units. -/
def fewestDigits (i : Interval) : Nat :=
  ((grids i).findSome? (onGrid? i)).getD i.value

/-- The digits of `n`, filled up with leading zeros to `width`. -/
def padded (width n : Nat) : List Char :=
  let digits := Nat.toDigits 10 n
  List.replicate (width - digits.length) '0' ++ digits

/-- The text of a number counted in `10 ^ (-60)`. -/
def positional (n : Nat) : String :=
  let whole := toString (n / Nat.pow 10 places)
  let fraction := ((padded places (n % Nat.pow 10 places)).reverse.dropWhile (· == '0')).reverse
  if fraction.isEmpty then whole else whole ++ "." ++ String.ofList fraction

/-- The text of `v`. The sign of a zero is kept. -/
def shortest (v : Float32) : String :=
  if v.isNaN then "NaN"
  else
    let sign := if Binary.isNegative v then "-" else ""
    if v.isInf then sign ++ "inf"
    else if Binary.significand v = 0 then sign ++ "0"
    else sign ++ positional (fewestDigits (Interval.of v) / unitsPerPlace)

end BlockWorld.Decimal
