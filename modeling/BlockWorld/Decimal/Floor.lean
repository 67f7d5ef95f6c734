/-!
# Floors of 32-bit floats

A finite binary32 value is an integer significand times a power of two, both read off its bits, so
its floor is exact integer arithmetic.

* `Binary.significand`, `Binary.scale`: the value is `± significand * 2 ^ (scale - 150)`.
* `floorInt`: the floor of a finite value.
* `floorWord`: the floor as a 32-bit word; values out of range go to the nearer end, NaN to `0`. -/

namespace BlockWorld

namespace Binary

/-- The leading bit of the significand of a normal value, `2 ^ 23`. -/
def leadingBit : Nat := 8388608

/-- The biased exponent field, the eight bits above the fraction. -/
def exponentField (v : Float32) : Nat := v.toBits.toNat / leadingBit % 256

/-- The stored fraction field. -/
def fractionField (v : Float32) : Nat := v.toBits.toNat % leadingBit

def isNegative (v : Float32) : Bool := 2147483648 ≤ v.toBits.toNat

/-- The integer significand: the leading bit of a normal value is implied. -/
def significand (v : Float32) : Nat :=
  if exponentField v = 0 then fractionField v else fractionField v + leadingBit

/-- The binary exponent, plus `150`. Subnormal values share the scale of the least normal ones. -/
def scale (v : Float32) : Nat := max (exponentField v) 1

end Binary

/-- The greatest integer not above a finite `v`. An infinity counts as `± 2 ^ 128`, which lies beyond
every word. -/
def floorInt (v : Float32) : Int :=
  let m : Int := Binary.significand v
  let signed := if Binary.isNegative v then -m else m
  if 150 ≤ Binary.scale v then signed <<< (Binary.scale v - 150)
  else signed >>> (150 - Binary.scale v)

/-- The integer `n`, or the nearer end of the range of 32-bit words. -/
def saturate32 (n : Int) : Int32 :=
  if n < -2147483648 then Int32.minValue
  else if 2147483647 < n then Int32.maxValue
  else Int32.ofInt n

/-- The floor of `v` as a word. -/
def floorWord (v : Float32) : Int32 :=
  if v.isNaN then 0 else saturate32 (floorInt v)

end BlockWorld
