/-!
# Hexadecimal digits

* `Hex.digit?`: the value of a digit, of either case.
* `Hex.char`: the lower-case digit of a value.
* `Hex.value`, `Hex.text`: a number from its digits and back. -/

namespace BlockWorld

namespace Hex

/-- The value of a hexadecimal digit of either case. -/
def digit? (c : Char) : Option Nat :=
  if '0' ≤ c ∧ c ≤ '9' then some (c.toNat - 48)
  else if 'a' ≤ c ∧ c ≤ 'f' then some (c.toNat - 87)
  else if 'A' ≤ c ∧ c ≤ 'F' then some (c.toNat - 55)
  else none

/-- The lower-case digit of a value below 16. -/
def char (n : Nat) : Char := Char.ofNat (if n < 10 then 48 + n else 87 + n)

/-- The number written by a list of digits, most significant first. -/
def value (ds : List Nat) : Nat := ds.foldl (fun n d => 16 * n + d) 0

/-- The last `width` digits of `n`. -/
def text : (width n : Nat) → List Char
  | 0, _ => []
  | width + 1, n => text width (n / 16) ++ [char (n % 16)]

theorem length_text (width n : Nat) : (text width n).length = width := by
  induction width generalizing n with
  | zero => rfl
  | succ width ih => simp [text, ih]

end Hex

end BlockWorld
