/-!
# Checked word arithmetic

Coordinates are 32-bit words and squared distances 64-bit words. An operation on words computes the
exact integer and fails when that integer does not fit.

* `Overflow`: the operation whose exact result does not fit its word.
* `Checked.word32`, `Checked.word64`: an integer as a word, if it fits.
* `Checked.sub32`, `Checked.add32`, `Checked.neg32`, `Checked.abs32`, `Checked.add64`,
  `Checked.mul64`: the operations. -/

namespace BlockWorld

/-- An operation on words whose exact result does not fit. -/
inductive Overflow where
  | add
  | subtract
  | multiply
  | negate
deriving DecidableEq, Repr

/-- The text a failed operation is reported with. -/
def Overflow.message : Overflow → String
  | .add => "attempt to add with overflow"
  | .subtract => "attempt to subtract with overflow"
  | .multiply => "attempt to multiply with overflow"
  | .negate => "attempt to negate with overflow"

namespace Checked

/-- The integer `n` as a 32-bit word; `op` is to blame if it does not fit. -/
def word32 (op : Overflow) (n : Int) : Except Overflow Int32 :=
  if -2147483648 ≤ n ∧ n ≤ 2147483647 then .ok (Int32.ofInt n) else .error op

/-- The integer `n` as a 64-bit word; `op` is to blame if it does not fit. -/
def word64 (op : Overflow) (n : Int) : Except Overflow Int64 :=
  if -9223372036854775808 ≤ n ∧ n ≤ 9223372036854775807 then .ok (Int64.ofInt n) else .error op

def sub32 (a b : Int32) : Except Overflow Int32 := word32 .subtract (a.toInt - b.toInt)

def add32 (a b : Int32) : Except Overflow Int32 := word32 .add (a.toInt + b.toInt)

def neg32 (a : Int32) : Except Overflow Int32 := word32 .negate (-a.toInt)

/-- The absolute value: only a negative word is negated. -/
def abs32 (a : Int32) : Except Overflow Int32 := if a < 0 then neg32 a else .ok a

def add64 (a b : Int64) : Except Overflow Int64 := word64 .add (a.toInt + b.toInt)

def mul64 (a b : Int64) : Except Overflow Int64 := word64 .multiply (a.toInt * b.toInt)

/-! ## What a fitting integer becomes -/

theorem word32_of_fits {n : Int} (op : Overflow) (lo : -2147483648 ≤ n) (hi : n ≤ 2147483647) :
    word32 op n = .ok (Int32.ofInt n) := by
  simp [word32, lo, hi]

theorem word64_of_fits {n : Int} (op : Overflow) (lo : -9223372036854775808 ≤ n)
    (hi : n ≤ 9223372036854775807) : word64 op n = .ok (Int64.ofInt n) := by
  simp [word64, lo, hi]

/-- A word that came out of a checked operation has the exact value. -/
theorem toInt_of_word32 {op : Overflow} {n : Int} {w : Int32} (h : word32 op n = .ok w) :
    w.toInt = n := by
  unfold word32 at h
  split at h
  · rename_i fits
    cases h
    exact Int32.toInt_ofInt_of_le (by omega) (by omega)
  · cases h

theorem toInt_of_word64 {op : Overflow} {n : Int} {w : Int64} (h : word64 op n = .ok w) :
    w.toInt = n := by
  unfold word64 at h
  split at h
  · rename_i fits
    cases h
    exact Int64.toInt_ofInt_of_le (by omega) (by omega)
  · cases h

end Checked

end BlockWorld
