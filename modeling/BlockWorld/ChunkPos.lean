import Std.Data.ExtTreeMap
import BlockWorld.Overflow
import BlockWorld.Decimal.Floor

/-!
# Column positions

The world is divided into columns of 16 by 16 blocks, each named by two 32-bit coordinates.

* `ChunkPos`: a position, ordered by `x` and then by `z`.
* `chunkCoord`: the column coordinate of a block coordinate.
* `ChunkPos.index`: the 64-bit key of a position, `x` in the upper half and `z` in the lower.
* `ChunkPos.distanceSquared`: the squared distance in checked word arithmetic.
* `ChunkPos.gapSquared`: the exact squared distance. -/

namespace BlockWorld

open Std

/-- A column is `2 ^ 4` blocks wide. -/
def chunkShift : Int32 := 4

/-- The coordinate of the column that a block coordinate falls into. -/
def chunkCoord (v : Float32) : Int32 := floorWord v >>> chunkShift

structure ChunkPos where
  x : Int32
  z : Int32
deriving DecidableEq, Repr, Inhabited

namespace ChunkPos

instance : Ord ChunkPos := ⟨compareLex (compareOn ChunkPos.x) (compareOn ChunkPos.z)⟩

instance : TransOrd ChunkPos :=
  inferInstanceAs (TransCmp (compareLex (compareOn ChunkPos.x) (compareOn ChunkPos.z)))

instance : LawfulEqOrd ChunkPos where
  eq_of_compare {a b} h := by
    obtain ⟨hx, hz⟩ := Ordering.then_eq_eq.mp h
    have ex : a.x = b.x := LawfulEqOrd.eq_of_compare hx
    have ez : a.z = b.z := LawfulEqOrd.eq_of_compare hz
    cases a; cases b; simp_all

def display (p : ChunkPos) : String := "(" ++ toString p.x ++ ", " ++ toString p.z ++ ")"

/-- The key of a position: the words of `x` and `z` side by side. -/
def index (p : ChunkPos) : Int64 :=
  (p.x.toInt64 <<< 32) ||| p.z.toUInt32.toUInt64.toInt64

/-- The squared distance, every step on words checked. -/
def distanceSquared (a b : ChunkPos) : Except Overflow Int64 := do
  let dx ← Checked.sub32 a.x b.x
  let dz ← Checked.sub32 a.z b.z
  let xx ← Checked.mul64 dx.toInt64 dx.toInt64
  let zz ← Checked.mul64 dz.toInt64 dz.toInt64
  Checked.add64 xx zz

/-- The exact squared distance. -/
def gapSquared (a b : ChunkPos) : Int :=
  let dx := a.x.toInt - b.x.toInt
  let dz := a.z.toInt - b.z.toInt
  dx * dx + dz * dz

end ChunkPos

end BlockWorld
