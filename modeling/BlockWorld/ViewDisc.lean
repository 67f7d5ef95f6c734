import Std.Data.ExtTreeSet
import BlockWorld.ChunkPos

/-!
# View discs

A column is in range of a viewer anchored at `a` if the view distance is positive and the squared
distance to `a` is at most its square. A view distance above 64 counts as 64, and a view distance of
zero sees nothing, not even the anchor.

* `radiusSquared`, `inRange`: the range test.
* `splitByRange`: a list of columns, those in range and those out of range.
* `chunksInRange`: the disc, nearest first.
* `nearestFirst`: the order of a disc, by squared distance, then `x`, then `z`. -/

namespace BlockWorld

open Std

/-- The largest view distance. -/
def maxViewDistance : UInt32 := 64

/-- A view distance, cut down to the largest one. -/
def clampViewDistance (v : UInt32) : UInt32 := min v maxViewDistance

def radiusSquared (v : UInt32) : Except Overflow Int64 :=
  let r := (clampViewDistance v).toUInt64.toInt64
  Checked.mul64 r r

def inRange (anchor p : ChunkPos) (v : UInt32) : Except Overflow Bool :=
  if v = 0 then .ok false
  else do
    let d ← anchor.distanceSquared p
    let r ← radiusSquared v
    return d ≤ r

/-- The columns in range and those out of range, each in the order of the list. -/
def splitByRange (anchor : ChunkPos) (v : UInt32) :
    List ChunkPos → Except Overflow (List ChunkPos × List ChunkPos)
  | [] => .ok ([], [])
  | p :: ps => do
    let near ← inRange anchor p v
    let (inside, outside) ← splitByRange anchor v ps
    return if near then (p :: inside, outside) else (inside, p :: outside)

/-- The words from `center - r` to `center + r`. -/
def interval (center r : Int32) : Except Overflow (List Int32) := do
  let low ← Checked.sub32 center r
  let high ← Checked.add32 center r
  return (List.range (high.toInt - low.toInt + 1).toNat).map fun (i : Nat) => Int32.ofInt (low.toInt + i)

/-- The square around `anchor` that contains its disc. -/
def square (anchor : ChunkPos) (v : UInt32) : Except Overflow (List ChunkPos) := do
  let r := (clampViewDistance v).toInt32
  let xs ← interval anchor.x r
  let zs ← interval anchor.z r
  return xs.flatMap fun x => zs.map fun z => ⟨x, z⟩

/-- Nearer columns come first; among equally distant ones the smaller `x`, then the smaller `z`. -/
def nearestFirst (anchor : ChunkPos) : ChunkPos → ChunkPos → Ordering :=
  compareLex (compareOn anchor.gapSquared) compare

instance (anchor : ChunkPos) : TransCmp (nearestFirst anchor) :=
  inferInstanceAs (TransCmp (compareLex (compareOn anchor.gapSquared) compare))

instance (anchor : ChunkPos) : LawfulEqCmp (nearestFirst anchor) where
  eq_of_compare h := LawfulEqOrd.eq_of_compare (Ordering.then_eq_eq.mp h).2

/-- Every column in range of `anchor`, nearest first. -/
def chunksInRange (anchor : ChunkPos) (v : UInt32) : Except Overflow (List ChunkPos) := do
  let candidates ← square anchor v
  let (inside, _) ← splitByRange anchor v candidates
  return (ExtTreeSet.ofList inside (nearestFirst anchor)).toList

end BlockWorld
