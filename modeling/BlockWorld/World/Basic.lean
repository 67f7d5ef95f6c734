import Std.Data.ExtTreeMap
import BlockWorld.ChunkPos
import BlockWorld.World.Column

/-!
# The world

A map of columns in which a column comes into being when it is first fetched. A world may have a
border; columns beyond it are never provided.

* `World.provides`: whether the border lets a position in.
* `World.fetch`: fetches a column, creating it if need be.
* `World.modify` and the operations on the column at one position. -/

namespace BlockWorld

open Std

structure World where
  border : Option Int32 := none
  columns : ExtTreeMap ChunkPos Column := ∅
deriving DecidableEq

/-- What became of a fetch. -/
inductive Fetch where
  | outside
  | found
  | created
deriving DecidableEq, Repr

/-- Whether a fetch provided a column. -/
def Fetch.provided : Fetch → Bool
  | .outside => false
  | .found => true
  | .created => true

namespace World

instance : Inhabited World := ⟨{}⟩

/-- Both coordinates are at most `border` in absolute value. The second is looked at only if the
first passes. -/
def provides (w : World) (p : ChunkPos) : Except Overflow Bool :=
  match w.border with
  | none => .ok true
  | some border => do
    let x ← Checked.abs32 p.x
    if border < x then return false
    let z ← Checked.abs32 p.z
    return !(border < z)

/-- Fetches the column at `p`. -/
def fetch (w : World) (p : ChunkPos) : Except Overflow (Fetch × World) := do
  if ← w.provides p then
    if w.columns.contains p then return (.found, w)
    else return (.created, { w with columns := w.columns.insert p {} })
  else return (.outside, w)

/-- The column at `p`, if it was ever fetched. -/
def column? (w : World) (p : ChunkPos) : Option Column := w.columns[p]?

/-- Changes the column at `p`, if it was ever fetched. -/
def modify (w : World) (p : ChunkPos) (f : Column → Column) : World :=
  { w with columns := w.columns.modify p f }

def addEntity (w : World) (p : ChunkPos) (e : Entity) : World := w.modify p (·.addEntity e)

def removeEntity (w : World) (p : ChunkPos) (uniqueId : Int64) : World :=
  w.modify p (·.removeEntity uniqueId)

def addViewer (w : World) (p : ChunkPos) (v : ViewerId) : World := w.modify p (·.addViewer v)

def removeViewer (w : World) (p : ChunkPos) (v : ViewerId) : World := w.modify p (·.removeViewer v)

/-- How many columns were ever provided. -/
def loadedCount (w : World) : Nat := w.columns.size

end World

end BlockWorld
