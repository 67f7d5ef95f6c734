import Std.Data.ExtTreeSet
import BlockWorld.Handle

/-!
# Columns

A column knows who watches it and which entities stand in it.

* `Column.addEntity`, `Column.removeEntity`: entities keep the order in which they came; a pair of
  ids is kept once, and removal goes by the unique id alone.
* `Column.addViewer`, `Column.removeViewer`: viewers are a set, listed in ascending order. -/

namespace BlockWorld

open Std

structure Entity where
  uniqueId : Int64
  runtimeId : UInt64
deriving DecidableEq, Repr

structure Column where
  viewers : ExtTreeSet ViewerId := ∅
  entities : List Entity := []
deriving DecidableEq

namespace Column

instance : Inhabited Column := ⟨{}⟩

def addEntity (c : Column) (e : Entity) : Column :=
  if e ∈ c.entities then c else { c with entities := c.entities ++ [e] }

def hasEntity (c : Column) (uniqueId : Int64) : Bool := c.entities.any (·.uniqueId == uniqueId)

def removeEntity (c : Column) (uniqueId : Int64) : Column :=
  { c with entities := c.entities.filter (·.uniqueId != uniqueId) }

def addViewer (c : Column) (v : ViewerId) : Column := { c with viewers := c.viewers.insert v }

def removeViewer (c : Column) (v : ViewerId) : Column := { c with viewers := c.viewers.erase v }

def hasViewer (c : Column) (v : ViewerId) : Bool := c.viewers.contains v

/-- The ids other than `own` of the entities, in order. -/
def othersThan (c : Column) (own : Int64) : List Int64 :=
  (c.entities.map Entity.uniqueId).filter (· != own)

end Column

end BlockWorld
