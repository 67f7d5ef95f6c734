import BlockWorld.ViewDisc

/-!
# Tracked columns

The columns a viewer is subscribed to, each kept under its index.

* `Tracked`: the columns. No column is kept under an index that is not its own.
* `Tracked.insert`, `Tracked.cull`, `Tracked.drain`: subscribe, drop what is out of range, drop all.
* `Tracked.missing`: the columns in range that are not tracked, nearest first.
* `Tracked.positions`: the tracked columns by `x`, then `z`. -/

namespace BlockWorld

open Std

structure Tracked where
  columns : ExtTreeMap Int64 ChunkPos
  index_eq : ∀ {i : Int64} {p : ChunkPos}, columns[i]? = some p → p.index = i

namespace Tracked

def empty : Tracked := ⟨∅, by simp⟩

instance : Inhabited Tracked := ⟨empty⟩

def size (t : Tracked) : Nat := t.columns.size

def isEmpty (t : Tracked) : Bool := t.columns.isEmpty

def contains (t : Tracked) (index : Int64) : Bool := t.columns.contains index

/-- The tracked columns in the order of their indexes. -/
def toList (t : Tracked) : List ChunkPos := t.columns.values

/-- Tracks `p`; says whether it was not tracked before. -/
def insert (t : Tracked) (p : ChunkPos) : Bool × Tracked :=
  if t.contains p.index then (false, t)
  else
    (true,
      { columns := t.columns.insert p.index p
        index_eq := fun {i q} h => by
          rw [ExtTreeMap.getElem?_insert] at h
          split at h
          · rename_i same
            cases h
            exact LawfulEqOrd.eq_of_compare same
          · exact t.index_eq h })

/-- Stops tracking `p`. -/
def erase (t : Tracked) (p : ChunkPos) : Tracked where
  columns := t.columns.erase p.index
  index_eq := fun {i q} h => by
    rw [ExtTreeMap.getElem?_erase] at h
    split at h
    · cases h
    · exact t.index_eq h

/-- Drops every column out of range and returns those. If the range test fails for one of them,
nothing is dropped. -/
def cull (t : Tracked) (anchor : ChunkPos) (v : UInt32) :
    Except Overflow (List ChunkPos × Tracked) := do
  let (_, outside) ← splitByRange anchor v t.toList
  return (outside, outside.foldl erase t)

def missing (t : Tracked) (anchor : ChunkPos) (v : UInt32) : Except Overflow (List ChunkPos) := do
  let disc ← chunksInRange anchor v
  return disc.filter fun p => !t.contains p.index

/-- Drops every column and returns them. -/
def drain (t : Tracked) : List ChunkPos × Tracked := (t.toList, empty)

def positions (t : Tracked) : List ChunkPos := (ExtTreeSet.ofList t.toList compare).toList

end Tracked

end BlockWorld
