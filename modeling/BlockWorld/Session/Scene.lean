import BlockWorld.Notice
import BlockWorld.Session.Basic
import BlockWorld.World.Basic

/-!
# A session at work in a world

Moving, turning up and leaving change a session and the world together and send packets to the
session's client. A scene holds all four: the session, the world, what was sent and what was noted.

A visibility pass has two phases. The first updates the session, drops the columns that fell out of
range and lists those that are wanted (`Scene.move`, `Scene.teleport`, `Scene.refresh`). The wanted
columns are then fetched from the world, and meanwhile anything may happen to the session. The second
phase (`Scene.subscribe`) subscribes to those of the fetched columns that are still in range then.

* `Scene.cull`, `Scene.look`: the common part of the first phase.
* `Scene.finalize`: the end of a session.
* `Scene.tick`, `Scene.updateAttributes`, `Scene.message`: further packets to the client. -/

namespace BlockWorld

structure Scene where
  session : Session
  world : World
  sent : Array Packet := #[]
  notices : Array Notice := #[]

/-- What the first phase of a visibility pass found. -/
structure Glance where
  /-- How many columns were dropped. -/
  culled : Nat
  /-- The columns in range that are not tracked, nearest first. -/
  wanted : List ChunkPos
deriving DecidableEq, Repr

/-- What a session was like when it was finalized. -/
structure Finalized where
  anchor : ChunkPos
  wasSpawned : Bool
deriving DecidableEq, Repr

namespace Scene

def send (sc : Scene) (p : Packet) : Scene := { sc with sent := sc.sent.push p }

def note (sc : Scene) (n : Notice) : Scene := { sc with notices := sc.notices.push n }

/-! ## The first phase -/

/-- Ends the subscription to the column at `p`. -/
def release (sc : Scene) (p : ChunkPos) : Scene :=
  { sc with world := sc.world.removeViewer p sc.session.viewerId }

/-- The unique ids of the entities at `p` other than the player itself. -/
def othersAt (sc : Scene) (p : ChunkPos) : List Int64 :=
  match sc.world.column? p with
  | some c => c.othersThan sc.session.entityId
  | none => []

/-- Ends the subscription to the column at `p` and takes its entities from the client's sight. -/
def drop (sc : Scene) (p : ChunkPos) : Scene :=
  (sc.othersAt p).foldl (fun sc id => sc.send (.removeEntity id)) (sc.release p)

/-- Drops the columns out of range and counts them. -/
def cull (sc : Scene) : Except Overflow (Nat × Scene) := do
  let (dropped, kept) ← sc.session.tracked.cull sc.session.anchor sc.session.viewDistance
  let sc := dropped.foldl drop { sc with session := { sc.session with tracked := kept } }
  if dropped.isEmpty then return (0, sc)
  else return (dropped.length, sc.note (.culled sc.session.name dropped.length sc.session.anchor))

/-- Drops what is out of range and lists what is missing. -/
def look (sc : Scene) : Except Overflow (Glance × Scene) := do
  let (culled, sc) ← sc.cull
  let wanted ← sc.session.tracked.missing sc.session.anchor sc.session.viewDistance
  return (⟨culled, wanted⟩, sc)

/-- Looks around anew where the player is. A finalized session does not. -/
def refresh (sc : Scene) : Except Overflow (Option Glance × Scene) :=
  if sc.session.finalized then .ok (none, sc)
  else do
    let (glance, sc) ← sc.look
    return (some glance, sc)

/-- A movement of the client: the angles are added to those before. -/
def move (sc : Scene) (position : Vec3) (turn : Rotation) (onGround : Bool) :
    Except Overflow (Option Glance × Scene) :=
  if sc.session.finalized then .ok (none, sc)
  else do
    let session := { sc.session with
      position
      rotation := sc.session.rotation + turn
      onGround
      anchor := anchorOf position }
    let (glance, sc) ← look { sc with session }
    return (some glance, sc)

/-- Puts the player somewhere and tells the client. -/
def teleport (sc : Scene) (position : Vec3) (rotation : Rotation) :
    Except Overflow (Option Glance × Scene) :=
  if sc.session.finalized then .ok (none, sc)
  else do
    let session := { sc.session with position, rotation, anchor := anchorOf position }
    let packet : MovePlayer :=
      { runtimeEntityId := session.runtimeId, position, rotation, mode := .teleport
        onGround := session.onGround }
    let (glance, sc) ← look (send { sc with session } (.movePlayer packet))
    return (some glance, sc)

/-! ## The second phase -/

/-- Subscribes to a fetched column, provided it is in range now and not tracked; says whether it
did. -/
def subscribeTo (sc : Scene) (p : ChunkPos) : Except Overflow (Bool × Scene) := do
  let near ← inRange sc.session.anchor p sc.session.viewDistance
  if !near || sc.session.tracked.contains p.index then return (false, sc)
  else
    let world := sc.world.addViewer p sc.session.viewerId
    let tracked := (sc.session.tracked.insert p).2
    return (true, send { sc with world, session := { sc.session with tracked } }
      (.levelChunk (.column p.x p.z)))

/-- Subscribes to the columns one after the other and counts the subscriptions. -/
def subscribeAll : List ChunkPos → Scene → Except Overflow (Nat × Scene)
  | [], sc => .ok (0, sc)
  | p :: ps, sc => do
    let (subscribed, sc) ← sc.subscribeTo p
    let (count, sc) ← subscribeAll ps sc
    return (if subscribed then count + 1 else count, sc)

/-- Subscribes to what was fetched. A session that was finalized meanwhile does not. -/
def subscribe (sc : Scene) (fetched : List ChunkPos) : Except Overflow (Nat × Scene) :=
  if sc.session.finalized then .ok (0, sc)
  else do
    let (count, sc) ← subscribeAll fetched sc
    if count = 0 then return (0, sc)
    else return (count, sc.note (.loaded sc.session.name count sc.session.anchor))

/-! ## The life of a session -/

/-- Ends the session: it is no longer spawned and every subscription is given up. `none` if it had
ended before. -/
def finalize (sc : Scene) : Option Finalized × Scene :=
  if sc.session.finalized then (none, sc)
  else
    let (chunks, tracked) := sc.session.tracked.drain
    let ended := { sc.session with finalized := true, spawned := false, tracked }
    let sc' := chunks.foldl release { sc with session := ended }
    (some ⟨sc.session.anchor, sc.session.spawned⟩,
      sc'.note (.finalized sc.session.name chunks.length))

/-- Sends all attributes. -/
def updateAttributes (sc : Scene) (tick : UInt64) : Scene :=
  sc.send (.updateAttributes ⟨sc.session.runtimeId, sc.session.attributes.entries, tick⟩)

/-- A tick in the life of a spawned player: attributes go out if they changed, or when the interval
divides the tick. -/
def tick (sc : Scene) (current interval : UInt64) : Scene :=
  if !sc.session.spawned then sc
  else
    let (dirty, attributes) := sc.session.attributes.takeDirty
    let session := { sc.session with attributes, ticksLived := sc.session.ticksLived + 1 }
    let sc := { sc with session }
    if dirty || (0 < interval && current % interval = 0) then sc.updateAttributes current else sc

def message (sc : Scene) (text : String) : Scene := sc.send (.text (.raw text))

/-- The end of a spawn whose visibility pass loaded `loaded` columns; says whether the player is in
the world now. -/
def completeSpawn (sc : Scene) (loaded : Nat) : Bool × Scene :=
  if sc.session.finalized then (false, sc.note (.removedWhileSpawning sc.session.name))
  else
    (true,
      ((sc.updateAttributes 0).send (.playStatus .playerSpawn)).note
        (.spawned sc.session.name sc.session.anchor loaded))

/-- Puts a client that claims an impossible position back where it was. -/
def correct (sc : Scene) : Scene :=
  sc.send (.movePlayer
    { runtimeEntityId := sc.session.runtimeId, position := sc.session.position
      rotation := sc.session.rotation, mode := .reset, onGround := sc.session.onGround })

end Scene

end BlockWorld
