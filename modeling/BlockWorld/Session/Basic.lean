import BlockWorld.Attribute
import BlockWorld.Handle
import BlockWorld.Identity
import BlockWorld.Permission.Overrides
import BlockWorld.Tracked

/-!
# Sessions

A connected player: who it is, where it is, which columns it tracks and how far its life has got. A
session is spawned at most once and finalized at most once; a finalized session tracks nothing and
never changes its place again.

* `Session`, `Session.create`: the state and how it begins.
* `anchorOf`: the column a point lies in.
* `Session.setViewDistance`, `Session.setSpawned`, `Session.setAttribute`, …: changes that concern
  nobody else. -/

namespace BlockWorld

/-- The column that a point lies in. -/
def anchorOf (position : Vec3) : ChunkPos := ⟨chunkCoord position.x, chunkCoord position.z⟩

structure Session where
  handle : Handle
  /-- The unique id of the player's entity. -/
  entityId : Int64
  identity : Identity
  permissions : PermissionSet
  position : Vec3
  rotation : Rotation := Rotation.zero
  onGround : Bool := true
  viewDistance : UInt32
  /-- The column the player was last moved into. -/
  anchor : ChunkPos
  tracked : Tracked := Tracked.empty
  spawned : Bool := false
  finalized : Bool := false
  attributes : AttributeMap := AttributeMap.playerDefaults
  ticksLived : UInt64 := 0

namespace Session

/-- A session that is not spawned and tracks nothing yet. -/
def create (handle : Handle) (entityId : Int64) (identity : Identity) (group : Group)
    (position : Vec3) (viewDistance : UInt32) : Session where
  handle := handle
  entityId := entityId
  identity := identity
  permissions := PermissionSet.ofGroup group
  position := position
  viewDistance := clampViewDistance viewDistance
  anchor := anchorOf position

def name (s : Session) : String := s.identity.name

/-- The id of the player's entity in movement and attribute packets. -/
def runtimeId (s : Session) : UInt64 := s.entityId.toUInt64

def viewerId (s : Session) : ViewerId := ⟨s.runtimeId⟩

/-- Whether the player is subscribed to the column at `p`. -/
def sees (s : Session) (p : ChunkPos) : Bool := s.tracked.contains p.index

/-! ## Changes of one session -/

def setViewDistance (s : Session) (viewDistance : UInt32) : Session :=
  { s with viewDistance := clampViewDistance viewDistance }

/-- Makes the player visible; `false` if it is already, or finalized. -/
def setSpawned (s : Session) : Bool × Session :=
  if s.finalized then (false, s) else (!s.spawned, { s with spawned := true })

def setSkin (s : Session) (skin : Skin) : Session := { s with identity := { s.identity with skin } }

def setDisplayName (s : Session) (displayName : String) : Session :=
  { s with identity := { s.identity with displayName } }

def setGroup (s : Session) (group : Group) : Session :=
  { s with permissions := s.permissions.setGroup group }

def addPermission (s : Session) (p : Permission) : Bool × Session :=
  let (replaced, permissions) := s.permissions.add p
  (replaced, { s with permissions })

def removePermission (s : Session) (name : String) : Bool × Session :=
  let (removed, permissions) := s.permissions.remove name
  (removed, { s with permissions })

def setAttribute (s : Session) (name : String) (value : Float32) : Bool × Session :=
  let (known, attributes) := s.attributes.set name value
  (known, { s with attributes })

end Session

end BlockWorld
