import BlockWorld.ChunkPos
import BlockWorld.Handle
import BlockWorld.Handshake
import BlockWorld.Uuid

/-!
# Notices

What the server writes to its log, as values: one constructor for each kind of event, with the data
it mentions.

* `Notice`: the events.
* `Notice.level`, `Notice.text`: how serious an event is and how it reads.
* `Notice.display`: the line of the log. -/

namespace BlockWorld

inductive Level where
  | debug
  | info
  | warn
deriving DecidableEq, Repr

def Level.display : Level → String
  | .debug => "DEBUG"
  | .info => "INFO"
  | .warn => "WARN"

inductive Notice where
  | columnCreated (pos : ChunkPos)
  | defaultGroupMissing (group : String)
  | inheritanceCycle (group : String)
  | unknownParent (group parent : String)
  | unknownGroup (group player : String)
  | connectionOpened (handle : Handle)
  | connectionClosed (handle : Handle)
  | unhandledPacket (id : UInt32) (handle : Handle)
  | handshake (handle : Handle) (source target : HandshakeState)
  | loginWhileBound (username : String) (handle : Handle) (player : String)
  | loginWithoutName (handle : Handle)
  | loginNameTaken (username : String)
  | loginHandleInUse (username : String) (handle : Handle)
  | loginServerFull (username : String)
  | loggedIn (player : String) (handle : Handle) (entityId : Int64) (uuid : Uuid)
  | invalidPosition (player : String) (handle : Handle)
  | radiusRequested (player : String) (handle : Handle) (requested : Int32) (granted : UInt32)
  | skinChanged (player : String) (handle : Handle) (skinId : String)
  | wrongRuntimeId (player : String) (handle : Handle) (got expected : UInt64)
  | disconnected (player : String) (handle : Handle) (message : String)
  | culled (player : String) (count : Nat) (anchor : ChunkPos)
  | loaded (player : String) (count : Nat) (anchor : ChunkPos)
  | finalized (player : String) (released : Nat)
  | leftGame (player : String) (online despawned : Nat)
  | removedWhileSpawning (player : String)
  | spawned (player : String) (anchor : ChunkPos) (loaded : Nat)
  | shuttingDown (players : Nat)
deriving DecidableEq, Repr

namespace Notice

def level : Notice → Level
  | .inheritanceCycle .. | .unknownParent .. | .unknownGroup .. | .loginWhileBound ..
  | .loginWithoutName .. | .loginHandleInUse .. | .invalidPosition .. | .wrongRuntimeId .. => .warn
  | .loginNameTaken .. | .loginServerFull .. | .loggedIn .. | .disconnected .. | .leftGame ..
  | .spawned .. | .shuttingDown .. => .info
  | .columnCreated .. | .defaultGroupMissing .. | .connectionOpened .. | .connectionClosed ..
  | .unhandledPacket .. | .handshake .. | .radiusRequested .. | .skinChanged .. | .culled ..
  | .loaded .. | .finalized .. | .removedWhileSpawning .. => .debug

/-- A packet id in at least two upper-case hexadecimal digits. -/
def hexId (id : UInt32) : String :=
  let digits := (Nat.toDigits 16 id.toNat).map Char.toUpper
  String.ofList (List.replicate (2 - digits.length) '0' ++ digits)

def text : Notice → String
  | .columnCreated pos => "Created chunk column " ++ pos.display
  | .defaultGroupMissing group =>
    "Default permission group " ++ group ++ " not defined, using an empty group"
  | .inheritanceCycle group => "Permission group " ++ group ++ " has an inheritance cycle"
  | .unknownParent group parent =>
    "Permission group " ++ group ++ " inherits unknown group " ++ parent
  | .unknownGroup group player => "Unknown permission group " ++ group ++ " for " ++ player
  | .connectionOpened handle => "Connection opened: " ++ handle.display
  | .connectionClosed handle => "Connection closed without a session: " ++ handle.display
  | .unhandledPacket id handle => "Unhandled packet 0x" ++ hexId id ++ " from " ++ handle.display
  | .handshake handle source target =>
    "Handshake " ++ handle.display ++ ": " ++ source.display ++ " -> " ++ target.display
  | .loginWhileBound username handle player =>
    "Login for " ++ username ++ " on " ++ handle.display ++ ", already bound to " ++ player
  | .loginWithoutName handle => "Login with empty username on " ++ handle.display
  | .loginNameTaken username => "Rejected login for " ++ username ++ ": name already in use"
  | .loginHandleInUse username handle =>
    "Rejected login for " ++ username ++ ": " ++ handle.display ++ " already bound"
  | .loginServerFull username => "Rejected login for " ++ username ++ ": server full"
  | .loggedIn player handle entityId uuid =>
    player ++ " logged in on " ++ handle.display ++ " (entity " ++ toString entityId ++ ", uuid " ++
      uuid.display ++ ")"
  | .invalidPosition player handle =>
    "Invalid position (NaN/Inf) from " ++ player ++ " on " ++ handle.display
  | .radiusRequested player handle requested granted =>
    player ++ " on " ++ handle.display ++ " requested radius " ++ toString requested ++
      ", granted " ++ toString granted
  | .skinChanged player handle skinId =>
    player ++ " on " ++ handle.display ++ " changed skin to " ++ skinId
  | .wrongRuntimeId player handle got expected =>
    player ++ " on " ++ handle.display ++ " initialized runtime id " ++ toString got ++
      ", expected " ++ toString expected
  | .disconnected player handle message =>
    player ++ " on " ++ handle.display ++ " disconnected: " ++ message
  | .culled player count anchor =>
    player ++ " culled " ++ toString count ++ " chunks around " ++ anchor.display
  | .loaded player count anchor =>
    player ++ " loaded " ++ toString count ++ " chunks around " ++ anchor.display
  | .finalized player released =>
    "Finalized " ++ player ++ " (" ++ toString released ++ " chunks released)"
  | .leftGame player online despawned =>
    player ++ " left the game (" ++ toString online ++ " players online, despawned for " ++
      toString despawned ++ ")"
  | .removedWhileSpawning player => player ++ " was removed while spawning"
  | .spawned player anchor count =>
    player ++ " spawned at " ++ anchor.display ++ " (" ++ toString count ++ " chunks)"
  | .shuttingDown players => "Shutting down, removing " ++ toString players ++ " players"

def display (n : Notice) : String := n.level.display ++ " " ++ n.text

end Notice

end BlockWorld
