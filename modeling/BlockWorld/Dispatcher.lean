import Std.Data.ExtTreeMap
import BlockWorld.Packet

/-!
# The dispatcher

Which handler deals with which packets.

* `Handler`, `Handler.packetId`: the handlers and the packets they are for.
* `Outcome`: what a handler made of a packet.
* `Dispatcher.standard`: the dispatcher with all handlers. -/

namespace BlockWorld

open Std

inductive Handler where
  | login
  | movement
  | chunkRadius
  | skin
  | spawn
  | disconnect
deriving DecidableEq, Repr

def Handler.packetId : Handler → UInt32
  | .login => PacketId.login
  | .movement => PacketId.movePlayer
  | .chunkRadius => PacketId.requestChunkRadius
  | .skin => PacketId.playerSkin
  | .spawn => PacketId.setLocalPlayerAsInitialized
  | .disconnect => PacketId.disconnect

inductive Outcome where
  | handled
  | unhandled
  | rejected
deriving DecidableEq, Repr

structure Dispatcher where
  handlers : ExtTreeMap UInt32 Handler := ∅
deriving DecidableEq

namespace Dispatcher

instance : Inhabited Dispatcher := ⟨{}⟩

/-- The handler for a packet id. -/
def handler? (d : Dispatcher) (id : UInt32) : Option Handler := d.handlers[id]?

def isRegistered (d : Dispatcher) (id : UInt32) : Bool := d.handlers.contains id

/-- Registers a handler and returns the one it replaces. -/
def register (d : Dispatcher) (h : Handler) : Option Handler × Dispatcher :=
  (d.handler? h.packetId, ⟨d.handlers.insert h.packetId h⟩)

def ofList (hs : List Handler) : Dispatcher := hs.foldl (fun d h => (d.register h).2) {}

def standard : Dispatcher := ofList [.login, .movement, .chunkRadius, .skin, .spawn, .disconnect]

end Dispatcher

end BlockWorld
