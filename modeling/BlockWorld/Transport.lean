import BlockWorld.Handle
import BlockWorld.Packet

/-!
# The transport

What the server asks of the network and what it hears from it.

* `Command`: a packet to send or a connection to close.
* `Event`: a connection opened, a packet came in, a connection was lost.
* `Channel`: commands queue up until a receiver takes them; without a receiver they vanish.
* `Recording`: commands are kept for inspection. -/

namespace BlockWorld

inductive Command where
  | send (handle : Handle) (packet : Packet)
  | close (handle : Handle) (reason : String)
deriving DecidableEq

inductive Event where
  | connected (handle : Handle)
  | packet (handle : Handle) (packet : Packet)
  | disconnected (handle : Handle)
deriving DecidableEq

structure Channel where
  queue : List Command := []
  listening : Bool := true
deriving DecidableEq

namespace Channel

def submit (c : Channel) (command : Command) : Channel :=
  if c.listening then { c with queue := c.queue ++ [command] } else c

/-- Takes the oldest queued command. -/
def receive (c : Channel) : Option Command × Channel :=
  match c.queue with
  | [] => (none, c)
  | command :: rest => (some command, { c with queue := rest })

/-- Drops the receiver with all that is queued; says whether there was one. -/
def dropReceiver (c : Channel) : Bool × Channel := (c.listening, ⟨[], false⟩)

end Channel

structure Recording where
  sent : List (Handle × Packet) := []
  closed : List Handle := []
deriving DecidableEq

namespace Recording

def submit (r : Recording) : Command → Recording
  | .send handle packet => { r with sent := r.sent ++ [(handle, packet)] }
  | .close handle _ => { r with closed := r.closed ++ [handle] }

def sentTo (r : Recording) (handle : Handle) : List Packet :=
  (r.sent.filter (·.1 == handle)).map Prod.snd

def sentCount (r : Recording) : Nat := r.sent.length

/-- Takes what was sent; the closed connections stay. -/
def take (r : Recording) : List (Handle × Packet) × Recording := (r.sent, { r with sent := [] })

end Recording

end BlockWorld
