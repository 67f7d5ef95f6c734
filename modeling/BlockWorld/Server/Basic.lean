import BlockWorld.Config.Basic
import BlockWorld.Dispatcher
import BlockWorld.Permission.Manager
import BlockWorld.Registry
import BlockWorld.Session.Scene
import BlockWorld.Transport

/-!
# The server

The whole state of a game: the configuration, the world, every session that was ever created, the
registry of those in the game, and all that was sent and noted so far.

* `Server`, `Server.create`: the state and how it begins.
* `Server.attempt`, `Server.perform`: lets one session act in its scene and takes over the result.
* `Server.column`: fetches a column of the world.
* `Server.createSession`: the session of a new player. -/

namespace BlockWorld

structure Server where
  config : Config
  dispatcher : Dispatcher
  groups : GroupManager
  world : World
  registry : Registry := {}
  /-- Every session, in the order of creation. -/
  sessions : Array Session := #[]
  nextEntityId : Int64 := 1
  currentTick : UInt64 := 0
  outbox : Array Command := #[]
  notices : Array Notice := #[]

namespace Server

/-- A server on which nobody has been yet. -/
def create (config : Config) (world : World) (dispatcher : Dispatcher) : Server :=
  let (groups, notices) := GroupManager.ofSettings config.permissions
  { config, dispatcher, groups, world, notices := notices.toArray }

def session? (s : Server) (id : SessionId) : Option Session := s.sessions[id]?

def send (s : Server) (handle : Handle) (packet : Packet) : Server :=
  { s with outbox := s.outbox.push (.send handle packet) }

def close (s : Server) (handle : Handle) (reason : String) : Server :=
  { s with outbox := s.outbox.push (.close handle reason) }

def note (s : Server) (n : Notice) : Server := { s with notices := s.notices.push n }

/-! ## Sessions -/

/-- A session as the registry knows it. -/
def member (id : SessionId) (session : Session) : Member := ⟨id, session.name, session.handle⟩

/-- The session that a connection is bound to. -/
def bound? (s : Server) (handle : Handle) : Option SessionId :=
  (s.registry.byHandle? handle).map Member.session

/-- Changes one session and nothing else. -/
def update (s : Server) (id : SessionId) (f : Session → Session) : Server :=
  { s with sessions := s.sessions.modify id f }

/-- Adds a session that is not registered. -/
def addSession (s : Server) (session : Session) : SessionId × Server :=
  (s.sessions.size, { s with sessions := s.sessions.push session })

/-- Adds the session of a new player: it has the next entity id, the default group and the configured
place and view distance. -/
def createSession (s : Server) (handle : Handle) (identity : Identity) : Member × Server :=
  let session := Session.create handle s.nextEntityId identity s.groups.defaultGroup.group
    s.config.world.spawn s.config.world.defaultViewDistance
  let (id, s) := s.addSession session
  (member id session, { s with nextEntityId := s.nextEntityId + 1 })

/-- Takes over what the session `id` made of its scene. -/
def absorb (s : Server) (id : SessionId) (sc : Scene) : Server :=
  { s with
    sessions := s.sessions.setIfInBounds id sc.session
    world := sc.world
    outbox := s.outbox ++ sc.sent.map (.send sc.session.handle)
    notices := s.notices ++ sc.notices }

variable {α : Type}

/-- Lets the session `id`, if there is one, act in its scene. -/
def attempt (s : Server) (id : SessionId) (action : Scene → Except Overflow (α × Scene)) :
    Except Overflow (Option α × Server) :=
  match s.session? id with
  | none => .ok (none, s)
  | some session => do
    let (a, sc) ← action { session, world := s.world }
    return (some a, s.absorb id sc)

/-- Lets the session `id`, if there is one, act in its scene, where nothing can overflow. -/
def perform (s : Server) (id : SessionId) (action : Scene → α × Scene) : Option α × Server :=
  match s.session? id with
  | none => (none, s)
  | some session =>
    let (a, sc) := action { session, world := s.world }
    (some a, s.absorb id sc)

/-! ## The world -/

/-- Fetches the column at `p`. -/
def column (s : Server) (p : ChunkPos) : Except Overflow (Fetch × Server) := do
  let (fetch, world) ← s.world.fetch p
  let s := { s with world }
  match fetch with
  | .created => return (fetch, s.note (.columnCreated p))
  | _ => return (fetch, s)

end Server

end BlockWorld
