import BlockWorld.Server.Pass
import BlockWorld.Server.Player

/-!
# Packets and events

What the server does with what it hears. A packet goes to the handler of its id, together with the
session bound to the connection at that time.

* `Server.login`, `Server.startMovement`, `Server.startChunkRadius`, `Server.changeSkin`,
  `Server.startInitialized`, `Server.leave`: the handlers.
* `Server.startHandler`, `Server.startDispatch`, `Server.startPacket`, `Server.startEvent`: from a
  handler, a packet for a session, a packet of a connection, an event.
* `Server.handlePacket`, `Server.handleEvent`: the same with nothing in between the fetches. -/

namespace BlockWorld.Server

/-! ## Login -/

/-- Notes a step of the handshake. -/
def handshake (s : Server) (handle : Handle) (source target : HandshakeState) : Server :=
  s.note (.handshake handle source target)

/-- Makes the session of a new player, between the two steps of the handshake that it belongs to. -/
def newPlayer (handle : Handle) (login : Login) (s : Server) : Member × Server :=
  let s := s.handshake handle .awaitingLogin .nameChecked
  let (m, s) := s.createSession handle (Identity.ofLogin login)
  (m, s.handshake handle .nameChecked .sessionCreated)

/-- Tells the connection why nobody was registered. -/
def refuse (s : Server) (handle : Handle) (username : String) (reason : Refusal) : Server :=
  let s :=
    match reason with
    | .nameTaken => s.note (.loginNameTaken username)
    | .handleInUse => s.note (.loginHandleInUse username handle)
    | .full => (s.note (.loginServerFull username)).send handle (.playStatus .failedServerFull)
  s.handshake handle .awaitingLogin .rejected

/-- Tells a new player that it is welcome. -/
def welcome (s : Server) (m : Member) : Server :=
  let s := s.send m.handle (.playStatus .loginSuccess)
  let s := s.send m.handle (.resourcePacksInfo {})
  let s := s.handshake m.handle .sessionCreated .capabilitySent
  match s.session? m.session with
  | some session =>
    s.note (.loggedIn session.name m.handle session.entityId session.identity.uuid)
  | none => s

/-- A login on a connection that is bound to `existing`, if to any session. -/
def login (s : Server) (login : Login) (existing : Option SessionId) (handle : Handle) :
    Outcome × Server :=
  match existing.bind s.session? with
  | some session =>
    (.rejected,
      (s.note (.loginWhileBound login.username handle session.name)).handshake handle
        .awaitingLogin .rejected)
  | none =>
    if login.username.isEmpty then
      (.rejected, (s.note (.loginWithoutName handle)).handshake handle .awaitingLogin .rejected)
    else
      let (registration, registry, s) := s.registry.registerWith login.username handle
        s.config.capacity.toNat (newPlayer handle login) s
      let s := { s with registry }
      match registration with
      | .registered m => (.handled, s.welcome m)
      | .refused reason => (.rejected, s.refuse handle login.username reason)

/-! ## The game -/

/-- A movement of the client. One to an impossible position is corrected. -/
def startMovement (s : Server) (id : SessionId) (handle : Handle) (movement : MovePlayer) :
    Except Overflow (Progress Outcome × Server) :=
  match s.session? id with
  | none => .ok (.done .unhandled, s)
  | some session =>
    if movement.position.isFinite then do
      let (progress, s) ← s.startMove id movement.position movement.rotation movement.onGround
      return (progress.map fun moved => if moved then .handled else .unhandled, s)
    else
      let s := s.note (.invalidPosition session.name handle)
      .ok (.done .rejected, (s.perform id fun sc => ((), sc.correct)).2)

/-- The radius that a client gets when it asks for `requested`. -/
def grantedRadius (s : Server) (requested : Int32) : UInt32 :=
  min (max requested 0).toUInt32 s.config.world.maxViewDistance

/-- A request for another view distance. -/
def startChunkRadius (s : Server) (id : SessionId) (handle : Handle) (requested : Int32) :
    Except Overflow (Progress Outcome × Server) :=
  match s.session? id with
  | none => .ok (.done .unhandled, s)
  | some session =>
    if session.finalized then .ok (.done .unhandled, s)
    else do
      let granted := s.grantedRadius requested
      let s := s.note (.radiusRequested session.name handle requested granted)
      let s := s.update id (·.setViewDistance granted)
      let s := s.send session.handle (.chunkRadiusUpdated granted.toInt32)
      let (progress, s) ← s.startRefresh id
      return (progress.map fun _ => .handled, s)

/-- The players in the game other than the session `id` that are spawned. -/
def spawnedOthers (s : Server) (id : SessionId) : List Member :=
  s.registry.players.filter fun m =>
    m.session != id && (s.session? m.session).any Session.spawned

/-- A change of skin, told to the others under the uuid of the login. -/
def changeSkin (s : Server) (id : SessionId) (handle : Handle) (change : PlayerSkin) :
    Outcome × Server :=
  match s.session? id with
  | none => (.unhandled, s)
  | some session =>
    if session.finalized then (.unhandled, s)
    else
      let s := s.update id (·.setSkin change.skin)
      let s := s.note (.skinChanged session.name handle change.skin.skinId)
      let relay := Packet.playerSkin { change with uuid := session.identity.uuid }
      (.handled, (s.spawnedOthers id).foldl (fun s m => s.send m.handle relay) s)

/-- The client is ready and says which entity it believes to be. -/
def startInitialized (s : Server) (id : SessionId) (handle : Handle) (runtimeId : UInt64) :
    Except Overflow (Progress Outcome × Server) :=
  match s.session? id with
  | none => .ok (.done .unhandled, s)
  | some session =>
    if runtimeId = session.runtimeId then do
      let (progress, s) ← s.startSpawn id
      return (progress.map fun spawned => if spawned then .handled else .unhandled, s)
    else
      .ok (.done .rejected,
        s.note (.wrongRuntimeId session.name handle runtimeId session.runtimeId))

/-- The client says goodbye. -/
def leave (s : Server) (id : SessionId) (handle : Handle) (message : String) : Outcome × Server :=
  match s.session? id with
  | none => (.unhandled, s)
  | some session =>
    (.handled, ((s.note (.disconnected session.name handle message)).removePlayer id).2)

/-! ## Dispatch -/

/-- Has a handler deal with a packet. A packet of another kind, or one that needs a session where
there is none, is not handled. -/
def startHandler (s : Server) (h : Handler) (packet : Packet) (id : Option SessionId)
    (handle : Handle) : Except Overflow (Progress Outcome × Server) :=
  match h, packet, id with
  | .login, .login login, existing =>
    let (outcome, s) := s.login login existing handle
    .ok (.done outcome, s)
  | .movement, .movePlayer movement, some id => s.startMovement id handle movement
  | .chunkRadius, .requestChunkRadius request, some id =>
    s.startChunkRadius id handle request.chunkRadius
  | .skin, .playerSkin change, some id =>
    let (outcome, s) := s.changeSkin id handle change
    .ok (.done outcome, s)
  | .spawn, .setLocalPlayerAsInitialized runtimeId, some id => s.startInitialized id handle runtimeId
  | .disconnect, .disconnect packet, some id =>
    let (outcome, s) := s.leave id handle packet.message
    .ok (.done outcome, s)
  | _, _, _ => .ok (.done .unhandled, s)

/-- Has the handler registered for a packet deal with it. -/
def startDispatch (s : Server) (packet : Packet) (id : Option SessionId) (handle : Handle) :
    Except Overflow (Progress Outcome × Server) :=
  match s.dispatcher.handler? packet.id with
  | some h => s.startHandler h packet id handle
  | none => .ok (.done .unhandled, s.note (.unhandledPacket packet.id handle))

/-- A packet of a connection goes along with the session that the connection is bound to. -/
def startPacket (s : Server) (handle : Handle) (packet : Packet) :
    Except Overflow (Progress Outcome × Server) :=
  s.startDispatch packet (s.bound? handle) handle

/-- After a login was refused, a connection that is bound to no session is closed. -/
def closeRefused (s : Server) (handle : Handle) (packet : Packet) (outcome : Outcome) : Server :=
  if packet.isLogin && outcome = .rejected && (s.bound? handle).isNone then
    s.close handle "Login rejected"
  else s

def startEvent (s : Server) : Event → Except Overflow (Progress Unit × Server)
  | .connected handle => .ok (.done (), s.note (.connectionOpened handle))
  | .packet handle packet => do
    let (progress, s) ← s.startPacket handle packet
    match progress with
    | .done outcome => return (.done (), s.closeRefused handle packet outcome)
    | .pending pass _ => return (.pending pass fun _ => (), s)
  | .disconnected handle => .ok (.done (), (s.disconnect handle).2)

/-! ## Whole operations -/

def dispatch (s : Server) (packet : Packet) (id : Option SessionId) (handle : Handle) :
    Except Overflow (Outcome × Server) := do
  let (progress, s) ← s.startDispatch packet id handle
  s.finish progress

def handlePacket (s : Server) (handle : Handle) (packet : Packet) :
    Except Overflow (Outcome × Server) := do
  let (progress, s) ← s.startPacket handle packet
  s.finish progress

def handleEvent (s : Server) (event : Event) : Except Overflow Server := do
  let (progress, s) ← s.startEvent event
  let ((), s) ← s.finish progress
  return s

end BlockWorld.Server
