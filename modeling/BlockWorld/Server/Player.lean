import BlockWorld.Server.Basic

/-!
# Players come and go

* `Server.removePlayer`: ends a session, tells those who see the player, and frees name and handle.
* `Server.disconnect`: the same for whoever is bound to a connection.
* `Server.setGroup`: puts a player into a group by its name.
* `Server.tick`, `Server.ticks`: a tick for every player in the game.
* `Server.removeAll`, `Server.shutdown`: the end of the game. -/

namespace BlockWorld.Server

/-- Whether `m` is spawned and sees the column at `p`. -/
def watches (s : Server) (p : ChunkPos) (m : Member) : Bool :=
  (s.session? m.session).any fun session => session.spawned && session.sees p

/-- Takes the entity `id` from the sight of each of `ms`. -/
def despawnFor (s : Server) (id : Int64) (ms : List Member) : Server :=
  ms.foldl (fun s m => s.send m.handle (.removeEntity id)) s

/-- Ends the session `id`; `false` if it had ended before. Whoever is in the game and sees the column
that a spawned player was last in is told that its entity is gone. -/
def removePlayer (s : Server) (id : SessionId) : Bool × Server :=
  match s.session? id with
  | none => (false, s)
  | some session =>
    let self := member id session
    let peers := s.registry.peers self
    let (ended, s) := s.perform id (·.finalize)
    let unbound (s : Server) : Server := { s with registry := s.registry.unbind self }
    match ended.join with
    | none => (false, unbound s)
    | some last =>
      let audience := if last.wasSpawned then peers.filter (s.watches last.anchor) else []
      let s := unbound (s.despawnFor session.entityId audience)
      (true, s.note (.leftGame session.name s.registry.size audience.length))

/-- Removes the player bound to a connection, if there is one. -/
def disconnect (s : Server) (handle : Handle) : Bool × Server :=
  match s.bound? handle with
  | some id => s.removePlayer id
  | none => (false, s.note (.connectionClosed handle))

/-- Puts the session `id` into the group called `group`, if there is such a group. -/
def setGroup (s : Server) (id : SessionId) (group : String) : Bool × Server :=
  match s.session? id with
  | none => (false, s)
  | some session =>
    match s.groups.group? group with
    | some object => (true, s.update id (·.setGroup object.group))
    | none => (false, s.note (.unknownGroup group session.name))

/-- A tick in the life of the session `id`. -/
def tickSession (s : Server) (id : SessionId) (current interval : UInt64) : Server :=
  (s.perform id fun sc => ((), sc.tick current interval)).2

/-- The next tick, for everyone in the game; returns its number. -/
def tick (s : Server) : UInt64 × Server :=
  let current := s.currentTick + 1
  let interval := s.config.world.attributeSyncInterval
  (current,
    s.registry.players.foldl (fun s m => s.tickSession m.session current interval)
      { s with currentTick := current })

/-- Removes the players in the order of the list and closes their connections. -/
def removeAll (s : Server) (players : List Member) : Server :=
  players.foldl (fun s m => (s.removePlayer m.session).2.close m.handle "Server closed") s

/-- Removes everyone who is in the game. -/
def shutdown (s : Server) : Server :=
  let players := s.registry.players
  (s.note (.shuttingDown players.length)).removeAll players

end BlockWorld.Server
