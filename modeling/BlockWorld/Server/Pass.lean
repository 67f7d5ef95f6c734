import BlockWorld.Server.Basic

/-!
# Visibility passes under way

An operation that makes a player look around is not over when its first phase is: the wanted columns
have to be fetched one by one, and between the fetches the server does other things. Until then the
operation is a pass, a plain value that is advanced column by column and settled in the end.

* `Pass`: what is still wanted and what has been fetched.
* `Progress`: an operation that is over, or one that waits for a pass.
* `Server.startMove`, `Server.startTeleport`, `Server.startRefresh`, `Server.startSpawn`: begin an
  operation.
* `Server.advance`, `Server.settle`: the fetch of one column, the end of a pass.
* `Server.complete`: a pass from where it stands to its end, with nothing in between.
* `Server.move`, `Server.teleport`, `Server.refresh`, `Server.spawn`: whole operations. -/

namespace BlockWorld

structure Pass where
  session : SessionId
  /-- Whether the player enters the world at the end of the pass. -/
  spawning : Bool
  culled : Nat
  wanted : List ChunkPos
  fetched : Array ChunkPos := #[]
deriving DecidableEq, Repr

/-- What came of a pass. -/
structure Report where
  culled : Nat
  loaded : Nat
  /-- Whether the player entered the world. -/
  spawned : Bool
deriving DecidableEq, Repr

/-- An operation that is over, with its answer, or waits for a pass, whose report gives the answer. -/
inductive Progress (α : Type) where
  | done (answer : α)
  | pending (pass : Pass) (answer : Report → α)

def Progress.map {α β : Type} (f : α → β) : Progress α → Progress β
  | .done a => .done (f a)
  | .pending pass answer => .pending pass (f ∘ answer)

namespace Server

variable {α : Type}

/-- Begins an operation of the session `id` with the given first phase. Where that phase does not
take place the operation is over. -/
def start (s : Server) (id : SessionId) (spawning : Bool)
    (phase : Scene → Except Overflow (Option Glance × Scene)) (answer : Report → α) (refused : α) :
    Except Overflow (Progress α × Server) := do
  let (glance, s) ← s.attempt id phase
  match glance.join with
  | none => return (.done refused, s)
  | some g => return (.pending { session := id, spawning, culled := g.culled, wanted := g.wanted } answer, s)

/-- Begins a movement; its answer is whether the session still takes part. -/
def startMove (s : Server) (id : SessionId) (position : Vec3) (turn : Rotation) (onGround : Bool) :
    Except Overflow (Progress Bool × Server) :=
  s.start id false (·.move position turn onGround) (fun _ => true) false

def startTeleport (s : Server) (id : SessionId) (position : Vec3) (rotation : Rotation) :
    Except Overflow (Progress Bool × Server) :=
  s.start id false (·.teleport position rotation) (fun _ => true) false

/-- Begins to look around anew; the answer counts the columns dropped and those loaded. -/
def startRefresh (s : Server) (id : SessionId) : Except Overflow (Progress (Nat × Nat) × Server) :=
  s.start id false (·.refresh) (fun r => (r.culled, r.loaded)) (0, 0)

/-- Begins to bring a player into the world; the answer is whether it got there. -/
def startSpawn (s : Server) (id : SessionId) : Except Overflow (Progress Bool × Server) :=
  match s.session? id with
  | none => .ok (.done false, s)
  | some session =>
    let (fresh, session) := session.setSpawned
    if fresh then
      (s.update id fun _ => session).start id true (·.refresh) Report.spawned false
    else .ok (.done false, s)

/-! ## Fetches -/

/-- Fetches the next wanted column. -/
def advance (s : Server) (pass : Pass) : Except Overflow (Pass × Server) :=
  match pass.wanted with
  | [] => .ok (pass, s)
  | p :: wanted => do
    let (fetch, s) ← s.column p
    let fetched := if fetch.provided then pass.fetched.push p else pass.fetched
    return ({ pass with wanted, fetched }, s)

/-- Subscribes to what was fetched and, for a player that enters the world, ends the spawn. -/
def settle (s : Server) (pass : Pass) : Except Overflow (Report × Server) := do
  let (loaded, s) ← s.attempt pass.session (·.subscribe pass.fetched.toList)
  let loaded := loaded.getD 0
  if pass.spawning then
    let (spawned, s) := s.perform pass.session (·.completeSpawn loaded)
    return (⟨pass.culled, loaded, spawned.getD false⟩, s)
  else return (⟨pass.culled, loaded, false⟩, s)

/-- Advances a pass `n` times. -/
def advanceBy (s : Server) (pass : Pass) : Nat → Except Overflow (Pass × Server)
  | 0 => .ok (pass, s)
  | n + 1 => do
    let (pass, s) ← s.advance pass
    s.advanceBy pass n

/-- Fetches all that is wanted and settles the pass. -/
def complete (s : Server) (pass : Pass) : Except Overflow (Report × Server) := do
  let (pass, s) ← s.advanceBy pass pass.wanted.length
  s.settle pass

/-- The answer of an operation, its pass completed with nothing in between. -/
def finish (s : Server) : Progress α → Except Overflow (α × Server)
  | .done a => .ok (a, s)
  | .pending pass answer => do
    let (report, s) ← s.complete pass
    return (answer report, s)

/-! ## Whole operations -/

def move (s : Server) (id : SessionId) (position : Vec3) (turn : Rotation) (onGround : Bool) :
    Except Overflow (Bool × Server) := do
  let (progress, s) ← s.startMove id position turn onGround
  s.finish progress

def teleport (s : Server) (id : SessionId) (position : Vec3) (rotation : Rotation) :
    Except Overflow (Bool × Server) := do
  let (progress, s) ← s.startTeleport id position rotation
  s.finish progress

def refresh (s : Server) (id : SessionId) : Except Overflow ((Nat × Nat) × Server) := do
  let (progress, s) ← s.startRefresh id
  s.finish progress

def spawn (s : Server) (id : SessionId) : Except Overflow (Bool × Server) := do
  let (progress, s) ← s.startSpawn id
  s.finish progress

end Server

end BlockWorld
