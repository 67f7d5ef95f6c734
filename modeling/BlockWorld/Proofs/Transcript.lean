import BlockWorld.Proofs.Operations
import BlockWorld.Proofs.Removal

/-! # What is said in a run

For each action, all that is said in it, put together from what is said in the operations that it
comes to.

* `Server.spawnWords`, `Server.radiusWords`, …: what is said in the operations of one session.
* `Server.packetWords`: what is said when a packet is dealt with; `mem_radiusWords`, `mem_relays`, …:
  by whom, and what.
* `Action.words`: what is said in an action; `Action.admits`: whether it is a login that succeeds;
  `Action.login?`: the login it carries.
* `Step`, `Game.history`, `Game.transcript`: a run step by step, and what is said in it. -/

namespace BlockWorld

/-- What is said in a removal. -/
def Removal.words (r : Removal) : List Utterance := r.before.farewell r.session

namespace Server

/-- What the session `id` says when it begins to enter the world. -/
def spawnWords (s : Server) (id : SessionId) : List Utterance :=
  match s.session? id with
  | none => []
  | some session => if session.setSpawned.1 then s.voice id Course.enter.phase else []

/-- What the session `id` says when its client moves. -/
def movementWords (s : Server) (id : SessionId) (movement : MovePlayer) : List Utterance :=
  if movement.position.isFinite then
    s.voice id (Course.move movement.position movement.rotation movement.onGround).phase
  else s.correction id

/-- What the session `id` says when its client asks for another view distance. -/
def radiusWords (s : Server) (id : SessionId) (requested : Int32) : List Utterance :=
  match s.session? id with
  | none => []
  | some session =>
    if session.finalized then []
    else
      let granted := s.grantedRadius requested
      ⟨some id, session.handle, .chunkRadiusUpdated granted.toInt32⟩ ::
        (s.update id (·.setViewDistance granted)).voice id Course.stay.phase

/-- What the session `id` says when its client is ready. -/
def initializedWords (s : Server) (id : SessionId) (runtimeId : UInt64) : List Utterance :=
  match s.session? id with
  | none => []
  | some session => if runtimeId = session.runtimeId then s.spawnWords id else []

/-- What is said when a packet is dealt with, by whichever handler. -/
def packetWords (s : Server) (packet : Packet) (who : Option SessionId) (handle : Handle) :
    List Utterance :=
  match s.dispatcher.handler? packet.id, packet, who with
  | some .login, .login login, existing => s.loginWords login existing handle
  | some .movement, .movePlayer movement, some id => s.movementWords id movement
  | some .chunkRadius, .requestChunkRadius request, some id => s.radiusWords id request.chunkRadius
  | some .skin, .playerSkin change, some id => s.relays id change
  | some .spawn, .setLocalPlayerAsInitialized runtimeId, some id => s.initializedWords id runtimeId
  | some .disconnect, .disconnect _, some id => s.farewell id
  | _, _, _ => []

section Members

variable {s : Server} {id : SessionId} {u : Utterance}

theorem mem_spawnWords (hu : u ∈ s.spawnWords id) : u ∈ s.voice id Course.enter.phase := by
  unfold spawnWords at hu
  split at hu
  · cases hu
  · split at hu
    · exact hu
    · cases hu

theorem mem_initializedWords {runtimeId : UInt64} (hu : u ∈ s.initializedWords id runtimeId) :
    u ∈ s.voice id Course.enter.phase := by
  unfold initializedWords at hu
  split at hu
  · cases hu
  · split at hu
    · exact mem_spawnWords hu
    · cases hu

theorem mem_radiusWords {requested : Int32} (hu : u ∈ s.radiusWords id requested) :
    ∃ session, s.session? id = some session ∧ session.finalized = false ∧
      (u = ⟨some id, session.handle, .chunkRadiusUpdated (s.grantedRadius requested).toInt32⟩ ∨
        u ∈ (s.update id (·.setViewDistance (s.grantedRadius requested))).voice id Course.stay.phase) := by
  unfold radiusWords at hu
  split at hu
  · cases hu
  · rename_i session own
    split at hu
    · cases hu
    · rename_i live
      exact ⟨session, own, Bool.eq_false_iff.mpr live, List.mem_cons.mp hu⟩

/-- A skin is relayed for a live session, under its own uuid. -/
theorem mem_relays {change : PlayerSkin} (hu : u ∈ s.relays id change) :
    ∃ session, s.session? id = some session ∧ session.finalized = false ∧ ∃ m ∈ s.spawnedOthers id,
      u = ⟨some m.session, m.handle, .playerSkin { change with uuid := session.identity.uuid }⟩ := by
  unfold relays at hu
  split at hu
  · cases hu
  · rename_i session own
    split at hu
    · cases hu
    · rename_i live
      obtain ⟨m, hm, rfl⟩ := List.mem_map.mp hu
      exact ⟨session, own, Bool.eq_false_iff.mpr live, m, hm, rfl⟩

theorem mem_farewell (hu : u ∈ s.farewell id) :
    ∃ session, s.session? id = some session ∧ session.finalized = false ∧ ∃ m ∈ s.audience id session,
      u = ⟨some m.session, m.handle, .removeEntity session.entityId⟩ := by
  unfold farewell at hu
  split at hu
  · cases hu
  · rename_i session own
    split at hu
    · cases hu
    · rename_i live
      obtain ⟨m, hm, rfl⟩ := List.mem_map.mp hu
      exact ⟨session, own, Bool.eq_false_iff.mpr live, m, hm, rfl⟩

end Members

/-- Whether the packet is a login that succeeds. -/
def admits (s : Server) (packet : Packet) (who : Option SessionId) (handle : Handle) : Bool :=
  packet.isLogin &&
    match s.startDispatch packet who handle with
    | .ok (.done outcome, _) => outcome = .handled
    | _ => false

/-- What the players of a list say in a tick, one after the other. -/
def tickWords (current interval : UInt64) : List Member → Server → List Utterance
  | [], _ => []
  | m :: ms, s =>
    s.ticking m.session current interval ++
      tickWords current interval ms (s.tickSession m.session current interval)

end Server

/-- What is said in an action. -/
def Action.words (g : Game) : Action → List Utterance
  | .event (.connected _) => []
  | .event (.packet handle p) => g.server.packetWords p (g.server.bound? handle) handle
  | .event (.disconnected handle) => (g.server.disconnectRemovals handle).flatMap Removal.words
  | .packet handle p => g.server.packetWords p (g.server.bound? handle) handle
  | .dispatch p who handle => g.server.packetWords p who handle
  | .move id position turn onGround => g.server.voice id (Course.move position turn onGround).phase
  | .teleport id position rotation => g.server.voice id (Course.teleport position rotation).phase
  | .refresh id => g.server.voice id Course.stay.phase
  | .spawn id => g.server.spawnWords id
  | .remove id => g.server.farewell id
  | .disconnect handle => (g.server.disconnectRemovals handle).flatMap Removal.words
  | .tick =>
    let current := g.server.currentTick + 1
    Server.tickWords current g.server.config.world.attributeSyncInterval g.server.registry.players
      { g.server with currentTick := current }
  | .shutdown => g.server.shutdownRemovals.flatMap Removal.words
  | .settle i =>
    match g.passes[i]? with
    | none => []
    | some pass => if pass.wanted.isEmpty then g.server.settling pass else []
  | .setViewDistance .. => []
  | .setAttribute .. => []
  | .finalize _ => []
  | .fetch _ => []
  | .addEntity .. => []
  | .removeEntity .. => []
  | .advance _ => []

theorem Action.words_settle {g : Game} {i : Nat} {pass : Pass} (own : g.passes[i]? = some pass)
    (idle : pass.wanted = []) : Action.words g (.settle i) = g.server.settling pass := by
  simp [Action.words, own, idle]

/-- Whether the action is a login that succeeds. -/
def Action.admits (g : Game) : Action → Bool
  | .event (.packet handle p) => g.server.admits p (g.server.bound? handle) handle
  | .packet handle p => g.server.admits p (g.server.bound? handle) handle
  | .dispatch p who handle => g.server.admits p who handle
  | _ => false

def Packet.login? : Packet → Option Login
  | .login l => some l
  | _ => none

/-- The login that an action carries, if it is one. -/
def Action.login? : Action → Option Login
  | .event (.packet _ p) => p.login?
  | .packet _ p => p.login?
  | .dispatch p _ _ => p.login?
  | _ => none

/-- One action of a run, with the game it finds and the game it leaves. -/
structure Step where
  before : Game
  action : Action
  after : Game

/-- What is said in it. -/
def Step.words (t : Step) : List Utterance := t.action.words t.before

/-- Whether it is a login that succeeds. -/
def Step.admits (t : Step) : Bool := t.action.admits t.before

namespace Game

/-- A run, step by step. -/
def history (g : Game) : List Action → List Step
  | [] => []
  | a :: actions =>
    match g.step a with
    | .ok g' => ⟨g, a, g'⟩ :: g'.history actions
    | .error _ => []

/-- All that is said in a run. -/
def transcript (g : Game) (actions : List Action) : List Utterance :=
  (g.history actions).flatMap Step.words

theorem history_cons {g g' : Game} {a : Action} (h : g.step a = .ok g') (actions : List Action) :
    g.history (a :: actions) = ⟨g, a, g'⟩ :: g'.history actions := by
  simp only [history, h]

theorem length_history_le : ∀ (actions : List Action) (g : Game),
    (g.history actions).length ≤ actions.length
  | [], _ => Nat.le_refl 0
  | a :: actions, g => by
    cases h : g.step a with
    | ok g' =>
      rw [history_cons h]
      exact Nat.succ_le_succ (length_history_le actions g')
    | error e =>
      simp only [history, h]
      exact Nat.zero_le _

theorem transcript_cons {g g' : Game} {a : Action} (h : g.step a = .ok g') (actions : List Action) :
    g.transcript (a :: actions) = a.words g ++ g'.transcript actions := by
  simp only [transcript, history_cons h, List.flatMap_cons, Step.words]

end Game

end BlockWorld
