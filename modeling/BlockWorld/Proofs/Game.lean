import Mathlib.Data.Finset.Basic
import BlockWorld.Server.Handlers

/-! # Games

A game is a server together with the visibility passes that are under way on it. An operation that
makes a player look around puts its pass among them, and from then on the pass is an actor of its own:
it may be advanced and settled at any time, with any other operations in between, also with further
operations of the same session.

* `Action`, `Game.step`: what can happen to a game, and what comes of it.
* `Game.run`: one action after the other; `Game.holds_of_run`: what evaluation finds of its end.
* `Game.lookers`: the sessions whose view distance was not set since they last looked around.
* `Action.actors`: the sessions that an action is about. -/

namespace BlockWorld

structure Game where
  server : Server
  passes : List Pass := []
  /-- The sessions that have looked around, and since then nobody has set their view distance. -/
  lookers : Finset SessionId := ∅

inductive Action where
  | event (e : Event)
  | packet (handle : Handle) (packet : Packet)
  /-- A packet that goes along with a session found earlier, whatever has become of it since. -/
  | dispatch (packet : Packet) (id : Option SessionId) (handle : Handle)
  | move (id : SessionId) (position : Vec3) (turn : Rotation) (onGround : Bool)
  | teleport (id : SessionId) (position : Vec3) (rotation : Rotation)
  | refresh (id : SessionId)
  | spawn (id : SessionId)
  | setViewDistance (id : SessionId) (viewDistance : UInt32)
  | setAttribute (id : SessionId) (name : String) (value : Float32)
  /-- The end of a session that the server does not hear of. -/
  | finalize (id : SessionId)
  | remove (id : SessionId)
  | disconnect (handle : Handle)
  | tick
  | shutdown
  | fetch (p : ChunkPos)
  | addEntity (p : ChunkPos) (e : Entity)
  | removeEntity (p : ChunkPos) (uniqueId : Int64)
  /-- Fetches the next column for the pass at place `i`. -/
  | advance (i : Nat)
  /-- Ends the pass at place `i`, once nothing is wanted any more. -/
  | settle (i : Nat)

/-- Whether the action ends a session without telling the server. -/
def Action.isFinalize : Action → Bool
  | .finalize _ => true
  | _ => false

namespace Game

variable {α : Type}

/-- The game after an operation of its server: a pass that the operation waits for joins those under
way. -/
def join (g : Game) (progress : Progress α) (s : Server) : Game :=
  match progress with
  | .done _ => { g with server := s }
  | .pending pass _ =>
    { server := s, passes := g.passes ++ [pass], lookers := insert pass.session g.lookers }

/-- The game after an operation of its server, if nothing overflowed. -/
def enact (g : Game) (operation : Except Overflow (Progress α × Server)) : Except Overflow Game := do
  let (progress, s) ← operation
  return g.join progress s

/-- One action. A fetch from outside that overflows fails for whoever asked and changes nothing. -/
def step (g : Game) : Action → Except Overflow Game
  | .event e => g.enact (g.server.startEvent e)
  | .packet handle packet => g.enact (g.server.startPacket handle packet)
  | .dispatch packet id handle => g.enact (g.server.startDispatch packet id handle)
  | .move id position turn onGround => g.enact (g.server.startMove id position turn onGround)
  | .teleport id position rotation => g.enact (g.server.startTeleport id position rotation)
  | .refresh id => g.enact (g.server.startRefresh id)
  | .spawn id => g.enact (g.server.startSpawn id)
  | .setViewDistance id v =>
    .ok { g with
      server := g.server.update id (·.setViewDistance v)
      lookers := g.lookers.erase id }
  | .setAttribute id name value =>
    .ok { g with server := g.server.update id fun session => (session.setAttribute name value).2 }
  | .finalize id => .ok { g with server := (g.server.perform id (·.finalize)).2 }
  | .remove id => .ok { g with server := (g.server.removePlayer id).2 }
  | .disconnect handle => .ok { g with server := (g.server.disconnect handle).2 }
  | .tick => .ok { g with server := g.server.tick.2 }
  | .shutdown => .ok { g with server := g.server.shutdown }
  | .fetch p =>
    match g.server.column p with
    | .ok (_, s) => .ok { g with server := s }
    | .error _ => .ok g
  | .addEntity p e => .ok { g with server.world := g.server.world.addEntity p e }
  | .removeEntity p uniqueId => .ok { g with server.world := g.server.world.removeEntity p uniqueId }
  | .advance i =>
    match g.passes[i]? with
    | none => .ok g
    | some pass => do
      let (pass, s) ← g.server.advance pass
      return { g with server := s, passes := g.passes.set i pass }
  | .settle i =>
    match g.passes[i]? with
    | none => .ok g
    | some pass =>
      if pass.wanted.isEmpty then do
        let (_, s) ← g.server.settle pass
        return { g with server := s, passes := g.passes.eraseIdx i }
      else .ok g

/-- One action after the other. -/
def run (g : Game) (actions : List Action) : Except Overflow Game := actions.foldlM step g

theorem run_cons {g g' : Game} {a : Action} (h : g.step a = .ok g') (actions : List Action) :
    g.run (a :: actions) = g'.run actions := by
  simp only [run, List.foldlM_cons, h, bind, Except.bind]

/-- What is found by evaluating a run holds of the game that the run ends in. -/
theorem holds_of_run {g g' : Game} {actions : List Action} {P : Game → Prop} [DecidablePred P]
    (evaluated : (g.run actions).toOption.any (fun g' => decide (P g')) = true)
    (h : g.run actions = .ok g') : P g' := by
  rw [h] at evaluated
  exact of_decide_eq_true evaluated

end Game

/-- The sessions that an action is about. Ticks, events of unbound connections and what happens to
the world alone are about none. -/
def Action.actors (g : Game) : Action → List SessionId
  | .event (.connected _) => []
  | .event (.packet handle _) => (g.server.bound? handle).toList
  | .event (.disconnected handle) => (g.server.bound? handle).toList
  | .packet handle _ => (g.server.bound? handle).toList
  | .dispatch _ id _ => id.toList
  | .move id .. => [id]
  | .teleport id .. => [id]
  | .refresh id => [id]
  | .spawn id => [id]
  | .setViewDistance id _ => [id]
  | .setAttribute id .. => [id]
  | .finalize id => [id]
  | .remove id => [id]
  | .disconnect handle => (g.server.bound? handle).toList
  | .shutdown => g.server.registry.players.map Member.session
  | .advance i => (g.passes[i]?.map Pass.session).toList
  | .settle i => (g.passes[i]?.map Pass.session).toList
  | .tick => []
  | .fetch _ => []
  | .addEntity .. => []
  | .removeEntity .. => []

end BlockWorld
