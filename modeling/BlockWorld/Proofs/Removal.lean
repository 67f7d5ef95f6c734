import BlockWorld.Proofs.Game

/-! # Removals

A player may be removed by a call, by the loss of its connection, by a packet of its client or by the
end of the game. What an action does is not written down in terms of removals, so they are listed
here: for each action, the removals that it comes to, also those in the middle of it.

* `Removal`: a removal, with the server it finds and the server it leaves.
* `Action.removals`, `Game.removals`: the removals that an action and a run come to.
* `Ending`, `Action.ends`: the ways in which an action may end sessions. -/

namespace BlockWorld

/-- A call that removes a player: the server it finds, and the session it is about. -/
structure Removal where
  before : Server
  session : SessionId

namespace Removal

/-- Whether the call ended the session. -/
def answer (r : Removal) : Bool := (r.before.removePlayer r.session).1

/-- The server it leaves. -/
def after (r : Removal) : Server := (r.before.removePlayer r.session).2

/-- Whether it is the call that ended the session `id`. -/
def ended (id : SessionId) (r : Removal) : Bool := r.session == id && r.answer

end Removal

namespace Server

/-- The removals that come of a packet: one, if the client says goodbye. -/
def packetRemovals (s : Server) (packet : Packet) (who : Option SessionId) (handle : Handle) :
    List Removal :=
  match s.dispatcher.handler? packet.id, packet, who with
  | some .disconnect, .disconnect goodbye, some id =>
    match s.session? id with
    | some session => [⟨s.note (.disconnected session.name handle goodbye.message), id⟩]
    | none => []
  | _, _, _ => []

/-- The removal of whoever a connection is bound to, if anybody. -/
def disconnectRemovals (s : Server) (handle : Handle) : List Removal :=
  ((s.bound? handle).map fun id => ⟨s, id⟩).toList

/-- The removals of the players of a list, one after the other. -/
def removeAllRemovals (s : Server) : List Member → List Removal
  | [] => []
  | m :: ms =>
    ⟨s, m.session⟩ ::
      removeAllRemovals ((s.removePlayer m.session).2.close m.handle "Server closed") ms

/-- The removals of everyone in the game. -/
def shutdownRemovals (s : Server) : List Removal :=
  let players := s.registry.players
  (s.note (.shuttingDown players.length)).removeAllRemovals players

end Server

/-- The removals that an action comes to, in order. -/
def Action.removals (g : Game) : Action → List Removal
  | .event (.packet handle p) => g.server.packetRemovals p (g.server.bound? handle) handle
  | .event (.disconnected handle) => g.server.disconnectRemovals handle
  | .packet handle p => g.server.packetRemovals p (g.server.bound? handle) handle
  | .dispatch p who handle => g.server.packetRemovals p who handle
  | .remove id => [⟨g.server, id⟩]
  | .disconnect handle => g.server.disconnectRemovals handle
  | .shutdown => g.server.shutdownRemovals
  | _ => []

/-- The removals that a run comes to, in order. -/
def Game.removals (g : Game) : List Action → List Removal
  | [] => []
  | a :: actions =>
    a.removals g ++
      match g.step a with
      | .ok g' => g'.removals actions
      | .error _ => []

/-- A packet comes to a removal only if it is a goodbye that gets to the handler for it. -/
theorem packetRemovals_cases (s : Server) (packet : Packet) (who : Option SessionId)
    (handle : Handle) :
    s.packetRemovals packet who handle = [] ∨ ∃ goodbye j session,
      s.dispatcher.handler? packet.id = some .disconnect ∧ packet = .disconnect goodbye ∧
        who = some j ∧ s.session? j = some session ∧ s.packetRemovals packet who handle =
          [⟨s.note (.disconnected session.name handle goodbye.message), j⟩] := by
  unfold Server.packetRemovals
  split
  · rename_i goodbye j hh
    cases hj : s.session? j with
    | none => exact Or.inl rfl
    | some session => exact Or.inr ⟨goodbye, j, session, hh, rfl, rfl, hj, rfl⟩
  · exact Or.inl rfl

/-! ### Ways to end -/

/-- A session ends by a removal, or by a call on the session itself, of which the server does not
hear. -/
inductive Ending where
  | heard
  | unheard

/-- The ways in which an action may end sessions. -/
def Action.ends (g : Game) (a : Action) : Ending → Prop
  | .heard => a.removals g ≠ []
  | .unheard => a.isFinalize = true

theorem Action.ends_told {g : Game} {a : Action} (told : a.isFinalize = false) {e : Ending}
    (h : a.ends g e) : e = .heard := by
  cases e with
  | heard => rfl
  | unheard =>
    have direct : a.isFinalize = true := h
    rw [told] at direct
    cases direct

end BlockWorld
