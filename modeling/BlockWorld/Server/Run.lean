import BlockWorld.Server.Handlers

/-!
# Runs

A run handles a queue of events and then shuts the server down. In between, the clock ticks.

* `Server.serve`: the events, one after the other.
* `Server.run`: the events and the shutdown.
* `Input`, `Server.live`, `Server.runTicking`: the same with ticks between the events.
* `RunFailure`: why a run did not come to its end. -/

namespace BlockWorld

inductive RunFailure where
  /-- The ticks of a run need time between them. -/
  | noTickInterval
  | overflow (cause : Overflow)
deriving DecidableEq, Repr

def RunFailure.message : RunFailure → String
  | .noTickInterval => "`period` must be non-zero."
  | .overflow cause => cause.message

namespace Server

def serve (s : Server) (events : List Event) : Except Overflow Server :=
  events.foldlM handleEvent s

def run (s : Server) (events : List Event) : Except RunFailure Server :=
  if s.config.world.tickInterval = 0 then .error .noTickInterval
  else
    match s.serve events with
    | .ok s => .ok s.shutdown
    | .error cause => .error (.overflow cause)

end Server

/-- What a running server takes up next. -/
inductive Input where
  | event (e : Event)
  | tick
deriving DecidableEq

def Input.event? : Input → Option Event
  | .event e => some e
  | .tick => none

namespace Server

/-- Deals with an event completely and, if it is a packet, tells the outcome. -/
def hear (s : Server) : Event → Except Overflow (Option Outcome × Server)
  | .connected handle => .ok (none, s.note (.connectionOpened handle))
  | .packet handle packet => do
    let (outcome, s) ← s.handlePacket handle packet
    return (some outcome, s.closeRefused handle packet outcome)
  | .disconnected handle => .ok (none, (s.disconnect handle).2)

/-- Takes up one input after the other and keeps the outcomes of the events. -/
def live (s : Server) : List Input → Except Overflow (List (Option Outcome) × Server)
  | [] => .ok ([], s)
  | .tick :: inputs => s.tick.2.live inputs
  | .event e :: inputs => do
    let (outcome, s) ← s.hear e
    let (outcomes, s) ← s.live inputs
    return (outcome :: outcomes, s)

/-- A run with ticks between the events. -/
def runTicking (s : Server) (inputs : List Input) : Except RunFailure Server :=
  if s.config.world.tickInterval = 0 then .error .noTickInterval
  else
    match s.live inputs with
    | .ok (_, s) => .ok s.shutdown
    | .error cause => .error (.overflow cause)

end Server

end BlockWorld
