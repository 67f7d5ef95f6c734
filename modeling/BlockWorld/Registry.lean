import Std.Data.ExtTreeMap
import BlockWorld.Handle

/-!
# The registry

The players that are in the game, found by name and by connection. Each index leads to a member: a
session with its own name and handle. Two members are the same player if their sessions are the same,
whatever they are called.

* `Registry.registerWith`: registers a new player if the name and the handle are free and the limit
  is not reached.
* `Registry.removeByName`, `Registry.unbind`: take a player out.
* `Registry.peers`: everyone else.
* `Registry.removeWith`: takes a player out after a teardown that is given everyone else. -/

namespace BlockWorld

open Std

/-- A session, by the order in which sessions were created. -/
abbrev SessionId := Nat

structure Member where
  session : SessionId
  name : String
  handle : Handle
deriving DecidableEq, Repr

structure Registry where
  byName : ExtTreeMap String Member := ∅
  byHandle : ExtTreeMap Handle Member := ∅
deriving DecidableEq

/-- Why nobody was registered. -/
inductive Refusal where
  | nameTaken
  | handleInUse
  | full
deriving DecidableEq, Repr

inductive Registration where
  | registered (member : Member)
  | refused (reason : Refusal)
deriving DecidableEq, Repr

namespace Registry

instance : Inhabited Registry := ⟨{}⟩

def size (r : Registry) : Nat := r.byName.size

def isEmpty (r : Registry) : Bool := r.size == 0

def byName? (r : Registry) (name : String) : Option Member := r.byName[name]?

def byHandle? (r : Registry) (handle : Handle) : Option Member := r.byHandle[handle]?

/-- The members in the order of their names. -/
def players (r : Registry) : List Member := r.byName.values

def names (r : Registry) : List String := r.byName.keys

/-- What stands against registering a player; the name is looked at first and the limit last. -/
def refusal? (r : Registry) (name : String) (handle : Handle) (limit : Nat) : Option Refusal :=
  if r.byName.contains name then some .nameTaken
  else if r.byHandle.contains handle then some .handleInUse
  else if limit ≤ r.size then some .full
  else none

/-- Leads the name and the handle to `m`. -/
def bind (r : Registry) (name : String) (handle : Handle) (m : Member) : Registry :=
  ⟨r.byName.insert name m, r.byHandle.insert handle m⟩

/-- Registers the player that `build` makes out of a state. If the registration is refused, `build`
does not run. -/
def registerWith {σ : Type} (r : Registry) (name : String) (handle : Handle) (limit : Nat)
    (build : σ → Member × σ) (state : σ) : Registration × Registry × σ :=
  match r.refusal? name handle limit with
  | some reason => (.refused reason, r, state)
  | none =>
    let (m, state) := build state
    (.registered m, r.bind name handle m, state)

/-- Registers a player under its own name and handle, with the greatest limit there is; says whether
it did. -/
def addPlayer (r : Registry) (m : Member) : Bool × Registry :=
  match r.registerWith m.name m.handle 18446744073709551615 (fun u => (m, u)) () with
  | (.registered _, r, _) => (true, r)
  | (.refused _, r, _) => (false, r)

/-- Takes out the player bound to `name`. -/
def removeByName (r : Registry) (name : String) : Option Member × Registry :=
  match r.byName? name with
  | none => (none, r)
  | some m => (some m, ⟨r.byName.erase name, r.byHandle.erase m.handle⟩)

/-- The members other than `m`. -/
def peers (r : Registry) (m : Member) : List Member :=
  r.players.filter (·.session != m.session)

/-- Whether `m` is the very player that is bound to its name. -/
def isBound (r : Registry) (m : Member) : Bool :=
  (r.byName? m.name).any (·.session == m.session)

/-- Takes `m` out. If its name is bound to someone else, or to nobody, nothing changes. -/
def unbind (r : Registry) (m : Member) : Registry :=
  if r.isBound m then ⟨r.byName.erase m.name, r.byHandle.erase m.handle⟩ else r

/-- Gives everyone else to `teardown`, which changes a state, then takes `m` out. -/
def removeWith {σ ρ : Type} (r : Registry) (m : Member) (teardown : List Member → σ → ρ × σ)
    (state : σ) : ρ × Registry × σ :=
  let (result, state) := teardown (r.peers m) state
  (result, r.unbind m, state)

end Registry

end BlockWorld
