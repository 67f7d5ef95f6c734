import BlockWorld.Proofs.Course
import BlockWorld.Server.Handlers

/-! # Who says what

The outbox keeps what was sent to which connection, but not which session sent it, and a connection
may be used by several sessions, one after the other. So what is said is listed here once more, by
operation, with the session that says it.

* `Utterance`: a packet to a client, with the session that sends it.
* `Server.sent`: the packets of the outbox.
* `Server.voice`: what a session says when it acts in its scene; `sent_absorb`, `sent_attempt`,
  `sent_perform`: it is what the outbox gains.
* `Server.relays`, `Server.settling`, …: what is said in the operations of a server.
* `saidBy`: what one session said. -/

namespace BlockWorld

structure Utterance where
  /-- The session in whose name the packet goes out; none, where a login is turned away. -/
  speaker : Option SessionId
  handle : Handle
  packet : Packet
deriving DecidableEq

/-- What the client gets of it. -/
def Utterance.message (u : Utterance) : Handle × Packet := (u.handle, u.packet)

/-- What the session `id` said, in order. -/
def saidBy (id : SessionId) (us : List Utterance) : List Packet :=
  (us.filter (·.speaker == some id)).map Utterance.packet

theorem saidBy_append (id : SessionId) (us vs : List Utterance) :
    saidBy id (us ++ vs) = saidBy id us ++ saidBy id vs := by simp [saidBy]

theorem mem_saidBy {id : SessionId} {us : List Utterance} {p : Packet} :
    p ∈ saidBy id us ↔ ∃ u ∈ us, u.speaker = some id ∧ u.packet = p := by
  simp [saidBy, and_assoc]

/-- What a client is told when its player is in the world. -/
def Session.entry (s : Session) : List Packet :=
  [.updateAttributes ⟨s.runtimeId, s.attributes.entries, 0⟩, .playStatus .playerSpawn]

def Command.sent? : Command → Option (Handle × Packet)
  | .send handle packet => some (handle, packet)
  | .close _ _ => none

/-- The connection that a command closes, and why. -/
def Command.closed? : Command → Option (Handle × String)
  | .send _ _ => none
  | .close handle reason => some (handle, reason)

namespace Server

variable {α : Type}

/-- The packets of the outbox. -/
def sent (s : Server) : List (Handle × Packet) := s.outbox.toList.filterMap Command.sent?

/-- The connections that were closed, each with the reason. -/
def closes (s : Server) : List (Handle × String) := s.outbox.toList.filterMap Command.closed?

/-- What the session `id` says when it acts in its scene. -/
def voice (s : Server) (id : SessionId) (action : Scene → Except Overflow (α × Scene)) :
    List Utterance :=
  match s.session? id with
  | none => []
  | some session =>
    match action { session, world := s.world } with
    | .ok (_, sc) => sc.sent.toList.map (⟨some id, sc.session.handle, ·⟩)
    | .error _ => []

/-! ### What the outbox gains -/

variable {s : Server} {id : SessionId} {session : Session}

theorem sent_absorb (s : Server) (id : SessionId) (sc : Scene) :
    (s.absorb id sc).sent = s.sent ++ sc.sent.toList.map (sc.session.handle, ·) := by
  simp only [sent, absorb, Array.toList_append, List.filterMap_append, Array.toList_map,
    List.filterMap_map]
  congr 1
  show List.filterMap (some ∘ fun p => (sc.session.handle, p)) _ = _
  rw [List.filterMap_eq_map]

@[simp] theorem sent_note (n : Notice) : (s.note n).sent = s.sent := rfl

@[simp] theorem sent_close (handle : Handle) (reason : String) :
    (s.close handle reason).sent = s.sent := by simp [sent, close, Command.sent?]

@[simp] theorem sent_send (handle : Handle) (p : Packet) :
    (s.send handle p).sent = s.sent ++ [(handle, p)] := by simp [sent, send, Command.sent?]

@[simp] theorem sent_update (f : Session → Session) : (s.update id f).sent = s.sent := rfl

theorem sent_foldl_send {β : Type} (handle : β → Handle) (packet : β → Packet) :
    ∀ (bs : List β) (s : Server), (bs.foldl (fun s b => s.send (handle b) (packet b)) s).sent =
      s.sent ++ bs.map fun b => (handle b, packet b)
  | [], s => by simp
  | b :: bs, s => by
    rw [List.foldl_cons, sent_foldl_send handle packet bs, sent_send, List.map_cons,
      List.append_assoc]
    rfl

theorem voice_eq {action : Scene → Except Overflow (α × Scene)} {a : α} {sc : Scene}
    (h : s.session? id = some session) (ha : action { session, world := s.world } = .ok (a, sc)) :
    s.voice id action = sc.sent.toList.map (⟨some id, sc.session.handle, ·⟩) := by
  simp only [voice, h, ha]

theorem voice_none {action : Scene → Except Overflow (α × Scene)} (h : s.session? id = none) :
    s.voice id action = [] := by simp only [voice, h]

theorem exists_of_mem_voice {action : Scene → Except Overflow (α × Scene)} {u : Utterance}
    (hu : u ∈ s.voice id action) : ∃ session a sc, s.session? id = some session ∧
      action { session, world := s.world } = .ok (a, sc) ∧
      ∃ p ∈ sc.sent, u = ⟨some id, sc.session.handle, p⟩ := by
  unfold voice at hu
  split at hu
  · cases hu
  · rename_i session own
    split at hu
    · rename_i a sc acted
      obtain ⟨p, hp, rfl⟩ := List.mem_map.mp hu
      exact ⟨session, a, sc, own, acted, p, by simpa using hp, rfl⟩
    · cases hu

/-- What is said by acting in a scene is what the outbox gains. -/
theorem message_voice {action : Scene → Except Overflow (α × Scene)} {a : α} {sc : Scene}
    (h : s.session? id = some session) (ha : action { session, world := s.world } = .ok (a, sc)) :
    (s.absorb id sc).sent = s.sent ++ (s.voice id action).map Utterance.message := by
  rw [sent_absorb, voice_eq h ha, List.map_map]
  rfl

theorem message_attempt {action : Scene → Except Overflow (α × Scene)} {a : Option α} {s' : Server}
    (h : s.attempt id action = .ok (a, s')) :
    s'.sent = s.sent ++ (s.voice id action).map Utterance.message := by
  unfold attempt at h
  cases own : s.session? id with
  | none =>
    simp only [own] at h
    cases h
    simp [voice_none own]
  | some session =>
    simp only [own] at h
    cases acted : action { session, world := s.world } with
    | error e => rw [acted] at h; cases h
    | ok r =>
      rw [acted] at h
      cases h
      exact message_voice own acted

theorem message_perform (action : Scene → α × Scene) :
    (s.perform id action).2.sent =
      s.sent ++ (s.voice id fun sc => .ok (action sc)).map Utterance.message := by
  unfold perform
  cases own : s.session? id with
  | none => simp [voice_none own]
  | some session =>
    have acted : (fun sc => Except.ok (action sc) : Scene → Except Overflow (α × Scene))
        { session, world := s.world } = .ok (action { session, world := s.world }) := rfl
    exact message_voice own acted

/-! ### What is said in an operation -/

/-- What a login is told that the registry refuses. -/
def refusal (handle : Handle) : Refusal → List Utterance
  | .full => [⟨none, handle, .playStatus .failedServerFull⟩]
  | .nameTaken => []
  | .handleInUse => []

/-- What a client is told whose player was put back to where it was. -/
def correction (s : Server) (id : SessionId) : List Utterance :=
  s.voice id fun sc => .ok ((), sc.correct)

/-- What the others are told when the session `id` changes its skin. -/
def relays (s : Server) (id : SessionId) (change : PlayerSkin) : List Utterance :=
  match s.session? id with
  | none => []
  | some session =>
    if session.finalized then []
    else (s.spawnedOthers id).map fun m =>
      ⟨some m.session, m.handle, .playerSkin { change with uuid := session.identity.uuid }⟩

/-- What the session `id` says in a tick. -/
def ticking (s : Server) (id : SessionId) (current interval : UInt64) : List Utterance :=
  s.voice id fun sc => .ok ((), sc.tick current interval)

/-- What is said at the end of a pass: the columns, and what a player is told that entered the
world. -/
def settling (s : Server) (pass : Pass) : List Utterance :=
  match s.attempt pass.session (·.subscribe pass.fetched.toList) with
  | .error _ => []
  | .ok (loaded, s') =>
    s.voice pass.session (·.subscribe pass.fetched.toList) ++
      if pass.spawning then
        s'.voice pass.session fun sc => .ok (sc.completeSpawn (loaded.getD 0))
      else []

end Server

end BlockWorld
