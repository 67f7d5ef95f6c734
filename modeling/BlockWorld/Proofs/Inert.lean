import BlockWorld.Proofs.Roster

/-! # What is left of a finalized session

A packet may reach a handler together with a session that was finalized after it was looked up. By
then the connection may belong to somebody else, so nothing should come of the packet. Nothing does,
but for one case: a movement to an impossible position is corrected, and the correction goes out
under the handle of the session.

* `Session.lastWords`: what is sent on behalf of a finalized session.
* `startHandler_ended`: whatever the handler, nothing else happens.
* `ended_session_last_words`: the same for packets, after any run.
* `ended_session_speaks`: a run in which a finalized session is heard of again. -/

namespace BlockWorld

/-- The packet that puts a client back to where its player is. -/
def Session.correction (session : Session) : Packet :=
  .movePlayer
    { runtimeEntityId := session.runtimeId, position := session.position
      rotation := session.rotation, mode := .reset, onGround := session.onGround }

/-- Whether a packet moves the player to an impossible position. -/
def Packet.isImpossibleMove : Packet → Bool
  | .movePlayer movement => !movement.position.isFinite
  | _ => false

/-- What is sent on behalf of a finalized session: the correction of a movement to an impossible
position. -/
def Session.lastWords (session : Session) (packet : Packet) : Array Command :=
  if packet.isImpossibleMove then #[.send session.handle session.correction] else #[]

namespace Server

variable {s s' : Server} {id : SessionId} {session : Session}

/-- From `s` to `s'` the commands `words` were submitted and things were noted; all else is the same. -/
def Utters (s : Server) (words : Array Command) (s' : Server) : Prop :=
  ∃ notices, s' = { s with outbox := s.outbox ++ words, notices }

theorem utters_nothing (notices : Array Notice) : s.Utters #[] { s with notices } :=
  ⟨notices, by rw [Array.append_empty]⟩

theorem utters_note (n : Notice) : s.Utters #[] (s.note n) := utters_nothing _

theorem utters_self : s.Utters #[] s := utters_nothing s.notices

theorem login_ended (hs : s.session? id = some session) (login : Login) (handle : Handle) :
    s.Utters #[] (s.login login (some id) handle).2 := by
  unfold Server.login
  rw [Option.bind_some, hs]
  exact utters_nothing _

/-- A movement to an impossible position is corrected, and nothing else happens. -/
theorem startMovement_impossible (hs : s.session? id = some session) (handle : Handle)
    {movement : MovePlayer} (impossible : movement.position.isFinite = false) :
    ∃ s', s.startMovement id handle movement = .ok (.done .rejected, s') ∧
      s.Utters #[.send session.handle session.correction] s' := by
  have noted : (s.note (.invalidPosition session.name handle)).session? id = some session := hs
  unfold Server.startMovement
  rw [hs]
  dsimp only
  rw [impossible, if_neg Bool.false_ne_true, perform_eq _ noted]
  refine ⟨_, rfl, s.notices.push (.invalidPosition session.name handle), ?_⟩
  have stays : s.sessions.setIfInBounds id session = s.sessions :=
    congrArg Server.sessions (absorb_self hs)
  simp [absorb, note, Scene.correct, Scene.send, Session.correction, stays]

/-- A movement of a finalized session changes nothing, and to an impossible position it is corrected. -/
theorem startMovement_ended (hs : s.session? id = some session) (ended : session.finalized = true)
    (handle : Handle) (movement : MovePlayer) :
    ∃ outcome s', s.startMovement id handle movement = .ok (.done outcome, s') ∧
      s.Utters (session.lastWords (.movePlayer movement)) s' := by
  cases finite : movement.position.isFinite with
  | true =>
    have silent : session.lastWords (.movePlayer movement) = #[] := by
      simp [Session.lastWords, Packet.isImpossibleMove, finite]
    have refused : s.startMove id movement.position movement.rotation movement.onGround =
        .ok (.done false, s) :=
      start_ended (.move movement.position movement.rotation movement.onGround) Course.noConfusion
        hs ended
    unfold Server.startMovement
    rw [hs, silent]
    dsimp only
    rw [finite, if_pos rfl, refused]
    exact ⟨_, _, rfl, utters_self⟩
  | false =>
    have speaks : session.lastWords (.movePlayer movement) =
        #[.send session.handle session.correction] := by
      simp [Session.lastWords, Packet.isImpossibleMove, finite]
    obtain ⟨s', corrected, utters⟩ := startMovement_impossible hs handle finite
    rw [speaks]
    exact ⟨_, s', corrected, utters⟩

theorem startChunkRadius_ended (hs : s.session? id = some session) (ended : session.finalized = true)
    (handle : Handle) (requested : Int32) :
    s.startChunkRadius id handle requested = .ok (.done .unhandled, s) := by
  simp [startChunkRadius, hs, ended]

theorem changeSkin_ended (hs : s.session? id = some session) (ended : session.finalized = true)
    (handle : Handle) (change : PlayerSkin) : s.changeSkin id handle change = (.unhandled, s) := by
  simp [changeSkin, hs, ended]

theorem startInitialized_ended (hs : s.session? id = some session) (ended : session.finalized = true)
    (handle : Handle) (runtimeId : UInt64) :
    ∃ outcome s', s.startInitialized id handle runtimeId = .ok (.done outcome, s') ∧
      s.Utters #[] s' := by
  unfold startInitialized
  rw [hs]
  dsimp only
  split
  · have refuses : session.setSpawned = (false, session) := by simp [Session.setSpawned, ended]
    simp only [startSpawn, hs, refuses]
    exact ⟨_, _, rfl, utters_self⟩
  · exact ⟨_, _, rfl, utters_note _⟩

theorem Enrolled.leave_ended (h : s.Enrolled) (hs : s.session? id = some session)
    (ended : session.finalized = true) (handle : Handle) (message : String) :
    s.Utters #[] (s.leave id handle message).2 := by
  have noted : (s.note (.disconnected session.name handle message)).Enrolled :=
    h.keeps rfl ⟨rfl, rfl, rfl, rfl, fun _ => rfl⟩
  unfold leave
  rw [hs]
  dsimp only
  rw [noted.removePlayer_ended hs ended]
  exact utters_note _

/-- **Whatever the handler and the packet**, a finalized session is done with at once, and only the
movement handler has it speak. -/
theorem Enrolled.startHandler_ended (h : s.Enrolled) (hs : s.session? id = some session)
    (ended : session.finalized = true) (handler : Handler) (packet : Packet) (handle : Handle) :
    ∃ outcome s', s.startHandler handler packet (some id) handle = .ok (.done outcome, s') ∧
      s.Utters (if handler = .movement then session.lastWords packet else #[]) s' := by
  unfold startHandler
  split
  · exact ⟨_, _, rfl, login_ended hs _ handle⟩
  · rename_i movement id' same
    cases same
    rw [if_pos rfl]
    exact startMovement_ended hs ended handle movement
  · rename_i request id' same
    cases same
    exact ⟨_, _, startChunkRadius_ended hs ended handle _, utters_self⟩
  · rename_i change id' same
    cases same
    rw [changeSkin_ended hs ended]
    exact ⟨_, _, rfl, utters_self⟩
  · rename_i runtimeId id' same
    cases same
    exact startInitialized_ended hs ended handle runtimeId
  · rename_i goodbye id' same
    cases same
    exact ⟨_, _, rfl, h.leave_ended hs ended handle _⟩
  · rename_i handler packet _ _ _ _ notMovement _ _ _ _
    have silent : (if handler = .movement then session.lastWords packet else #[]) = #[] := by
      split
      · rename_i movement
        have harmless : packet.isImpossibleMove = false := by
          cases packet <;> first | rfl | exact (notMovement _ id movement rfl rfl).elim
        rw [Session.lastWords, harmless]
        rfl
      · rfl
    rw [silent]
    exact ⟨_, _, rfl, utters_self⟩

/-- Movements go to the movement handler. -/
theorem handler?_standard_movePlayer :
    Dispatcher.standard.handler? PacketId.movePlayer = some .movement := by decide +kernel

/-- With the standard handlers a finalized session has its last words, and nothing else happens. -/
theorem Enrolled.dispatch_ended (h : s.Enrolled) (standard : s.dispatcher = .standard)
    (hs : s.session? id = some session) (ended : session.finalized = true) (packet : Packet)
    (handle : Handle) : ∃ outcome s', s.dispatch packet (some id) handle = .ok (outcome, s') ∧
      s.Utters (session.lastWords packet) s' := by
  have routed : packet.isImpossibleMove = true →
      s.dispatcher.handler? packet.id = some .movement := by
    intro impossible
    rw [standard]
    cases packet with
    | movePlayer movement => exact handler?_standard_movePlayer
    | _ => cases impossible
  have harmless : s.dispatcher.handler? packet.id ≠ some .movement → session.lastWords packet = #[] := by
    intro hne
    rw [Session.lastWords, if_neg fun impossible => hne (routed impossible)]
  unfold dispatch startDispatch
  cases hh : s.dispatcher.handler? packet.id with
  | none =>
    rw [harmless (by simp [hh])]
    exact ⟨_, _, rfl, utters_note _⟩
  | some handler =>
    obtain ⟨outcome, s', hstart, utters⟩ := h.startHandler_ended hs ended handler packet handle
    refine ⟨outcome, s', ?_, ?_⟩
    · simp only [hstart, bind, Except.bind]
      rfl
    · by_cases movement : handler = .movement
      · rwa [if_pos movement] at utters
      · rw [if_neg movement] at utters
        rwa [harmless fun same => movement (Option.some.inj (hh.symm.trans same))]

theorem Utters.outbox_eq_iff {words : Array Command} (h : s.Utters words s') :
    s'.outbox = s.outbox ↔ words = #[] := by
  obtain ⟨notices, rfl⟩ := h
  exact Array.append_right_eq_self

end Server

/-- **What is left of a finalized session**, after any run of a fresh server with the standard handlers
that hears of every end. A packet that comes along with the session, on whatever handle, changes
nothing and sends nothing, unless it moves the player to an impossible position: then one correction
goes out under the handle of the session. -/
theorem ended_session_last_words (config : Config) (world : World) (actions : List Action)
    (told : ∀ a ∈ actions, a.isFinalize = false) :
    ∃ g, Game.run { server := Server.create config world .standard } actions = .ok g ∧
      ∀ id session, g.server.session? id = some session → session.finalized = true →
        ∀ packet handle, ∃ outcome s', g.server.dispatch packet (some id) handle = .ok (outcome, s') ∧
          g.server.Utters (session.lastWords packet) s' ∧
          (s'.outbox = g.server.outbox ↔ packet.isImpossibleMove = false) := by
  obtain ⟨g, hrun, -, enrolled, -, standard⟩ := run_enrolled config world .standard told
  refine ⟨g, hrun, fun id session hs ended packet handle => ?_⟩
  obtain ⟨outcome, s', hdispatch, utters⟩ :=
    enrolled.dispatch_ended standard hs ended packet handle
  refine ⟨outcome, s', hdispatch, utters, ?_⟩
  rw [utters.outbox_eq_iff, Session.lastWords]
  cases packet.isImpossibleMove <;> simp

/-- A player that was removed, and another that has its connection by then: of two movements that come
along with the first, one to nowhere speaks under the connection and one to a place does nothing. -/
theorem ended_session_last_words_removed :
    let actions : List Action :=
      [.packet ⟨1⟩ (.login { username := "ada" }), .remove 0, .packet ⟨1⟩ (.login { username := "bob" })]
    let move (x : Float32) : Packet := .movePlayer
      { runtimeEntityId := 1, position := ⟨x, 0, 0⟩, rotation := Rotation.zero, onGround := true }
    (∀ a ∈ actions, a.isFinalize = false) ∧
      ∃ g session, Game.run { server := Server.create {} {} .standard } actions = .ok g ∧
        g.server.session? 0 = some session ∧ session.finalized = true ∧ session.handle = ⟨1⟩ ∧
        g.server.bound? ⟨1⟩ = some 1 ∧
        (∃ outcome s', g.server.dispatch (move (0 / 0)) (some 0) ⟨1⟩ = .ok (outcome, s') ∧
          g.server.Utters #[.send ⟨1⟩ session.correction] s' ∧ s'.outbox ≠ g.server.outbox) ∧
        ∃ outcome s', g.server.dispatch (move 40) (some 0) ⟨1⟩ = .ok (outcome, s') ∧
          g.server.Utters #[] s' ∧ s'.outbox = g.server.outbox := by
  intro actions move
  have told : ∀ a ∈ actions, a.isFinalize = false := by decide
  have reached : (Game.run { server := Server.create {} {} .standard } actions).toOption.any
      (fun g => decide ((g.server.session? 0).map (fun session => (session.finalized, session.handle)) =
        some (true, ⟨1⟩) ∧ g.server.bound? ⟨1⟩ = some 1)) = true := by
    decide +kernel
  have impossible : (move (0 / 0)).isImpossibleMove = true := by decide +kernel
  have possible : (move 40).isImpossibleMove = false := by decide +kernel
  obtain ⟨g, hrun, ends⟩ := ended_session_last_words {} {} actions told
  obtain ⟨first, bound⟩ := Game.holds_of_run reached hrun
  obtain ⟨session, own, state⟩ := Option.map_eq_some_iff.mp first
  obtain ⟨ended, address⟩ := Prod.mk.inj state
  obtain ⟨outcome, s', dispatched, utters, silent⟩ := ends 0 session own ended (move (0 / 0)) ⟨1⟩
  obtain ⟨outcome', t', dispatched', utters', silent'⟩ := ends 0 session own ended (move 40) ⟨1⟩
  rw [Session.lastWords, if_pos impossible, address] at utters
  rw [Session.lastWords, possible] at utters'
  refine ⟨told, g, session, hrun, own, ended, address, bound, ⟨outcome, s', dispatched, utters, ?_⟩,
    outcome', t', dispatched', utters', silent'.mpr possible⟩
  intro same
  rw [silent.mp same] at impossible
  cases impossible

/-- The client of a removed player is sent a correction: the session that a packet came along with is
finalized, and still it speaks. -/
theorem ended_session_speaks :
    (do
      let g ← Game.run { server := Server.create {} {} .standard }
        [.packet ⟨1⟩ (.login { username := "ada" }), .remove 0]
      let (_, s) ← g.server.dispatch
        (.movePlayer
          { runtimeEntityId := 1, position := ⟨0 / 0, 0, 0⟩, rotation := Rotation.zero
            onGround := true })
        (some 0) ⟨1⟩
      return ((g.server.session? 0).map Session.finalized,
        s.outbox.toList.drop g.server.outbox.size)).toOption =
      some (some true,
        [.send ⟨1⟩ (.movePlayer
          { runtimeEntityId := 1, position := ⟨0.5, 5.62, 0.5⟩, rotation := Rotation.zero
            mode := .reset, onGround := true })]) := by
  decide +kernel

end BlockWorld
