import BlockWorld.Proofs.Independence
import BlockWorld.Proofs.Inert

/-! # A packet that is refused changes nothing

A packet may be refused for many reasons and at many points: no handler is there for it, nobody is bound
to the connection, the login is one too many, the client names the wrong entity, the player is in the
world already. In every case the server is left as it was, but for the notes, and all that is sent is an
answer to a login that the game has no room for, and to a movement to an impossible position.

* `Server.crowdedOut`: a login that only the number of players stands against.
* `Server.reply`: what is sent in answer to a packet that is refused.
* `Declines`: a packet was handled, or nothing came of it but the reply.
* `login_declines`, `movement_declines`, …: the handlers, one by one.
* `refused_changes_nothing`: the same for every packet, after any run. -/

namespace BlockWorld

namespace Server

variable {α β : Type} {s s' : Server} {id : SessionId} {session : Session} {handle : Handle}
  {packet : Packet} {outcome : Outcome} {words : Array Command}

/-! ### Replies -/

/-- Whether there would be a place for the login, if only there were fewer players. -/
def crowdedOut (s : Server) (login : Login) : Bool :=
  !login.username.isEmpty && (s.registry.byName? login.username).isNone &&
    decide (s.config.capacity.toNat ≤ s.registry.players.length)

/-- What is sent in answer to a packet that is refused: that the game is full, to a login on a
connection of its own; and where the player is, to a movement to an impossible position. -/
def reply (s : Server) (handle : Handle) (packet : Packet) : Array Command :=
  match packet, s.client? handle with
  | .login login, none =>
    if s.crowdedOut login then #[.send handle (.playStatus .failedServerFull)] else #[]
  | .movePlayer movement, some session =>
    if movement.position.isFinite then #[] else #[.send handle session.correction]
  | _, _ => #[]

/-- Either the packet was handled, or nothing happened but that `words` were submitted and things were
noted. -/
def Declines (s : Server) (words : Array Command) (outcome : Outcome) (s' : Server) : Prop :=
  outcome = .handled ∨ s.Utters words s'

/-- What the operation comes to, with nothing in between, has handled the packet or declined it. -/
def Decides (s : Server) (words : Array Command)
    (operation : Except Overflow (Progress Outcome × Server)) : Prop :=
  ∀ outcome s', (do let (progress, s) ← operation; s.finish progress) = .ok (outcome, s') →
    s.Declines words outcome s'

theorem decides_done (h : s.Declines words outcome s') : s.Decides words (.ok (.done outcome, s')) := by
  intro _ _ finished
  cases finished
  exact h

/-- The server has not changed, or only its notes have. -/
theorem decides_silent (h : s.Utters #[] s') : s.Decides #[] (.ok (.done outcome, s')) :=
  decides_done (.inr h)

/-- The answer to a pass is made of its report. -/
theorem finish_pending {pass : Pass} {answer : Report → α} {a : α}
    (h : s.finish (.pending pass answer) = .ok (a, s')) :
    ∃ report, s.complete pass = .ok (report, s') ∧ a = answer report := by
  obtain ⟨⟨report, s₁⟩, completed, hrest⟩ := bind_eq_ok h
  cases hrest
  exact ⟨report, completed, rfl⟩

/-- Where the answer of an operation is turned into another one, so is that of the whole. -/
theorem finish_map {operation : Except Overflow (Progress α × Server)} {f : α → β} {b : β}
    (h : (do
      let (progress, s) ← (do
        let (progress, s) ← operation
        return (progress.map f, s))
      s.finish progress) = .ok (b, s')) :
    ∃ a, (do let (progress, s) ← operation; s.finish progress) = .ok (a, s') ∧ b = f a := by
  obtain ⟨⟨_, s₀⟩, mapped, finished⟩ := bind_eq_ok h
  obtain ⟨⟨progress, s₁⟩, rfl, rest⟩ := bind_eq_ok mapped
  cases rest
  cases progress with
  | done a =>
    cases finished
    exact ⟨a, rfl, rfl⟩
  | pending pass answer =>
    obtain ⟨report, completed, rfl⟩ := finish_pending finished
    exact ⟨answer report, by simp [finish, completed, bind, Except.bind, pure, Except.pure], rfl⟩

/-! ### Logins -/

/-- **A login** is accepted, or nothing comes of it but the reply. -/
theorem login_declines (addressed : s.Addressed) (login : Login) (handle : Handle) :
    s.Declines (s.reply handle (.login login)) (s.login login (s.bound? handle) handle).1
      (s.login login (s.bound? handle) handle).2 := by
  have client : (s.bound? handle).bind s.session? = s.client? handle := rfl
  unfold Server.login reply
  rw [client]
  cases who : s.client? handle with
  | some session => exact .inr (utters_nothing _)
  | none =>
    have unbound : s.bound? handle = none := by
      refine Option.eq_none_iff_forall_ne_some.mpr fun id bound => ?_
      obtain ⟨session, own, -⟩ := addressed bound
      rw [client?_eq bound, own] at who
      cases who
    have free : s.registry.byHandle? handle = none := by simpa [bound?] using unbound
    have stands := Registry.refusal?_of_free free login.username s.config.capacity.toNat
    dsimp only
    cases named : login.username.isEmpty with
    | true =>
      have placeless : s.crowdedOut login = false := by simp [crowdedOut, named]
      rw [if_pos rfl, placeless]
      exact .inr (utters_nothing _)
    | false =>
      rw [if_neg Bool.false_ne_true, Registry.registerWith]
      cases taken : s.registry.byName? login.username with
      | some m =>
        have placeless : s.crowdedOut login = false := by simp [crowdedOut, taken]
        rw [taken, Option.isSome_some, if_pos rfl] at stands
        rw [stands, placeless]
        exact .inr (utters_nothing _)
      | none =>
        rw [taken, Option.isSome_none, if_neg Bool.false_ne_true] at stands
        by_cases full : s.config.capacity.toNat ≤ s.registry.players.length
        · have crowded : s.crowdedOut login = true := by simp [crowdedOut, named, taken, full]
          rw [if_pos full] at stands
          rw [stands, crowded]
          exact .inr ⟨_, rfl⟩
        · rw [if_neg full] at stands
          rw [stands]
          exact .inl rfl

/-! ### The handlers of a bound session -/

section Bound

variable {g : Game} (sound : g.Sound) (own : g.server.session? id = some session)
include sound own

/-- **A movement** is taken over, or nothing comes of it but a correction. -/
theorem movement_declines (address : session.handle = handle) (movement : MovePlayer) :
    g.server.Decides
      (if movement.position.isFinite then #[] else #[.send handle session.correction])
      (g.server.startMovement id handle movement) := by
  cases finite : movement.position.isFinite with
  | false =>
    obtain ⟨s', corrected, utters⟩ := startMovement_impossible own handle finite
    rw [corrected, if_neg Bool.false_ne_true, ← address]
    exact decides_done (.inr utters)
  | true =>
    rw [if_pos rfl]
    cases ended : session.finalized with
    | true =>
      obtain ⟨outcome, s', start, utters⟩ := startMovement_ended own ended handle movement
      have silent : session.lastWords (.movePlayer movement) = #[] := by
        simp [Session.lastWords, Packet.isImpossibleMove, finite]
      rw [silent] at utters
      rw [start]
      exact decides_silent utters
    | false =>
      obtain ⟨pass, s, start, -⟩ := @start_live (fun _ => True) g Bool id (fun _ => True) sound trivial
        session own ended (.move movement.position movement.rotation movement.onGround)
        (fun h => Course.noConfusion h) (fun _ => true) false
      have moves : g.server.startMove id movement.position movement.rotation movement.onGround =
          .ok (.pending pass fun _ => true, s) := start
      intro outcome s' finished
      simp only [startMovement, own, finite, if_true, moves] at finished
      obtain ⟨report, -, rfl⟩ := finish_pending finished
      exact .inl rfl

omit sound in
/-- **A request for a view distance** is granted, unless the session has ended. -/
theorem chunkRadius_declines (requested : Int32) :
    g.server.Decides #[] (g.server.startChunkRadius id handle requested) := by
  cases ended : session.finalized with
  | true =>
    rw [startChunkRadius_ended own ended]
    exact decides_silent utters_self
  | false =>
    intro outcome s' finished
    simp only [startChunkRadius, own, ended, Bool.false_eq_true, if_false] at finished
    obtain ⟨-, -, handled⟩ := finish_map finished
    exact .inl handled

/-- A spawn with nothing in between brings a live player that is not in the world into it. -/
theorem spawn_live (live : session.finalized = false) (fresh : session.spawned = false) {spawned : Bool}
    (h : g.server.spawn id = .ok (spawned, s')) : spawned = true := by
  have set : session.setSpawned = (true, Course.enter.apply session) := by
    simp [Session.setSpawned, live, fresh, Course.apply]
  obtain ⟨pass, s, begun, rfl, enters, ⟨session', own', lives⟩, look⟩ := @start_live
    (fun _ => True) g Bool id (fun _ => True) sound trivial session own live .enter (fun _ => fresh)
    Report.spawned false
  have starts : g.server.startSpawn pass.session = .ok (.pending pass Report.spawned, s) := by
    simp only [startSpawn, own, set, if_true, start_update_enter own]
    exact begun
  rw [spawn, starts] at h
  obtain ⟨report, completed, rfl⟩ := finish_pending h
  exact (complete_spawned (Change.sound ⟨_, look⟩ sound) rfl own' lives completed).trans enters

omit sound in
theorem spawn_idle (there : ¬ (session.finalized = false ∧ session.spawned = false)) :
    g.server.spawn id = .ok (false, g.server) := by
  have stays : session.setSpawned.1 = false := by
    unfold Session.setSpawned
    split <;> simp_all
  simp only [spawn, startSpawn, own, stays]
  rfl

/-- **Word that the client is ready** brings the player into the world, unless it is not for this
player, or the player is there already, or its session has ended. -/
theorem initialized_declines (runtimeId : UInt64) :
    g.server.Decides #[] (g.server.startInitialized id handle runtimeId) := by
  unfold startInitialized
  rw [own]
  dsimp only
  split
  · intro outcome s' finished
    obtain ⟨spawned, spawns, rfl⟩ := finish_map finished
    change g.server.spawn id = .ok (spawned, s') at spawns
    by_cases fresh : session.finalized = false ∧ session.spawned = false
    · rw [spawn_live sound own fresh.1 fresh.2 spawns]
      exact .inl rfl
    · rw [spawn_idle own fresh] at spawns
      cases spawns
      exact .inr utters_self
  · exact decides_silent (utters_note _)

end Bound

/-- **A change of skin** is passed on, unless the session has ended. -/
theorem changeSkin_declines (own : s.session? id = some session) (change : PlayerSkin) :
    s.Declines #[] (s.changeSkin id handle change).1 (s.changeSkin id handle change).2 := by
  cases ended : session.finalized with
  | true =>
    rw [changeSkin_ended own ended]
    exact .inr utters_self
  | false =>
    refine .inl ?_
    simp [changeSkin, own, ended]

/-- **A farewell** is always dealt with. -/
theorem leave_declines (own : s.session? id = some session) (message : String) :
    s.Declines #[] (s.leave id handle message).1 (s.leave id handle message).2 := by
  refine .inl ?_
  simp [leave, own]

/-! ### Packets -/

/-- Logins go to the login handler. -/
theorem handler?_standard_login :
    Dispatcher.standard.handler? PacketId.login = some .login := by decide +kernel

/-- Where a packet gets to no handler it gets no reply. -/
theorem reply_of_unrouted (routed : Dispatcher.standard.handler? packet.id = none) :
    s.reply handle packet = #[] := by
  cases packet with
  | login login => cases handler?_standard_login.symm.trans routed
  | movePlayer movement => cases handler?_standard_movePlayer.symm.trans routed
  | _ => rfl

/-- **Whatever the handler**, the packet of a connection that is bound to nobody is handled, or nothing
comes of it but the reply. -/
theorem startHandler_unbound_declines (addressed : s.Addressed) (unbound : s.bound? handle = none)
    {handler : Handler} (routed : Dispatcher.standard.handler? packet.id = some handler) :
    s.Decides (s.reply handle packet) (s.startHandler handler packet none handle) := by
  have nobody : s.client? handle = none := by rw [client?, unbound]; rfl
  cases packet with
  | login login =>
    cases handler?_standard_login.symm.trans routed
    have declines := login_declines addressed login handle
    rw [unbound] at declines
    exact decides_done declines
  | movePlayer movement =>
    have silent : s.reply handle (.movePlayer movement) = #[] := by simp only [reply, nobody]
    rw [silent]
    cases handler <;> exact decides_silent utters_self
  | _ => cases handler <;> exact decides_silent utters_self

theorem startHandler_bound_declines {g : Game} (sound : g.Sound) (addressed : g.server.Addressed)
    (bound : g.server.bound? handle = some id) {handler : Handler}
    (routed : Dispatcher.standard.handler? packet.id = some handler) :
    g.server.Decides (g.server.reply handle packet)
      (g.server.startHandler handler packet (some id) handle) := by
  obtain ⟨session, own, address⟩ := addressed bound
  have client : g.server.client? handle = some session := (client?_eq bound).trans own
  cases packet with
  | login login =>
    cases handler?_standard_login.symm.trans routed
    have declines := login_declines addressed login handle
    rw [bound] at declines
    exact decides_done declines
  | movePlayer movement =>
    cases handler?_standard_movePlayer.symm.trans routed
    have replies : g.server.reply handle (.movePlayer movement) =
        if movement.position.isFinite then #[] else #[.send handle session.correction] := by
      simp only [reply, client]
    rw [replies]
    exact movement_declines sound own address movement
  | requestChunkRadius request =>
    cases handler with
    | chunkRadius => exact chunkRadius_declines own _
    | _ => exact decides_silent utters_self
  | playerSkin change =>
    cases handler with
    | skin => exact decides_done (changeSkin_declines own change)
    | _ => exact decides_silent utters_self
  | setLocalPlayerAsInitialized runtimeId =>
    cases handler with
    | spawn => exact initialized_declines sound own runtimeId
    | _ => exact decides_silent utters_self
  | disconnect goodbye =>
    cases handler with
    | disconnect => exact decides_done (leave_declines own _)
    | _ => exact decides_silent utters_self
  | _ => cases handler <;> exact decides_silent utters_self

/-- **A packet** is handled, or nothing comes of it but the reply. -/
theorem startPacket_declines {g : Game} (sound : g.Sound) (addressed : g.server.Addressed)
    (standard : g.server.dispatcher = .standard) (handle : Handle) (packet : Packet) :
    g.server.Decides (g.server.reply handle packet) (g.server.startPacket handle packet) := by
  unfold startPacket startDispatch
  rw [standard]
  cases routed : Dispatcher.standard.handler? packet.id with
  | none =>
    rw [reply_of_unrouted routed]
    exact decides_silent (utters_note _)
  | some handler =>
    cases bound : g.server.bound? handle with
    | none => exact startHandler_unbound_declines addressed bound routed
    | some id => exact startHandler_bound_declines sound addressed bound routed

end Server

/-- **A packet that is refused changes nothing.** After any run of a fresh server with the standard
handlers, each packet on each connection, dealt with completely, is handled, or else all that
happened is that the reply was sent and things were noted: to a login for which only the number of
players leaves no room, that the game is full; to a movement to an impossible position, where the
player is; to anything else, nothing. -/
theorem refused_changes_nothing (config : Config) (world : World) (actions : List Action) :
    ∃ g, Game.run { server := Server.create config world .standard } actions = .ok g ∧
      ∀ handle packet, ∃ outcome s', g.server.handlePacket handle packet = .ok (outcome, s') ∧
        (outcome ≠ .handled → g.server.Utters (g.server.reply handle packet) s') := by
  have fresh := sound_create config world .standard
  obtain ⟨g, hrun, changes⟩ := run_changes fresh actions
  have sound := changes.sound fresh
  have standard : g.server.dispatcher = .standard := (changes.settings fresh).dispatcher
  have addressed : g.server.Addressed :=
    changes.addressed fresh (Server.addressed_create config world .standard)
  refine ⟨g, hrun, fun handle packet => ?_⟩
  obtain ⟨outcome, g', dealt, -⟩ := handlePacket_changes sound handle packet
  refine ⟨outcome, g'.server, dealt, fun refused => ?_⟩
  exact (Server.startPacket_declines sound addressed standard handle packet outcome g'.server dealt
    ).resolve_left refused

/-- In a game with room for one player, the second is told that it is full. -/
theorem refused_changes_nothing_full :
    let config : Config := { maxPlayers := 1 }
    let actions : List Action := [.packet ⟨1⟩ (.login { username := "ada" })]
    (∃ g, Game.run { server := Server.create config {} .standard } actions = .ok g ∧
      ∀ handle packet, ∃ outcome s', g.server.handlePacket handle packet = .ok (outcome, s') ∧
        (outcome ≠ .handled → g.server.Utters (g.server.reply handle packet) s')) ∧
    (do
      let g ← Game.run { server := Server.create config {} .standard } actions
      let second : Packet := .login { username := "bob" }
      let (outcome, _) ← g.server.handlePacket ⟨2⟩ second
      return (outcome, (g.server.reply ⟨2⟩ second).toList)).toOption =
        some (.rejected, [.send ⟨2⟩ (.playStatus .failedServerFull)]) := by
  intro config actions
  exact ⟨refused_changes_nothing config {} actions, by decide +kernel⟩

end BlockWorld
