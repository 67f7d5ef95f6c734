import BlockWorld.Proofs.Clock
import BlockWorld.Proofs.Whole

/-! # The clock does not interfere

Two servers that are the same but for the time make the same of an event, and remain the same but for
the time. A tick changes nothing else. So it does not matter where in a run the clock ticks.

* `Concurs.start`, `Concurs.finish`: a visibility pass at two times.
* `Concurs.login`, `Concurs.removePlayer`, `Concurs.startHandler`, …: the operations at two times.
* `Concurs.hear`, `Concurs.shutdown`: events and the end of the game.
* `Concurs.live`: a run with ticks and one without.
* `ticks_do_not_interfere`: two runs with the same events. -/

namespace BlockWorld

namespace Server.Concurs

variable {α : Type} {s s' : Server} (h : s.Concurs s')
include h

/-! ### Visibility passes -/

theorem start (id : SessionId) (spawning : Bool) (course : Course) (answer : Report → α) (refused : α) :
    Agree (fun _ => Concurs) (s.start id spawning course.phase answer refused)
      (s'.start id spawning course.phase answer refused) :=
  (h.attempt id course.phase_heedless).bind fun glance _ _ h₁ => by
    dsimp only
    cases glance.join <;> exact .ok h₁

theorem startSpawn (id : SessionId) : Agree (fun _ => Concurs) (s.startSpawn id) (s'.startSpawn id) := by
  unfold Server.startSpawn
  obtain ⟨own, own'⟩ | ⟨session, dirty, lived, own, own'⟩ := h.lookup id
  · rw [own, own']
    exact .ok h
  · have set : (session.clocked dirty lived).setSpawned =
        (session.setSpawned.1, session.setSpawned.2.clocked dirty lived) := by
      unfold Session.setSpawned
      cases ended : session.finalized <;> simp [Session.clocked, ended]
    rw [own, own']
    dsimp only
    rw [set]
    refine .ite (fun _ => ?_) fun _ => .ok h
    have entered : (s.update id fun _ => session.setSpawned.2).Concurs
        (s'.update id fun _ => session.setSpawned.2.clocked dirty lived) :=
      h.update id fun _ _ _ => rfl
    exact entered.start id true .stay Report.spawned false

theorem column (p : ChunkPos) : Agree (fun _ => Concurs) (s.column p) (s'.column p) := by
  unfold Server.column
  rw [h.world]
  refine .bind_same _ fun ⟨fetch, world⟩ => ?_
  have fetched : Concurs { s with world } { s' with world } := { h with world := rfl }
  cases fetch with
  | created => exact .ok (fetched.note _)
  | _ => exact .ok fetched

theorem advance (pass : Pass) : Agree (fun _ => Concurs) (s.advance pass) (s'.advance pass) := by
  unfold Server.advance
  cases pass.wanted with
  | nil => exact .ok h
  | cons p wanted => exact (h.column p).bind fun _ _ _ h₁ => .ok h₁

omit h in
theorem advanceBy : ∀ (n : Nat) {s s' : Server} (pass : Pass), s.Concurs s' →
    Agree (fun _ => Concurs) (s.advanceBy pass n) (s'.advanceBy pass n)
  | 0, _, _, _, h => .ok h
  | n + 1, _, _, pass, h => (h.advance pass).bind fun pass₁ _ _ h₁ => advanceBy n pass₁ h₁

/-- **The end of a pass** at two times. -/
theorem settle (pass : Pass) : Agree (fun _ => Concurs) (s.settle pass) (s'.settle pass) := by
  refine (h.attempt pass.session (Scene.subscribe_heedless _)).bind fun loaded _ _ h₁ => ?_
  obtain ⟨answer, h₂⟩ :=
    (h₁.perform pass.session (Scene.completeSpawn_heedless (loaded.getD 0))).pair
  refine .ite (fun _ => ?_) fun _ => .ok h₁
  dsimp only
  rw [answer]
  exact .ok h₂

theorem finish (progress : Progress α) :
    Agree (fun _ => Concurs) (s.finish progress) (s'.finish progress) := by
  cases progress with
  | done a => exact .ok h
  | pending pass answer =>
    have completed : Agree (fun _ => Concurs) (s.complete pass) (s'.complete pass) :=
      (advanceBy pass.wanted.length pass h).bind fun pass₁ _ _ h₁ => h₁.settle pass₁
    exact completed.bind fun _ _ _ h₁ => .ok h₁

/-! ### Logins -/

theorem createSession (handle : Handle) (identity : Identity) :
    Agree (fun _ => Concurs) (.ok (s.createSession handle identity))
      (.ok (s'.createSession handle identity)) := by
  simp only [Server.createSession, Server.addSession, h.size, h.nextEntityId, h.groups, h.config]
  exact .ok { h with
    config := rfl
    groups := rfl
    sessions := by
      simp only [Array.map_push]
      rw [h.sessions]
    nextEntityId := rfl }

theorem newPlayer (handle : Handle) (login : Login) : Agree (fun _ => Concurs)
    (.ok (newPlayer handle login s)) (.ok (newPlayer handle login s')) := by
  have checked : (s.handshake handle .awaitingLogin .nameChecked).Concurs
      (s'.handshake handle .awaitingLogin .nameChecked) := h.note _
  obtain ⟨same, created⟩ := (checked.createSession handle (Identity.ofLogin login)).pair
  unfold Server.newPlayer
  dsimp only
  rw [same]
  exact .ok (created.note _)

theorem refuse (handle : Handle) (username : String) (reason : Refusal) :
    (s.refuse handle username reason).Concurs (s'.refuse handle username reason) := by
  cases reason with
  | nameTaken => exact (h.note _).note _
  | handleInUse => exact (h.note _).note _
  | full => exact ((h.note _).send _ _).note _

theorem welcome (m : Member) : (s.welcome m).Concurs (s'.welcome m) := by
  have told : (((s.send m.handle (.playStatus .loginSuccess)).send m.handle
      (.resourcePacksInfo {})).handshake m.handle .sessionCreated .capabilitySent).Concurs
        (((s'.send m.handle (.playStatus .loginSuccess)).send m.handle
          (.resourcePacksInfo {})).handshake m.handle .sessionCreated .capabilitySent) :=
    ((h.send _ _).send _ _).note _
  unfold Server.welcome
  dsimp only
  obtain ⟨own, own'⟩ | ⟨session, dirty, lived, own, own'⟩ := told.lookup m.session
  · rw [own, own']
    exact told
  · rw [own, own']
    exact told.note _

/-- **A login** at two times. -/
theorem login (login : Login) (existing : Option SessionId) (handle : Handle) :
    Agree (fun _ => Concurs) (.ok (s.login login existing handle))
      (.ok (s'.login login existing handle)) := by
  have who : (existing.bind s.session? = none ∧ existing.bind s'.session? = none) ∨
      ∃ session dirty lived, existing.bind s.session? = some session ∧
        existing.bind s'.session? = some (session.clocked dirty lived) := by
    cases existing with
    | none => exact Or.inl ⟨rfl, rfl⟩
    | some id => exact h.lookup id
  unfold Server.login
  obtain ⟨found, found'⟩ | ⟨session, dirty, lived, found, found'⟩ := who
  · rw [found, found']
    refine .ok_ite (fun _ => .ok ((h.note _).note _)) fun _ => ?_
    unfold Registry.registerWith
    rw [h.registry, h.config]
    cases s.registry.refusal? login.username handle s.config.capacity.toNat with
    | some reason => exact .ok ((h.setRegistry s.registry).refuse _ _ _)
    | none =>
      obtain ⟨same, made⟩ := (h.newPlayer handle login).pair
      dsimp only
      rw [same]
      exact .ok ((made.setRegistry _).welcome _)
  · rw [found, found']
    exact .ok ((h.note _).note _)

/-! ### The end of a session -/

/-- **A removal** at two times. -/
theorem removePlayer (id : SessionId) :
    Agree (fun _ => Concurs) (.ok (s.removePlayer id)) (.ok (s'.removePlayer id)) := by
  unfold Server.removePlayer
  obtain ⟨own, own'⟩ | ⟨session, dirty, lived, own, own'⟩ := h.lookup id
  · rw [own, own']
    exact .ok h
  · obtain ⟨same, ended⟩ := (h.perform id Scene.finalize_heedless).pair
    have unbound : ∀ {t t' : Server}, t.Concurs t' →
        Concurs { t with registry := t.registry.unbind (member id session) }
          { t' with registry := t'.registry.unbind (member id session) } := fun {t t'} h =>
      { h with registry := congrArg (·.unbind (member id session)) h.registry }
    have counted : ∀ {t t' : Server}, t.Concurs t' → ∀ n,
        (t.note (.leftGame session.name t.registry.size n)).Concurs
          (t'.note (.leftGame session.name t'.registry.size n)) := fun {t t'} h n => by
      rw [h.registry]
      exact h.note _
    have watches : ∀ p, (s'.perform id (·.finalize)).2.watches p =
        (s.perform id (·.finalize)).2.watches p := fun p =>
      funext fun m => ended.any_session? m.session fun _ => rfl
    rw [own, own', h.registry]
    dsimp only
    rw [same]
    cases (s.perform id (·.finalize)).1.join with
    | none => exact .ok (unbound ended)
    | some last =>
      dsimp only
      rw [watches]
      exact .ok (counted (unbound (ended.foldl_send Member.handle _ _)) _)

theorem disconnect (handle : Handle) :
    Agree (fun _ => Concurs) (.ok (s.disconnect handle)) (.ok (s'.disconnect handle)) := by
  unfold Server.disconnect
  rw [h.bound?]
  cases s.bound? handle with
  | none => exact .ok (h.note _)
  | some id => exact h.removePlayer id

/-- **The end of the game** at two times. -/
theorem shutdown : s.shutdown.Concurs s'.shutdown := by
  have removes : ∀ (ms : List Member) {s s' : Server}, s.Concurs s' →
      (s.removeAll ms).Concurs (s'.removeAll ms) := by
    intro ms
    induction ms with
    | nil => exact fun h => h
    | cons m ms ih => exact fun h => ih (((h.removePlayer m.session).pair.2).close m.handle _)
  unfold Server.shutdown
  rw [h.registry]
  exact removes _ (h.note _)

/-! ### Packets and events -/

theorem startMovement (id : SessionId) (handle : Handle) (movement : MovePlayer) :
    Agree (fun _ => Concurs) (s.startMovement id handle movement)
      (s'.startMovement id handle movement) := by
  unfold Server.startMovement
  obtain ⟨own, own'⟩ | ⟨session, dirty, lived, own, own'⟩ := h.lookup id
  · rw [own, own']
    exact .ok h
  · rw [own, own']
    refine .ite (fun _ => ?_) fun _ => ?_
    · exact (h.start id false (.move movement.position movement.rotation movement.onGround) _ _).bind
        fun _ _ _ h₁ => .ok h₁
    · exact .ok ((h.note _).perform id Scene.correct_heedless).pair.2

theorem startChunkRadius (id : SessionId) (handle : Handle) (requested : Int32) :
    Agree (fun _ => Concurs) (s.startChunkRadius id handle requested)
      (s'.startChunkRadius id handle requested) := by
  have granted : s'.grantedRadius requested = s.grantedRadius requested := by
    unfold Server.grantedRadius
    rw [h.config]
  unfold Server.startChunkRadius
  obtain ⟨own, own'⟩ | ⟨session, dirty, lived, own, own'⟩ := h.lookup id
  · rw [own, own']
    exact .ok h
  · rw [own, own', granted]
    refine .ite (fun _ => .ok h) fun _ => ?_
    have resized (n : Notice) (v : UInt32) : ((s.note n).update id (·.setViewDistance v)).Concurs
        ((s'.note n).update id (·.setViewDistance v)) :=
      (h.note n).update id fun _ _ same => congrArg (·.setViewDistance v) same
    exact (((resized _ _).send session.handle _).start id false .stay _ _).bind
      fun _ _ _ h₁ => .ok h₁

theorem changeSkin (id : SessionId) (handle : Handle) (change : PlayerSkin) : Agree (fun _ => Concurs)
    (.ok (s.changeSkin id handle change)) (.ok (s'.changeSkin id handle change)) := by
  unfold Server.changeSkin
  obtain ⟨own, own'⟩ | ⟨session, dirty, lived, own, own'⟩ := h.lookup id
  · rw [own, own']
    exact .ok h
  · rw [own, own']
    refine .ok_ite (fun _ => .ok h) fun _ => ?_
    have stored : (s.update id (·.setSkin change.skin)).Concurs
        (s'.update id (·.setSkin change.skin)) :=
      h.update id fun _ _ same => congrArg (·.setSkin change.skin) same
    have relays : ∀ {t t' : Server}, t.Concurs t' → ∀ packet,
        Concurs ((t.spawnedOthers id).foldl (fun t m => t.send m.handle packet) t)
          ((t'.spawnedOthers id).foldl (fun t m => t.send m.handle packet) t') :=
      fun {t t'} h packet => by
        have others : t'.spawnedOthers id = t.spawnedOthers id := by
          unfold spawnedOthers
          rw [h.registry]
          exact List.filter_congr fun m _ => congrArg _ (h.any_session? m.session fun _ => rfl)
        rw [others]
        exact h.foldl_send Member.handle packet _
    exact .ok (relays (stored.note _) _)

theorem startInitialized (id : SessionId) (handle : Handle) (runtimeId : UInt64) :
    Agree (fun _ => Concurs) (s.startInitialized id handle runtimeId)
      (s'.startInitialized id handle runtimeId) := by
  unfold Server.startInitialized
  obtain ⟨own, own'⟩ | ⟨session, dirty, lived, own, own'⟩ := h.lookup id
  · rw [own, own']
    exact .ok h
  · rw [own, own']
    exact .ite (fun _ => (h.startSpawn id).bind fun _ _ _ h₁ => .ok h₁) fun _ => .ok (h.note _)

theorem leave (id : SessionId) (handle : Handle) (message : String) : Agree (fun _ => Concurs)
    (.ok (s.leave id handle message)) (.ok (s'.leave id handle message)) := by
  unfold Server.leave
  obtain ⟨own, own'⟩ | ⟨session, dirty, lived, own, own'⟩ := h.lookup id
  · rw [own, own']
    exact .ok h
  · rw [own, own']
    exact .ok ((h.note _).removePlayer id).pair.2

/-- **Whatever the handler**, a packet is the same at two times. -/
theorem startHandler (handler : Handler) (packet : Packet) (who : Option SessionId) (handle : Handle) :
    Agree (fun _ => Concurs) (s.startHandler handler packet who handle)
      (s'.startHandler handler packet who handle) := by
  unfold Server.startHandler
  split
  · exact (h.login _ _ _).map Progress.done
  · exact h.startMovement _ _ _
  · exact h.startChunkRadius _ _ _
  · exact (h.changeSkin _ _ _).map Progress.done
  · exact h.startInitialized _ _ _
  · exact (h.leave _ _ _).map Progress.done
  · exact .ok h

theorem handlePacket (handle : Handle) (packet : Packet) :
    Agree (fun _ => Concurs) (s.handlePacket handle packet) (s'.handlePacket handle packet) := by
  have started : Agree (fun _ => Concurs) (s.startPacket handle packet)
      (s'.startPacket handle packet) := by
    unfold Server.startPacket Server.startDispatch
    rw [h.dispatcher, h.bound?]
    cases s.dispatcher.handler? packet.id with
    | none => exact .ok (h.note _)
    | some handler => exact h.startHandler handler packet _ handle
  exact started.bind fun progress _ _ h₁ => h₁.finish progress

theorem closeRefused (handle : Handle) (packet : Packet) (outcome : Outcome) :
    (s.closeRefused handle packet outcome).Concurs (s'.closeRefused handle packet outcome) := by
  unfold Server.closeRefused
  rw [h.bound?]
  split
  · exact h.close handle _
  · exact h

/-- **An event** at two times. -/
theorem hear (e : Event) : Agree (fun _ => Concurs) (s.hear e) (s'.hear e) := by
  cases e with
  | connected handle => exact .ok (h.note _)
  | packet handle packet =>
    exact (h.handlePacket handle packet).bind fun _ _ _ h₁ => .ok (h₁.closeRefused handle packet _)
  | disconnected handle => exact .ok (h.disconnect handle).pair.2

/-! ### Runs -/

omit h in
/-- **A run with ticks** is the same but for the time as a run of the events alone. -/
theorem live : ∀ (inputs : List Input) {s s' : Server}, s.Concurs s' → Agree (fun _ => Concurs)
    (s.live ((inputs.filterMap Input.event?).map .event)) (s'.live inputs)
  | [], _, _, h => .ok h
  | .tick :: inputs, _, s', h => live inputs (h.trans (concurs_tick s'))
  | .event e :: inputs, _, _, h =>
    (h.hear e).bind fun _ _ _ h₁ => (live inputs h₁).bind fun _ _ _ h₂ => .ok h₂

end Server.Concurs

/-- **Ticks do not interfere with the protocol.** After any run of a fresh server, take any two ways to
insert ticks between the same events. In both the events have the same outcomes, and the servers are
the same but for the time: the registry, the world, the counter of ids, and every session, but for its
age and whether its client has yet to be told of an attribute. Each client was sent the same packets in
the same order, but for attributes, and the same connections were closed. All this is so at the end of
the game, too. -/
theorem ticks_do_not_interfere (config : Config) (world : World) (dispatcher : Dispatcher)
    (actions : List Action) (xs ys : List Input)
    (same : xs.filterMap Input.event? = ys.filterMap Input.event?) :
    ∃ g, Game.run { server := Server.create config world dispatcher } actions = .ok g ∧
      ∃ outcomes s s', g.server.live xs = .ok (outcomes, s) ∧ g.server.live ys = .ok (outcomes, s') ∧
        s.Concurs s' ∧ s'.closes = s.closes ∧
        (∀ handle, (s'.sentTo handle).filter (!·.isAttributes) =
          (s.sentTo handle).filter (!·.isAttributes)) ∧
        (config.world.tickInterval ≠ 0 → ∃ t t', g.server.runTicking xs = .ok t ∧
          g.server.runTicking ys = .ok t' ∧ t.Concurs t' ∧ t'.closes = t.closes ∧
          ∀ handle, (t'.sentTo handle).filter (!·.isAttributes) =
            (t.sentTo handle).filter (!·.isAttributes)) := by
  have fresh := sound_create config world dispatcher
  obtain ⟨g, hrun, changes⟩ := run_changes fresh actions
  have sound := changes.sound fresh
  have settings : g.server.config = config := (changes.settings fresh).config
  obtain ⟨outcomes, g', still, -⟩ :=
    live_changes ((xs.filterMap Input.event?).map .event) sound
  obtain ⟨s, lives, near⟩ := (Server.Concurs.live xs (.refl g.server)).of_ok still
  rw [same] at still
  obtain ⟨s', lives', near'⟩ := (Server.Concurs.live ys (.refl g.server)).of_ok still
  have concurs : s.Concurs s' := near.symm.trans near'
  refine ⟨g, hrun, outcomes, s, s', lives, lives', concurs, concurs.closes, concurs.sentTo,
    fun ticking => ?_⟩
  have ends : ∀ {inputs t}, g.server.live inputs = .ok (outcomes, t) →
      g.server.runTicking inputs = .ok t.shutdown := by
    intro inputs t lives
    rw [← settings] at ticking
    rw [Server.runTicking, if_neg ticking, lives]
  exact ⟨s.shutdown, s'.shutdown, ends lives, ends lives', concurs.shutdown, concurs.shutdown.closes,
    concurs.shutdown.sentTo⟩

/-- A player that logs in and enters the world, with no tick at all and with ticks all around. -/
theorem ticks_do_not_interfere_spawn :
    let login : Input := .event (.packet ⟨1⟩ (.login { username := "ada" }))
    let ready : Input := .event (.packet ⟨1⟩ (.setLocalPlayerAsInitialized 1))
    let xs : List Input := [login, ready]
    let ys : List Input := [.tick, login, .tick, ready, .tick, .tick]
    xs.filterMap Input.event? = ys.filterMap Input.event? ∧
      ∃ g, Game.run { server := Server.create {} {} .standard } [] = .ok g ∧
        ∃ outcomes s s', g.server.live xs = .ok (outcomes, s) ∧
          g.server.live ys = .ok (outcomes, s') ∧ s.Concurs s' := by
  intro login ready xs ys
  have same : xs.filterMap Input.event? = ys.filterMap Input.event? := rfl
  obtain ⟨g, hrun, outcomes, s, s', lives, lives', concurs, -⟩ :=
    ticks_do_not_interfere {} {} .standard [] xs ys same
  exact ⟨same, g, hrun, outcomes, s, s', lives, lives', concurs⟩

end BlockWorld
