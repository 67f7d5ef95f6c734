import BlockWorld.Proofs.Change
import BlockWorld.Proofs.Transcript

/-! # No action overflows

Every operation of the server is taken apart into changes. So no action fails in a sound game, and
what every change keeps holds after every run. What is said in the changes is what is said in the
action.

* `Goes`: an operation that succeeds, with the chain of changes behind it.
* `goes_startDispatch`, `goes_startEvent`: packets and events.
* `step_turns`, `run_turns`: actions and runs, with all that is said in them; `step_changes`,
  `run_changes`: whatever is said.
* `run_invariant`: an invariant of changes holds after a run; `run_told`: a run in which the server
  hears of every end; `history_reached`: what every step of such a run finds. -/

namespace BlockWorld

open Relation

variable {acts : SessionId → Prop} {ends : Ending → Prop} {g g' : Game} {us vs : List Utterance}

/-! ### Operations as chains of changes -/

section Operations

variable {α β : Type} {id : SessionId}

/-- The operation does not overflow, and what it makes of `g` is reached by changes. -/
def Goes (acts : SessionId → Prop) (ends : Ending → Prop) (g : Game) (us : List Utterance)
    (operation : Except Overflow (Progress α × Server)) : Prop :=
  ∃ progress s, operation = .ok (progress, s) ∧ Turns acts ends g us (g.join progress s)

theorem Goes.enact {operation : Except Overflow (Progress α × Server)}
    (h : Goes acts ends g us operation) :
    ∃ g', g.enact operation = .ok g' ∧ Turns acts ends g us g' := by
  obtain ⟨progress, s, rfl, hc⟩ := h
  exact ⟨_, rfl, hc⟩

theorem Game.join_server (g : Game) (progress : Progress α) (s : Server) :
    (g.join progress s).server = s := by
  cases progress <;> rfl

theorem goes_done {a : α} {s : Server} (h : Turns acts ends g us { g with server := s }) :
    Goes acts ends g us (.ok (.done a, s)) := ⟨_, _, rfl, h⟩

/-- An answer that is turned into another one. -/
theorem Goes.map {operation : Except Overflow (Progress α × Server)}
    (h : Goes acts ends g us operation) (f : α → β) :
    Goes acts ends g us (do
      let (progress, s) ← operation
      return (progress.map f, s)) := by
  obtain ⟨progress, s, rfl, hc⟩ := h
  refine ⟨progress.map f, s, rfl, ?_⟩
  cases progress <;> exact hc

/-- A live session that is made to look around begins a pass, and lives on. -/
theorem start_live (ends : Ending → Prop) (sound : g.Sound) (act : acts id) {session : Session}
    (own : g.server.session? id = some session) (live : session.finalized = false) (course : Course)
    (fresh : course = .enter → session.spawned = false) (answer : Report → α) (refused : α) :
    ∃ pass s, g.server.start id course.enters course.phase answer refused =
        .ok (.pending pass answer, s) ∧ pass.session = id ∧ pass.spawning = course.enters ∧
      (∃ session', s.session? id = some session' ∧ session'.finalized = false) ∧
      Turn acts ends g (g.server.voice id course.phase)
        { server := s, passes := g.passes ++ [pass], lookers := insert id g.lookers } := by
  obtain ⟨glance, t', sc, phase, hs, -⟩ := course.phase_spec
    { session, world := g.server.world } live (sound.session own)
  have lives : sc.session.finalized = false := by
    rw [hs, Session.track_finalized, Course.apply_finalized, live]
  unfold Server.start
  rw [Server.attempt_eq own phase]
  exact ⟨_, _, rfl, rfl, rfl, ⟨sc.session, (Server.becomes_absorb own sc).self, lives⟩,
    .look g act own live fresh phase⟩

/-- **Whatever makes a session look around** is one change: nothing at all, if there is no session or
it was finalized. -/
theorem goes_course (sound : g.Sound) (act : acts id) (course : Course) (stays : course ≠ .enter)
    (answer : Report → α) (refused : α) :
    Goes acts ends g (g.server.voice id course.phase)
      (g.server.start id false course.phase answer refused) := by
  cases own : g.server.session? id with
  | none =>
    rw [Server.voice_none own, Server.start_none course own]
    exact goes_done (.refl g)
  | some session =>
    cases live : session.finalized with
    | true =>
      have refuses : course.phase { session, world := g.server.world } =
          .ok (none, { session, world := g.server.world }) := course.phase_ended live stays
      rw [Server.voice_eq own refuses, Server.start_ended course stays own live]
      exact goes_done (.refl g)
    | false =>
      obtain ⟨pass, s, hstart, rfl, -, -, look⟩ := start_live ends sound act own live course
        (fun h => absurd h stays) answer refused
      have lasts : course.enters = false := by cases course <;> first | rfl | exact absurd rfl stays
      rw [lasts] at hstart
      exact ⟨_, _, hstart, .single look⟩

/-- To look around right after becoming visible is to enter. -/
theorem start_update_enter {s : Server} {session : Session} (own : s.session? id = some session)
    (answer : Report → α) (refused : α) :
    (s.update id fun _ => Course.enter.apply session).start id true (·.refresh) answer refused =
      s.start id true Course.enter.phase answer refused := by
  have entered : (s.update id fun _ => Course.enter.apply session).session? id =
      some (Course.enter.apply session) := by simp [Server.session?_update, own]
  simp only [Server.start, Server.attempt, own, entered, Server.absorb_update]
  rfl

theorem goes_startSpawn (sound : g.Sound) (act : acts id) :
    Goes acts ends g (g.server.spawnWords id) (g.server.startSpawn id) := by
  unfold Server.startSpawn Server.spawnWords
  cases own : g.server.session? id with
  | none => exact goes_done (.refl g)
  | some session =>
    cases live : session.finalized with
    | true => simpa [Session.setSpawned, live] using goes_done (.refl g)
    | false =>
      cases fresh : session.spawned with
      | true => simpa [Session.setSpawned, live, fresh] using goes_done (.refl g)
      | false =>
        have set : session.setSpawned = (true, Course.enter.apply session) := by
          simp [Session.setSpawned, live, fresh, Course.apply]
        obtain ⟨pass, s, hstart, rfl, -, -, look⟩ := start_live ends sound act own live .enter
          (fun _ => fresh) Report.spawned false
        simp only [set, if_true, start_update_enter own]
        exact ⟨_, _, hstart, .single look⟩

theorem goes_startMovement (sound : g.Sound) (act : acts id) (handle : Handle)
    (movement : MovePlayer) : Goes acts ends g (g.server.movementWords id movement)
      (g.server.startMovement id handle movement) := by
  unfold Server.startMovement Server.movementWords
  cases own : g.server.session? id with
  | none =>
    have silent : g.server.correction id = [] := Server.voice_none own
    rw [Server.voice_none own, silent, ite_self]
    exact goes_done (.refl g)
  | some session =>
    dsimp only
    split
    · exact (goes_course sound act (.move movement.position movement.rotation movement.onGround)
        Course.noConfusion _ _).map _
    · exact goes_done (.head (.aside g (.note _ _)) (.single (.aside _ (.correct _ id))))

/-- A request for another view distance sets it, tells the client, and makes the session look around:
then it has looked since its view distance was set. -/
theorem goes_startChunkRadius (sound : g.Sound) (act : acts id) (handle : Handle)
    (requested : Int32) : Goes acts ends g (g.server.radiusWords id requested)
      (g.server.startChunkRadius id handle requested) := by
  unfold Server.startChunkRadius Server.radiusWords
  cases own : g.server.session? id with
  | none => exact goes_done (.refl g)
  | some session =>
    cases live : session.finalized with
    | true => simpa [live] using goes_done (.refl g)
    | false =>
      simp only [live, Bool.false_eq_true, if_false]
      set granted := g.server.grantedRadius requested
      set noted := g.server.note (.radiusRequested session.name handle requested granted) with hnoted
      set resized : Game := { g with
        server := noted.update id (·.setViewDistance granted)
        lookers := g.lookers.erase id } with hresized
      have own' : resized.server.session? id = some (session.setViewDistance granted) := by
        rw [hresized, Server.session?_update, if_pos rfl]
        show (g.server.session? id).map _ = _
        rw [own]; rfl
      have turns : Turns acts ends g [⟨some id, session.handle, .chunkRadiusUpdated granted.toInt32⟩]
          { resized with
            server := resized.server.send session.handle (.chunkRadiusUpdated granted.toInt32) } :=
        .head (.aside g (.note g.server _))
          (.head (.setViewDistance { g with server := noted } act granted)
            (.single (.aside resized (.grant _ own' live granted))))
      obtain ⟨pass, s, hstart, rfl, -, -, look⟩ := start_live ends (turns.changes.sound sound) act
        own' live .stay (fun h => Course.noConfusion h) (fun r : Report => (r.culled, r.loaded)) (0, 0)
      have insert_erase : insert pass.session (g.lookers.erase pass.session) =
          insert pass.session g.lookers := by ext; simp; tauto
      have refreshed : (resized.server.send session.handle
          (.chunkRadiusUpdated granted.toInt32)).startRefresh pass.session =
            .ok (.pending pass fun r => (r.culled, r.loaded), s) := hstart
      refine Goes.map ⟨_, _, refreshed, turns.tail ?_⟩ _
      show Turn acts ends _ _
        { server := s, passes := g.passes ++ [pass], lookers := insert pass.session g.lookers }
      rw [← insert_erase]
      exact look

theorem goes_startInitialized (sound : g.Sound) (act : acts id) (handle : Handle)
    (runtimeId : UInt64) : Goes acts ends g (g.server.initializedWords id runtimeId)
      (g.server.startInitialized id handle runtimeId) := by
  unfold Server.startInitialized Server.initializedWords
  cases own : g.server.session? id with
  | none => exact goes_done (.refl g)
  | some session =>
    dsimp only
    split
    · exact (goes_startSpawn sound act).map _
    · exact goes_done (.single (.aside g (.note _ _)))

theorem turns_leave (act : acts id) (heard : g.server.session? id ≠ none → ends .heard)
    (handle : Handle) (message : String) :
    Turns acts ends g (g.server.farewell id)
      { g with server := (g.server.leave id handle message).2 } := by
  unfold Server.leave
  cases own : g.server.session? id with
  | none =>
    have silent : g.server.farewell id = [] := by simp only [Server.farewell, own]
    rw [silent]
    exact .refl g
  | some session =>
    have ended : ends .heard := heard (by rw [own]; exact Option.some_ne_none session)
    exact .head (.aside g (.note _ _)) (.single (.remove { g with server := _ } ended act))

theorem turns_login (login : Login) (existing : Option SessionId) (handle : Handle) :
    Turns acts ends g (g.server.loginWords login existing handle)
      { g with server := (g.server.login login existing handle).2 } := by
  rcases g.server.login_cases login existing handle with
    ⟨n, n', silent, h⟩ | ⟨reason, hr, words, h⟩ | ⟨named, free, words, h⟩
  · rw [h, silent]
    exact .head (.aside g (.note _ n)) (.single (.aside { g with server := _ } (.note _ n')))
  · rw [h, words]; exact .single (.aside g (.refuse _ hr))
  · rw [h, words]; exact .single (.login g named free)

/-- **A packet** for a session is a chain of changes, whichever handler deals with it. -/
theorem goes_startDispatch (ends : Ending → Prop) (sound : g.Sound) (packet : Packet)
    (who : Option SessionId) (act : ∀ id ∈ who, acts id) (handle : Handle)
    (heard : g.server.packetRemovals packet who handle ≠ [] → ends .heard) :
    Goes acts ends g (g.server.packetWords packet who handle)
      (g.server.startDispatch packet who handle) := by
  unfold Server.startDispatch
  cases routed : g.server.dispatcher.handler? packet.id with
  | none =>
    simp only [Server.packetWords, routed]
    exact goes_done (.single (.aside g (.note _ _)))
  | some handler =>
    dsimp only
    unfold Server.startHandler
    split
    · simp only [Server.packetWords, routed]
      exact goes_done (turns_login _ _ _)
    · simp only [Server.packetWords, routed]
      exact goes_startMovement sound (act _ rfl) _ _
    · simp only [Server.packetWords, routed]
      exact goes_startChunkRadius sound (act _ rfl) _ _
    · simp only [Server.packetWords, routed]
      exact goes_done (.single (.aside g (.changeSkin _ _ _ _)))
    · simp only [Server.packetWords, routed]
      exact goes_startInitialized sound (act _ rfl) _ _
    · rename_i goodbye id
      simp only [Server.packetWords, routed]
      refine goes_done (turns_leave (act id rfl) (fun known => heard ?_) _ _)
      obtain ⟨session, own⟩ := Option.ne_none_iff_exists'.mp known
      simp [Server.packetRemovals, routed, own]
    · have silent : g.server.packetWords packet who handle = [] := by
        unfold Server.packetWords
        rw [routed]
        split <;> first | rfl | simp_all
      rw [silent]
      exact goes_done (.refl g)

theorem turns_disconnect (handle : Handle) (act : ∀ id ∈ g.server.bound? handle, acts id)
    (heard : g.server.disconnectRemovals handle ≠ [] → ends .heard) :
    Turns acts ends g ((g.server.disconnectRemovals handle).flatMap Removal.words)
      { g with server := (g.server.disconnect handle).2 } := by
  unfold Server.disconnect
  split
  · rename_i id hid
    have one : g.server.disconnectRemovals handle = [⟨g.server, id⟩] := by
      simp [Server.disconnectRemovals, hid]
    rw [one, List.flatMap_singleton]
    exact .single (.remove g (heard (by rw [one]; exact List.cons_ne_nil _ _)) (act id hid))
  · rename_i hid
    have none : g.server.disconnectRemovals handle = [] := by simp [Server.disconnectRemovals, hid]
    rw [none]
    exact .single (.aside g (.note _ _))

theorem goes_startEvent (sound : g.Sound) (e : Event)
    (act : ∀ id ∈ Action.actors g (.event e), acts id)
    (heard : Action.removals g (.event e) ≠ [] → ends .heard) :
    Goes acts ends g (Action.words g (.event e)) (g.server.startEvent e) := by
  cases e with
  | connected handle => exact goes_done (.single (.aside g (.note _ _)))
  | packet handle packet =>
    obtain ⟨progress, s, hstart, hc⟩ := goes_startDispatch ends sound packet
      (g.server.bound? handle) (fun id hid => act id (by simpa [Action.actors] using hid)) handle heard
    simp only [Server.startEvent, Server.startPacket, hstart, bind, Except.bind]
    cases progress with
    | done outcome =>
      refine goes_done ?_
      unfold Server.closeRefused
      split
      · have closed := hc.tail (.aside _ (.close _ handle "Login rejected"))
        rwa [List.append_nil] at closed
      · exact hc
    | pending pass answer => exact ⟨_, _, rfl, hc⟩
  | disconnected handle =>
    exact goes_done (turns_disconnect handle (fun id hid =>
      act id (by simpa [Action.actors] using hid)) heard)

theorem turns_tickAll (current interval : UInt64) : ∀ (ms : List Member) (s : Server),
    Turns acts ends { g with server := s } (Server.tickWords current interval ms s)
      { g with server := ms.foldl (fun s m => s.tickSession m.session current interval) s }
  | [], s => .refl { g with server := s }
  | m :: ms, s =>
    .head (.aside { g with server := s } (.tick s m.session current interval))
      (turns_tickAll current interval ms (s.tickSession m.session current interval))

theorem turns_tick :
    Turns acts ends g (Action.words g .tick) { g with server := g.server.tick.2 } :=
  .head (.aside g (.clock _)) (turns_tickAll _ _ _ _)

theorem turns_removeAll (heard : ends .heard) : ∀ (ms : List Member) (s : Server),
    (∀ m ∈ ms, acts m.session) → Turns acts ends { g with server := s }
      ((s.removeAllRemovals ms).flatMap Removal.words) { g with server := s.removeAll ms }
  | [], s, _ => .refl { g with server := s }
  | m :: ms, s, act => by
    have rest := turns_removeAll heard ms ((s.removePlayer m.session).2.close m.handle "Server closed")
      fun m' hm' => act m' (List.mem_cons_of_mem m hm')
    rw [Server.removeAllRemovals, List.flatMap_cons]
    exact .head (.remove { g with server := s } heard (act m List.mem_cons_self))
      (.head (.aside { g with server := (s.removePlayer m.session).2 } (.close _ _ _)) rest)

theorem turns_shutdown (act : ∀ m ∈ g.server.registry.players, acts m.session)
    (heard : g.server.shutdownRemovals ≠ [] → ends .heard) :
    Turns acts ends g (g.server.shutdownRemovals.flatMap Removal.words)
      { g with server := g.server.shutdown } := by
  refine .head (.aside g (.note _ (.shuttingDown g.server.registry.players.length))) ?_
  cases hp : g.server.registry.players with
  | nil =>
    simp only [Server.shutdownRemovals, Server.shutdown, hp]
    exact .refl _
  | cons m ms =>
    have ended : ends .heard := heard (by
      simp only [Server.shutdownRemovals, hp]
      exact List.cons_ne_nil _ _)
    simp only [Server.shutdownRemovals, Server.shutdown, hp] at act ⊢
    exact turns_removeAll ended (m :: ms) _ act

/-! ### Actions and runs -/

/-- The end of a pass is one change, or nothing, if there is no such pass or columns are wanted
still. -/
theorem step_settle (ends : Ending → Prop) (sound : g.Sound) (i : Nat) :
    ∃ g', g.step (.settle i) = .ok g' ∧
      ((Action.words g (.settle i) = [] ∧ g' = g) ∨
        Turn (· ∈ Action.actors g (.settle i)) ends g (Action.words g (.settle i)) g') := by
  cases own : g.passes[i]? with
  | none => exact ⟨g, by simp [Game.step, own], Or.inl ⟨by simp [Action.words, own], rfl⟩⟩
  | some pass =>
    cases idle : pass.wanted with
    | cons p wanted =>
      exact ⟨g, by simp [Game.step, own, idle], Or.inl ⟨by simp [Action.words, own, idle], rfl⟩⟩
    | nil =>
      obtain ⟨report, s, h, -, -⟩ := sound.settles own
      rw [Action.words_settle own idle]
      refine ⟨_, ?_, Or.inr (.settle g own (by simp [Action.actors, own]) idle h)⟩
      simp only [Game.step, own, idle, h, bind, Except.bind, pure, Except.pure]
      rfl

/-- What is said at the end of a pass is nothing, or what its session says then. -/
theorem Game.Sound.settle_words (sound : g.Sound) (i : Nat) : Action.words g (.settle i) = [] ∨
    ∃ pass report s, g.server.Settles pass report s ∧
      Action.words g (.settle i) = g.server.settling pass := by
  cases own : g.passes[i]? with
  | none => exact Or.inl (by simp [Action.words, own])
  | some pass =>
    cases idle : pass.wanted with
    | cons p wanted => exact Or.inl (by simp [Action.words, own, idle])
    | nil =>
      obtain ⟨report, s, -, -, settles⟩ := sound.settles own
      exact Or.inr ⟨pass, report, s, settles, Action.words_settle own idle⟩

/-- **No action overflows**, and what comes of it is a chain of changes by those it is about; what is
said in them is what is said in the action. -/
theorem step_turns (sound : g.Sound) (a : Action) :
    ∃ g', g.step a = .ok g' ∧ Turns (· ∈ a.actors g) (a.ends g) g (a.words g) g' := by
  cases a with
  | event e => exact (goes_startEvent sound e (fun _ h => h) id).enact
  | packet handle packet =>
    exact (goes_startDispatch _ sound packet _ (fun id h => by simpa [Action.actors] using h) _ id).enact
  | dispatch packet who handle =>
    exact (goes_startDispatch _ sound packet _ (fun id h => by simpa [Action.actors] using h) _ id).enact
  | move id position turn onGround =>
    exact (goes_course sound (by simp [Action.actors]) (.move position turn onGround)
      Course.noConfusion _ _).enact
  | teleport id position rotation =>
    exact (goes_course sound (by simp [Action.actors]) (.teleport position rotation)
      Course.noConfusion _ _).enact
  | refresh id =>
    exact (goes_course sound (by simp [Action.actors]) .stay Course.noConfusion _ _).enact
  | spawn id => exact (goes_startSpawn sound (by simp [Action.actors])).enact
  | setViewDistance id v =>
    exact ⟨_, rfl, .single (.setViewDistance g (by simp [Action.actors]) v)⟩
  | setAttribute id name value => exact ⟨_, rfl, .single (.aside g (.setAttribute _ id name value))⟩
  | finalize id => exact ⟨_, rfl, .single (.finalize g rfl (by simp [Action.actors]))⟩
  | remove id => exact ⟨_, rfl, .single (.remove g (List.cons_ne_nil _ _) (by simp [Action.actors]))⟩
  | disconnect handle =>
    exact ⟨_, rfl, turns_disconnect handle (fun id h => by simpa [Action.actors] using h) id⟩
  | tick => exact ⟨_, rfl, turns_tick⟩
  | shutdown =>
    exact ⟨_, rfl, turns_shutdown (fun m hm => List.mem_map.mpr ⟨m, hm, rfl⟩) id⟩
  | fetch p =>
    simp only [Game.step]
    split
    · rename_i f s h
      exact ⟨_, rfl, .single (.fetch g h)⟩
    · exact ⟨g, rfl, .refl g⟩
  | addEntity p e =>
    refine ⟨_, rfl, .single (.edit g p fun c => ?_)⟩
    unfold Column.addEntity
    split <;> rfl
  | removeEntity p uniqueId => exact ⟨_, rfl, .single (.edit g p fun c => rfl)⟩
  | advance i =>
    cases own : g.passes[i]? with
    | none => exact ⟨g, by simp [Game.step, own], .refl g⟩
    | some pass =>
      obtain ⟨pass', s, h⟩ := g.server.exists_advance pass
        (sound.wanted pass (List.mem_of_getElem? own))
      refine ⟨_, ?_, .single (.advance g own (by simp [Action.actors, own]) h)⟩
      simp only [Game.step, own, h, bind, Except.bind, pure, Except.pure]
  | settle i =>
    obtain ⟨g', hstep, ⟨silent, rfl⟩ | turn⟩ := step_settle (Action.ends g (.settle i)) sound i
    · exact ⟨_, hstep, by rw [silent]; exact .refl _⟩
    · exact ⟨g', hstep, .single turn⟩

theorem step_changes (sound : g.Sound) (a : Action) :
    ∃ g', g.step a = .ok g' ∧ Changes (· ∈ a.actors g) (a.ends g) g g' := by
  obtain ⟨g', hstep, c⟩ := step_turns sound a
  exact ⟨g', hstep, c.changes⟩

/-- **A step that is made** is a chain of changes, in which what is said is said. -/
theorem turns_of_step (sound : g.Sound) {a : Action} {g' : Game} (hstep : g.step a = .ok g') :
    Turns (· ∈ a.actors g) (a.ends g) g (a.words g) g' := by
  obtain ⟨g₁, hstep₁, c⟩ := step_turns sound a
  rw [hstep] at hstep₁
  cases hstep₁
  exact c

end Operations

/-! ### Runs -/

/-- The ways in which the actions of a run may end sessions. -/
def Ending.Within (actions : List Action) : Ending → Prop
  | .heard => True
  | .unheard => ∃ a ∈ actions, a.isFinalize = true

theorem Action.ends_within {a : Action} {actions : List Action} (ha : a ∈ actions) {e : Ending}
    (h : a.ends g e) : e.Within actions := by
  cases e with
  | heard => trivial
  | unheard => exact ⟨a, ha, h⟩

theorem Ending.within_cons {a : Action} {actions : List Action} {e : Ending} (h : e.Within actions) :
    e.Within (a :: actions) := by
  cases e with
  | heard => trivial
  | unheard =>
    obtain ⟨b, hb, ended⟩ := h
    exact ⟨b, List.mem_cons_of_mem a hb, ended⟩

/-- **No run overflows**, and what comes of it is a chain of changes; what is said in them is the
transcript of the run. -/
theorem run_turns (sound : g.Sound) : ∀ actions : List Action, ∃ g', g.run actions = .ok g' ∧
    Turns (fun _ => True) (Ending.Within actions) g (g.transcript actions) g' := by
  intro actions
  induction actions generalizing g with
  | nil => exact ⟨g, rfl, .refl g⟩
  | cons a actions ih =>
    obtain ⟨g₁, hstep, hc⟩ := step_turns sound a
    obtain ⟨g₂, hrun, hc'⟩ := ih (hc.changes.sound sound)
    rw [Game.transcript_cons hstep]
    exact ⟨g₂, (Game.run_cons hstep actions).trans hrun,
      (hc.mono (fun _ _ => trivial) fun _ => Action.ends_within List.mem_cons_self).trans
        (hc'.mono (fun _ h => h) fun _ => Ending.within_cons)⟩

theorem run_changes (sound : g.Sound) (actions : List Action) : ∃ g', g.run actions = .ok g' ∧
    Changes (fun _ => True) (Ending.Within actions) g g' := by
  obtain ⟨g', hrun, c⟩ := run_turns sound actions
  exact ⟨g', hrun, c.changes⟩

/-- A run from a sound game after which an invariant of changes holds. -/
theorem run_invariant {P : Game → Prop}
    (kept : ∀ {g g' : Game}, g.Sound → P g → Change (fun _ => True) (fun _ => True) g g' → P g')
    (sound : g.Sound) (hP : P g) (actions : List Action) :
    ∃ g', g.run actions = .ok g' ∧ g'.Sound ∧ P g' := by
  obtain ⟨g', hrun, hc⟩ := run_changes sound actions
  exact ⟨g', hrun, hc.sound sound,
    (hc.mono (fun _ h => h) fun _ _ => trivial).invariant kept sound hP⟩

/-- Where no action finalizes a session behind the back of the server, the server hears of every
end. -/
theorem run_told (sound : g.Sound) {actions : List Action} (told : ∀ a ∈ actions, a.isFinalize = false) :
    ∃ g', g.run actions = .ok g' ∧ Changes (fun _ => True) (· = .heard) g g' := by
  obtain ⟨g', hrun, hc⟩ := run_changes sound actions
  refine ⟨g', hrun, hc.mono (fun _ h => h) fun e h => ?_⟩
  cases e with
  | heard => rfl
  | unheard =>
    obtain ⟨a, ha, ended⟩ := h
    rw [told a ha] at ended
    cases ended

/-- **What every change keeps, every step of a run finds.** -/
theorem history_reached {P : Game → Prop}
    (kept : ∀ {g g' : Game}, g.Sound → P g → Change (fun _ => True) (· = .heard) g g' → P g') :
    ∀ (actions : List Action) {g : Game}, g.Sound → P g → (∀ a ∈ actions, a.isFinalize = false) →
      ∀ t ∈ g.history actions, t.action ∈ actions ∧ t.before.Sound ∧ P t.before ∧
        t.before.step t.action = .ok t.after
  | [], _, _, _, _, t, ht => by cases ht
  | a :: actions, g, sound, hP, told, t, ht => by
    obtain ⟨g₁, hstep, hc⟩ := step_changes sound a
    rw [Game.history_cons hstep] at ht
    rcases List.mem_cons.mp ht with rfl | ht
    · exact ⟨List.mem_cons_self, sound, hP, hstep⟩
    · have hears : Changes (fun _ => True) (· = .heard) g g₁ :=
        hc.mono (fun _ _ => trivial) fun _ => Action.ends_told (told a List.mem_cons_self)
      obtain ⟨mem, reached⟩ := history_reached kept actions (hc.sound sound)
        (hears.invariant kept sound hP) (fun b hb => told b (List.mem_cons_of_mem a hb)) t ht
      exact ⟨List.mem_cons_of_mem a mem, reached⟩

/-! ### Fresh servers -/

theorem session?_create (config : Config) (world : World) (dispatcher : Dispatcher) (id : SessionId) :
    (Server.create config world dispatcher).session? id = none := rfl

theorem sound_create (config : Config) (world : World) (dispatcher : Dispatcher) :
    Game.Sound { server := Server.create config world dispatcher } := by
  refine ⟨fun {id session} hs => ?_, by simp, by simp⟩
  rw [session?_create] at hs
  cases hs

end BlockWorld
