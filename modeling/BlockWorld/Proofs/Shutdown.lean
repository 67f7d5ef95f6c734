import BlockWorld.Proofs.Independence

/-! # The end of the game releases everything

At its end the game removes its players one by one, while the others are still registered. Afterwards
nobody is registered, every session there ever was is over, nobody watches anything, and everyone who
was in the game, and nobody else, was told that the server is closed. None of this depends on the order
in which the players are removed.

* `Server.Accounted`, `Change.accounted`: whoever watches a column is a session that tracks it.
* `removeAll_session?`, `removeAll_closes`, …: what becomes of a server whose players are removed.
* `Server.Over`: a server whose game is over; `over_unique`: there is only one way for it to be over.
* `shutdown_releases_everything`: the end of the game after any run. -/

namespace BlockWorld

/-! ### Who watches is accounted for -/

namespace Server

/-- Whoever watches a column is a session that tracks it. -/
def Accounted (s : Server) : Prop :=
  ∀ p v, s.world.Watched p v → ∃ id session, s.session? id = some session ∧
    session.viewerId = v ∧ p ∈ session.tracked

variable {s s' : Server} {id : SessionId} {session session' : Session}

theorem accounted_create (config : Config) {world : World} (dispatcher : Dispatcher)
    (unwatched : ∀ p v, ¬ world.Watched p v) : (Server.create config world dispatcher).Accounted :=
  fun p v watched => absurd watched (unwatched p v)

namespace Accounted

/-- The same sessions with the same columns, in a world in which nobody has begun to watch. -/
theorem transport (h : s.Accounted) (forth : ∀ {id session}, s.session? id = some session →
      ∃ session', s'.session? id = some session' ∧ session'.entityId = session.entityId ∧
        session'.tracked = session.tracked)
    (watched : ∀ p v, s'.world.Watched p v → s.world.Watched p v) : s'.Accounted := by
  intro p v watches
  obtain ⟨id, session, own, rfl, tracks⟩ := h p v (watched p v watches)
  obtain ⟨session', own', entityId, tracked⟩ := forth own
  exact ⟨id, session', own', Session.viewerId_congr entityId, tracked ▸ tracks⟩

theorem keeps (h : s.Accounted) (keeps : s.Keeps s')
    (watched : ∀ p v, s'.world.Watched p v → s.world.Watched p v) : s'.Accounted :=
  h.transport (fun {_ session} own => ⟨session, keeps.known own, rfl, rfl⟩) watched

/-- One session changes its columns, and no longer watches those that it gave up. -/
theorem becomes (h : s.Accounted) (own : s.session? id = some session)
    (becomes : s.Becomes id session' s') (entityId : session'.entityId = session.entityId)
    (watched : ∀ p v, s'.world.Watched p v →
      (s.world.Watched p v ∧ ¬ (v = session.viewerId ∧ p ∈ session.tracked ∧ p ∉ session'.tracked)) ∨
        (v = session.viewerId ∧ p ∈ session'.tracked)) : s'.Accounted := by
  have viewer : session'.viewerId = session.viewerId := Session.viewerId_congr entityId
  intro p v watches
  rcases watched p v watches with ⟨before, kept⟩ | ⟨rfl, tracks⟩
  · obtain ⟨j, session₁, hj, rfl, tracks⟩ := h p v before
    by_cases same : j = id
    · subst same
      rw [own] at hj
      cases hj
      have tracks' : p ∈ session'.tracked := by_contra fun gone => kept ⟨rfl, tracks, gone⟩
      exact ⟨j, session', becomes.self, viewer, tracks'⟩
    · exact ⟨j, session₁, (becomes.other same).trans hj, rfl, tracks⟩
  · exact ⟨id, session', becomes.self, viewer, tracks⟩

theorem follows (h : s.Accounted) (own : s.session? id = some session)
    (becomes : s.Becomes id session' s') (entityId : session'.entityId = session.entityId)
    (follows : Follows session.viewerId session.tracked session'.tracked s.world s'.world) :
    s'.Accounted :=
  h.becomes own becomes entityId fun p v watches =>
    ((follows.watched p v).mp watches).imp_right fun ⟨mine, _, tracks⟩ => ⟨mine, tracks⟩

theorem ends (h : s.Accounted) (ends : s.Ends id s') : s'.Accounted := by
  cases ends with
  | void _ keeps world => exact h.keeps keeps fun p v watches => world ▸ watches
  | live own _ becomes follows => exact h.follows own becomes rfl follows

end Accounted

end Server

/-- **Who watches stays accounted for.** -/
theorem Change.accounted {acts : SessionId → Prop} {ends : Ending → Prop} {g g' : Game}
    (c : Change acts ends g g') (sound : g.Sound) (h : g.server.Accounted) : g'.server.Accounted := by
  obtain ⟨us, c⟩ := c
  cases c with
  | aside c =>
    refine h.transport (fun {id session} own => ?_) fun p v watches => c.quiet.world ▸ watches
    obtain ⟨session', own', alike⟩ := c.quiet.session_of own
    exact ⟨session', own', alike.entityId, alike.tracked⟩
  | login named free =>
    have spec := g.server.accept_spec
    exact h.transport (fun {_ session} own => ⟨session, (spec _ _).known own, rfl, rfl⟩)
      fun p v watches => (spec _ _).world ▸ watches
  | setViewDistance act v =>
    refine h.transport (fun {id session} own => ?_) fun p v watches => watches
    rw [Server.session?_update, own]
    split
    · exact ⟨_, rfl, rfl, rfl⟩
    · exact ⟨session, rfl, rfl, rfl⟩
  | finalize _ act => exact h.ends (g.server.ends_finalize _)
  | remove _ act => exact h.ends (g.server.ends_removePlayer _)
  | look act own live fresh phase =>
    rename_i id session course glance sc
    obtain ⟨t', hs, -, -, follows⟩ := looked live (sound.session own) phase
    have becomes := Server.becomes_absorb own sc
    rw [hs] at becomes
    exact h.follows own becomes (by simp) follows
  | fetch c =>
    obtain ⟨keeps, -, fetches⟩ := Server.column_spec c
    exact h.keeps keeps fun p v => (fetches.watched p v).mp
  | edit p c =>
    exact h.transport (fun {_ session} own => ⟨session, own, rfl, rfl⟩)
      fun q v => (World.watched_modify c).mp
  | advance own act c =>
    have advances := Server.advance_spec c
    exact h.keeps advances.keeps fun p v => (advances.watched p v).mp
  | settle own act idle c =>
    obtain ⟨-, settles⟩ := sound.settled own c
    cases settles with
    | void _ keeps world => exact h.keeps keeps fun p v watches => world ▸ watches
    | live own' _ becomes _ joins =>
      refine h.becomes own' becomes rfl fun p v watches => ?_
      rcases (joins.watched p v).mp watches with before | ⟨-, mine, -, tracks⟩
      · exact Or.inl ⟨before, fun ⟨_, tracks, gone⟩ => gone (joins.grows p tracks)⟩
      · exact Or.inr ⟨mine, tracks⟩

theorem Changes.accounted {acts : SessionId → Prop} {ends : Ending → Prop} {g g' : Game}
    (c : Changes acts ends g g') (sound : g.Sound) (h : g.server.Accounted) : g'.server.Accounted :=
  c.invariant (P := fun g => g.server.Accounted) (fun sound h c => c.accounted sound h) sound h

/-! ### Players that are removed -/

/-- A session that has ended is what it would be after its end. -/
theorem Session.Sound.ended_eq {session : Session} (h : session.Sound)
    (ended : session.finalized = true) : session.ended = session := by
  have tracked : session.tracked = Tracked.empty := Tracked.eq_empty (h.released ended)
  have despawned := h.despawned ended
  cases session
  simp_all [Session.ended]

theorem Scene.entitiesAt_finalize (sc : Scene) (p : ChunkPos) :
    sc.finalize.2.world.entitiesAt p = sc.world.entitiesAt p := by
  have released : ∀ (ps : List ChunkPos) (sc : Scene),
      (ps.foldl release sc).world.entitiesAt p = sc.world.entitiesAt p := by
    intro ps
    induction ps with
    | nil => exact fun _ => rfl
    | cons q ps ih => exact fun sc => (ih _).trans World.entitiesAt_removeViewer
  unfold finalize
  split
  · rfl
  · exact released _ _

namespace Server

variable {s s' : Server} {id : SessionId} {session : Session}

/-- What removing one player after the other makes of the sessions, and leaves of the rest. -/
structure Clears (s : Server) (ids : List SessionId) (s' : Server) : Prop where
  size : s'.sessions.size = s.sessions.size
  session? : ∀ j, s'.session? j =
    if j ∈ ids then (s.session? j).map Session.ended else s.session? j
  border : s'.world.border = s.world.border
  loaded : ∀ p, s'.world.Loaded p ↔ s.world.Loaded p
  entities : ∀ p, s'.world.entitiesAt p = s.world.entitiesAt p

theorem Clears.refl (s : Server) : s.Clears [] s :=
  ⟨rfl, fun _ => rfl, rfl, fun _ => Iff.rfl, fun _ => rfl⟩

theorem Clears.cons {ids : List SessionId} {s'' : Server} (h : s.Clears [id] s')
    (h' : s'.Clears ids s'') : s.Clears (id :: ids) s'' where
  size := h'.size.trans h.size
  session? j := by
    have twice : Session.ended ∘ Session.ended = Session.ended := rfl
    rw [h'.session?, h.session?]
    by_cases first : j = id <;> by_cases later : j ∈ ids <;> simp [first, later, twice]
  border := h'.border.trans h.border
  loaded p := (h'.loaded p).trans (h.loaded p)
  entities p := (h'.entities p).trans (h.entities p)

theorem entitiesAt_removePlayer (s : Server) (id : SessionId) (p : ChunkPos) :
    (s.removePlayer id).2.world.entitiesAt p = s.world.entitiesAt p := by
  unfold removePlayer
  cases own : s.session? id with
  | none => rfl
  | some session =>
    have kept := Scene.entitiesAt_finalize { session, world := s.world } p
    rw [perform_eq _ own]
    dsimp only
    split
    · exact kept
    · rw [despawnFor_eq]
      exact kept

/-- **Removing a player** ends its session. -/
theorem clears_removePlayer (sound : ∀ session, s.session? id = some session → session.Sound) :
    s.Clears [id] (s.removePlayer id).2 := by
  have entities := s.entitiesAt_removePlayer id
  cases s.ends_removePlayer id with
  | void ended keeps world =>
    refine ⟨keeps.size, fun j => ?_, congrArg World.border world, fun p => by rw [world], entities⟩
    rw [keeps.session?]
    simp only [List.mem_singleton]
    split
    · rename_i same
      subst same
      cases own : s.session? j with
      | none => rfl
      | some session =>
        exact congrArg some ((sound session own).ended_eq (ended session own)).symm
    · rfl
  | live own live becomes follows =>
    refine ⟨becomes.size, fun j => ?_, follows.border, follows.loaded, entities⟩
    rw [becomes.session?]
    simp only [List.mem_singleton]
    by_cases same : id = j
    · subst same
      rw [if_pos rfl, if_pos rfl, own]
      rfl
    · rw [if_neg same, if_neg (Ne.symm same)]

/-- A removal closes no connection. -/
theorem closes_removePlayer (s : Server) (id : SessionId) :
    (s.removePlayer id).2.closes = s.closes := by
  cases own : s.session? id with
  | none => rw [removePlayer_none own]
  | some session =>
    cases live : session.finalized with
    | true => rw [removePlayer_ended own live]; rfl
    | false =>
      obtain ⟨s', removed, -, -, outbox, -⟩ := removePlayer_live own live
      have silent : ∀ ms : List Member, (ms.map fun m =>
          Command.send m.handle (.removeEntity session.entityId)).filterMap Command.closed? = [] := by
        intro ms
        rw [List.filterMap_map]
        exact List.filterMap_eq_nil_iff.mpr fun _ _ => rfl
      rw [removed, closes, outbox, Array.toList_append, List.filterMap_append, silent,
        List.append_nil, closes]

/-- **Removing players one after the other** ends their sessions. -/
theorem clears_removeAll : ∀ (ms : List Member) {s : Server},
    (∀ {id session}, s.session? id = some session → session.Sound) →
      s.Clears (ms.map Member.session) (s.removeAll ms)
  | [], s, _ => .refl s
  | m :: ms, s, sound => by
    have first := clears_removePlayer fun session (own : s.session? m.session = some session) =>
      sound own
    have closed : s.Clears [m.session] ((s.removePlayer m.session).2.close m.handle "Server closed") :=
      ⟨first.size, first.session?, first.border, first.loaded, first.entities⟩
    exact closed.cons (clears_removeAll ms fun own => (s.ends_removePlayer m.session).sound sound own)

/-- **Each of their connections is closed**, and no other. -/
theorem closes_removeAll : ∀ (ms : List Member) (s : Server),
    (s.removeAll ms).closes = s.closes ++ ms.map fun m => (m.handle, "Server closed")
  | [], s => (List.append_nil _).symm
  | m :: ms, s => by
    have closed : ((s.removePlayer m.session).2.close m.handle "Server closed").closes =
        s.closes ++ [(m.handle, "Server closed")] := by
      rw [← closes_removePlayer s m.session]
      simp [close, closes, Command.closed?]
    have rest := closes_removeAll ms ((s.removePlayer m.session).2.close m.handle "Server closed")
    rw [closed, List.append_assoc] at rest
    exact rest

/-! ### The end of the game -/

/-- Nobody is registered, every session there ever was is over, and nobody watches anything. -/
structure Over (s : Server) : Prop where
  registry : s.registry = {}
  finalized : ∀ id session, s.session? id = some session → session.finalized = true
  despawned : ∀ id session, s.session? id = some session → session.spawned = false
  released : ∀ id session, s.session? id = some session → ∀ p, p ∉ session.tracked
  unwatched : ∀ p v, ¬ s.world.Watched p v

/-- Where every session has ended nobody is registered. -/
theorem Enrolled.registry_eq (h : s.Enrolled)
    (ended : ∀ id session, s.session? id = some session → session.finalized = true) :
    s.registry = {} := by
  have nameless : ∀ name, s.registry.byName? name = none := by
    intro name
    refine Option.eq_none_iff_forall_ne_some.mpr fun m bound => ?_
    obtain ⟨session, own, live, -⟩ := h.member bound
    rw [ended _ session own] at live
    cases live
  have unbound : ∀ handle, s.registry.byHandle? handle = none := by
    intro handle
    refine Option.eq_none_iff_forall_ne_some.mpr fun m bound => ?_
    have named := (h.paired.handle bound).2
    rw [nameless] at named
    cases named
  exact Registry.eq_empty nameless unbound

end Server

section Over

open Server

variable {g : Game}

/-- **Once everyone who is registered is removed**, in whatever order, the game is over. -/
theorem over_removeAll (sound : g.Sound) (enrolled : g.server.Enrolled) (accounted : g.server.Accounted)
    {ms : List Member} (all : ∀ m ∈ g.server.registry.players, m ∈ ms) :
    (g.server.removeAll ms).Over := by
  have removals : Turns (fun _ => True) (· = .heard) g _ { g with server := g.server.removeAll ms } :=
    turns_removeAll (by rfl) ms g.server fun _ _ => trivial
  have sound' := removals.changes.sound sound
  have enrolled' := removals.changes.enrolled sound enrolled
  have accounted' := removals.changes.accounted sound accounted
  have clears := clears_removeAll ms sound.session
  have finalized : ∀ id session, (g.server.removeAll ms).session? id = some session →
      session.finalized = true := by
    intro id session own
    rw [clears.session?] at own
    split at own
    · obtain ⟨before, -, rfl⟩ := Option.map_eq_some_iff.mp own
      rfl
    · rename_i spared
      by_contra lives
      have registered : member id session ∈ g.server.registry.players :=
        enrolled.mem_players.mpr ⟨session, own, Bool.eq_false_iff.mpr lives, rfl⟩
      exact spared (List.mem_map.mpr ⟨_, all _ registered, rfl⟩)
  refine ⟨enrolled'.registry_eq finalized, finalized, ?_, ?_, ?_⟩
  · exact fun id session own => (sound'.session own).despawned (finalized id session own)
  · exact fun id session own => (sound'.session own).released (finalized id session own)
  · intro p v watched
    obtain ⟨id, session, own, -, tracks⟩ := accounted' p v watched
    exact (sound'.session own).released (finalized id session own) p tracks

/-- **There is only one way for the game to be over**, once the same players are removed. -/
theorem over_unique (sound : g.Sound) {ms ms' : List Member} (same : ∀ m, m ∈ ms ↔ m ∈ ms')
    (isOver : (g.server.removeAll ms).Over) (isOver' : (g.server.removeAll ms').Over) :
    (g.server.removeAll ms').registry = (g.server.removeAll ms).registry ∧
      (g.server.removeAll ms').sessions = (g.server.removeAll ms).sessions ∧
      (g.server.removeAll ms').world = (g.server.removeAll ms).world := by
  have clears := clears_removeAll ms sound.session
  have clears' := clears_removeAll ms' sound.session
  refine ⟨isOver'.registry.trans isOver.registry.symm, Array.ext_getElem? fun j => ?_,
    World.eq_of_observed (clears'.border.trans clears.border.symm)
      (fun p => (clears'.loaded p).trans (clears.loaded p).symm)
      (fun p => (clears'.entities p).trans (clears.entities p).symm)
      fun p v => iff_of_false (isOver'.unwatched p v) (isOver.unwatched p v)⟩
  have removed : j ∈ ms'.map Member.session ↔ j ∈ ms.map Member.session := by
    simp only [List.mem_map, same]
  show (g.server.removeAll ms').session? j = (g.server.removeAll ms).session? j
  rw [clears.session?, clears'.session?]
  simp only [removed]

end Over

/-- **The end of the game releases everything.** Take a fresh server in whose world nobody watches, any
run in which it hears of every end, and then any events with ticks between them. Once it is shut down
the game is over: nobody is registered, every session there ever was is finalized, not spawned and
tracks nothing, and nobody watches a column. In the shutdown one connection is closed for each player
that was in the game when it began, which are the sessions that had not ended by then, and no other.
The order in which the players are removed makes no difference to the registry, the sessions and the
world. -/
theorem shutdown_releases_everything (config : Config) (world : World) (dispatcher : Dispatcher)
    (unwatched : ∀ p v, ¬ world.Watched p v) (actions : List Action)
    (told : ∀ a ∈ actions, a.isFinalize = false) (inputs : List Input) :
    ∃ g, Game.run { server := Server.create config world dispatcher } actions = .ok g ∧
      ∃ outcomes s, g.server.live inputs = .ok (outcomes, s) ∧
        (config.world.tickInterval ≠ 0 → g.server.runTicking inputs = .ok s.shutdown) ∧
        s.shutdown.Over ∧ s.shutdown.sessions.size = s.sessions.size ∧
        s.shutdown.closes =
          s.closes ++ s.registry.players.map (fun m => (m.handle, "Server closed")) ∧
        (s.registry.players.map Member.handle).Nodup ∧
        (∀ m, m ∈ s.registry.players ↔ ∃ session, s.session? m.session = some session ∧
          session.finalized = false ∧ m = Server.member m.session session) ∧
        ∀ ms : List Member, ms.Perm s.registry.players →
          let t := (s.note (.shuttingDown s.registry.players.length)).removeAll ms
          t.registry = s.shutdown.registry ∧ t.sessions = s.shutdown.sessions ∧
            t.world = s.shutdown.world ∧ t.closes.Perm s.shutdown.closes := by
  have fresh := sound_create config world dispatcher
  obtain ⟨g, hrun, played⟩ := run_told fresh told
  obtain ⟨outcomes, g', lives, served⟩ := live_changes inputs (played.sound fresh)
  have changes : Changes (fun _ => True) (· = .heard) _ g' := played.trans served
  have sound := changes.sound fresh
  have enrolled := changes.enrolled fresh (Server.enrolled_create config world dispatcher)
  have accounted := changes.accounted fresh (Server.accounted_create config dispatcher unwatched)
  -- the players are removed from the server that has noted how many there are
  set players := g'.server.registry.players
  have noted : Change (fun _ => True) (· = .heard) g'
      { g' with server := g'.server.note (.shuttingDown players.length) } :=
    ⟨[], .aside g' (.note _ _)⟩
  have isOver : ∀ {ms : List Member}, (∀ m ∈ players, m ∈ ms) →
      ((g'.server.note (.shuttingDown players.length)).removeAll ms).Over := fun all =>
    over_removeAll (noted.sound sound) (noted.enrolled sound enrolled) (noted.accounted sound accounted)
      all
  have closes (ms : List Member) := Server.closes_removeAll ms
    (g'.server.note (.shuttingDown players.length))
  refine ⟨g, hrun, outcomes, g'.server, lives, fun ticking => ?_, isOver fun m hm => hm,
    (Server.clears_removeAll players (noted.sound sound).session).size, closes players,
    enrolled.paired.nodup_handles, fun m => enrolled.mem_players, fun ms order => ?_⟩
  · have settings : g.server.config = config := (played.settings fresh).config
    rw [← settings] at ticking
    rw [Server.runTicking, if_neg ticking, lives]
  · have same : ∀ m, m ∈ players ↔ m ∈ ms := fun m => order.mem_iff.symm
    obtain ⟨registry, sessions, world⟩ := over_unique (noted.sound sound) same
      (isOver fun m hm => hm) (isOver fun m hm => (same m).mp hm)
    refine ⟨registry, sessions, world, ?_⟩
    show (Server.removeAll _ ms).closes.Perm (Server.removeAll _ players).closes
    rw [closes, closes]
    exact (order.map _).append_left _

/-- Three players log in, one of them with the clock ticking, and one has left before the end. -/
theorem shutdown_releases_everything_three :
    let login (name : String) : Packet := .login { username := name }
    let actions : List Action :=
      [.packet ⟨1⟩ (login "ada"), .packet ⟨2⟩ (login "bob"), .disconnect ⟨1⟩]
    let inputs : List Input := [.tick, .event (.packet ⟨3⟩ (login "cleo")), .tick]
    (∀ p v, ¬ (⟨none, ∅⟩ : World).Watched p v) ∧ (∀ a ∈ actions, a.isFinalize = false) ∧
      (∃ g, Game.run { server := Server.create {} ⟨none, ∅⟩ .standard } actions = .ok g ∧
        ∃ outcomes s, g.server.live inputs = .ok (outcomes, s) ∧ s.shutdown.Over) ∧
      (do
        let g ← Game.run { server := Server.create {} ⟨none, ∅⟩ .standard } actions
        let (_, s) ← g.server.live inputs
        return s.shutdown.closes).toOption =
          some [(⟨2⟩, "Server closed"), (⟨3⟩, "Server closed")] := by
  intro login actions inputs
  have unwatched : ∀ p v, ¬ (⟨none, ∅⟩ : World).Watched p v := fun _ _ => World.not_watched_empty
  have told : ∀ a ∈ actions, a.isFinalize = false := by decide
  obtain ⟨g, hrun, outcomes, s, lives, -, isOver, -⟩ :=
    shutdown_releases_everything {} ⟨none, ∅⟩ .standard unwatched actions told inputs
  exact ⟨unwatched, told, ⟨g, hrun, outcomes, s, lives, isOver⟩, by decide +kernel⟩

end BlockWorld
