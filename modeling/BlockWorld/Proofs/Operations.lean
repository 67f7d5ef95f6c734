import BlockWorld.Proofs.Server

/-! # What the operations of a server do

One specification for each operation that is heard: which session it changes, what becomes of the
world, and whom it tells.

* `Becomes`: one session changed, and besides it only the world.
* `start_none`, `start_ended`: who does not begin to look around.
* `column_spec`, `advance_spec`, `settle_spec`: fetches and the end of a pass.
* `finalize_live`, `finalize_ended`: the end of a session that the server does not hear of.
* `removePlayer_live`, `removePlayer_ended`: the end that it does hear of.
* `accept`, `login_cases`: a login, and when it succeeds. -/

namespace BlockWorld.Server

variable {s s' s'' : Server} {id j : SessionId} {session session' session'' : Session}

/-! ### One session changes -/

/-- From `s` to `s'` no session changed, nor did the settings and the counter of ids. -/
structure Keeps (s s' : Server) : Prop where
  config : s'.config = s.config
  dispatcher : s'.dispatcher = s.dispatcher
  nextEntityId : s'.nextEntityId = s.nextEntityId
  size : s'.sessions.size = s.sessions.size
  session? : ∀ j, s'.session? j = s.session? j

theorem Keeps.refl (s : Server) : s.Keeps s := ⟨rfl, rfl, rfl, rfl, fun _ => rfl⟩

theorem Keeps.trans (h : s.Keeps s') (h' : s'.Keeps s'') : s.Keeps s'' where
  config := h'.config.trans h.config
  dispatcher := h'.dispatcher.trans h.dispatcher
  nextEntityId := h'.nextEntityId.trans h.nextEntityId
  size := h'.size.trans h.size
  session? j := (h'.session? j).trans (h.session? j)

theorem Keeps.known (h : s.Keeps s') (hs : s.session? id = some session) :
    s'.session? id = some session := by rw [h.session?, hs]

/-- From `s` to `s'` the session `id` became `session'`; no other session changed, nor did the
settings and the counter of ids. -/
structure Becomes (s : Server) (id : SessionId) (session' : Session) (s' : Server) : Prop where
  config : s'.config = s.config
  dispatcher : s'.dispatcher = s.dispatcher
  nextEntityId : s'.nextEntityId = s.nextEntityId
  size : s'.sessions.size = s.sessions.size
  session? : ∀ j, s'.session? j = if id = j then some session' else s.session? j

theorem Becomes.trans (h : s.Becomes id session' s') (h' : s'.Becomes id session'' s'') :
    s.Becomes id session'' s'' where
  config := h'.config.trans h.config
  dispatcher := h'.dispatcher.trans h.dispatcher
  nextEntityId := h'.nextEntityId.trans h.nextEntityId
  size := h'.size.trans h.size
  session? j := by
    rw [h'.session?, h.session?]
    split <;> rfl

theorem Becomes.self (h : s.Becomes id session' s') : s'.session? id = some session' := by
  rw [h.session?, if_pos rfl]

theorem Becomes.other (h : s.Becomes id session' s') (hj : j ≠ id) :
    s'.session? j = s.session? j := by
  rw [h.session?, if_neg hj.symm]

/-- What relates every session to itself, and this one to what it became, relates all. -/
theorem Becomes.forth {R : Session → Session → Prop} (refl : ∀ session, R session session)
    (h : s.Becomes id session' s') (own : s.session? id = some session) (related : R session session')
    {session₁ : Session} (hj : s.session? j = some session₁) :
    ∃ session₂, s'.session? j = some session₂ ∧ R session₁ session₂ := by
  by_cases hid : j = id
  · subst hid
    rw [own] at hj
    cases hj
    exact ⟨session', h.self, related⟩
  · have kept : s'.session? j = some session₁ := by rw [h.other hid, hj]
    exact ⟨session₁, kept, refl session₁⟩

/-- A session that becomes what it was. -/
theorem Becomes.keeps (h : s.Becomes id session s') (hs : s.session? id = some session) :
    s.Keeps s' := by
  refine ⟨h.config, h.dispatcher, h.nextEntityId, h.size, fun j => ?_⟩
  rw [h.session?]
  split
  · rename_i same; rw [← same, hs]
  · rfl

theorem becomes_absorb (h : s.session? id = some session) (sc : Scene) :
    s.Becomes id sc.session (s.absorb id sc) :=
  ⟨rfl, rfl, rfl, size_absorb sc, fun _ => session?_absorb sc h⟩

/-! ### The beginning of a pass -/

section Start
variable {α : Type} (course : Course) {spawning : Bool} {answer : Report → α} {refused : α}

theorem start_none (h : s.session? id = none) :
    s.start id spawning course.phase answer refused = .ok (.done refused, s) := by
  simp only [start, attempt, h, bind, Except.bind]
  rfl

/-- A finalized session does not look around, and nothing happens. -/
theorem start_ended (stays : course ≠ .enter) (h : s.session? id = some session)
    (ended : session.finalized = true) :
    s.start id spawning course.phase answer refused = .ok (.done refused, s) := by
  rw [start, attempt_eq h (course.phase_ended ended stays), absorb_self h]
  rfl

end Start

/-! ### Fetches -/

theorem exists_column (s : Server) {p : ChunkPos} (h : p.Within columnBound) :
    ∃ f s', s.column p = .ok (f, s') := by
  obtain ⟨f, w', hf⟩ := s.world.exists_fetch h
  unfold column
  rw [hf]
  cases f <;> exact ⟨_, _, rfl⟩

/-- **A fetch that succeeds** changes the world as a fetch does, and nothing else is heard. -/
theorem column_spec {p : ChunkPos} {f : Fetch} (h : s.column p = .ok (f, s')) :
    s.Keeps s' ∧ s'.registry = s.registry ∧ s.world.Fetches p f s'.world := by
  unfold column at h
  cases hf : s.world.fetch p with
  | error e => rw [hf] at h; cases h
  | ok r =>
    obtain ⟨f', w'⟩ := r
    have spec := World.fetch_spec hf
    rw [hf] at h
    cases f' <;> cases h <;> exact ⟨⟨rfl, rfl, rfl, rfl, fun _ => rfl⟩, rfl, spec⟩

theorem exists_advance (s : Server) (pass : Pass) (h : ∀ p ∈ pass.wanted, p.Within columnBound) :
    ∃ pass' s', s.advance pass = .ok (pass', s') := by
  unfold advance
  cases hw : pass.wanted with
  | nil => exact ⟨pass, s, rfl⟩
  | cons p wanted =>
    obtain ⟨f, s', hf⟩ := s.exists_column (h p (by rw [hw]; exact List.mem_cons_self))
    simp only [hf, bind, Except.bind, pure, Except.pure]
    exact ⟨_, _, rfl⟩

/-- From `s` to `s'` the pass `pass` became `pass'` by a fetch: only the world changed, and nobody came
or went in it. -/
structure Advances (s : Server) (pass pass' : Pass) (s' : Server) : Prop where
  keeps : s.Keeps s'
  registry : s'.registry = s.registry
  border : s'.world.border = s.world.border
  loaded : ∀ p, s.world.Loaded p → s'.world.Loaded p
  watched : ∀ p v, s'.world.Watched p v ↔ s.world.Watched p v
  session : pass'.session = pass.session
  spawning : pass'.spawning = pass.spawning
  wanted : ∀ p ∈ pass'.wanted, p ∈ pass.wanted
  fetched : ∀ p ∈ pass'.fetched, p ∈ pass.fetched ∨
    (p ∈ pass.wanted ∧ s.world.Provides p ∧ s'.world.Loaded p)
  /-- A column that is provided is not dropped on the way. -/
  coming : ∀ p, s.world.Provides p → p ∈ pass.wanted ∨ p ∈ pass.fetched →
    p ∈ pass'.wanted ∨ p ∈ pass'.fetched

theorem Advances.refl (s : Server) (pass : Pass) : s.Advances pass pass s :=
  ⟨.refl s, rfl, rfl, fun _ h => h, fun _ _ => Iff.rfl, rfl, rfl, fun _ h => h, fun _ h => Or.inl h,
    fun _ _ h => h⟩

/-- The fetch of the first of the wanted columns, which is kept if it was provided. -/
theorem advances_fetch {pass : Pass} {p : ChunkPos} {wanted : List ChunkPos} {f : Fetch}
    (hw : pass.wanted = p :: wanted) (hcol : s.column p = .ok (f, s')) :
    s.Advances pass { pass with
      wanted := wanted
      fetched := if f.provided then pass.fetched.push p else pass.fetched } s' := by
  obtain ⟨keeps, registry, fetches⟩ := column_spec hcol
  have stays : ∀ q, s.world.Loaded q → s'.world.Loaded q :=
    fun q hq => (fetches.loaded q).mpr (Or.inl hq)
  refine ⟨keeps, registry, fetches.border, stays, fetches.watched, rfl, rfl, ?_, ?_, ?_⟩
  · intro q hq
    rw [hw]
    exact List.mem_cons_of_mem p hq
  · intro q hq
    dsimp only at hq
    split at hq
    · rename_i provided
      rcases Array.mem_push.mp hq with hq | rfl
      · exact Or.inl hq
      · have provides : s.world.Provides q := fetches.provided.mp provided
        have loads : s'.world.Loaded q := (fetches.loaded q).mpr (Or.inr ⟨rfl, provides⟩)
        exact Or.inr ⟨by rw [hw]; exact List.mem_cons_self, provides, loads⟩
    · exact Or.inl hq
  · intro q provides hq
    dsimp only
    rw [hw, List.mem_cons] at hq
    rcases hq with (rfl | hq) | hq
    · rw [if_pos (fetches.provided.mpr provides)]
      exact Or.inr Array.mem_push_self
    · exact Or.inl hq
    · split
      · exact Or.inr (Array.mem_push_of_mem _ hq)
      · exact Or.inr hq

/-- **Advancing a pass** fetches the first of the wanted columns, if any is left. -/
theorem advance_spec {pass pass' : Pass} (h : s.advance pass = .ok (pass', s')) :
    s.Advances pass pass' s' := by
  unfold advance at h
  cases hw : pass.wanted with
  | nil =>
    rw [hw] at h
    cases h
    exact .refl s pass
  | cons p wanted =>
    rw [hw] at h
    obtain ⟨⟨f, s₁⟩, hcol, hrest⟩ := bind_eq_ok h
    cases hrest
    exact advances_fetch hw hcol

/-! ### The end of a pass -/

/-- The end of a spawn changes neither the session nor the world. -/
theorem completeSpawn_spec (sc : Scene) (loaded : Nat) :
    (sc.completeSpawn loaded).1 = !sc.session.finalized ∧
      (sc.completeSpawn loaded).2.session = sc.session ∧
      (sc.completeSpawn loaded).2.world = sc.world ∧
      (sc.completeSpawn loaded).2.sent.toList = sc.sent.toList ++
        if sc.session.finalized then [] else sc.session.entry := by
  unfold Scene.completeSpawn
  cases sc.session.finalized with
  | true => exact ⟨rfl, rfl, rfl, (List.append_nil _).symm⟩
  | false =>
    refine ⟨rfl, rfl, rfl, ?_⟩
    simp [Scene.updateAttributes, Scene.send, Scene.note, Session.entry]

/-- What the second phase made of its scene is what the end of the pass makes of the server; besides,
it tells a player that entered the world so. -/
theorem settle_of_subscribe {pass : Pass} {n : Nat} {sc : Scene}
    (h : s.session? pass.session = some session)
    (hsub : Scene.subscribe { session, world := s.world } pass.fetched.toList = .ok (n, sc)) :
    ∃ s', s.settle pass =
        .ok (⟨pass.culled, n, pass.spawning && !sc.session.finalized⟩, s') ∧
      s.Becomes pass.session sc.session s' ∧ s'.registry = s.registry ∧ s'.world = sc.world ∧
      s.settling pass = (sc.sent.toList ++
        if pass.spawning && !sc.session.finalized then sc.session.entry else []).map
          (⟨some pass.session, sc.session.handle, ·⟩) := by
  have hb := becomes_absorb h sc
  have absorbed : s.attempt pass.session (·.subscribe pass.fetched.toList) =
      .ok (some n, s.absorb pass.session sc) := attempt_eq h hsub
  have said : s.voice pass.session (·.subscribe pass.fetched.toList) =
      sc.sent.toList.map (⟨some pass.session, sc.session.handle, ·⟩) := voice_eq h hsub
  unfold settle settling
  rw [absorbed, said]
  simp only [bind, Except.bind, pure, Except.pure]
  cases pass.spawning with
  | false => exact ⟨_, rfl, hb, rfl, rfl, by simp⟩
  | true =>
    set before : Scene := { session := sc.session, world := (s.absorb pass.session sc).world }
    obtain ⟨answer, hs, hw, hsent⟩ := completeSpawn_spec before n
    have hb' := becomes_absorb hb.self (before.completeSpawn n).2
    rw [hs] at hb'
    have acted : (fun sc : Scene => (.ok (sc.completeSpawn n) : Except Overflow (Bool × Scene)))
        before = .ok ((before.completeSpawn n).1, (before.completeSpawn n).2) := rfl
    have spoken : (s.absorb pass.session sc).voice pass.session
          (fun sc => .ok (sc.completeSpawn n)) =
        (if sc.session.finalized then [] else sc.session.entry).map
          (⟨some pass.session, sc.session.handle, ·⟩) := by
      rw [voice_eq hb.self acted, hs, hsent]
      rfl
    refine ⟨s.absorb pass.session sc |>.absorb pass.session (before.completeSpawn n).2, ?_,
      hb.trans hb', rfl, hw, ?_⟩
    · simp only [if_true, Option.getD_some]
      rw [perform_eq _ hb.self]
      show Except.ok (Report.mk _ _ (before.completeSpawn n).1, _) = _
      rw [answer]
      rfl
    · simp only [if_true, Option.getD_some]
      rw [spoken, List.map_append]
      cases sc.session.finalized <;> rfl

/-- What the end of a pass does to the sessions and the world, and what it says. -/
inductive Settles (s : Server) (pass : Pass) (report : Report) (s' : Server) : Prop
  /-- The session was finalized meanwhile, or never was. -/
  | void (ended : ∀ session, s.session? pass.session = some session → session.finalized = true)
      (keeps : s.Keeps s') (world : s'.world = s.world) (refused : report.spawned = false)
      (silent : s.settling pass = [])
  | live {session : Session} {t' : Tracked} {new : List ChunkPos}
      (own : s.session? pass.session = some session)
      (live : session.finalized = false) (becomes : s.Becomes pass.session (session.track t') s')
      (tracked : ∀ q, q ∈ t' ↔ q ∈ session.tracked ∨
        (q ∈ pass.fetched ∧ InView session.anchor session.viewDistance q))
      (joins : Joins session.viewerId session.tracked t' s.world s'.world)
      (spawned : report.spawned = pass.spawning) (announces : Announces session.tracked t' new)
      (words : s.settling pass = (new.map ChunkPos.announcement ++
        if pass.spawning then session.entry else []).map (⟨some pass.session, session.handle, ·⟩))

/-- At the end of a pass a client is shown columns, and told that its player is in the world. -/
theorem Settles.packet_cases {pass : Pass} {report : Report} (h : s.Settles pass report s')
    {u : Utterance} (hu : u ∈ s.settling pass) :
    (∃ q : ChunkPos, u.packet = q.announcement) ∨ ∃ session : Session, u.packet ∈ session.entry := by
  cases h with
  | void _ _ _ _ silent =>
    rw [silent] at hu
    cases hu
  | live own live becomes tracked joins spawned announces words =>
    rename_i session t' new
    rw [words] at hu
    obtain ⟨p, hp, rfl⟩ := List.mem_map.mp hu
    rcases List.mem_append.mp hp with hp | hp
    · obtain ⟨q, -, rfl⟩ := List.mem_map.mp hp
      exact Or.inl ⟨q, rfl⟩
    · split at hp
      · exact Or.inr ⟨session, hp⟩
      · cases hp

/-- **The end of a pass** adds the fetched columns that are in view now, unless the session was
finalized meanwhile. -/
theorem settle_spec {pass : Pass}
    (sound : ∀ session, s.session? pass.session = some session → session.Sound)
    (near : ∀ p ∈ pass.fetched, p.Within columnBound) :
    ∃ report s', s.settle pass = .ok (report, s') ∧ s'.registry = s.registry ∧
      s.Settles pass report s' := by
  cases h : s.session? pass.session with
  | none =>
    have gone : ∀ session, s.session? pass.session = some session → session.finalized = true :=
      fun _ hs => by rw [h] at hs; cases hs
    have silent : s.settling pass = [] := by
      simp only [settling, attempt, voice_none h, ite_self, List.append_nil, h]
    unfold settle
    simp only [attempt, h, bind, Except.bind, perform_none _ h, pure, Except.pure]
    split <;> exact ⟨_, _, rfl, rfl, .void gone (.refl s) rfl rfl silent⟩
  | some session =>
    cases live : session.finalized with
    | true =>
      obtain ⟨s', hset, hb, hr, hw, words⟩ :=
        settle_of_subscribe h (Scene.subscribe_finalized live pass.fetched.toList)
      have ended : ∀ session, s.session? pass.session = some session → session.finalized = true := by
        intro session' hs
        rw [h] at hs
        cases hs
        exact live
      simp only [live, Bool.not_true, Bool.and_false] at hset words
      exact ⟨_, s', hset, hr, .void ended (hb.keeps h) hw rfl words⟩
    | false =>
      obtain ⟨n, t', sc, new, hsub, hs, hm, hj, hn, hsent⟩ := Scene.subscribe_spec
        { session, world := s.world } pass.fetched.toList live
        (sound session h).within fun p hp => near p (by simpa using hp)
      obtain ⟨s', hset, hb, hr, hw, words⟩ := settle_of_subscribe h hsub
      rw [hs] at hb
      rw [← hw] at hj
      simp only [hs, Session.track_finalized, live, Bool.not_false, Bool.and_true, hsent] at hset words
      exact ⟨_, s', hset, hr, .live h live hb (fun q => by rw [hm]; simp) hj rfl hn words⟩

/-! ### The end of a session -/

theorem finalize_live (h : s.session? id = some session) (live : session.finalized = false) :
    ∃ s', s.perform id (·.finalize) = (some (some ⟨session.anchor, session.spawned⟩), s') ∧
      s.Becomes id session.ended s' ∧ s'.registry = s.registry ∧ s'.outbox = s.outbox ∧
      Follows session.viewerId session.tracked Tracked.empty s.world s'.world := by
  obtain ⟨sc, hfin, hs, hsent, hf⟩ := Scene.finalize_spec { session, world := s.world } live
  have hb := becomes_absorb h sc
  rw [hs] at hb
  refine ⟨s.absorb id sc, by rw [perform_eq _ h, hfin], hb, rfl, ?_, hf⟩
  simp [absorb, hsent]

theorem finalize_ended (h : s.session? id = some session) (ended : session.finalized = true) :
    s.perform id (·.finalize) = (some none, s) := by
  rw [perform_eq _ h, Scene.finalize_finalized { session, world := s.world } ended,
    absorb_self h]

/-- Who is told that the player of the session `id` is gone: those in the game that are spawned and
see the column it was last in. Nobody, if it was not spawned itself. -/
def audience (s : Server) (id : SessionId) (session : Session) : List Member :=
  if session.spawned then (s.registry.peers (member id session)).filter (s.watches session.anchor)
  else []

/-- What `despawnFor` sends. -/
theorem despawnFor_eq (entity : Int64) : ∀ (ms : List Member) (s : Server),
    s.despawnFor entity ms = { s with
      outbox := s.outbox ++ (ms.map fun m => Command.send m.handle (.removeEntity entity)).toArray }
  | [], s => by simp [despawnFor]
  | m :: ms, s => by
    have ih := despawnFor_eq entity ms (s.send m.handle (.removeEntity entity))
    rw [despawnFor] at ih ⊢
    rw [List.foldl_cons, ih]
    simp [send]

/-- The peers of a session see what they saw, whatever that session became. -/
theorem Becomes.watches_peers (h : s.Becomes id session' s') (p : ChunkPos) :
    (s.registry.peers (member id session)).filter (s'.watches p) =
      (s.registry.peers (member id session)).filter (s.watches p) := by
  refine List.filter_congr fun m hm => ?_
  have hne : m.session ≠ id := by
    have := (List.mem_filter.mp hm).2
    simpa [member] using this
  rw [watches, watches, h.other hne]

theorem removePlayer_none (h : s.session? id = none) : s.removePlayer id = (false, s) := by
  simp only [removePlayer, h]

/-- **Removing a live player** ends its session, takes it out of the registry, and tells its
audience, and nobody else, that it is gone. -/
theorem removePlayer_live (h : s.session? id = some session) (live : session.finalized = false) :
    ∃ s', s.removePlayer id = (true, s') ∧ s.Becomes id session.ended s' ∧
      s'.registry = s.registry.unbind (member id session) ∧
      s'.outbox = s.outbox ++ ((s.audience id session).map fun m =>
        Command.send m.handle (.removeEntity session.entityId)).toArray ∧
      Follows session.viewerId session.tracked Tracked.empty s.world s'.world := by
  obtain ⟨s₁, hfin, hb, hr, ho, hf⟩ := finalize_live h live
  have heard : (if session.spawned = true then
      (s.registry.peers (member id session)).filter (s₁.watches session.anchor) else []) =
        s.audience id session := by
    rw [audience, hb.watches_peers]
  have eq : s.removePlayer id = (true, (({ s₁.despawnFor session.entityId (s.audience id session) with
      registry := s.registry.unbind (member id session) } : Server).note
        (.leftGame session.name (s.registry.unbind (member id session)).size
          (s.audience id session).length))) := by
    simp only [removePlayer, h, hfin, Option.join_some, heard]
    rw [despawnFor_eq]
    simp only [hr]
  refine ⟨_, eq, ⟨?_, ?_, ?_, ?_, fun j => ?_⟩, rfl, ?_, ?_⟩
  · rw [despawnFor_eq]; exact hb.config
  · rw [despawnFor_eq]; exact hb.dispatcher
  · rw [despawnFor_eq]; exact hb.nextEntityId
  · rw [despawnFor_eq]; exact hb.size
  · rw [despawnFor_eq]; exact hb.session? j
  · rw [despawnFor_eq]
    show s₁.outbox ++ _ = _
    rw [ho]
  · rw [despawnFor_eq]; exact hf

/-- Removing a player whose session has ended only makes sure that it is not registered. -/
theorem removePlayer_ended (h : s.session? id = some session) (ended : session.finalized = true) :
    s.removePlayer id =
      (false, { s with registry := s.registry.unbind (member id session) }) := by
  simp only [removePlayer, h, finalize_ended h ended, Option.join_some]

/-- What is said when the session `id` is removed: its audience is told that it is gone. -/
def farewell (s : Server) (id : SessionId) : List Utterance :=
  match s.session? id with
  | none => []
  | some session =>
    if session.finalized then []
    else (s.audience id session).map fun m =>
      ⟨some m.session, m.handle, .removeEntity session.entityId⟩

/-- What the end of a session does to the sessions and the world. -/
inductive Ends (s : Server) (id : SessionId) (s' : Server) : Prop
  /-- The session had ended before, or never was. -/
  | void (ended : ∀ session, s.session? id = some session → session.finalized = true)
      (keeps : s.Keeps s') (world : s'.world = s.world)
  | live {session : Session} (own : s.session? id = some session)
      (live : session.finalized = false) (becomes : s.Becomes id session.ended s')
      (follows : Follows session.viewerId session.tracked Tracked.empty s.world s'.world)

theorem Ends.size (h : s.Ends id s') : s'.sessions.size = s.sessions.size := by
  cases h with
  | void _ keeps _ => exact keeps.size
  | live _ _ becomes _ => exact becomes.size

theorem ends_finalize (s : Server) (id : SessionId) : s.Ends id (s.perform id (·.finalize)).2 := by
  cases h : s.session? id with
  | none => rw [perform_none _ h]; exact .void (fun _ hs => by rw [h] at hs; cases hs) (.refl s) rfl
  | some session =>
    cases live : session.finalized with
    | true =>
      rw [finalize_ended h live]
      exact .void (fun _ hs => by rw [h] at hs; cases hs; exact live) (.refl s) rfl
    | false =>
      obtain ⟨s', heq, hb, -, -, hf⟩ := finalize_live h live
      rw [heq]
      exact .live h live hb hf

theorem ends_removePlayer (s : Server) (id : SessionId) : s.Ends id (s.removePlayer id).2 := by
  cases h : s.session? id with
  | none => rw [removePlayer_none h]; exact .void (fun _ hs => by rw [h] at hs; cases hs) (.refl s) rfl
  | some session =>
    cases live : session.finalized with
    | true =>
      rw [removePlayer_ended h live]
      exact .void (fun _ hs => by rw [h] at hs; cases hs; exact live)
        ⟨rfl, rfl, rfl, rfl, fun _ => rfl⟩ rfl
    | false =>
      obtain ⟨s', heq, hb, -, -, hf⟩ := removePlayer_live h live
      rw [heq]
      exact .live h live hb hf

/-! ### Logins -/

/-- The session of a player that logs in now. -/
def newcomer (s : Server) (login : Login) (handle : Handle) : Session :=
  Session.create handle s.nextEntityId (Identity.ofLogin login) s.groups.defaultGroup.group
    s.config.world.spawn s.config.world.defaultViewDistance

/-- The server after a login that nothing stands against. -/
def accept (s : Server) (login : Login) (handle : Handle) : Server :=
  let (m, s') := newPlayer handle login s
  welcome { s' with registry := s.registry.bind login.username handle m } m

/-- What a player is told whose login is accepted now. -/
def greeting (s : Server) (handle : Handle) : List Utterance :=
  [⟨some s.sessions.size, handle, .playStatus .loginSuccess⟩,
    ⟨some s.sessions.size, handle, .resourcePacksInfo {}⟩]

theorem welcome_spec (s : Server) (m : Member) : (s.welcome m).config = s.config ∧
    (s.welcome m).dispatcher = s.dispatcher ∧ (s.welcome m).world = s.world ∧
    (s.welcome m).nextEntityId = s.nextEntityId ∧ (s.welcome m).registry = s.registry ∧
    (s.welcome m).sessions = s.sessions := by
  unfold welcome
  dsimp only
  split <;> exact ⟨rfl, rfl, rfl, rfl, rfl, rfl⟩

/-- The server has one session more, under the next id and registered under its own name and
handle. -/
structure Accepts (s : Server) (newcomer : Session) (s' : Server) : Prop where
  config : s'.config = s.config
  dispatcher : s'.dispatcher = s.dispatcher
  world : s'.world = s.world
  nextEntityId : s'.nextEntityId = s.nextEntityId + 1
  registry : s'.registry =
    s.registry.bind newcomer.name newcomer.handle (member s.sessions.size newcomer)
  size : s'.sessions.size = s.sessions.size + 1
  session? : ∀ j, s'.session? j = if j = s.sessions.size then some newcomer else s.session? j

theorem Accepts.known {newcomer : Session} (h : s.Accepts newcomer s')
    (hs : s.session? id = some session) : s'.session? id = some session := by
  have old : id ≠ s.sessions.size := (session?_lt hs).ne
  rw [h.session?, if_neg old, hs]

theorem Accepts.new {newcomer : Session} (h : s.Accepts newcomer s') :
    s'.session? s.sessions.size = some newcomer := by rw [h.session?, if_pos rfl]

theorem accept_spec (s : Server) (login : Login) (handle : Handle) :
    s.Accepts (s.newcomer login handle) (s.accept login handle) := by
  obtain ⟨hc, hd, hw, hn, hr, hs⟩ := welcome_spec
    { (newPlayer handle login s).2 with
      registry := s.registry.bind login.username handle (newPlayer handle login s).1 }
    (newPlayer handle login s).1
  have pushed : (s.accept login handle).sessions = s.sessions.push (s.newcomer login handle) := hs
  refine ⟨hc, hd, hw, hn, hr, by rw [pushed, Array.size_push], fun j => ?_⟩
  rw [session?, pushed, Array.getElem?_push]
  rfl

/-- What is said to a client that logs in. -/
def loginWords (s : Server) (login : Login) (existing : Option SessionId) (handle : Handle) :
    List Utterance :=
  match existing.bind s.session? with
  | some _ => []
  | none =>
    if login.username.isEmpty then []
    else
      match s.registry.refusal? login.username handle s.config.capacity.toNat with
      | some reason => refusal handle reason
      | none => s.greeting handle

/-- **A login** is turned away with a note, refused by the registry, or accepted. -/
theorem login_cases (s : Server) (login : Login) (existing : Option SessionId) (handle : Handle) :
    (∃ n n', s.loginWords login existing handle = [] ∧
      s.login login existing handle = (.rejected, (s.note n).note n')) ∨
    (∃ reason, s.registry.refusal? login.username handle s.config.capacity.toNat = some reason ∧
      s.loginWords login existing handle = refusal handle reason ∧
      s.login login existing handle = (.rejected, s.refuse handle login.username reason)) ∨
    (login.username.isEmpty = false ∧
      s.registry.refusal? login.username handle s.config.capacity.toNat = none ∧
      s.loginWords login existing handle = s.greeting handle ∧
      s.login login existing handle = (.handled, s.accept login handle)) := by
  unfold Server.login loginWords
  cases existing.bind s.session? with
  | some session => exact Or.inl ⟨_, _, rfl, rfl⟩
  | none =>
    cases hn : login.username.isEmpty with
    | true => exact Or.inl ⟨_, _, rfl, rfl⟩
    | false =>
      refine Or.inr ?_
      cases hr : s.registry.refusal? login.username handle s.config.capacity.toNat with
      | some reason =>
        refine Or.inl ⟨reason, rfl, rfl, ?_⟩
        simp only [Registry.registerWith, hr]
        rfl
      | none =>
        refine Or.inr ⟨rfl, rfl, rfl, ?_⟩
        simp only [Registry.registerWith, hr]
        rfl

end BlockWorld.Server
