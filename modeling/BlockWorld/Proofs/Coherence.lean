import BlockWorld.Proofs.Run

/-! # Viewers and tracked columns agree

Who watches a column is stored twice: a column lists its viewers, and a session lists the columns it
tracks. The two are changed in different places, and always together.

Viewer ids are words. They come from a counter that comes round after `2 ^ 64` logins, and two
sessions that share an id cannot be told apart by a column. So the agreement is stated for a session
whose id is its own (`Server.Sole`), and `viewerId_eq_iff` says exactly which sessions share one.

* `Game.Coherent`, `Change.coherent`: the invariant, and that it survives every change.
* `coherent_becomes`: the step behind it, one session that changes its columns.
* `viewers_coherent`: the agreement after a run from a fresh server. -/

namespace BlockWorld

variable {acts : SessionId → Prop} {ends : Ending → Prop} {g g' : Game}

/-! ### Ids -/

/-- No other session has the viewer id of the session `id`. -/
def Server.Sole (s : Server) (id : SessionId) (session : Session) : Prop :=
  ∀ j session', s.session? j = some session' → session'.viewerId = session.viewerId → j = id

theorem ofNat_toUInt64_eq_iff (m n : Nat) :
    (Int64.ofNat m).toUInt64 = (Int64.ofNat n).toUInt64 ↔ m % 2 ^ 64 = n % 2 ^ 64 := by
  rw [← UInt64.toBitVec_inj, ← BitVec.toNat_inj]
  show (BitVec.ofNat 64 m).toNat = (BitVec.ofNat 64 n).toNat ↔ _
  rw [BitVec.toNat_ofNat, BitVec.toNat_ofNat]

/-! ### The invariant -/

/-- Ids are given in the order of creation; what is tracked or fetched is loaded; whoever watches a
column is a session, and a session whose id is its own watches exactly the columns it tracks. -/
structure Game.Coherent (g : Game) : Prop where
  ids : ∀ {id session}, g.server.session? id = some session → session.entityId = Int64.ofNat (id + 1)
  next : g.server.nextEntityId = Int64.ofNat (g.server.sessions.size + 1)
  loaded : ∀ {id session}, g.server.session? id = some session →
    ∀ p ∈ session.tracked, g.server.world.Loaded p
  fetched : ∀ pass ∈ g.passes, ∀ p ∈ pass.fetched, g.server.world.Loaded p
  known : ∀ {p v}, g.server.world.Watched p v →
    ∃ id session, g.server.session? id = some session ∧ session.viewerId = v
  watched : ∀ {id session}, g.server.session? id = some session → g.server.Sole id session →
    ∀ p, g.server.world.Watched p session.viewerId ↔ p ∈ session.tracked

/-- **Two sessions share a viewer id** exactly if a multiple of `2 ^ 64` logins lies between them. -/
theorem Game.Coherent.viewerId_eq_iff (h : g.Coherent) {i j : SessionId} {session session' : Session}
    (hi : g.server.session? i = some session) (hj : g.server.session? j = some session') :
    session.viewerId = session'.viewerId ↔ i % 2 ^ 64 = j % 2 ^ 64 := by
  rw [Session.viewerId, Session.runtimeId, Session.viewerId, Session.runtimeId, h.ids hi, h.ids hj,
    ViewerId.mk.injEq, ofNat_toUInt64_eq_iff]
  have shift : ∀ m n : Nat, (m + 1) % 2 ^ 64 = (n + 1) % 2 ^ 64 ↔ m % 2 ^ 64 = n % 2 ^ 64 := by omega
  exact shift i j

/-- A session whose id is its own had it for its own before. -/
theorem Server.Sole.before {s s' : Server} {id : SessionId} {session session' : Session}
    (h : s'.Sole id session') (hid : session'.viewerId = session.viewerId)
    (hs : ∀ {j session}, s.session? j = some session →
      ∃ session', s'.session? j = some session' ∧ session'.entityId = session.entityId) :
    s.Sole id session := by
  intro j session₁ hj hv
  obtain ⟨session₂, hj', he⟩ := hs hj
  exact h j session₂ hj' (by rw [Session.viewerId_congr he, hv, hid])

/-- The same sessions with the same columns, in a world with the same viewers. -/
theorem Game.Coherent.transport (h : g.Coherent) {s : Server} {passes : List Pass}
    {lookers : Finset SessionId} (next : s.nextEntityId = g.server.nextEntityId)
    (size : s.sessions.size = g.server.sessions.size)
    (session : ∀ {id session}, g.server.session? id = some session → ∃ session',
      s.session? id = some session' ∧ session'.entityId = session.entityId ∧
        session'.tracked = session.tracked)
    (loaded : ∀ p, g.server.world.Loaded p → s.world.Loaded p)
    (watched : ∀ p v, s.world.Watched p v ↔ g.server.world.Watched p v)
    (fetched : ∀ pass ∈ passes, ∀ p ∈ pass.fetched, s.world.Loaded p) :
    Game.Coherent { server := s, passes, lookers } := by
  have back : ∀ {id session'}, s.session? id = some session' → ∃ session,
      g.server.session? id = some session ∧ session'.entityId = session.entityId ∧
        session'.tracked = session.tracked := Server.session?_back size session
  refine ⟨?_, ?_, ?_, fetched, ?_, ?_⟩
  · intro id session' hs'
    obtain ⟨_, hs, he, -⟩ := back hs'
    rw [he, h.ids hs]
  · rw [next, size]
    exact h.next
  · intro id session' hs' p hp
    obtain ⟨_, hs, -, ht⟩ := back hs'
    rw [ht] at hp
    exact loaded p (h.loaded hs p hp)
  · intro p v hw
    obtain ⟨id, session₁, hs, rfl⟩ := h.known ((watched p v).mp hw)
    obtain ⟨session', hs', he, -⟩ := session hs
    exact ⟨id, session', hs', Session.viewerId_congr he⟩
  · intro id session' hs' sole p
    obtain ⟨session₁, hs, he, ht⟩ := back hs'
    have hv : session'.viewerId = session₁.viewerId := Session.viewerId_congr he
    have sole' : g.server.Sole id session₁ := sole.before hv fun hj => by
      obtain ⟨session', hj', he, -⟩ := session hj
      exact ⟨session', hj', he⟩
    rw [watched, hv, ht]
    exact h.watched hs sole' p

theorem Game.Coherent.keeps (h : g.Coherent) {s : Server} {passes : List Pass}
    {lookers : Finset SessionId} (keeps : g.server.Keeps s)
    (loaded : ∀ p, g.server.world.Loaded p → s.world.Loaded p)
    (watched : ∀ p v, s.world.Watched p v ↔ g.server.world.Watched p v)
    (fetched : ∀ pass ∈ passes, ∀ p ∈ pass.fetched, s.world.Loaded p) :
    Game.Coherent { server := s, passes, lookers } :=
  h.transport keeps.nextEntityId keeps.size
    (fun {_ session} hs => ⟨session, keeps.known hs, rfl, rfl⟩) loaded watched fetched

/-- **One session changes its columns and the world follows.** The columns of a session whose id is its
own are then watched as they should be, and all others as before. -/
theorem coherent_becomes (h : g.Coherent) {s : Server} {id : SessionId} {session session' : Session}
    {passes : List Pass} {lookers : Finset SessionId} (own : g.server.session? id = some session)
    (becomes : g.server.Becomes id session' s) (entityId : session'.entityId = session.entityId)
    (follows : Follows session.viewerId session.tracked session'.tracked g.server.world s.world)
    (loaded : ∀ p ∈ session'.tracked, g.server.world.Loaded p)
    (fetched : ∀ pass ∈ passes, ∀ p ∈ pass.fetched, g.server.world.Loaded p) :
    Game.Coherent { server := s, passes, lookers } := by
  have hv : session'.viewerId = session.viewerId := Session.viewerId_congr entityId
  have forth : ∀ {j session₁}, g.server.session? j = some session₁ → ∃ session₂,
      s.session? j = some session₂ ∧ session₂.entityId = session₁.entityId :=
    becomes.forth (R := fun session₁ session₂ => session₂.entityId = session₁.entityId)
      (fun _ => rfl) own entityId
  refine ⟨?_, ?_, ?_, ?_, ?_, ?_⟩
  · intro j session₂ hj
    rw [becomes.session?] at hj
    split at hj
    · rename_i same
      cases hj
      rw [entityId, h.ids own, same]
    · exact h.ids hj
  · rw [becomes.nextEntityId, becomes.size]
    exact h.next
  · intro j session₂ hj p hp
    rw [follows.loaded]
    rw [becomes.session?] at hj
    split at hj
    · cases hj
      exact loaded p hp
    · exact h.loaded hj p hp
  · intro pass hpass p hp
    exact (follows.loaded p).mpr (fetched pass hpass p hp)
  · intro p v hw
    have before : ∃ j session₁, g.server.session? j = some session₁ ∧ session₁.viewerId = v := by
      rcases (follows.watched p v).mp hw with ⟨hw, -⟩ | ⟨rfl, -⟩
      · exact h.known hw
      · exact ⟨id, session, own, rfl⟩
    obtain ⟨j, session₁, hj, rfl⟩ := before
    obtain ⟨session₂, hj', he⟩ := forth hj
    exact ⟨j, session₂, hj', Session.viewerId_congr he⟩
  · intro j session₂ hj sole p
    rw [follows.watched]
    by_cases hid : id = j
    · subst hid
      rw [becomes.self] at hj
      cases hj
      have watched := h.watched own (sole.before hv forth) p
      rw [hv, watched]
      tauto
    · have hj' := hj
      rw [becomes.other (Ne.symm hid)] at hj'
      have apart : session₂.viewerId ≠ session.viewerId := by
        intro he
        exact hid (sole id session' becomes.self (by rw [hv, he]))
      rw [h.watched hj' (sole.before rfl forth) p]
      tauto

/-! ### Changes -/

theorem coherent_login (h : g.Coherent) (login : Login) (handle : Handle) :
    Game.Coherent { g with server := g.server.accept login handle } := by
  have spec := g.server.accept_spec login handle
  have entityId : (g.server.newcomer login handle).entityId = g.server.nextEntityId := rfl
  have forth : ∀ {j session₁}, g.server.session? j = some session₁ → ∃ session₂,
      (g.server.accept login handle).session? j = some session₂ ∧
        session₂.entityId = session₁.entityId := fun {j session₁} hj =>
    ⟨session₁, spec.known hj, rfl⟩
  have own : (g.server.accept login handle).session? g.server.sessions.size =
      some (g.server.newcomer login handle) := spec.new
  refine ⟨?_, ?_, ?_, ?_, ?_, ?_⟩
  · intro j session₂ hj
    rw [spec.session?] at hj
    split at hj
    · rename_i same
      cases hj
      rw [entityId, h.next, same]
    · exact h.ids hj
  · rw [spec.nextEntityId, spec.size, h.next]
    exact (Int64.ofNat_add _ 1).symm
  · intro j session₂ hj p hp
    rw [spec.world]
    rw [spec.session?] at hj
    split at hj
    · cases hj
      exact absurd hp Tracked.not_mem_empty
    · exact h.loaded hj p hp
  · rw [spec.world]
    exact h.fetched
  · intro p v hw
    rw [spec.world] at hw
    obtain ⟨j, session₁, hj, rfl⟩ := h.known hw
    obtain ⟨session₂, hj', he⟩ := forth hj
    exact ⟨j, session₂, hj', Session.viewerId_congr he⟩
  · intro j session₂ hj sole p
    rw [spec.world]
    rw [spec.session?] at hj
    split at hj
    · -- nobody watches under the newcomer's id, for that would be somebody else's
      rename_i same
      cases hj
      refine iff_of_false (fun hw => ?_) Tracked.not_mem_empty
      obtain ⟨i, session₁, hi, he⟩ := h.known hw
      obtain ⟨session₂, hi', he'⟩ := forth hi
      have sameId : session₂.viewerId = (g.server.newcomer login handle).viewerId := by
        rw [Session.viewerId_congr he', he]
      have new : i = j := sole i session₂ hi' sameId
      exact (Server.session?_lt hi).ne (new.trans same)
    · exact h.watched hj (sole.before rfl forth) p

theorem coherent_ends (h : g.Coherent) {id : SessionId} {s : Server} (ends : g.server.Ends id s) :
    Game.Coherent { g with server := s } := by
  cases ends with
  | void _ keeps world =>
    exact h.keeps keeps (fun p hp => by rwa [world]) (fun p v => by rw [world])
      (by rw [world]; exact h.fetched)
  | live own _ becomes follows =>
    refine coherent_becomes h own becomes rfl follows ?_ h.fetched
    intro p hp
    exact absurd hp Tracked.not_mem_empty

theorem coherent_advance (h : g.Coherent) {i : Nat} {pass pass' : Pass} {s : Server}
    (own : g.passes[i]? = some pass) (hadv : g.server.advance pass = .ok (pass', s)) :
    Game.Coherent { g with server := s, passes := g.passes.set i pass' } := by
  have mem : pass ∈ g.passes := List.mem_of_getElem? own
  have advances := Server.advance_spec hadv
  refine h.keeps advances.keeps advances.loaded advances.watched ?_
  intro q hq p hp
  rcases List.mem_or_eq_of_mem_set hq with hq | rfl
  · exact advances.loaded p (h.fetched q hq p hp)
  · rcases advances.fetched p hp with hp | ⟨-, -, loaded⟩
    · exact advances.loaded p (h.fetched pass mem p hp)
    · exact loaded

theorem coherent_settle (sound : g.Sound) (h : g.Coherent) {i : Nat} {pass : Pass} {report : Report}
    {s : Server} (own : g.passes[i]? = some pass) (hset : g.server.settle pass = .ok (report, s)) :
    Game.Coherent { g with server := s, passes := g.passes.eraseIdx i } := by
  have mem : pass ∈ g.passes := List.mem_of_getElem? own
  have fetched : ∀ q ∈ g.passes.eraseIdx i, ∀ p ∈ q.fetched, g.server.world.Loaded p :=
    fun q hq => h.fetched q (List.mem_of_mem_eraseIdx hq)
  obtain ⟨-, settles⟩ := sound.settled own hset
  cases settles with
  | void _ keeps world =>
    exact h.keeps keeps (fun p hp => by rwa [world]) (fun p v => by rw [world])
      (by rw [world]; exact fetched)
  | live own' live becomes tracked joins spawned announces words =>
    rename_i session t' new
    have loaded : ∀ p ∈ t', g.server.world.Loaded p := by
      intro p hp
      rcases (tracked p).mp hp with hp | ⟨hp, -⟩
      · exact h.loaded own' p hp
      · exact h.fetched pass mem p hp
    have follows := joins.follows fun p _ hp => loaded p hp
    exact coherent_becomes h own' becomes rfl follows loaded fetched

/-- **The invariant survives every change.** -/
theorem Change.coherent (c : Change acts ends g g') (sound : g.Sound) (h : g.Coherent) :
    g'.Coherent := by
  obtain ⟨us, c⟩ := c
  cases c with
  | aside c =>
    have world := c.quiet.world
    refine h.transport c.quiet.nextEntityId c.quiet.size ?_ (fun p hp => by rwa [world])
      (fun p v => by rw [world]) (by rw [world]; exact h.fetched)
    intro id session hs
    obtain ⟨session', hs', alike⟩ := c.quiet.session_of hs
    exact ⟨session', hs', alike.entityId, alike.tracked⟩
  | login named free => exact coherent_login h _ _
  | setViewDistance act v =>
    refine h.transport rfl (Server.size_update _) ?_ (fun p hp => hp) (fun p v => Iff.rfl) h.fetched
    intro id session hs
    rw [Server.session?_update, hs]
    split
    · exact ⟨_, rfl, rfl, rfl⟩
    · exact ⟨session, rfl, rfl, rfl⟩
  | finalize _ act => exact coherent_ends h (g.server.ends_finalize _)
  | remove _ act => exact coherent_ends h (g.server.ends_removePlayer _)
  | look act own live fresh phase =>
    rename_i id session course glance sc
    obtain ⟨t', hs, hm, -, hf⟩ := looked live (sound.session own) phase
    have becomes := Server.becomes_absorb own sc
    rw [hs] at becomes
    refine coherent_becomes h own becomes (by simp) hf ?_ ?_
    · intro p hp
      have before : p ∈ session.tracked := ((hm p).mp hp).1
      exact h.loaded own p before
    · intro pass hpass p hp
      rcases List.mem_append.mp hpass with hpass | hpass
      · exact h.fetched pass hpass p hp
      · cases List.mem_singleton.mp hpass
        simp at hp
  | fetch c =>
    obtain ⟨keeps, -, fetches⟩ := Server.column_spec c
    have stays : ∀ q, g.server.world.Loaded q → _ := fun q hq => (fetches.loaded q).mpr (Or.inl hq)
    refine h.keeps keeps stays fetches.watched ?_
    intro pass hpass p hp
    exact stays p (h.fetched pass hpass p hp)
  | edit p c =>
    rename_i f
    have stays : ∀ q, g.server.world.Loaded q → (g.server.world.modify p f).Loaded q :=
      fun q hq => (World.loaded_modify f).mpr hq
    refine h.keeps ⟨rfl, rfl, rfl, rfl, fun _ => rfl⟩ stays (fun q v => World.watched_modify c) ?_
    intro pass hpass q hq
    exact stays q (h.fetched pass hpass q hq)
  | advance own act c => exact coherent_advance h own c
  | settle own act idle c => exact coherent_settle sound h own c

/-! ### After a run -/

theorem coherent_create (config : Config) {world : World} (dispatcher : Dispatcher)
    (unwatched : ∀ p v, ¬ world.Watched p v) :
    Game.Coherent { server := Server.create config world dispatcher } := by
  refine ⟨?_, rfl, ?_, by simp, fun {p v} hw => absurd hw (unwatched p v), ?_⟩
  all_goals
    intro id session hs
    rw [session?_create] at hs
    cases hs

/-- Up to `2 ^ 64` logins every session has an id of its own. -/
theorem Game.Coherent.sole (h : g.Coherent) (few : g.server.sessions.size ≤ 2 ^ 64) {id : SessionId}
    {session : Session} (hs : g.server.session? id = some session) : g.server.Sole id session := by
  intro j session' hj hv
  have hmod : j % 2 ^ 64 = id % 2 ^ 64 := (h.viewerId_eq_iff hj hs).mp hv
  have hid : id < 2 ^ 64 := (Server.session?_lt hs).trans_le few
  have hjd : j < 2 ^ 64 := (Server.session?_lt hj).trans_le few
  rwa [Nat.mod_eq_of_lt hjd, Nat.mod_eq_of_lt hid] at hmod

/-- An action leaves those it is not about among the viewers of the same columns. -/
theorem Game.Coherent.step_watched (h : g.Coherent) (sound : g.Sound) {a : Action}
    (hstep : g.step a = .ok g') {id : SessionId} {session : Session}
    (hs : g.server.session? id = some session) (idle : id ∉ a.actors g)
    (sole : g'.server.Sole id session) (p : ChunkPos) :
    g'.server.world.Watched p session.viewerId ↔ g.server.world.Watched p session.viewerId := by
  obtain ⟨g₁, hstep', hc⟩ := step_changes sound a
  rw [hstep'] at hstep
  cases hstep
  have coherent' := hc.invariant (P := Game.Coherent) (fun sound h c => c.coherent sound h) sound h
  obtain ⟨session', hs', alike⟩ := hc.other sound idle hs
  have sole' : g'.server.Sole id session' := fun j session'' hj hv =>
    sole j session'' hj (hv.trans alike.viewerId)
  have sole₀ : g.server.Sole id session := sole.before rfl fun hj => by
    obtain ⟨session'', hj', lasts⟩ := hc.lasts sound hj
    exact ⟨session'', hj', lasts.entityId⟩
  rw [h.watched hs sole₀, ← alike.viewerId, coherent'.watched hs' sole', alike.tracked]

/-- **Viewers and tracked columns agree**, whatever was done on a fresh server in whose world nobody
watches, in any order and with other operations between the phases of a pass. For every session with
an id of its own, which is every session up to `2 ^ 64` logins: it is among the viewers of a column
exactly if it tracks it, never once it is finalized, and no action of others changes that. -/
theorem viewers_coherent (config : Config) (world : World) (dispatcher : Dispatcher)
    (unwatched : ∀ p v, ¬ world.Watched p v) (actions : List Action) :
    ∃ g, Game.run { server := Server.create config world dispatcher } actions = .ok g ∧
      (g.server.sessions.size ≤ 2 ^ 64 →
        ∀ id session, g.server.session? id = some session → g.server.Sole id session) ∧
      ∀ id session, g.server.session? id = some session → g.server.Sole id session →
        (∀ p, g.server.world.Watched p session.viewerId ↔ session.tracked.contains p.index = true) ∧
        (session.finalized = true → ∀ p, ¬ g.server.world.Watched p session.viewerId) ∧
        ∀ a g', g.step a = .ok g' → id ∉ a.actors g → g'.server.Sole id session →
          ∀ p, g'.server.world.Watched p session.viewerId ↔
            g.server.world.Watched p session.viewerId := by
  obtain ⟨g, hrun, sound, coherent⟩ := run_invariant (P := Game.Coherent)
    (fun sound h c => c.coherent sound h) (sound_create config world dispatcher)
    (coherent_create config dispatcher unwatched) actions
  refine ⟨g, hrun, fun few id session hs => coherent.sole few hs, ?_⟩
  intro id session hs sole
  have agree := coherent.watched hs sole
  refine ⟨agree, ?_, ?_⟩
  · intro ended p watched
    have tracked : p ∈ session.tracked := (agree p).mp watched
    exact (sound.session hs).released ended p tracked
  · intro a g' hstep idle sole'
    exact coherent.step_watched sound hstep hs idle sole'

/-- In a world without columns two players see the same columns. One walks on, so that it watches others,
and meanwhile the other leaves and watches none. -/
theorem viewers_coherent_empty :
    let start : Game := { server := Server.create {} ⟨none, ∅⟩ .standard }
    let fetches (i : Nat) : List Action := List.replicate 5 (.advance i)
    let actions : List Action :=
      [.packet ⟨1⟩ (.login { username := "ada" }), .packet ⟨2⟩ (.login { username := "bob" }),
        .setViewDistance 0 1, .setViewDistance 1 1, .spawn 0, .spawn 1] ++ fetches 0 ++ fetches 1 ++
        [.settle 0, .settle 0, .move 0 ⟨40, 0, 0⟩ Rotation.zero true, .disconnect ⟨2⟩] ++ fetches 0 ++
        [.settle 0]
    (∀ p v, ¬ (⟨none, ∅⟩ : World).Watched p v) ∧
      ∃ g ada bob, start.run actions = .ok g ∧
        g.server.session? 0 = some ada ∧ g.server.Sole 0 ada ∧
        (∀ p, g.server.world.Watched p ada.viewerId ↔ ada.tracked.contains p.index = true) ∧
        g.server.world.Watched ⟨1, 0⟩ ada.viewerId ∧ g.server.world.Watched ⟨2, 0⟩ ada.viewerId ∧
        ¬ g.server.world.Watched ⟨0, 0⟩ ada.viewerId ∧
        g.server.session? 1 = some bob ∧ g.server.Sole 1 bob ∧ bob.finalized = true ∧
        ∀ p, ¬ g.server.world.Watched p bob.viewerId := by
  intro start fetches actions
  have unwatched : ∀ p v, ¬ (⟨none, ∅⟩ : World).Watched p v := fun _ _ => World.not_watched_empty
  have reached : (start.run actions).toOption.any (fun g => decide (g.server.sessions.size = 2 ∧
      (g.server.session? 0).map (fun ada => [⟨1, 0⟩, ⟨2, 0⟩, ⟨0, 0⟩].map ada.sees) =
        some [true, true, false] ∧
      (g.server.session? 1).map Session.finalized = some true)) = true := by
    decide +kernel
  obtain ⟨g, hrun, sole, agree⟩ := viewers_coherent {} ⟨none, ∅⟩ .standard unwatched actions
  obtain ⟨two, first, second⟩ := Game.holds_of_run reached hrun
  obtain ⟨ada, own, columns⟩ := Option.map_eq_some_iff.mp first
  obtain ⟨bob, own', gone⟩ := Option.map_eq_some_iff.mp second
  have few : g.server.sessions.size ≤ 2 ^ 64 := by omega
  have watches := (agree 0 ada own (sole few 0 ada own)).1
  simp only [List.map_cons, List.map_nil, List.cons.injEq, and_true] at columns
  obtain ⟨kept, new, lost⟩ := columns
  refine ⟨unwatched, g, ada, bob, hrun, own, sole few 0 ada own, watches, (watches _).mpr kept,
    (watches _).mpr new, fun watched => ?_, own', sole few 1 bob own', gone,
    (agree 1 bob own' (sole few 1 bob own')).2.1 gone⟩
  have tracked : ada.sees ⟨0, 0⟩ = true := (watches _).mp watched
  rw [lost] at tracked
  cases tracked

end BlockWorld
