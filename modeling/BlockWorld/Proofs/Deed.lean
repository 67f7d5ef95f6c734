import BlockWorld.Proofs.Blind
import BlockWorld.Proofs.Speech

/-! # What a client does by itself

The packets by which a client moves, asks for a view distance or enters the world concern its own
player only. What such a packet comes to is a deed: the new state of the player, what the client is
told, the columns that are fetched, and where the client watches then. Two servers on which the client
finds the same see it do the same deed.

* `Deed`, `Server.Does`: what a packet comes to, and that it leaves everything else alone.
* `Server.Resembles`: what a client finds on a server.
* `Server.Abreast`: two servers on which the client has done the same.
* `Server.Proceeds`: one stage of a deed; `Abreast.proceed`, `Abreast.fetch`: the stages go together.
* `settle_agree`, `start_agree`: the end and the beginning of a visibility pass.
* `handlePacket_agree`: a packet, on two servers. -/

namespace BlockWorld

/-- What a packet comes to. -/
structure Deed where
  /-- What becomes of the session of the client, if it has one. -/
  session : Option Session
  /-- What the client is told. -/
  packets : List Packet
  /-- The columns that are there afterwards, besides those that were. -/
  loads : ChunkPos → Prop
  /-- Whether the client watches a column afterwards, by whether it did before. -/
  watches : ChunkPos → Prop → Prop

namespace Deed

/-- A client whose session is `session` does nothing. -/
def idle (session : Option Session) : Deed := ⟨session, [], fun _ => False, fun _ watched => watched⟩

/-- The session goes on from `old` to `new`, and the client is told `packets`. -/
def proceed (d : Deed) (old new : Session) (packets : List Packet) : Deed where
  session := some new
  packets := d.packets ++ packets
  loads := d.loads
  watches p watched :=
    (d.watches p watched ∧ ¬ (p ∈ old.tracked ∧ p ∉ new.tracked)) ∨
      (p ∉ old.tracked ∧ p ∈ new.tracked)

/-- The column at `p` is fetched, if it is provided. -/
def fetch (d : Deed) (p : ChunkPos) (provided : Bool) : Deed :=
  { d with loads := fun q => d.loads q ∨ (q = p ∧ provided = true) }

end Deed

namespace Server

/-- The session of a client. -/
def client? (s : Server) (handle : Handle) : Option Session := (s.bound? handle).bind s.session?

/-- The viewer id of a client. -/
def viewer? (s : Server) (handle : Handle) : Option ViewerId :=
  (s.client? handle).map Session.viewerId

/-- All that a client was sent. -/
def sentTo (s : Server) (handle : Handle) : List Packet :=
  (s.sent.filter (·.1 == handle)).map Prod.snd

/-- From `s` to `t` the client did the deed `d`, and nothing else happened but notes. -/
structure Does (s : Server) (handle : Handle) (d : Deed) (t : Server) : Prop where
  config : t.config = s.config
  dispatcher : t.dispatcher = s.dispatcher
  registry : t.registry = s.registry
  session? : ∀ j, t.session? j = if s.bound? handle = some j then d.session else s.session? j
  viewer : d.session.map Session.viewerId = s.viewer? handle
  sent : t.sent = s.sent ++ d.packets.map (handle, ·)
  border : t.world.border = s.world.border
  entities : ∀ p, t.world.entitiesAt p = s.world.entitiesAt p
  loaded : ∀ p, t.world.Loaded p ↔ s.world.Loaded p ∨ d.loads p
  watched : ∀ p v, t.world.Watched p v ↔
    if s.viewer? handle = some v then d.watches p (s.world.Watched p v) else s.world.Watched p v

/-- On `s'` the client finds what it finds on `s`. -/
structure Resembles (s : Server) (handle : Handle) (s' : Server) : Prop where
  config : s'.config = s.config
  dispatcher : s'.dispatcher = s.dispatcher
  bound : s'.bound? handle = s.bound? handle
  client : s'.client? handle = s.client? handle
  border : s'.world.border = s.world.border
  entities : ∀ p, s'.world.entitiesAt p = s.world.entitiesAt p

/-- One stage of a deed: the session goes on from `old` to `new`, the client is told `packets`, and in
the world nobody but the viewer of the session comes and goes. -/
structure Proceeds (t : Server) (handle : Handle) (id : SessionId) (old new : Session)
    (packets : List Packet) (t' : Server) : Prop where
  becomes : t.Becomes id new t'
  registry : t'.registry = t.registry
  sent : t'.sent = t.sent ++ packets.map (handle, ·)
  viewer : new.viewerId = old.viewerId
  follows : Follows old.viewerId old.tracked new.tracked t.world t'.world
  entities : ∀ p, t'.world.entitiesAt p = t.world.entitiesAt p

variable {s s' t t' t₁ t₁' : Server} {handle : Handle} {id : SessionId} {d : Deed}
  {session session' old new : Session} {packets : List Packet}

theorem bound?_congr (h : t.registry = s.registry) : t.bound? handle = s.bound? handle := by
  rw [bound?, bound?, h]

theorem client?_eq (who : s.bound? handle = some id) : s.client? handle = s.session? id := by
  rw [client?, who]
  rfl

/-! ### Deeds -/

namespace Does

theorem idle (s : Server) (handle : Handle) : s.Does handle (.idle (s.client? handle)) s where
  config := rfl
  dispatcher := rfl
  registry := rfl
  session? j := by
    split
    · rename_i who
      rw [← client?_eq who]
      rfl
    · rfl
  viewer := rfl
  sent := (List.append_nil _).symm
  border := rfl
  entities _ := rfl
  loaded _ := (or_iff_left not_false).symm
  watched p v := by split <;> rfl

theorem own (h : s.Does handle d t) (who : s.bound? handle = some id) : t.session? id = d.session := by
  rw [h.session?, if_pos who]

/-- A note is no deed. -/
theorem note (h : s.Does handle d t) (n : Notice) : s.Does handle d (t.note n) :=
  ⟨h.config, h.dispatcher, h.registry, h.session?, h.viewer, h.sent, h.border, h.entities, h.loaded,
    h.watched⟩

theorem proceed (h : s.Does handle d t) (who : s.bound? handle = some id) (own : t.session? id = some old)
    (next : t.Proceeds handle id old new packets t') :
    s.Does handle (d.proceed old new packets) t' where
  config := next.becomes.config.trans h.config
  dispatcher := next.becomes.dispatcher.trans h.dispatcher
  registry := next.registry.trans h.registry
  session? j := by
    rw [next.becomes.session?, h.session?, who]
    simp only [Option.some.injEq]
    split <;> rfl
  viewer := by
    have before : d.session = some old := by rw [← h.own who, own]
    rw [← h.viewer, before]
    exact congrArg some next.viewer
  sent := by
    rw [next.sent, h.sent, List.append_assoc, ← List.map_append]
    rfl
  border := next.follows.border.trans h.border
  entities p := (next.entities p).trans (h.entities p)
  loaded p := (next.follows.loaded p).trans (h.loaded p)
  watched p v := by
    have viewer : s.viewer? handle = some old.viewerId := by
      rw [← h.viewer, ← h.own who, own]
      rfl
    rw [next.follows.watched, h.watched, viewer]
    simp only [Option.some.injEq, eq_comm (a := v)]
    split
    · rename_i same
      simp only [same, true_and]
      rfl
    · rename_i apart
      simp only [apart, false_and, not_false_iff, and_true, or_false]

theorem fetch (h : s.Does handle d t) {p : ChunkPos} {f : Fetch} (hcol : t.column p = .ok (f, t')) :
    s.Does handle (d.fetch p f.provided) t' := by
  obtain ⟨keeps, registry, fetches⟩ := column_spec hcol
  refine ⟨keeps.config.trans h.config, keeps.dispatcher.trans h.dispatcher, registry.trans h.registry,
    fun j => (keeps.session? j).trans (h.session? j), h.viewer, (sent_column hcol).trans h.sent,
    fetches.border.trans h.border, fun q => ?_, fun q => ?_,
    fun q v => (fetches.watched q v).trans (h.watched q v)⟩
  · obtain ⟨⟨f', w'⟩, hfetch, hrest⟩ := bind_eq_ok hcol
    have world : t'.world = w' := by cases f' <;> cases hrest <;> rfl
    rw [world, World.entitiesAt_fetch hfetch, h.entities]
  · rw [fetches.loaded, h.loaded, ← fetches.provided, or_assoc]
    rfl

end Does

/-! ### Stages -/

section Stages

/-- A stage in which nothing happens to the world. -/
theorem proceeds_of_world (becomes : t.Becomes id new t') (registry : t'.registry = t.registry)
    (world : t'.world = t.world) (sent : t'.sent = t.sent ++ packets.map (handle, ·))
    (viewer : new.viewerId = old.viewerId) (tracked : new.tracked = old.tracked) :
    t.Proceeds handle id old new packets t' where
  becomes := becomes
  registry := registry
  sent := sent
  viewer := viewer
  follows := by
    rw [world, tracked]
    exact .refl _ _ _
  entities p := by rw [world]

theorem becomes_update (own : t.session? id = some old) (f : Session → Session) :
    t.Becomes id (f old) (t.update id f) := by
  refine ⟨rfl, rfl, rfl, size_update f, fun j => ?_⟩
  rw [session?_update]
  split
  · rename_i same
    subst same
    rw [own]
    rfl
  · rfl

theorem proceeds_update (own : t.session? id = some old) (f : Session → Session)
    (viewer : (f old).viewerId = old.viewerId) (tracked : (f old).tracked = old.tracked) :
    t.Proceeds handle id old (f old) [] (t.update id f) :=
  proceeds_of_world (becomes_update own f) rfl rfl (List.append_nil _).symm viewer tracked

theorem proceeds_send (own : t.session? id = some old) (p : Packet) :
    t.Proceeds handle id old old [p] (t.send handle p) := by
  have becomes : t.Becomes id old (t.send handle p) := by
    refine ⟨rfl, rfl, rfl, rfl, fun j => ?_⟩
    split
    · rename_i same
      rw [← same]
      exact own
    · rfl
  exact proceeds_of_world becomes rfl rfl (sent_send _ _) rfl rfl

/-- The session acts in its scene. -/
theorem proceeds_absorb (own : t.session? id = some old) (sc : Scene) (address : sc.session.handle = handle)
    (viewer : sc.session.viewerId = old.viewerId)
    (follows : Follows old.viewerId old.tracked sc.session.tracked t.world sc.world)
    (entities : ∀ p, sc.world.entitiesAt p = t.world.entitiesAt p) :
    t.Proceeds handle id old sc.session sc.sent.toList (t.absorb id sc) :=
  ⟨becomes_absorb own sc, rfl, by rw [sent_absorb, address], viewer, follows, entities⟩

/-- The session acts in its second phase, and the pass ends. -/
theorem proceeds_settle {pass : Pass} {n : Nat} {sc : Scene} (own : t.session? pass.session = some old)
    (hsub : Scene.subscribe { session := old, world := t.world } pass.fetched.toList = .ok (n, sc))
    (address : sc.session.handle = handle) (viewer : sc.session.viewerId = old.viewerId)
    (follows : Follows old.viewerId old.tracked sc.session.tracked t.world sc.world)
    (entities : ∀ p, sc.world.entitiesAt p = t.world.entitiesAt p) :
    ∃ t', t.settle pass = .ok (⟨pass.culled, n, pass.spawning && !sc.session.finalized⟩, t') ∧
      t.Proceeds handle pass.session old sc.session (sc.sent.toList ++
        if pass.spawning && !sc.session.finalized then sc.session.entry else []) t' := by
  obtain ⟨t', settled, becomes, registry, world, words⟩ := settle_of_subscribe own hsub
  refine ⟨t', settled, becomes, registry, ?_, viewer, by rw [world]; exact follows,
    fun p => by rw [world, entities]⟩
  rw [sent_settle settled, words, List.map_map, address]
  rfl

end Stages

/-! ### Two servers -/

/-- From `s` to `t` and from `s'` to `t'` the client has done the same deed. -/
def Abreast (s : Server) (handle : Handle) (s' t t' : Server) : Prop :=
  ∃ d, s.Does handle d t ∧ s'.Does handle d t' ∧
    ∀ session, d.session = some session → session.Sound ∧ session.handle = handle

theorem Resembles.abreast (h : s.Resembles handle s')
    (sound : ∀ session, s.client? handle = some session → session.Sound ∧ session.handle = handle) :
    s.Abreast handle s' s s' :=
  ⟨.idle (s.client? handle), .idle s handle, h.client ▸ .idle s' handle, sound⟩

namespace Abreast

/-- To the session the two servers are the same. -/
theorem own (h : s.Abreast handle s' t t') (base : s.Resembles handle s')
    (who : s.bound? handle = some id) : t'.session? id = t.session? id := by
  obtain ⟨d, does, does', -⟩ := h
  rw [does.own who, does'.own (base.bound.trans who)]

theorem sound (h : s.Abreast handle s' t t') (who : s.bound? handle = some id)
    (own : t.session? id = some session) : session.Sound ∧ session.handle = handle := by
  obtain ⟨d, does, -, sound⟩ := h
  exact sound session (by rw [← does.own who, own])

theorem config (h : s.Abreast handle s' t t') (base : s.Resembles handle s') : t'.config = t.config := by
  obtain ⟨d, does, does', -⟩ := h
  rw [does.config, does'.config, base.config]

theorem border (h : s.Abreast handle s' t t') (base : s.Resembles handle s') :
    t'.world.border = t.world.border := by
  obtain ⟨d, does, does', -⟩ := h
  rw [does.border, does'.border, base.border]

theorem twin (h : s.Abreast handle s' t t') (base : s.Resembles handle s') (session : Session) :
    Scene.Twin t.world.entitiesAt { session, world := t.world } { session, world := t'.world } := by
  obtain ⟨d, does, does', -⟩ := h
  exact ⟨rfl, rfl, fun _ => rfl, fun p => by rw [does'.entities, base.entities, does.entities]⟩

theorem note (h : s.Abreast handle s' t t') (n n' : Notice) :
    s.Abreast handle s' (t.note n) (t'.note n') := by
  obtain ⟨d, does, does', sound⟩ := h
  exact ⟨d, does.note n, does'.note n', sound⟩

/-- **The same stage on both.** -/
theorem proceed (h : s.Abreast handle s' t t') (base : s.Resembles handle s')
    (who : s.bound? handle = some id) (own : t.session? id = some old)
    (next : t.Proceeds handle id old new packets t₁)
    (next' : t'.Proceeds handle id old new packets t₁') (sound : new.Sound) (address : new.handle = handle) :
    s.Abreast handle s' t₁ t₁' := by
  have own' : t'.session? id = some old := by rw [h.own base who, own]
  obtain ⟨d, does, does', -⟩ := h
  refine ⟨_, does.proceed who own next, does'.proceed (base.bound.trans who) own' next', ?_⟩
  intro session hs
  cases hs
  exact ⟨sound, address⟩

/-- **The same fetch on both.** -/
theorem fetch (h : s.Abreast handle s' t t') {p : ChunkPos} {f f' : Fetch}
    (hcol : t.column p = .ok (f, t₁)) (hcol' : t'.column p = .ok (f', t₁'))
    (same : f'.provided = f.provided) : s.Abreast handle s' t₁ t₁' := by
  obtain ⟨d, does, does', sound⟩ := h
  exact ⟨_, does.fetch hcol, same ▸ does'.fetch hcol', sound⟩

end Abreast

end Server

/-! ### Visibility passes -/

/-- The pass is one of the session `id`, all its columns are near the origin, and those fetched so far
are there. -/
structure Pass.Ready (pass : Pass) (id : SessionId) (w : World) : Prop where
  session : pass.session = id
  wanted : ∀ p ∈ pass.wanted, p.Within columnBound
  fetched : ∀ p ∈ pass.fetched, p.Within columnBound ∧ w.Loaded p

/-- The second phase adds to the columns of the session, and the world follows. -/
theorem Pass.Ready.subscribes {pass : Pass} {id : SessionId} {w : World} {session : Session}
    (ready : pass.Ready id w) (live : session.finalized = false) (sound : session.Sound) :
    ∃ n sc t, Scene.subscribe { session, world := w } pass.fetched.toList = .ok (n, sc) ∧
      sc.session = session.track t ∧ (session.track t).Sound ∧
      Follows session.viewerId session.tracked t w sc.world := by
  have near : ∀ p ∈ pass.fetched.toList, p.Within columnBound :=
    fun p hp => (ready.fetched p (by simpa using hp)).1
  obtain ⟨n, t, sc, new, hsub, hs, hm, joins, -⟩ :=
    Scene.subscribe_spec { session, world := w } pass.fetched.toList live sound.within near
  have tracked : ∀ p ∈ t, p ∈ session.tracked ∨ p ∈ pass.fetched := by
    intro p hp
    rcases (hm p).mp hp with hp | ⟨hp, -⟩
    · exact Or.inl hp
    · exact Or.inr (by simpa using hp)
  refine ⟨n, sc, t, hsub, hs, sound.track (fun p hp => ?_) live, joins.follows fun p unseen hp => ?_⟩
  · rcases tracked p hp with hp | hp
    · exact sound.tracked p hp
    · exact (ready.fetched p hp).1
  · rcases tracked p hp with hp | hp
    · exact absurd hp unseen
    · exact (ready.fetched p hp).2

namespace Server

variable {s s' t t' : Server} {handle : Handle} {id : SessionId} {pass pass' : Pass}
  {session : Session} {α β : Type}

theorem Advances.ready (h : t.Advances pass pass' t') (ready : pass.Ready id t.world) :
    pass'.Ready id t'.world where
  session := h.session.trans ready.session
  wanted p hp := ready.wanted p (h.wanted p hp)
  fetched p hp := by
    rcases h.fetched p hp with hp | ⟨hp, -, loaded⟩
    · exact ⟨(ready.fetched p hp).1, h.loaded p (ready.fetched p hp).2⟩
    · exact ⟨ready.wanted p hp, loaded⟩

/-- A fetch that overflows. -/
theorem advance_of_error {p : ChunkPos} {wanted : List ChunkPos} {e : Overflow}
    (hw : pass.wanted = p :: wanted) (hcol : t.column p = .error e) : t.advance pass = .error e := by
  simp only [advance, hw, hcol, bind, Except.bind]

/-- A fetch that does not. -/
theorem advance_of_column {p : ChunkPos} {wanted : List ChunkPos} {f : Fetch}
    (hw : pass.wanted = p :: wanted) (hcol : t.column p = .ok (f, t')) :
    t.advance pass = .ok ({ pass with
      wanted := wanted
      fetched := if f.provided then pass.fetched.push p else pass.fetched }, t') := by
  simp only [advance, hw, hcol, bind, Except.bind, pure, Except.pure]

/-- On both servers the client has done the same, and what it waits for, if anything, is ready. -/
def Started (s : Server) (handle : Handle) (s' : Server) (id : SessionId) :
    Progress α → Server → Server → Prop
  | .done _, t, t' => s.Abreast handle s' t t'
  | .pending pass _, t, t' =>
    s.Abreast handle s' t t' ∧ pass.Ready id t.world ∧ pass.Ready id t'.world

theorem Started.map {progress : Progress α} (h : Started s handle s' id progress t t') (f : α → β) :
    Started s handle s' id (progress.map f) t t' := by
  cases progress <;> exact h

section Agree

variable (base : s.Resembles handle s') (who : s.bound? handle = some id)
include base who

/-- **The beginning of a pass** goes the same on two servers. -/
theorem start_agree (h : s.Abreast handle s' t t') (spawning : Bool) (course : Course)
    (stays : course ≠ .enter) (answer : Report → α) (refused : α) :
    Agree (Started s handle s' id) (t.start id spawning course.phase answer refused)
      (t'.start id spawning course.phase answer refused) := by
  have same := h.own base who
  cases own : t.session? id with
  | none =>
    rw [own] at same
    rw [start_none course own, start_none course same]
    exact .ok h
  | some session =>
    rw [own] at same
    obtain ⟨sound, address⟩ := h.sound who own
    cases live : session.finalized with
    | true =>
      rw [start_ended course stays own live, start_ended course stays same live]
      exact .ok h
    | false =>
      unfold start
      obtain ⟨glance, t₁, sc, phase, hs, hm, hw, follows⟩ :=
        course.phase_spec { session, world := t.world } live sound
      obtain ⟨sc', phase', twin⟩ := (course.phase_agree (h.twin base session) live).of_ok phase
      obtain ⟨t₁', hs', -, -, follows'⟩ := looked live sound phase'
      have moved := course.sound_apply sound live
      have sound₁ : sc.session.Sound := by
        rw [hs]
        refine moved.track (fun p hp => sound.tracked p ((hm p).mp hp).1) ?_
        rw [Course.apply_finalized, live]
      have address₁ : sc.session.handle = handle := by simpa [hs] using address
      have viewer₁ : sc.session.viewerId = session.viewerId := by simp [hs]
      have next : t.Proceeds handle id session sc.session sc.sent.toList (t.absorb id sc) :=
        proceeds_absorb own sc address₁ viewer₁ (by simpa [hs] using follows) twin.here
      have next' : t'.Proceeds handle id session sc.session sc.sent.toList (t'.absorb id sc') := by
        rw [← twin.session, ← twin.sent]
        refine proceeds_absorb same sc' (twin.session ▸ address₁) (twin.session ▸ viewer₁)
          (by simpa [hs'] using follows') fun p => ?_
        rw [twin.there, ← (h.twin base session).there]
      have near : ∀ p ∈ glance.wanted, p.Within columnBound :=
        fun p hp => ((hw p).mp hp).1.within moved.within
      have ready : ∀ w, Pass.Ready
          { session := id, spawning, culled := glance.culled, wanted := glance.wanted } id w :=
        fun w => ⟨rfl, near, fun p hp => by simp at hp⟩
      rw [attempt_eq own phase, attempt_eq same phase']
      exact .ok ⟨h.proceed base who own next next' sound₁ address₁, ready _, ready _⟩

omit who in
theorem advance_agree (h : s.Abreast handle s' t t') (ready : pass.Ready id t.world)
    (ready' : pass.Ready id t'.world) :
    Agree (fun pass t t' => s.Abreast handle s' t t' ∧ pass.Ready id t.world ∧ pass.Ready id t'.world)
      (t.advance pass) (t'.advance pass) := by
  cases hw : pass.wanted with
  | nil =>
    have none_left : ∀ t : Server, t.advance pass = .ok (pass, t) := fun t => by
      simp only [advance, hw]
    rw [none_left, none_left]
    exact .ok ⟨h, ready, ready'⟩
  | cons p wanted =>
    rcases World.fetch_agree (h.border base) p with ⟨e, fails, fails'⟩ | ⟨f, f', w, w', hf, hf', same⟩
    · have error : t.column p = .error e := by simp only [column, fails, bind, Except.bind]
      have error' : t'.column p = .error e := by simp only [column, fails', bind, Except.bind]
      rw [advance_of_error hw error, advance_of_error hw error']
      exact .error e
    · obtain ⟨t₁, hcol⟩ : ∃ t₁, t.column p = .ok (f, t₁) := by
        simp only [column, hf, bind, Except.bind]
        cases f <;> exact ⟨_, rfl⟩
      obtain ⟨t₁', hcol'⟩ : ∃ t₁', t'.column p = .ok (f', t₁') := by
        simp only [column, hf', bind, Except.bind]
        cases f' <;> exact ⟨_, rfl⟩
      have advances := (advances_fetch hw hcol).ready ready
      have advances' := (advances_fetch hw hcol').ready ready'
      rw [same] at advances'
      rw [advance_of_column hw hcol, advance_of_column hw hcol', same]
      exact .ok ⟨h.fetch hcol hcol' same, advances, advances'⟩

omit who in
theorem advanceBy_agree : ∀ (n : Nat) {t t' : Server} {pass : Pass},
    s.Abreast handle s' t t' → pass.Ready id t.world → pass.Ready id t'.world →
    Agree (fun pass t t' => s.Abreast handle s' t t' ∧ pass.Ready id t.world ∧ pass.Ready id t'.world)
      (t.advanceBy pass n) (t'.advanceBy pass n)
  | 0, _, _, _, h, ready, ready' => .ok ⟨h, ready, ready'⟩
  | n + 1, _, _, _, h, ready, ready' =>
    (advance_agree base h ready ready').bind fun _ _ _ ⟨h₁, ready₁, ready₁'⟩ =>
      advanceBy_agree n h₁ ready₁ ready₁'

/-- **The end of a pass** goes the same on two servers. -/
theorem settle_agree (h : s.Abreast handle s' t t') (ready : pass.Ready id t.world)
    (ready' : pass.Ready id t'.world) :
    Agree (fun _ => s.Abreast handle s') (t.settle pass) (t'.settle pass) := by
  obtain rfl := ready.session
  have same := h.own base who
  cases own : t.session? pass.session with
  | none =>
    rw [own] at same
    simp only [settle, attempt, own, same, perform_none _ own, perform_none _ same, bind, Except.bind]
    split <;> exact .ok h
  | some session =>
    rw [own] at same
    obtain ⟨sound, address⟩ := h.sound who own
    cases live : session.finalized with
    | true =>
      obtain ⟨t₁, settled, next⟩ := proceeds_settle own
        (Scene.subscribe_finalized live pass.fetched.toList) address rfl (.refl _ _ _) fun _ => rfl
      obtain ⟨t₁', settled', next'⟩ := proceeds_settle same
        (Scene.subscribe_finalized live pass.fetched.toList) address rfl (.refl _ _ _) fun _ => rfl
      rw [settled, settled']
      exact .ok (h.proceed base who own next next' sound address)
    | false =>
      obtain ⟨n, sc, t₂, hsub, hs, sound₂, follows⟩ := ready.subscribes live sound
      obtain ⟨n', sc', t₂', hsub', hs', -, follows'⟩ := ready'.subscribes live sound
      obtain ⟨sc'', heq, twin⟩ := (Scene.subscribe_agree (h.twin base session) _).of_ok hsub
      rw [hsub'] at heq
      cases heq
      have tracked : t₂' = t₂ := by
        have sessions := twin.session
        rw [hs, hs'] at sessions
        exact congrArg Session.tracked sessions
      subst tracked
      have address₁ : sc.session.handle = handle := by rw [hs]; exact address
      have address₁' : sc'.session.handle = handle := by rw [hs']; exact address
      have viewer₁ : sc.session.viewerId = session.viewerId := by rw [hs]; rfl
      have viewer₁' : sc'.session.viewerId = session.viewerId := by rw [hs']; rfl
      obtain ⟨t₁, settled, next⟩ := proceeds_settle own hsub address₁ viewer₁
        (by rw [hs]; exact follows) twin.here
      obtain ⟨t₁', settled', next'⟩ := proceeds_settle same hsub' address₁' viewer₁'
        (by rw [hs']; exact follows') fun p => by rw [twin.there, ← (h.twin base session).there]
      rw [twin.session, twin.sent] at next'
      rw [twin.session] at settled'
      rw [settled, settled']
      exact .ok (h.proceed base who own next next' (by rw [hs]; exact sound₂) address₁)

/-- **A pass with nothing in between** goes the same on two servers. -/
theorem finish_agree {progress : Progress α} (h : Started s handle s' id progress t t') :
    Agree (fun _ => s.Abreast handle s') (t.finish progress) (t'.finish progress) := by
  cases progress with
  | done a => exact .ok h
  | pending pass answer =>
    obtain ⟨h, ready, ready'⟩ := h
    have completed : Agree (fun _ => s.Abreast handle s') (t.complete pass) (t'.complete pass) :=
      (advanceBy_agree base pass.wanted.length h ready ready').bind
        fun _ _ _ ⟨h₁, ready₁, ready₁'⟩ => settle_agree base who h₁ ready₁ ready₁'
    exact completed.bind fun _ _ _ h₁ => .ok h₁

/-! ### Packets -/

theorem startMovement_agree (h : s.Abreast handle s' t t') (movement : MovePlayer) :
    Agree (Started s handle s' id) (t.startMovement id handle movement)
      (t'.startMovement id handle movement) := by
  have same := h.own base who
  unfold startMovement
  rw [same]
  cases own : t.session? id with
  | none => exact .ok h
  | some session =>
    rw [own] at same
    obtain ⟨sound, address⟩ := h.sound who own
    dsimp only
    split
    · exact (start_agree base who h false
        (.move movement.position movement.rotation movement.onGround) Course.noConfusion _ _).bind
          fun _ _ _ h₁ => .ok (h₁.map _)
    · have noted := h.note (.invalidPosition session.name handle) (.invalidPosition session.name handle)
      have corrected : ∀ {t : Server}, t.session? id = some session → t.Proceeds handle id session session
          (Scene.correct { session, world := t.world }).sent.toList
          (t.perform id fun sc => ((), sc.correct)).2 := by
        intro t own
        rw [perform_eq _ own]
        exact proceeds_absorb own (Scene.correct { session, world := t.world }) address rfl
          (.refl _ _ _) fun _ => rfl
      exact .ok (noted.proceed base who own (corrected own) (corrected same) sound address)

theorem startChunkRadius_agree (h : s.Abreast handle s' t t') (requested : Int32) :
    Agree (Started s handle s' id) (t.startChunkRadius id handle requested)
      (t'.startChunkRadius id handle requested) := by
  have same := h.own base who
  have granted : t'.grantedRadius requested = t.grantedRadius requested := by
    rw [grantedRadius, grantedRadius, h.config base]
  unfold startChunkRadius
  rw [same, granted]
  cases own : t.session? id with
  | none => exact .ok h
  | some session =>
    rw [own] at same
    obtain ⟨sound, address⟩ := h.sound who own
    dsimp only
    split
    · exact .ok h
    · set resize : Session → Session := (·.setViewDistance (t.grantedRadius requested)) with hresize
      set notice := Notice.radiusRequested session.name handle requested (t.grantedRadius requested)
      have sound' : (resize session).Sound := sound.setViewDistance _
      have noted := h.note notice notice
      have resized := noted.proceed base who own
        (proceeds_update (t := t.note notice) own resize rfl rfl)
        (proceeds_update (t := t'.note notice) same resize rfl rfl) sound' address
      have own₁ : ((t.note notice).update id resize).session? id = some (resize session) :=
        (becomes_update own resize).self
      have same₁ : ((t'.note notice).update id resize).session? id = some (resize session) :=
        (becomes_update same resize).self
      set answer := Packet.chunkRadiusUpdated (t.grantedRadius requested).toInt32
      have told := resized.proceed base who own₁ (proceeds_send own₁ answer) (proceeds_send same₁ answer)
        sound' address
      rw [address]
      exact (start_agree base who told false .stay Course.noConfusion _ _).bind
        fun _ _ _ h₁ => .ok (h₁.map _)

theorem startSpawn_agree (h : s.Abreast handle s' t t') :
    Agree (Started s handle s' id) (t.startSpawn id) (t'.startSpawn id) := by
  have same := h.own base who
  unfold startSpawn
  rw [same]
  cases own : t.session? id with
  | none => exact .ok h
  | some session =>
    rw [own] at same
    obtain ⟨sound, address⟩ := h.sound who own
    cases live : session.finalized with
    | true => simpa only [Session.setSpawned, live, if_true, Bool.false_eq_true, if_false] using .ok h
    | false =>
      cases fresh : session.spawned with
      | true =>
        simpa only [Session.setSpawned, live, fresh, Bool.not_true, Bool.false_eq_true, if_false]
          using .ok h
      | false =>
        have set : session.setSpawned = (true, Course.enter.apply session) := by
          simp [Session.setSpawned, live, fresh, Course.apply]
        have sound' := Course.enter.sound_apply sound live
        have entered := h.proceed base who own
          (proceeds_update own (fun _ => Course.enter.apply session) rfl rfl)
          (proceeds_update same (fun _ => Course.enter.apply session) rfl rfl) sound' address
        simp only [set, if_true]
        exact start_agree base who entered true .stay Course.noConfusion _ _

theorem startInitialized_agree (h : s.Abreast handle s' t t') (runtimeId : UInt64) :
    Agree (Started s handle s' id) (t.startInitialized id handle runtimeId)
      (t'.startInitialized id handle runtimeId) := by
  have same := h.own base who
  unfold startInitialized
  rw [same]
  cases own : t.session? id with
  | none => exact .ok h
  | some session =>
    dsimp only
    split
    · exact (startSpawn_agree base who h).bind fun _ _ _ h₁ => .ok (h₁.map _)
    · exact .ok (h.note _ _)

end Agree

end Server

/-- Whether the packet concerns the player of its client only: a movement, a request for a view
distance, or word that the client is ready. -/
def Packet.isPrivate : Packet → Bool
  | .movePlayer _ => true
  | .requestChunkRadius _ => true
  | .setLocalPlayerAsInitialized _ => true
  | _ => false

namespace Server

variable {s s' : Server} {handle : Handle} {packet : Packet}

/-- A private packet on a connection that is bound to nobody is not handled. -/
theorem startHandler_unbound (own : packet.isPrivate = true) (handler : Handler) (s : Server) :
    s.startHandler handler packet none handle = .ok (.done .unhandled, s) := by
  cases packet with
  | movePlayer _ => cases handler <;> rfl
  | requestChunkRadius _ => cases handler <;> rfl
  | setLocalPlayerAsInitialized _ => cases handler <;> rfl
  | _ => cases own

theorem startHandler_agree {id : SessionId} (own : packet.isPrivate = true)
    (base : s.Resembles handle s') (who : s.bound? handle = some id) (h : s.Abreast handle s' s s')
    (handler : Handler) : Agree (Started s handle s' id)
      (s.startHandler handler packet (some id) handle)
      (s'.startHandler handler packet (some id) handle) := by
  have ignored : Agree (Started s handle s' id) (.ok (.done Outcome.unhandled, s))
      (.ok (.done Outcome.unhandled, s')) := .ok h
  cases packet with
  | movePlayer movement =>
    cases handler with
    | movement => exact startMovement_agree base who h movement
    | _ => exact ignored
  | requestChunkRadius request =>
    cases handler with
    | chunkRadius => exact startChunkRadius_agree base who h _
    | _ => exact ignored
  | setLocalPlayerAsInitialized runtimeId =>
    cases handler with
    | spawn => exact startInitialized_agree base who h runtimeId
    | _ => exact ignored
  | _ => cases own

/-- **A private packet goes the same** on two servers on which its client finds the same. -/
theorem handlePacket_agree (own : packet.isPrivate = true) (base : s.Resembles handle s')
    (sound : ∀ session, s.client? handle = some session → session.Sound ∧ session.handle = handle) :
    Agree (fun _ => s.Abreast handle s') (s.handlePacket handle packet)
      (s'.handlePacket handle packet) := by
  have h := base.abreast sound
  unfold handlePacket startPacket startDispatch
  rw [base.dispatcher, base.bound]
  cases s.dispatcher.handler? packet.id with
  | none => exact .ok (h.note _ _)
  | some handler =>
    dsimp only
    cases who : s.bound? handle with
    | none =>
      rw [startHandler_unbound own, startHandler_unbound own]
      exact .ok h
    | some id =>
      exact (startHandler_agree own base who h handler).bind
        fun _ _ _ h₁ => finish_agree base who h₁

end Server

end BlockWorld
