import BlockWorld.Proofs.Run

/-! # What a player tracks is what it sees

A visibility pass lists the columns it wants for the place and the view distance of its first phase,
and subscribes much later, when both may have changed. Still, once no pass of a session is under way,
the session tracks exactly the provided columns in view.

The invariant behind this: a column in view that is provided is tracked, or some pass of the session
still has it among the wanted or the fetched columns (`Coming`). A first phase makes this true for the
new place and view distance, whatever passes are under way, and no pass ends without having
subscribed to what it fetched and is in view then.

* `Sighted`, `Game.Visible`: the invariant of a session, and of a game.
* `visible_becomes`: the step behind it, one session that changes; `Change.visible`: it survives every
  change.
* `Session.Fresh`, `fresh_addSession`: sessions as they are created.
* `tracked_exact`: what a session tracks after a run. -/

namespace BlockWorld

variable {acts : SessionId → Prop} {ends : Ending → Prop} {g g' : Game}

/-- A pass of the session `id` still wants or has fetched the column at `p`. -/
def Coming (passes : List Pass) (id : SessionId) (p : ChunkPos) : Prop :=
  ∃ pass ∈ passes, pass.session = id ∧ (p ∈ pass.wanted ∨ p ∈ pass.fetched)

/-- A session that tracks nothing out of view, and to which all that is in view and provided is
coming, as far as it is not tracked. -/
structure Sighted (w : World) (passes : List Pass) (id : SessionId) (session : Session) : Prop where
  seen : ∀ p ∈ session.tracked, InView session.anchor session.viewDistance p
  covered : ∀ p, InView session.anchor session.viewDistance p → w.Provides p →
    p ∈ session.tracked ∨ Coming passes id p

/-- Only provided columns are tracked or fetched, and the sessions that have looked are sighted. -/
structure Game.Visible (g : Game) : Prop where
  tracked : ∀ {id session}, g.server.session? id = some session →
    ∀ p ∈ session.tracked, g.server.world.Provides p
  fetched : ∀ pass ∈ g.passes, ∀ p ∈ pass.fetched, g.server.world.Provides p
  known : ∀ id ∈ g.lookers, id < g.server.sessions.size
  sighted : ∀ {id session}, id ∈ g.lookers → g.server.session? id = some session →
    session.finalized = false → Sighted g.server.world g.passes id session

/-! ### Transport of the invariant -/

theorem Coming.mono {passes passes' : List Pass} {id : SessionId} {p : ChunkPos}
    (h : Coming passes id p) (hsub : ∀ pass ∈ passes, pass ∈ passes') : Coming passes' id p := by
  obtain ⟨pass, hpass, hid, hp⟩ := h
  exact ⟨pass, hsub pass hpass, hid, hp⟩

/-- A session of the same place and columns, under the same border, with as much under way. -/
theorem Sighted.transport {w w' : World} {passes passes' : List Pass} {id : SessionId}
    {session session' : Session} (h : Sighted w passes id session) (border : w'.border = w.border)
    (anchor : session'.anchor = session.anchor)
    (viewDistance : session'.viewDistance = session.viewDistance)
    (tracked : session'.tracked = session.tracked)
    (coming : ∀ p, w.Provides p → Coming passes id p → Coming passes' id p) :
    Sighted w' passes' id session' where
  seen p hp := by
    rw [tracked] at hp
    rw [anchor, viewDistance]
    exact h.seen p hp
  covered p hview hp := by
    rw [anchor, viewDistance] at hview
    have hp' := (World.provides_congr border).mp hp
    rw [tracked]
    exact (h.covered p hview hp').imp_right (coming p hp')

/-- The same session, under the same border, with as much under way. -/
theorem Sighted.same {w w' : World} {passes passes' : List Pass} {id : SessionId} {session : Session}
    (h : Sighted w passes id session) (border : w'.border = w.border)
    (coming : ∀ p, w.Provides p → Coming passes id p → Coming passes' id p) :
    Sighted w' passes' id session :=
  h.transport border rfl rfl rfl coming

/-- Another server with the same sessions, or sessions alike, under the same border. -/
theorem Game.Visible.server (h : g.Visible) {s : Server} (border : s.world.border = g.server.world.border)
    (size : g.server.sessions.size ≤ s.sessions.size)
    (session : ∀ {id session'}, s.session? id = some session' →
      ∃ session, g.server.session? id = some session ∧ session.Alike session') :
    Game.Visible { g with server := s } where
  tracked hs' p hp := by
    obtain ⟨session, hs, alike⟩ := session hs'
    rw [alike.tracked] at hp
    exact (World.provides_congr border).mpr (h.tracked hs p hp)
  fetched pass hpass p hp := (World.provides_congr border).mpr (h.fetched pass hpass p hp)
  known id hid := (h.known id hid).trans_le size
  sighted hid hs' live := by
    obtain ⟨session, hs, alike⟩ := session hs'
    have before : session.finalized = false := by rw [← alike.finalized, live]
    exact (h.sighted hid hs before).transport border alike.anchor alike.viewDistance alike.tracked
      fun p _ hp => hp

theorem Game.Visible.keeps (h : g.Visible) {s : Server} (keeps : g.server.Keeps s)
    (border : s.world.border = g.server.world.border) : Game.Visible { g with server := s } :=
  h.server border keeps.size.ge fun hs => ⟨_, by rw [← keeps.session?, hs], .refl _⟩

/-! ### Changes -/

theorem visible_login (h : g.Visible) (login : Login) (handle : Handle) :
    Game.Visible { g with server := g.server.accept login handle } := by
  have spec := g.server.accept_spec login handle
  have border : (g.server.accept login handle).world.border = g.server.world.border := by rw [spec.world]
  refine ⟨?_, ?_, ?_, ?_⟩
  · intro id session hs p hp
    rw [spec.session?] at hs
    rw [World.provides_congr border]
    split at hs
    · cases hs
      exact absurd hp Tracked.not_mem_empty
    · exact h.tracked hs p hp
  · intro pass hpass p hp
    exact (World.provides_congr border).mpr (h.fetched pass hpass p hp)
  · intro id hid
    rw [spec.size]
    exact Nat.lt_succ_of_lt (h.known id hid)
  · intro id session hid hs live
    have old : id ≠ g.server.sessions.size := (h.known id hid).ne
    rw [spec.session?, if_neg old] at hs
    exact (h.sighted hid hs live).same border fun p _ hp => hp

/-- Where the view distance was set, nothing is said until the session looks again. -/
theorem visible_setViewDistance (h : g.Visible) (id : SessionId) (v : UInt32) :
    Game.Visible { g with
      server := g.server.update id (·.setViewDistance v)
      lookers := g.lookers.erase id } := by
  refine ⟨?_, h.fetched, ?_, ?_⟩
  · intro j session' hs' p hp
    rw [Server.session?_update] at hs'
    split at hs'
    · obtain ⟨session, hs, rfl⟩ := Option.map_eq_some_iff.mp hs'
      exact h.tracked hs p hp
    · exact h.tracked hs' p hp
  · intro j hj
    rw [Server.size_update]
    exact h.known j (Finset.mem_of_mem_erase hj)
  · intro j session' hj hs' live
    obtain ⟨hne, hmem⟩ := Finset.mem_erase.mp hj
    rw [Server.session?_update, if_neg (Ne.symm hne)] at hs'
    exact (h.sighted hmem hs' live).same rfl fun p _ hp => hp

/-- **One session changes**, and all that is asked for is asked for it: that it tracks what is provided
and is sighted if it has looked. -/
theorem visible_becomes (h : g.Visible) {s : Server} {id : SessionId} {session' : Session}
    {passes : List Pass} {lookers : Finset SessionId} (becomes : g.server.Becomes id session' s)
    (border : s.world.border = g.server.world.border)
    (tracked : ∀ p ∈ session'.tracked, g.server.world.Provides p)
    (fetched : ∀ pass ∈ passes, ∀ p ∈ pass.fetched, g.server.world.Provides p)
    (known : ∀ j ∈ lookers, j < g.server.sessions.size)
    (own : id ∈ lookers → session'.finalized = false → Sighted s.world passes id session')
    (others : ∀ j ∈ lookers, j ≠ id → j ∈ g.lookers ∧ ∀ p, Coming g.passes j p → Coming passes j p) :
    Game.Visible { server := s, passes, lookers } := by
  refine ⟨?_, ?_, ?_, ?_⟩
  · intro j session₁ hj p hp
    rw [becomes.session?] at hj
    rw [World.provides_congr border]
    split at hj
    · cases hj
      exact tracked p hp
    · exact h.tracked hj p hp
  · intro pass hpass p hp
    exact (World.provides_congr border).mpr (fetched pass hpass p hp)
  · intro j hj
    rw [becomes.size]
    exact known j hj
  · intro j session₁ hlook hj live
    rw [becomes.session?] at hj
    split at hj
    · rename_i same
      subst same
      cases hj
      exact own hlook live
    · rename_i apart
      obtain ⟨looked, coming⟩ := others j hlook (Ne.symm apart)
      exact (h.sighted looked hj live).same border fun p _ => coming p

/-- The end of a session leaves it with nothing to be sighted of. -/
theorem visible_ends (h : g.Visible) {id : SessionId} {s : Server} (ends : g.server.Ends id s) :
    Game.Visible { g with server := s } := by
  cases ends with
  | void _ keeps world => exact h.keeps keeps (by rw [world])
  | live own live becomes follows =>
    refine visible_becomes h becomes follows.border ?_ h.fetched h.known ?_ ?_
    · intro p hp
      exact absurd hp Tracked.not_mem_empty
    · intro _ live'
      cases live'
    · intro j hj _
      exact ⟨hj, fun p hp => hp⟩

/-- **The first phase** makes the session sighted for where it is now: what is in view and not tracked
is wanted. -/
theorem visible_look (sound : g.Sound) (h : g.Visible) {id : SessionId} {session : Session}
    {course : Course} {glance : Glance} {sc : Scene} {pass : Pass}
    (own : g.server.session? id = some session) (live : session.finalized = false)
    (phase : course.phase { session, world := g.server.world } = .ok (some glance, sc))
    (hid : pass.session = id) (hwanted : pass.wanted = glance.wanted) (hfetched : pass.fetched = #[]) :
    Game.Visible
      { server := g.server.absorb id sc, passes := g.passes ++ [pass],
        lookers := insert id g.lookers } := by
  obtain ⟨t', hs, hm, hw, hf⟩ := looked live (sound.session own) phase
  have becomes := Server.becomes_absorb own sc
  rw [hs] at becomes
  refine visible_becomes h becomes hf.border ?_ ?_ ?_ ?_ ?_
  · intro p hp
    have before : p ∈ session.tracked := ((hm p).mp hp).1
    exact h.tracked own p before
  · intro q hq p hp
    rcases List.mem_append.mp hq with hq | hq
    · exact h.fetched q hq p hp
    · cases List.mem_singleton.mp hq
      rw [hfetched] at hp
      simp at hp
  · intro j hj
    rcases Finset.mem_insert.mp hj with rfl | hj
    · exact Server.session?_lt own
    · exact h.known j hj
  · intro _ _
    have reach : ∀ p, InView ((course.apply session).track t').anchor
        ((course.apply session).track t').viewDistance p ↔
          InView (course.apply session).anchor session.viewDistance p := by
      intro p
      rw [Session.track_anchor, Session.track_viewDistance, Course.apply_viewDistance]
    refine ⟨fun p hp => (reach p).mpr ((hm p).mp hp).2, fun p hview _ => ?_⟩
    rw [reach] at hview
    by_cases ht : p ∈ session.tracked
    · exact Or.inl ((hm p).mpr ⟨ht, hview⟩)
    · have wanted : p ∈ pass.wanted := by
        rw [hwanted]
        exact (hw p).mpr ⟨hview, ht⟩
      exact Or.inr ⟨pass, by simp, hid, Or.inl wanted⟩
  · intro j hj apart
    refine ⟨(Finset.mem_insert.mp hj).resolve_left apart, fun p hp => ?_⟩
    exact hp.mono fun q hq => List.mem_append_left _ hq

/-- A column that comes with one of several passes still comes when that pass is replaced by one of
the same session with which it comes. -/
theorem Coming.set {passes : List Pass} {i : Nat} {pass pass' : Pass} {id : SessionId} {p : ChunkPos}
    (h : Coming passes id p) (own : passes[i]? = some pass) (hid : pass'.session = pass.session)
    (hp : p ∈ pass.wanted ∨ p ∈ pass.fetched → p ∈ pass'.wanted ∨ p ∈ pass'.fetched) :
    Coming (passes.set i pass') id p := by
  obtain ⟨q, hq, hqid, hcome⟩ := h
  obtain ⟨k, hk⟩ := List.mem_iff_getElem?.mp hq
  by_cases hik : i = k
  · subst hik
    rw [own] at hk
    cases hk
    refine ⟨pass', List.mem_iff_getElem?.mpr ⟨i, ?_⟩, hid.trans hqid, hp hcome⟩
    rw [List.getElem?_set_self (List.getElem?_eq_some_iff.mp own).1]
  · exact ⟨q, List.mem_iff_getElem?.mpr ⟨k, by rw [List.getElem?_set_ne hik, hk]⟩, hqid, hcome⟩

/-- A column that comes with one of several passes comes with the one at place `i`, or still does when
that is gone. -/
theorem Coming.eraseIdx {passes : List Pass} {i : Nat} {pass : Pass} {id : SessionId} {p : ChunkPos}
    (h : Coming passes id p) (own : passes[i]? = some pass) :
    (pass.session = id ∧ (p ∈ pass.wanted ∨ p ∈ pass.fetched)) ∨ Coming (passes.eraseIdx i) id p := by
  obtain ⟨q, hq, hqid, hcome⟩ := h
  obtain ⟨k, hk⟩ := List.mem_iff_getElem?.mp hq
  by_cases hik : k = i
  · subst hik
    rw [own] at hk
    cases hk
    exact Or.inl ⟨hqid, hcome⟩
  · exact Or.inr ⟨q, List.mem_eraseIdx_iff_getElem?.mpr ⟨k, hik, hk⟩, hqid, hcome⟩

/-- **A fetch for a pass** keeps the column coming if the border lets it in. -/
theorem visible_advance (h : g.Visible) {i : Nat} {pass pass' : Pass} {s : Server}
    (own : g.passes[i]? = some pass) (hadv : g.server.advance pass = .ok (pass', s)) :
    Game.Visible { g with server := s, passes := g.passes.set i pass' } := by
  have mem : pass ∈ g.passes := List.mem_of_getElem? own
  have advances := Server.advance_spec hadv
  have kept := h.keeps advances.keeps advances.border
  refine ⟨kept.tracked, ?_, kept.known, ?_⟩
  · intro q hq p hp
    rcases List.mem_or_eq_of_mem_set hq with hq | rfl
    · exact kept.fetched q hq p hp
    · rcases advances.fetched p hp with hp | ⟨-, provides, -⟩
      · exact kept.fetched pass mem p hp
      · exact (World.provides_congr advances.border).mpr provides
  · intro id session hid hs live
    refine (kept.sighted hid hs live).same rfl fun p provides hcome => ?_
    have before := (World.provides_congr advances.border).mp provides
    exact hcome.set own advances.session (advances.coming p before)

/-- **The end of a pass** subscribes to what is coming with it, as far as it is in view now. -/
theorem visible_settle (sound : g.Sound) (h : g.Visible) {i : Nat} {pass : Pass} {report : Report}
    {s : Server} (own : g.passes[i]? = some pass) (idle : pass.wanted = [])
    (hset : g.server.settle pass = .ok (report, s)) :
    Game.Visible { g with server := s, passes := g.passes.eraseIdx i } := by
  have mem : pass ∈ g.passes := List.mem_of_getElem? own
  obtain ⟨-, settles⟩ := sound.settled own hset
  cases settles with
  | void ended keeps world =>
    have kept := h.keeps keeps (by rw [world])
    have fetched : ∀ q ∈ g.passes.eraseIdx i, ∀ p ∈ q.fetched, s.world.Provides p :=
      fun q hq => kept.fetched q (List.mem_of_mem_eraseIdx hq)
    refine ⟨kept.tracked, fetched, kept.known, ?_⟩
    intro j session hid hs live
    refine (kept.sighted hid hs live).same rfl fun p _ hp => (hp.eraseIdx own).resolve_left ?_
    rintro ⟨rfl, -⟩
    rw [keeps.session?] at hs
    rw [ended session hs] at live
    cases live
  | live own' live becomes tracked joins =>
    refine visible_becomes h becomes joins.border ?_ ?_ h.known ?_ ?_
    · intro p hp
      rcases (tracked p).mp hp with hp | ⟨hp, -⟩
      · exact h.tracked own' p hp
      · exact h.fetched pass mem p hp
    · intro q hq
      exact h.fetched q (List.mem_of_mem_eraseIdx hq)
    · intro hlook _
      obtain ⟨seen, covered⟩ := h.sighted hlook own' live
      refine ⟨fun p hp => ?_, fun p hview hp => ?_⟩
      · rcases (tracked p).mp hp with hp | ⟨-, hp⟩
        · exact seen p hp
        · exact hp
      · have before := (World.provides_congr joins.border).mp hp
        rcases covered p hview before with ht | hcome
        · exact Or.inl ((tracked p).mpr (Or.inl ht))
        · rcases hcome.eraseIdx own with ⟨-, hp⟩ | hcome
          · rw [idle] at hp
            have fetched : p ∈ pass.fetched := hp.resolve_left List.not_mem_nil
            exact Or.inl ((tracked p).mpr (Or.inr ⟨fetched, hview⟩))
          · exact Or.inr hcome
    · intro j hj apart
      refine ⟨hj, fun p hp => ?_⟩
      exact (hp.eraseIdx own).resolve_left fun ⟨hid, _⟩ => apart hid.symm

/-- **The invariant survives every change.** -/
theorem Change.visible (c : Change acts ends g g') (sound : g.Sound) (h : g.Visible) : g'.Visible := by
  obtain ⟨us, c⟩ := c
  cases c with
  | aside c => exact h.server (by rw [c.quiet.world]) c.quiet.size.ge c.quiet.session
  | login named free => exact visible_login h _ _
  | setViewDistance act v => exact visible_setViewDistance h _ v
  | finalize _ act => exact visible_ends h (g.server.ends_finalize _)
  | remove _ act => exact visible_ends h (g.server.ends_removePlayer _)
  | look act own live fresh phase => exact visible_look sound h own live phase rfl rfl rfl
  | fetch c =>
    obtain ⟨keeps, -, fetches⟩ := Server.column_spec c
    exact h.keeps keeps fetches.border
  | edit p c => exact h.keeps ⟨rfl, rfl, rfl, rfl, fun _ => rfl⟩ rfl
  | advance own act c => exact visible_advance h own c
  | settle own act idle c => exact visible_settle sound h own idle c

/-! ### The tracked columns after a run -/

/-- A session as it is created, with whatever it is created. -/
def Session.Fresh (s : Session) : Prop :=
  ∃ handle entityId identity group position viewDistance,
    s = Session.create handle entityId identity group position viewDistance

theorem fresh_session (handle : Handle) (entityId : Int64) (identity : Identity) (group : Group)
    (position : Vec3) (viewDistance : UInt32) :
    (Session.create handle entityId identity group position viewDistance).Fresh :=
  ⟨_, _, _, _, _, _, rfl⟩

section Fresh

variable {s : Server} {new session : Session} {id : SessionId}

theorem fresh_create {config : Config} {world : World} {dispatcher : Dispatcher}
    (own : (Server.create config world dispatcher).session? id = some session) : session.Fresh := by
  rw [session?_create] at own
  cases own

/-- All sessions are fresh after one was added that is. -/
theorem fresh_addSession (fresh : ∀ id session, s.session? id = some session → session.Fresh)
    (created : new.Fresh) (own : (s.addSession new).2.session? id = some session) : session.Fresh := by
  have pushed : (s.sessions.push new)[id]? = some session := own
  rw [Array.getElem?_push] at pushed
  split at pushed
  · cases pushed
    exact created
  · exact fresh id session pushed

end Fresh

/-- The session `id` has looked around since its view distance was last set from outside, and no pass
of it is under way. -/
def Game.AtRest (g : Game) (id : SessionId) : Prop :=
  id ∈ g.lookers ∧ ∀ pass ∈ g.passes, pass.session ≠ id

instance (g : Game) (id : SessionId) : Decidable (g.AtRest id) :=
  inferInstanceAs (Decidable (id ∈ g.lookers ∧ ∀ pass ∈ g.passes, pass.session ≠ id))

/-- The session tracks exactly the columns that `w` provides and that its view distance reaches from
the column of its position. -/
def Session.TracksView (s : Session) (w : World) : Prop :=
  ∀ p, p ∈ s.tracked.positions ↔ w.Provides p ∧ 0 < s.viewDistance ∧
    (anchorOf s.position).gapSquared p ≤ s.viewDistance.toNat * s.viewDistance.toNat

/-- For a sound session being in view is a matter of its position and view distance alone. -/
theorem Session.Sound.inView_iff {s : Session} (h : s.Sound) (p : ChunkPos) :
    InView s.anchor s.viewDistance p ↔ 0 < s.viewDistance ∧
      (anchorOf s.position).gapSquared p ≤ s.viewDistance.toNat * s.viewDistance.toNat := by
  rw [InView, h.viewDistance, h.anchor, UInt32.pos_iff_ne_zero]

theorem Session.Sound.positions_eq_nil {s : Session} (h : s.Sound) (ended : s.finalized = true) :
    s.tracked.positions = [] :=
  List.eq_nil_iff_forall_not_mem.mpr fun p hp => h.released ended p (Tracked.mem_positions.mp hp)

/-- A session that is sighted and to which nothing is coming tracks its view. -/
theorem Game.Visible.tracksView (h : g.Visible) (sound : g.Sound) {id : SessionId} {session : Session}
    (hs : g.server.session? id = some session) (live : session.finalized = false)
    (rest : g.AtRest id) : session.TracksView g.server.world := by
  obtain ⟨seen, covered⟩ := h.sighted rest.1 hs live
  intro p
  rw [Tracked.mem_positions, ← (sound.session hs).inView_iff p]
  constructor
  · intro hp
    exact ⟨h.tracked hs p hp, seen p hp⟩
  · rintro ⟨hprov, hview⟩
    refine (covered p hview hprov).resolve_right ?_
    rintro ⟨pass, hpass, hid, -⟩
    exact rest.2 pass hpass hid

theorem sound_of_fresh {s : Server}
    (fresh : ∀ id session, s.session? id = some session → session.Fresh) :
    Game.Sound { server := s } := by
  refine ⟨fun {id session} hs => ?_, by simp, by simp⟩
  obtain ⟨handle, entityId, identity, group, position, viewDistance, rfl⟩ := fresh id session hs
  exact .create _ _ _ _ _ _

theorem visible_of_fresh {s : Server}
    (fresh : ∀ id session, s.session? id = some session → session.Fresh) :
    Game.Visible { server := s } := by
  refine ⟨fun {id session} hs p hp => ?_, by simp, by simp, fun {id session} hid => by simp at hid⟩
  obtain ⟨handle, entityId, identity, group, position, viewDistance, rfl⟩ := fresh id session hs
  exact absurd hp Tracked.not_mem_empty

/-- **A session at rest tracks its view, and a finalized one nothing.** This holds in every world and
for all sessions that begin fresh, after whatever was done to them and to anything else, in any order,
with other operations between the phases of a pass. A session that is finalized tracks nothing from
then on, whatever happens later. -/
theorem tracked_exact (s : Server)
    (fresh : ∀ id session, s.session? id = some session → session.Fresh) (actions : List Action) :
    ∃ g, Game.run { server := s } actions = .ok g ∧
      ∀ id session, g.server.session? id = some session →
        (session.finalized = false → g.AtRest id → session.TracksView g.server.world) ∧
        (session.finalized = true → ∀ later, ∃ g' session', g.run later = .ok g' ∧
          g'.server.session? id = some session' ∧ session'.finalized = true ∧
          session'.tracked.positions = []) := by
  obtain ⟨g, hrun, sound, visible⟩ := run_invariant (P := Game.Visible)
    (fun sound h c => c.visible sound h) (sound_of_fresh fresh) (visible_of_fresh fresh) actions
  refine ⟨g, hrun, fun id session hs => ⟨fun live rest => visible.tracksView sound hs live rest,
    fun ended later => ?_⟩⟩
  obtain ⟨g', hrun', hc⟩ := run_changes sound later
  obtain ⟨session', hs', lasts⟩ := hc.lasts sound hs
  have ended' := lasts.finalized ended
  exact ⟨g', session', hrun', hs', ended', ((hc.sound sound).session hs').positions_eq_nil ended'⟩

/-- Two players look around. While their columns are being fetched, the first moves on and its movement
ends before what it had begun; the second is finalized, and then all it fetched comes too late. -/
theorem tracked_exact_newcomer :
    let player (n : UInt64) : Session :=
      Session.create ⟨n⟩ n.toInt64 default (Group.empty "member") Vec3.zero 1
    let s := (((Server.create {} {} .standard).addSession (player 1)).2.addSession (player 2)).2
    let fetches (i : Nat) : List Action := List.replicate 5 (.advance i)
    let actions : List Action :=
      [.refresh 0, .refresh 1, .move 0 ⟨40, 0, 0⟩ Rotation.zero true] ++
        fetches 0 ++ fetches 1 ++ fetches 2 ++ [.settle 2, .finalize 1, .settle 1, .settle 0]
    (∀ id session, s.session? id = some session → session.Fresh) ∧
      ∃ g session ended, Game.run { server := s } actions = .ok g ∧
        g.server.session? 0 = some session ∧ session.finalized = false ∧ g.AtRest 0 ∧
        session.TracksView g.server.world ∧
        session.tracked.positions = [⟨1, 0⟩, ⟨2, -1⟩, ⟨2, 0⟩, ⟨2, 1⟩, ⟨3, 0⟩] ∧
        g.server.session? 1 = some ended ∧ ended.finalized = true ∧
        ∀ later, ∃ g' ended', g.run later = .ok g' ∧ g'.server.session? 1 = some ended' ∧
          ended'.finalized = true ∧ ended'.tracked.positions = [] := by
  intro player s fetches actions
  have fresh : ∀ id session, s.session? id = some session → session.Fresh := fun _ _ =>
    fresh_addSession (fun _ _ => fresh_addSession (fun _ _ => fresh_create) (fresh_session ..))
      (fresh_session ..)
  have reached : (Game.run { server := s } actions).toOption.any (fun g => decide (g.AtRest 0 ∧
      (g.server.session? 0).map (fun session => (session.finalized, session.tracked.positions)) =
        some (false, [⟨1, 0⟩, ⟨2, -1⟩, ⟨2, 0⟩, ⟨2, 1⟩, ⟨3, 0⟩]) ∧
      (g.server.session? 1).map Session.finalized = some true)) = true := by
    decide +kernel
  obtain ⟨g, hrun, exact⟩ := tracked_exact s fresh actions
  obtain ⟨rest, first, second⟩ := Game.holds_of_run reached hrun
  obtain ⟨session, own, state⟩ := Option.map_eq_some_iff.mp first
  obtain ⟨ended, own', gone⟩ := Option.map_eq_some_iff.mp second
  obtain ⟨live, columns⟩ := Prod.mk.inj state
  exact ⟨fresh, g, session, ended, hrun, own, live, rest, (exact 0 session own).1 live rest, columns,
    own', gone, (exact 1 ended own').2 gone⟩

end BlockWorld
