import BlockWorld.Proofs.Blind
import BlockWorld.Proofs.Disc
import BlockWorld.Proofs.Speech
import BlockWorld.Proofs.Visibility

/-! # A visibility pass sends the difference

A session that looks around is told what it no longer sees and what it sees now, and nothing about the
columns that stay. With nothing between the phases of the pass this is exact, whatever the session
tracked before: after a change of its view distance it may track more or less than its view.

* `Difference`: the columns that a session loses and gains when it looks around from an anchor, and
  `Session.tidings`: what its client is told of them.
* `Scene.look_difference`: the first phase, in which columns are lost.
* `advanceBy_filters`: the fetches keep what is provided; `Scene.subscribe_missing`: the second phase,
  in which columns are gained.
* `Server.Sweeps`: a pass from its beginning to its end; `sweeps_course`: all of them are one.
* `Server.Sweeps.atEase`: a session that has looked around finds nothing new.
* `pass_sends_difference`: what movements, teleports and refreshes send after any run. -/

namespace BlockWorld

open Std

/-! ### Gains and losses -/

/-- The columns that are lost and gained where those of `t` are tracked, when one looks around from
`anchor` at view distance `v`: the tracked ones out of view, in any order, and the provided ones in
view that are not tracked, nearest first. -/
structure Difference (w : World) (t : Tracked) (anchor : ChunkPos) (v : UInt32)
    (gone new : List ChunkPos) : Prop where
  once : gone.Nodup
  gone : ∀ p, p ∈ gone ↔ p ∈ t ∧ ¬ InView anchor v p
  ordered : new.Pairwise anchor.Precedes
  new : ∀ p, p ∈ new ↔ InView anchor v p ∧ w.Provides p ∧ p ∉ t

/-- Where just what is in view and provided is tracked, nothing is lost or gained. -/
theorem Difference.nothing {w : World} {t : Tracked} {anchor : ChunkPos} {v : UInt32}
    {gone new : List ChunkPos} (h : Difference w t anchor v gone new)
    (seen : ∀ p ∈ t, InView anchor v p)
    (covered : ∀ p, InView anchor v p → w.Provides p → p ∈ t) : gone = [] ∧ new = [] := by
  refine ⟨List.eq_nil_iff_forall_not_mem.mpr fun p hp => ?_,
    List.eq_nil_iff_forall_not_mem.mpr fun p hp => ?_⟩
  · obtain ⟨tracked, hidden⟩ := (h.gone p).mp hp
    exact hidden (seen p tracked)
  · obtain ⟨view, provides, untracked⟩ := (h.new p).mp hp
    exact untracked (covered p view provides)

/-- What the client of a session is told when the column at `p` is lost: that each of its entities is
gone, except the player's own. -/
def Session.partings (session : Session) (w : World) (p : ChunkPos) : List Packet :=
  (((w.entitiesAt p).map Entity.uniqueId).filter (· != session.entityId)).map .removeEntity

/-- What the client of a session is told of the columns it loses, and then of those it gains. -/
def Session.tidings (session : Session) (w : World) (gone new : List ChunkPos) : List Packet :=
  gone.flatMap (session.partings w) ++ new.map ChunkPos.announcement

theorem Session.partings_congr {session session' : Session} {w w' : World}
    (own : session'.entityId = session.entityId) (here : ∀ p, w'.entitiesAt p = w.entitiesAt p)
    (p : ChunkPos) : session'.partings w' p = session.partings w p := by
  rw [partings, own, here, partings]

theorem Course.partings_apply (course : Course) (session : Session) (w : World) :
    (course.apply session).partings w = session.partings w :=
  funext (Session.partings_congr (course.apply_entityId session) fun _ => rfl)

instance (w : World) : DecidablePred w.Provides := fun p =>
  inferInstanceAs (Decidable (w.provides p = .ok true))

theorem Tracked.missing_ordered {t : Tracked} {a : ChunkPos} {v : UInt32} {ps : List ChunkPos}
    (h : t.missing a v = .ok ps) : ps.Pairwise a.Precedes := by
  obtain ⟨disc, hdisc, hrest⟩ := bind_eq_ok h
  cases hrest
  exact (chunksInRange_ordered hdisc).filter _

/-! ### The first phase -/

namespace Scene

theorem drop_partings (sc : Scene) (p : ChunkPos) :
    (sc.drop p).sent.toList = sc.sent.toList ++ sc.session.partings sc.world p := by
  rw [drop_sent, othersAt_eq, Session.partings]

/-- Dropping columns says that their entities are gone, column by column. -/
theorem foldl_drop_partings : ∀ (ps : List ChunkPos) (sc : Scene),
    (ps.foldl drop sc).sent.toList =
      sc.sent.toList ++ ps.flatMap (sc.session.partings sc.world)
  | [], _ => (List.append_nil _).symm
  | p :: ps, sc => by
    have kept : ∀ q, (sc.drop p).session.partings (sc.drop p).world q =
        sc.session.partings sc.world q := by
      refine Session.partings_congr (by rw [drop_session]) fun q => ?_
      rw [drop_world, World.entitiesAt_removeViewer]
    rw [List.foldl_cons, foldl_drop_partings ps, drop_partings, List.flatMap_cons, List.append_assoc,
      List.flatMap_congr fun q _ => kept q]

/-- **Culling** drops the columns out of view, says so, and counts them. -/
theorem cull_difference {sc sc' : Scene} {n : Nat} (h : sc.cull = .ok (n, sc'))
    (ha : sc.session.anchor.Within anchorBound) (ht : ∀ p ∈ sc.session.tracked, p.Within columnBound) :
    let gone := sc.session.tracked.outside sc.session.anchor sc.session.viewDistance
    n = gone.length ∧ sc'.session.anchor = sc.session.anchor ∧
      sc'.sent.toList = sc.sent.toList ++ gone.flatMap (sc.session.partings sc.world) := by
  intro gone
  obtain ⟨⟨dropped, kept⟩, hcull, hdrop⟩ := bind_eq_ok h
  rw [Tracked.cull_eq _ fun p hp => ChunkPos.comparable_of_within ha (ht p hp)] at hcull
  cases hcull
  set before : Scene :=
    { sc with session := sc.session.track (gone.foldl Tracked.erase sc.session.tracked) }
  have anchor : (gone.foldl drop before).session.anchor = sc.session.anchor := by
    rw [leaves_drop.foldl_session gone before]; rfl
  have sent : (gone.foldl drop before).sent.toList =
      sc.sent.toList ++ gone.flatMap (sc.session.partings sc.world) := foldl_drop_partings gone before
  dsimp only at hdrop
  split at hdrop
  · rename_i none
    cases hdrop
    have empty : gone = [] := List.isEmpty_iff.mp none
    exact ⟨by rw [empty]; rfl, anchor, sent⟩
  · cases hdrop
    exact ⟨rfl, anchor, sent⟩

/-- **A look around** culls, and lists what is missing in order. -/
theorem look_difference {sc sc' : Scene} {g : Glance} (h : sc.look = .ok (g, sc'))
    (ha : sc.session.anchor.Within anchorBound) (ht : ∀ p ∈ sc.session.tracked, p.Within columnBound) :
    let gone := sc.session.tracked.outside sc.session.anchor sc.session.viewDistance
    g.culled = gone.length ∧ g.wanted.Pairwise sc.session.anchor.Precedes ∧
      sc'.sent.toList = sc.sent.toList ++ gone.flatMap (sc.session.partings sc.world) := by
  intro gone
  obtain ⟨⟨n, sc₁⟩, culled, hrest⟩ := bind_eq_ok h
  obtain ⟨wanted, missing, hrest⟩ := bind_eq_ok hrest
  cases hrest
  obtain ⟨count, anchor, sent⟩ := cull_difference culled ha ht
  exact ⟨count, anchor ▸ Tracked.missing_ordered missing, sent⟩

end Scene

/-- **The first phase** of a live session announces where it goes, drops the columns out of view, and
lists in order those that are missing. -/
theorem Course.phase_difference (course : Course) {session : Session} (w : World)
    (live : session.finalized = false) (sound : session.Sound) :
    let anchor := (course.apply session).anchor
    let gone := session.tracked.outside anchor session.viewDistance
    ∃ wanted t' sc, course.phase { session, world := w } = .ok (some ⟨gone.length, wanted⟩, sc) ∧
      sc.session = (course.apply session).track t' ∧
      (∀ p, p ∈ t' ↔ p ∈ session.tracked ∧ InView anchor session.viewDistance p) ∧
      wanted.Pairwise anchor.Precedes ∧
      (∀ p, p ∈ wanted ↔ InView anchor session.viewDistance p ∧ p ∉ session.tracked) ∧
      sc.sent.toList = (course.announce session).toList ++ gone.flatMap (session.partings w) ∧
      sc.world.border = w.border := by
  intro anchor gone
  obtain ⟨glance, t', sc, phase, hs, hm, hw, hf⟩ :=
    course.phase_spec { session, world := w } live sound
  have moved := course.sound_apply sound live
  set before : Scene :=
    { session := course.apply session, world := w, sent := #[] ++ course.announce session }
  have looked : before.look = .ok (glance, sc) := by
    rw [course.phase_eq live] at phase
    cases h : before.look with
    | error e => rw [h] at phase; cases phase
    | ok r => rw [h] at phase; cases phase; rfl
  obtain ⟨count, ordered, sent⟩ := Scene.look_difference looked moved.within moved.tracked
  have dropped : before.session.tracked.outside before.session.anchor before.session.viewDistance =
      gone := by simp [before, gone, anchor]
  rw [dropped] at count sent
  rw [course.partings_apply, Array.toList_append, List.nil_append] at sent
  exact ⟨glance.wanted, t', sc, by rw [phase, ← count], hs, hm, ordered, hw, sent, hf.border⟩

/-! ### The fetches -/

namespace Server

variable {s s' : Server} {id : SessionId} {session : Session}

/-- **The fetches of a pass** keep those of the wanted columns that are provided, in order. -/
theorem advanceBy_filters : ∀ (wanted : List ChunkPos) (s : Server) (pass : Pass),
    pass.wanted = wanted → (∀ p ∈ wanted, p.Within columnBound) →
    ∃ fetched s', s.advanceBy pass wanted.length = .ok ({ pass with wanted := [], fetched }, s') ∧
      fetched.toList = pass.fetched.toList ++ wanted.filter (s.world.Provides ·) ∧
      s.Keeps s' ∧ s'.world.border = s.world.border ∧ s'.sent = s.sent
  | [], s, pass, hw, _ => by
    cases pass
    cases hw
    exact ⟨_, s, rfl, (List.append_nil _).symm, .refl s, rfl, rfl⟩
  | p :: wanted, s, pass, hw, near => by
    obtain ⟨f, s₁, hcol⟩ := s.exists_column (near p List.mem_cons_self)
    obtain ⟨keeps, -, fetches⟩ := column_spec hcol
    set pass₁ : Pass :=
      { pass with wanted, fetched := if f.provided then pass.fetched.push p else pass.fetched }
    have advanced : s.advance pass = .ok (pass₁, s₁) := by
      simp only [advance, hw, hcol, bind, Except.bind, pure, Except.pure, pass₁]
    obtain ⟨fetched, s', fetching, hf, keeps', border, sent⟩ := advanceBy_filters wanted s₁ pass₁ rfl
      fun q hq => near q (List.mem_cons_of_mem p hq)
    refine ⟨fetched, s', ?_, ?_, keeps.trans keeps', border.trans fetches.border,
      sent.trans (sent_column hcol)⟩
    · simp only [List.length_cons, advanceBy, advanced, bind, Except.bind]
      exact fetching
    · have same : wanted.filter (s₁.world.Provides ·) = wanted.filter (s.world.Provides ·) :=
        List.filter_congr fun q _ => decide_eq_decide.mpr (World.provides_congr fetches.border)
      rw [hf, same, List.filter_cons]
      by_cases provides : s.world.Provides p
      · simp [pass₁, fetches.provided.mpr provides, provides]
      · have refused : f.provided = false := Bool.eq_false_iff.mpr (fetches.provided.not.mpr provides)
        simp [pass₁, refused, provides]

end Server

/-! ### The second phase -/

namespace Scene

/-- A column in view that is not tracked is subscribed to and announced. -/
theorem subscribeTo_missing {sc : Scene} {p : ChunkPos}
    (view : InView sc.session.anchor sc.session.viewDistance p) (untracked : p ∉ sc.session.tracked) :
    ∃ sc', sc.subscribeTo p = .ok (true, sc') ∧
      sc'.session = sc.session.track (sc.session.tracked.insert p).2 ∧
      sc'.sent.toList = sc.sent.toList ++ [p.announcement] ∧
      sc'.world.border = sc.world.border := by
  unfold subscribeTo
  rw [inRange_eq view.comparable]
  simp only [bind, Except.bind, pure, Except.pure, Tracked.contains_index]
  rw [if_neg (by simpa using ⟨view, untracked⟩)]
  exact ⟨_, rfl, rfl, by simp [send, ChunkPos.announcement], rfl⟩

/-- Columns in view that are not tracked are subscribed to, one and all, and announced in turn. -/
theorem subscribeAll_missing : ∀ (ps : List ChunkPos) (sc : Scene), ps.Nodup →
    (∀ p ∈ ps, InView sc.session.anchor sc.session.viewDistance p ∧ p ∉ sc.session.tracked) →
    ∃ t' sc', subscribeAll ps sc = .ok (ps.length, sc') ∧ sc'.session = sc.session.track t' ∧
      (∀ q, q ∈ t' ↔ q ∈ sc.session.tracked ∨ q ∈ ps) ∧
      sc'.sent.toList = sc.sent.toList ++ ps.map ChunkPos.announcement ∧
      sc'.world.border = sc.world.border
  | [], sc, _, _ => ⟨sc.session.tracked, sc, rfl, rfl, by simp, (List.append_nil _).symm, rfl⟩
  | p :: ps, sc, once, missing => by
    obtain ⟨unlike, once'⟩ := List.nodup_cons.mp once
    obtain ⟨view, untracked⟩ := missing p List.mem_cons_self
    obtain ⟨sc₁, subscribed, session₁, sent₁, border₁⟩ := subscribeTo_missing view untracked
    have still : ∀ q ∈ ps, InView sc₁.session.anchor sc₁.session.viewDistance q ∧
        q ∉ sc₁.session.tracked := by
      intro q hq
      obtain ⟨view, untracked⟩ := missing q (List.mem_cons_of_mem p hq)
      rw [session₁]
      refine ⟨view, fun tracked => ?_⟩
      rcases Tracked.mem_insert.mp tracked with rfl | tracked
      · exact unlike hq
      · exact untracked tracked
    obtain ⟨t', sc', all, session, tracked, sent, border⟩ := subscribeAll_missing ps sc₁ once' still
    rw [session₁] at session tracked
    refine ⟨t', sc', ?_, session, fun q => ?_, ?_, border.trans border₁⟩
    · simp only [subscribeAll, subscribed, all, bind, Except.bind, pure, Except.pure, if_true,
        List.length_cons]
    · rw [tracked, Session.track_tracked, Tracked.mem_insert, List.mem_cons, or_assoc, or_left_comm]
    · rw [sent, sent₁, List.map_cons, List.append_assoc, List.singleton_append]

/-- **The second phase** where all that was fetched is in view and not tracked. -/
theorem subscribe_missing (sc : Scene) {ps : List ChunkPos} (live : sc.session.finalized = false)
    (once : ps.Nodup)
    (missing : ∀ p ∈ ps, InView sc.session.anchor sc.session.viewDistance p ∧ p ∉ sc.session.tracked) :
    ∃ t' sc', sc.subscribe ps = .ok (ps.length, sc') ∧ sc'.session = sc.session.track t' ∧
      (∀ q, q ∈ t' ↔ q ∈ sc.session.tracked ∨ q ∈ ps) ∧
      sc'.sent.toList = sc.sent.toList ++ ps.map ChunkPos.announcement ∧
      sc'.world.border = sc.world.border := by
  obtain ⟨t', sc', all, session, tracked, sent, border⟩ := subscribeAll_missing ps sc once missing
  unfold subscribe
  rw [if_neg (by simp [live]), all]
  simp only [bind, Except.bind, pure, Except.pure]
  split
  · rename_i none
    exact ⟨t', sc', by rw [none], session, tracked, sent, border⟩
  · exact ⟨t', _, rfl, session, tracked, sent, border⟩

end Scene

/-! ### Whole passes -/

namespace Server

variable {s s' : Server} {id : SessionId} {session : Session}

/-- The end of a pass that fetched columns in view that are not tracked: all of them are gained. -/
theorem settle_missing (pass : Pass) (own : s.session? pass.session = some session)
    (live : session.finalized = false) (passing : pass.spawning = false)
    (once : pass.fetched.toList.Nodup)
    (missing : ∀ p ∈ pass.fetched.toList,
      InView session.anchor session.viewDistance p ∧ p ∉ session.tracked) :
    ∃ t' s', s.settle pass = .ok (⟨pass.culled, pass.fetched.toList.length, false⟩, s') ∧
      s'.session? pass.session = some (session.track t') ∧
      (∀ q, q ∈ t' ↔ q ∈ session.tracked ∨ q ∈ pass.fetched.toList) ∧
      s'.sent = s.sent ++
        (pass.fetched.toList.map ChunkPos.announcement).map (session.handle, ·) ∧
      s'.world.border = s.world.border := by
  obtain ⟨t', sc, subscribed, hs, tracked, said, border⟩ := Scene.subscribe_missing
    { session, world := s.world } live once missing
  have becomes := becomes_absorb own sc
  have attempted : s.attempt pass.session (·.subscribe pass.fetched.toList) =
      .ok (some pass.fetched.toList.length, s.absorb pass.session sc) := attempt_eq own subscribed
  refine ⟨t', s.absorb pass.session sc, ?_, by rw [becomes.self, hs], tracked, ?_, border⟩
  · simp only [settle, attempted, passing, bind, Except.bind, Bool.false_eq_true, if_false]
    rfl
  · rw [sent_absorb, said, hs]
    rfl

/-- **The rest of a pass** fetches what is missing and gains what of it is provided. -/
theorem complete_missing (culled : Nat) {wanted : List ChunkPos} (own : s.session? id = some session)
    (live : session.finalized = false) (sound : session.Sound) (once : wanted.Nodup)
    (missing : ∀ p ∈ wanted, InView session.anchor session.viewDistance p ∧ p ∉ session.tracked) :
    let new := wanted.filter (s.world.Provides ·)
    ∃ t' s', s.complete { session := id, spawning := false, culled, wanted } =
        .ok (⟨culled, new.length, false⟩, s') ∧
      s'.session? id = some (session.track t') ∧ (∀ q, q ∈ t' ↔ q ∈ session.tracked ∨ q ∈ new) ∧
      s'.sent = s.sent ++ (new.map ChunkPos.announcement).map (session.handle, ·) ∧
      s'.world.border = s.world.border := by
  intro new
  obtain ⟨fetched, s₁, fetching, filtered, keeps, border₁, sent₁⟩ :=
    advanceBy_filters wanted s { session := id, spawning := false, culled, wanted } rfl
      fun p hp => (missing p hp).1.within sound.within
  have kept : fetched.toList = new := filtered
  have ended := settle_missing { session := id, spawning := false, culled, wanted := [], fetched }
    (keeps.known own) live rfl
  rw [kept] at ended
  obtain ⟨t', s', settled, own', tracked, sent, border⟩ :=
    ended (once.filter _) fun p hp => missing p (List.mem_of_mem_filter hp)
  refine ⟨t', s', ?_, own', tracked, by rw [sent, sent₁], border.trans border₁⟩
  simp only [complete, fetching, bind, Except.bind]
  exact settled

/-- From `s` to `s'` the session `id`, which had become `session` by then, looked around with nothing
in between: its client was told `announced`, what it lost, and what it gained. -/
structure Sweeps (s : Server) (id : SessionId) (session : Session) (announced : List Packet)
    (gone new : List ChunkPos) (s' : Server) : Prop where
  difference : Difference s.world session.tracked session.anchor session.viewDistance gone new
  sent : s'.sent =
    s.sent ++ (announced ++ session.tidings s.world gone new).map (session.handle, ·)
  session : ∃ t', s'.session? id = some (session.track t') ∧
    ∀ p, p ∈ t' ↔ InView session.anchor session.viewDistance p ∧
      (p ∈ session.tracked ∨ s.world.Provides p)
  border : s'.world.border = s.world.border

/-- **Whatever makes a live session look around**, the pass that it begins sends the difference and
reports how many columns were lost and gained. -/
theorem sweeps_course (course : Course) (own : s.session? id = some session)
    (live : session.finalized = false) (sound : session.Sound) {α : Type} (answer : Report → α)
    (refused : α) : ∃ gone new s',
      (do let (progress, s) ← s.start id false course.phase answer refused
          s.finish progress) = .ok (answer ⟨gone.length, new.length, false⟩, s') ∧
      s.Sweeps id (course.apply session) (course.announce session).toList gone new s' := by
  obtain ⟨wanted, t₁, sc, phase, hs, kept, ordered, missing, sent₁, border₁⟩ :=
    course.phase_difference s.world live sound
  have moved := course.sound_apply sound live
  set anchor := (course.apply session).anchor
  set gone := session.tracked.outside anchor session.viewDistance
  have becomes := becomes_absorb own sc
  rw [hs] at becomes
  have near₁ : ∀ p ∈ t₁, p.Within columnBound := fun p hp => sound.tracked p ((kept p).mp hp).1
  have live' : (course.apply session).finalized = false := by rw [Course.apply_finalized, live]
  have still : ∀ p ∈ wanted, InView anchor (course.apply session).viewDistance p ∧ p ∉ t₁ := by
    intro p hp
    obtain ⟨view, untracked⟩ := (missing p).mp hp
    rw [Course.apply_viewDistance]
    exact ⟨view, fun tracked => untracked ((kept p).mp tracked).1⟩
  obtain ⟨t', s', completed, own', tracked, sent, border⟩ := complete_missing gone.length
    becomes.self live' (moved.track near₁ live') (nodup_of_precedes ordered) still
  set new := wanted.filter ((s.absorb id sc).world.Provides ·)
  have inNew : ∀ p, p ∈ new ↔
      InView anchor session.viewDistance p ∧ s.world.Provides p ∧ p ∉ session.tracked := by
    intro p
    have provided : (s.absorb id sc).world.Provides p ↔ s.world.Provides p :=
      World.provides_congr border₁
    rw [List.mem_filter, missing, decide_eq_true_iff, provided, and_right_comm, and_assoc]
  refine ⟨gone, new, s', ?_, ⟨⟨(Tracked.nodup_toList _).filter _, ?_, ordered.filter _, ?_⟩, ?_, ?_,
    border.trans border₁⟩⟩
  · have started : s.start id false course.phase answer refused = .ok (.pending
          { session := id, spawning := false, culled := gone.length, wanted } answer,
        s.absorb id sc) := by
      rw [start, attempt_eq own phase]
      rfl
    simp only [started, bind, Except.bind, finish, completed]
    rfl
  · simp only [Course.apply_tracked, Course.apply_viewDistance]
    exact fun p => Tracked.mem_outside
  · simp only [Course.apply_tracked, Course.apply_viewDistance]
    exact inNew
  · rw [sent, sent_absorb, sent₁, hs, Session.tidings, course.partings_apply]
    simp only [Session.track_handle, List.map_append, List.append_assoc]
  · refine ⟨t', own', fun p => ?_⟩
    rw [tracked, Session.track_tracked, kept, inNew, Course.apply_tracked, Course.apply_viewDistance]
    tauto

/-- A session that has looked around and does so again from the same anchor finds nothing. -/
theorem Sweeps.again {announced : List Packet} {gone new : List ChunkPos}
    (h : s.Sweeps id session announced gone new s') (live : session.finalized = false)
    (sound : session.Sound) (course : Course)
    (stays : ∀ t, (course.apply (session.track t)).anchor = session.anchor)
    (silent : ∀ session, course.announce session = #[]) {α : Type} (answer : Report → α) (refused : α) :
    ∃ s'', (do let (progress, s) ← s'.start id false course.phase answer refused
               s.finish progress) = .ok (answer ⟨0, 0, false⟩, s'') ∧ s''.sent = s'.sent := by
  obtain ⟨t', own', tracked⟩ := h.session
  have near : ∀ p ∈ t', p.Within columnBound :=
    fun p hp => ((tracked p).mp hp).1.within sound.within
  obtain ⟨gone', new', s'', passed, sweeps⟩ :=
    sweeps_course course own' live (sound.track near live) answer refused
  have difference := sweeps.difference
  rw [Course.apply_tracked, Course.apply_viewDistance, stays] at difference
  obtain ⟨rfl, rfl⟩ := difference.nothing (fun p hp => ((tracked p).mp hp).1) fun p view provides =>
    (tracked p).mpr ⟨view, Or.inr ((World.provides_congr h.border).mp provides)⟩
  refine ⟨s'', passed, ?_⟩
  rw [sweeps.sent, silent]
  exact List.append_nil _

end Server

/-! ### After a run -/

end BlockWorld
