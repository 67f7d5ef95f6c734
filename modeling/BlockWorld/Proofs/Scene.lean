import BlockWorld.Session.Scene
import BlockWorld.Proofs.Tracked
import BlockWorld.Proofs.World

/-! # What the phases of a visibility pass do

A phase changes which columns a session tracks, and the world follows: the session's viewer leaves
the columns that are dropped and joins those that are new.

* `Follows v t t' w w'`: from `w` to `w'` only the viewer `v` has come and gone, as the tracked
  columns changed from `t` to `t'`.
* `look_spec`: the first phase keeps what is in view and lists what is missing.
* `Announces t t' ps`: the columns that are announced as the tracked ones change from `t` to `t'`.
* `subscribe_spec`: the second phase adds what was fetched and is in view now, and announces it.
* `finalize_spec`: the end of a session gives every column up. -/

namespace BlockWorld

/-- A computation that succeeds does so at every step. -/
theorem bind_eq_ok {α β : Type} {x : Except Overflow α} {f : α → Except Overflow β} {b : β}
    (h : x >>= f = .ok b) : ∃ a, x = .ok a ∧ f a = .ok b := by
  cases x with
  | error e => cases h
  | ok a => exact ⟨a, rfl, h⟩

/-! ### Sessions with other columns -/

/-- The session with other tracked columns. -/
def Session.track (s : Session) (t : Tracked) : Session := { s with tracked := t }

/-- The session as it is after its end. -/
def Session.ended (s : Session) : Session :=
  { s with finalized := true, spawned := false, tracked := Tracked.empty }

namespace Session

variable (s : Session) (t u : Tracked)

@[simp] theorem track_handle : (s.track t).handle = s.handle := rfl
@[simp] theorem track_entityId : (s.track t).entityId = s.entityId := rfl
@[simp] theorem track_name : (s.track t).name = s.name := rfl
@[simp] theorem track_tracked : (s.track t).tracked = t := rfl
@[simp] theorem track_anchor : (s.track t).anchor = s.anchor := rfl
@[simp] theorem track_viewDistance : (s.track t).viewDistance = s.viewDistance := rfl
@[simp] theorem track_finalized : (s.track t).finalized = s.finalized := rfl
@[simp] theorem track_viewerId : (s.track t).viewerId = s.viewerId := rfl
@[simp] theorem track_track : (s.track t).track u = s.track u := rfl

end Session

/-! ### How the world follows -/

/-- From `w` to `w'` the viewer `v` left the columns of `t` that are not in `t'` and joined those of
`t'` that were not in `t`; nothing else happened. -/
structure Follows (v : ViewerId) (t t' : Tracked) (w w' : World) : Prop where
  border : w'.border = w.border
  loaded : ∀ p, w'.Loaded p ↔ w.Loaded p
  watched : ∀ p u, w'.Watched p u ↔
    (w.Watched p u ∧ ¬ (u = v ∧ p ∈ t ∧ p ∉ t')) ∨ (u = v ∧ p ∉ t ∧ p ∈ t')

/-- Where nothing is tracked anew or given up, the world stays as it is. -/
theorem Follows.refl (v : ViewerId) (t : Tracked) (w : World) : Follows v t t w w := by
  refine ⟨rfl, fun _ => Iff.rfl, fun p u => ⟨fun watched => ?_, ?_⟩⟩
  · exact Or.inl ⟨watched, fun ⟨_, hp, hn⟩ => hn hp⟩
  · rintro (⟨watched, -⟩ | ⟨-, hn, hp⟩)
    · exact watched
    · exact absurd hp hn

/-- From `w` to `w'` the viewer `v` joined those columns of `t'` that were not in `t`, as far as they
were loaded. -/
structure Joins (v : ViewerId) (t t' : Tracked) (w w' : World) : Prop where
  grows : ∀ p, p ∈ t → p ∈ t'
  border : w'.border = w.border
  loaded : ∀ p, w'.Loaded p ↔ w.Loaded p
  watched : ∀ p u, w'.Watched p u ↔ w.Watched p u ∨ (w.Loaded p ∧ u = v ∧ p ∉ t ∧ p ∈ t')

theorem Joins.refl (v : ViewerId) (t : Tracked) (w : World) : Joins v t t w w := by
  refine ⟨fun _ h => h, rfl, fun _ => Iff.rfl, ?_⟩
  intro p u
  constructor
  · exact Or.inl
  · rintro (hw | ⟨-, -, hn, hp⟩)
    · exact hw
    · exact absurd hp hn

theorem Joins.trans {v : ViewerId} {t₁ t₂ t₃ : Tracked} {w₁ w₂ w₃ : World}
    (h : Joins v t₁ t₂ w₁ w₂) (h' : Joins v t₂ t₃ w₂ w₃) : Joins v t₁ t₃ w₁ w₃ := by
  refine ⟨fun p hp => h'.grows p (h.grows p hp), h'.border.trans h.border,
    fun p => (h'.loaded p).trans (h.loaded p), fun p u => ?_⟩
  rw [h'.watched, h.watched, h.loaded]
  constructor
  · rintro ((hw | ⟨hl, hu, hn, hp⟩) | ⟨hl, hu, hn, hp⟩)
    · exact Or.inl hw
    · exact Or.inr ⟨hl, hu, hn, h'.grows p hp⟩
    · exact Or.inr ⟨hl, hu, fun h1 => hn (h.grows p h1), hp⟩
  · rintro (hw | ⟨hl, hu, hn, hp⟩)
    · exact Or.inl (Or.inl hw)
    · by_cases h2 : p ∈ t₂
      · exact Or.inl (Or.inr ⟨hl, hu, hn, h2⟩)
      · exact Or.inr ⟨hl, hu, h2, hp⟩

/-- If all the new columns are loaded, the viewer joins every one of them. -/
theorem Joins.follows {v : ViewerId} {t t' : Tracked} {w w' : World} (h : Joins v t t' w w')
    (hl : ∀ p, p ∉ t → p ∈ t' → w.Loaded p) : Follows v t t' w w' := by
  refine ⟨h.border, h.loaded, fun p u => ?_⟩
  rw [h.watched]
  constructor
  · rintro (hw | ⟨-, hj⟩)
    · exact Or.inl ⟨hw, fun ⟨_, hp, hn⟩ => hn (h.grows p hp)⟩
    · exact Or.inr hj
  · rintro (⟨hw, -⟩ | ⟨hu, hn, hp⟩)
    · exact Or.inl hw
    · exact Or.inr ⟨hl p hn hp, hu, hn, hp⟩

/-! ### Announcements -/

/-- The packet by which a client learns of a column. -/
def ChunkPos.announcement (p : ChunkPos) : Packet := .levelChunk (.column p.x p.z)

theorem ChunkPos.announcement_injective : Function.Injective ChunkPos.announcement := by
  rintro ⟨x, z⟩ ⟨x', z'⟩ h
  simpa [announcement, LevelChunk.column] using h

/-- The columns `ps` are those of `t'` that are not in `t`, each once. -/
structure Announces (t t' : Tracked) (ps : List ChunkPos) : Prop where
  once : ps.Nodup
  new : ∀ p, p ∈ ps ↔ p ∈ t' ∧ p ∉ t

theorem Announces.nil (t : Tracked) : Announces t t [] :=
  ⟨List.nodup_nil, fun p => by simp⟩

theorem Announces.append {t₁ t₂ t₃ : Tracked} {ps qs : List ChunkPos} (h : Announces t₁ t₂ ps)
    (h' : Announces t₂ t₃ qs) (hg : ∀ p, p ∈ t₁ → p ∈ t₂) (hg' : ∀ p, p ∈ t₂ → p ∈ t₃) :
    Announces t₁ t₃ (ps ++ qs) where
  once := List.nodup_append.mpr ⟨h.once, h'.once, fun p hp q hq same => by
    subst same
    have seen : p ∈ t₂ := ((h.new p).mp hp).1
    have unseen : p ∉ t₂ := ((h'.new p).mp hq).2
    exact unseen seen⟩
  new p := by
    have := hg p
    have := hg' p
    rw [List.mem_append, h.new, h'.new]
    tauto

namespace Scene

/-! ### Leaving columns -/

/-- Sending and noting touch neither the session nor the world. -/
theorem foldl_send_session (ids : List Int64) : ∀ sc : Scene,
    (ids.foldl (fun sc id => sc.send (.removeEntity id)) sc).session = sc.session ∧
      (ids.foldl (fun sc id => sc.send (.removeEntity id)) sc).world = sc.world := by
  induction ids with
  | nil => intro sc; exact ⟨rfl, rfl⟩
  | cons id ids ih => intro sc; exact ih (sc.send (.removeEntity id))

theorem drop_session (sc : Scene) (p : ChunkPos) : (sc.drop p).session = sc.session :=
  (foldl_send_session _ _).1

theorem drop_world (sc : Scene) (p : ChunkPos) :
    (sc.drop p).world = sc.world.removeViewer p sc.session.viewerId :=
  (foldl_send_session _ _).2

theorem foldl_send_sent : ∀ (ids : List Int64) (sc : Scene),
    (ids.foldl (fun sc id => sc.send (.removeEntity id)) sc).sent.toList =
      sc.sent.toList ++ ids.map Packet.removeEntity
  | [], sc => (List.append_nil _).symm
  | id :: ids, sc => by
    rw [List.foldl_cons, foldl_send_sent ids, send, Array.toList_push, List.append_assoc]
    rfl

theorem drop_sent (sc : Scene) (p : ChunkPos) :
    (sc.drop p).sent.toList = sc.sent.toList ++ (sc.othersAt p).map Packet.removeEntity :=
  foldl_send_sent _ _

/-- Dropping columns sends nothing but that entities are gone. -/
theorem foldl_drop_sent : ∀ (ps : List ChunkPos) (sc : Scene), ∃ ids : List Int64,
    (ps.foldl drop sc).sent.toList = sc.sent.toList ++ ids.map Packet.removeEntity
  | [], sc => ⟨[], (List.append_nil _).symm⟩
  | p :: ps, sc => by
    obtain ⟨ids, h⟩ := foldl_drop_sent ps (sc.drop p)
    refine ⟨sc.othersAt p ++ ids, ?_⟩
    rw [List.foldl_cons, h, drop_sent, List.map_append, List.append_assoc]

/-- A step that takes the session's viewer out of one column and leaves the session alone. -/
structure Leaves (step : Scene → ChunkPos → Scene) : Prop where
  session : ∀ sc p, (step sc p).session = sc.session
  world : ∀ sc p, (step sc p).world = sc.world.removeViewer p sc.session.viewerId

theorem leaves_drop : Leaves drop := ⟨drop_session, drop_world⟩

theorem leaves_release : Leaves release := ⟨fun _ _ => rfl, fun _ _ => rfl⟩

section Leaves
variable {step : Scene → ChunkPos → Scene} (h : Leaves step)
include h

theorem Leaves.foldl_session : ∀ (ps : List ChunkPos) (sc : Scene),
    (ps.foldl step sc).session = sc.session
  | [], _ => rfl
  | p :: ps, sc => (Leaves.foldl_session ps (step sc p)).trans (h.session sc p)

theorem Leaves.foldl_world : ∀ (ps : List ChunkPos) (sc : Scene),
    (ps.foldl step sc).world.border = sc.world.border ∧
      (∀ q, (ps.foldl step sc).world.Loaded q ↔ sc.world.Loaded q) ∧
      ∀ q u, (ps.foldl step sc).world.Watched q u ↔
        sc.world.Watched q u ∧ ¬ (u = sc.session.viewerId ∧ q ∈ ps)
  | [], sc => ⟨rfl, fun _ => Iff.rfl, fun _ _ => by simp⟩
  | p :: ps, sc => by
    obtain ⟨hb, hl, hw⟩ := Leaves.foldl_world ps (step sc p)
    rw [h.world] at hb hl hw
    refine ⟨hb, fun q => (hl q).trans World.loaded_removeViewer, fun q u => ?_⟩
    rw [List.foldl_cons, hw, World.watched_removeViewer, h.session, List.mem_cons]
    tauto

/-- Leaving exactly the columns that are no longer tracked makes the world follow. -/
theorem Leaves.follows {ps : List ChunkPos} (sc : Scene) {t t' : Tracked}
    (hps : ∀ p, p ∈ ps ↔ p ∈ t ∧ p ∉ t') (ht : ∀ p, p ∈ t' → p ∈ t) :
    Follows sc.session.viewerId t t' sc.world (ps.foldl step sc).world := by
  obtain ⟨hb, hl, hw⟩ := h.foldl_world ps sc
  refine ⟨hb, hl, fun q u => ?_⟩
  rw [hw, hps]
  have := ht q
  tauto

end Leaves

/-! ### The first phase -/

/-- Culling: whether something was dropped only decides about a note. -/
theorem cull_spec {sc : Scene} (ha : sc.session.anchor.Within anchorBound)
    (ht : ∀ p ∈ sc.session.tracked, p.Within columnBound) :
    ∃ n t' sc', sc.cull = .ok (n, sc') ∧ sc'.session = sc.session.track t' ∧
      (∀ p, p ∈ t' ↔
        p ∈ sc.session.tracked ∧ InView sc.session.anchor sc.session.viewDistance p) ∧
      Follows sc.session.viewerId sc.session.tracked t' sc.world sc'.world := by
  have hcull := Tracked.cull_eq sc.session.viewDistance
    fun p hp => ChunkPos.comparable_of_within ha (ht p hp)
  set dropped := sc.session.tracked.outside sc.session.anchor sc.session.viewDistance with hd
  set kept := dropped.foldl Tracked.erase sc.session.tracked with hk
  have hmem : ∀ p, p ∈ kept ↔ p ∈ sc.session.tracked ∧
      InView sc.session.anchor sc.session.viewDistance p := fun p => Tracked.mem_cull
  set before : Scene := { sc with session := sc.session.track kept } with hbefore
  have hsession : (dropped.foldl drop before).session = sc.session.track kept :=
    leaves_drop.foldl_session _ _
  have hfollows : Follows sc.session.viewerId sc.session.tracked kept sc.world
      (dropped.foldl drop before).world := by
    have given_up : ∀ p, p ∈ dropped ↔ p ∈ sc.session.tracked ∧ p ∉ kept := by
      intro p
      rw [hd, Tracked.mem_outside, hmem]
      tauto
    exact leaves_drop.follows before given_up fun p hp => ((hmem p).mp hp).1
  unfold cull
  rw [hcull]
  simp only [bind, Except.bind, pure, Except.pure]
  split
  · exact ⟨_, kept, _, rfl, hsession, hmem, hfollows⟩
  · exact ⟨_, kept, _, rfl, hsession, hmem, hfollows⟩

/-- **The first phase** keeps the tracked columns that are in view and lists those in view that are
not tracked. -/
theorem look_spec (sc : Scene) (ha : sc.session.anchor.Within anchorBound)
    (ht : ∀ p ∈ sc.session.tracked, p.Within columnBound) :
    ∃ g t' sc', sc.look = .ok (g, sc') ∧ sc'.session = sc.session.track t' ∧
      (∀ p, p ∈ t' ↔
        p ∈ sc.session.tracked ∧ InView sc.session.anchor sc.session.viewDistance p) ∧
      (∀ p, p ∈ g.wanted ↔
        InView sc.session.anchor sc.session.viewDistance p ∧ p ∉ sc.session.tracked) ∧
      Follows sc.session.viewerId sc.session.tracked t' sc.world sc'.world := by
  obtain ⟨n, t', sc', hc, hs, hm, hf⟩ := cull_spec ha ht
  obtain ⟨ps, hps, hwanted⟩ := Tracked.missing_spec t' (ha.inland sc.session.viewDistance)
  refine ⟨⟨n, ps⟩, t', sc', ?_, hs, hm, fun p => ?_, hf⟩
  · unfold look
    rw [hc]
    simp only [bind, Except.bind, pure, Except.pure, hs, Session.track_tracked,
      Session.track_anchor, Session.track_viewDistance, hps]
  · rw [hwanted, hm]
    tauto

/-- A look around tells the client of nothing but entities that are gone. -/
theorem look_sent {sc sc' : Scene} {g : Glance} (h : sc.look = .ok (g, sc')) :
    ∃ ids : List Int64, sc'.sent.toList = sc.sent.toList ++ ids.map Packet.removeEntity := by
  obtain ⟨⟨n, sc₁⟩, hcull, hrest⟩ := bind_eq_ok h
  obtain ⟨wanted, -, hrest⟩ := bind_eq_ok hrest
  cases hrest
  obtain ⟨⟨dropped, kept⟩, -, hdrop⟩ := bind_eq_ok hcull
  have erased := foldl_drop_sent dropped { sc with session := sc.session.track kept }
  dsimp only at hdrop
  split at hdrop
  · cases hdrop; exact erased
  · cases hdrop; exact erased

/-! ### The second phase -/

theorem subscribeTo_spec {sc : Scene} {p : ChunkPos} (ha : sc.session.anchor.Within anchorBound)
    (hp : p.Within columnBound) :
    ∃ b t' sc' new, sc.subscribeTo p = .ok (b, sc') ∧ sc'.session = sc.session.track t' ∧
      (∀ q, q ∈ t' ↔ q ∈ sc.session.tracked ∨
        (q = p ∧ InView sc.session.anchor sc.session.viewDistance q)) ∧
      Joins sc.session.viewerId sc.session.tracked t' sc.world sc'.world ∧
      Announces sc.session.tracked t' new ∧
      sc'.sent.toList = sc.sent.toList ++ new.map ChunkPos.announcement := by
  unfold subscribeTo
  rw [inRange_eq (ChunkPos.comparable_of_within ha hp)]
  simp only [bind, Except.bind, pure, Except.pure, Tracked.contains_index]
  by_cases hview : InView sc.session.anchor sc.session.viewDistance p ∧ p ∉ sc.session.tracked
  · rw [if_neg (by simpa using hview)]
    have hm : ∀ q, q ∈ (sc.session.tracked.insert p).2 ↔ q ∈ sc.session.tracked ∨
        (q = p ∧ InView sc.session.anchor sc.session.viewDistance q) := by
      intro q
      rw [Tracked.mem_insert]
      constructor
      · rintro (rfl | hq)
        · exact Or.inr ⟨rfl, hview.1⟩
        · exact Or.inl hq
      · rintro (hq | ⟨rfl, -⟩)
        · exact Or.inr hq
        · exact Or.inl rfl
    refine ⟨true, _, _, [p], rfl, rfl, hm, ⟨fun q hq => (hm q).mpr (Or.inl hq), rfl,
      fun q => World.loaded_addViewer, fun q u => ?_⟩, ⟨by simp, fun q => ?_⟩, ?_⟩
    · refine World.watched_addViewer.trans (or_congr_right ?_)
      rw [hm]
      constructor
      · rintro ⟨hl, rfl, rfl⟩
        exact ⟨hl, rfl, hview.2, Or.inr ⟨rfl, hview.1⟩⟩
      · rintro ⟨hl, rfl, hn, hq | ⟨rfl, -⟩⟩
        · exact absurd hq hn
        · exact ⟨hl, rfl, rfl⟩
    · rw [hm, List.mem_singleton]
      constructor
      · rintro rfl
        exact ⟨Or.inr ⟨rfl, hview.1⟩, hview.2⟩
      · rintro ⟨hq | ⟨rfl, -⟩, hn⟩
        · exact absurd hq hn
        · rfl
    · simp [send, ChunkPos.announcement]
  · rw [if_pos (by simpa [or_iff_not_imp_left] using hview)]
    refine ⟨false, sc.session.tracked, sc, [], rfl, rfl, fun q => ?_, Joins.refl _ _ _, .nil _,
      (List.append_nil _).symm⟩
    constructor
    · exact Or.inl
    · rintro (hq | ⟨rfl, hq⟩)
      · exact hq
      · by_contra hn
        exact hview ⟨hq, hn⟩

/-- Subscribing one after the other adds the columns of the list that are in view. -/
theorem subscribeAll_spec : ∀ (ps : List ChunkPos) (sc : Scene),
    sc.session.anchor.Within anchorBound → (∀ p ∈ ps, p.Within columnBound) →
    ∃ n t' sc' new, subscribeAll ps sc = .ok (n, sc') ∧ sc'.session = sc.session.track t' ∧
      (∀ q, q ∈ t' ↔ q ∈ sc.session.tracked ∨
        (q ∈ ps ∧ InView sc.session.anchor sc.session.viewDistance q)) ∧
      Joins sc.session.viewerId sc.session.tracked t' sc.world sc'.world ∧
      Announces sc.session.tracked t' new ∧
      sc'.sent.toList = sc.sent.toList ++ new.map ChunkPos.announcement
  | [], sc, _, _ => ⟨0, sc.session.tracked, sc, [], rfl, rfl, by simp, Joins.refl _ _ _, .nil _,
      (List.append_nil _).symm⟩
  | p :: ps, sc, ha, hps => by
    obtain ⟨b, t₁, sc₁, new₁, h₁, hs₁, hm₁, hj₁, hn₁, hsent₁⟩ :=
      subscribeTo_spec ha (hps p List.mem_cons_self)
    have ha₁ : sc₁.session.anchor.Within anchorBound := by rw [hs₁]; exact ha
    have hps₁ : ∀ q ∈ ps, q.Within columnBound := fun q hq => hps q (List.mem_cons_of_mem p hq)
    obtain ⟨n, t₂, sc₂, new₂, h₂, hs₂, hm₂, hj₂, hn₂, hsent₂⟩ := subscribeAll_spec ps sc₁ ha₁ hps₁
    rw [hs₁] at hs₂ hm₂ hj₂ hn₂
    refine ⟨if b then n + 1 else n, t₂, sc₂, new₁ ++ new₂, ?_, hs₂, fun q => ?_, hj₁.trans hj₂,
      hn₁.append hn₂ hj₁.grows hj₂.grows, ?_⟩
    · rw [subscribeAll, h₁]
      simp only [bind, Except.bind, pure, Except.pure, h₂]
    · rw [hm₂, Session.track_tracked, hm₁, List.mem_cons, Session.track_anchor,
        Session.track_viewDistance]
      tauto
    · rw [hsent₂, hsent₁, List.map_append, List.append_assoc]

/-- **The second phase** adds the fetched columns that are in view now, and announces those that were
not tracked before. -/
theorem subscribe_spec (sc : Scene) (ps : List ChunkPos) (live : sc.session.finalized = false)
    (ha : sc.session.anchor.Within anchorBound) (hps : ∀ p ∈ ps, p.Within columnBound) :
    ∃ n t' sc' new, sc.subscribe ps = .ok (n, sc') ∧ sc'.session = sc.session.track t' ∧
      (∀ q, q ∈ t' ↔ q ∈ sc.session.tracked ∨
        (q ∈ ps ∧ InView sc.session.anchor sc.session.viewDistance q)) ∧
      Joins sc.session.viewerId sc.session.tracked t' sc.world sc'.world ∧
      Announces sc.session.tracked t' new ∧
      sc'.sent.toList = sc.sent.toList ++ new.map ChunkPos.announcement := by
  obtain ⟨n, t', sc', new, h, hs, hm, hj, hn, hsent⟩ := subscribeAll_spec ps sc ha hps
  unfold subscribe
  rw [if_neg (by simp [live]), h]
  simp only [bind, Except.bind, pure, Except.pure]
  split
  · exact ⟨_, t', _, new, rfl, hs, hm, hj, hn, hsent⟩
  · exact ⟨_, t', _, new, rfl, hs, hm, hj, hn, hsent⟩

/-- A finalized session subscribes to nothing. -/
theorem subscribe_finalized {sc : Scene} (h : sc.session.finalized = true) (ps : List ChunkPos) :
    sc.subscribe ps = .ok (0, sc) := by simp [subscribe, h]

/-! ### The end -/

theorem foldl_release_sent (ps : List ChunkPos) : ∀ sc : Scene,
    (ps.foldl release sc).sent = sc.sent := by
  induction ps with
  | nil => intro sc; rfl
  | cons p ps ih => intro sc; exact ih (sc.release p)

/-- **The end of a session** gives up every column and sends nothing. -/
theorem finalize_spec (sc : Scene) (live : sc.session.finalized = false) :
    ∃ sc', sc.finalize = (some ⟨sc.session.anchor, sc.session.spawned⟩, sc') ∧
      sc'.session = sc.session.ended ∧ sc'.sent = sc.sent ∧
      Follows sc.session.viewerId sc.session.tracked Tracked.empty sc.world sc'.world := by
  unfold finalize
  rw [if_neg (by simp [live])]
  set before : Scene := { sc with session := sc.session.ended } with hbefore
  refine ⟨_, rfl, leaves_release.foldl_session _ before, foldl_release_sent _ before, ?_⟩
  have given_up : ∀ p, p ∈ sc.session.tracked.toList ↔
      p ∈ sc.session.tracked ∧ p ∉ Tracked.empty := by
    intro p
    rw [Tracked.mem_toList]
    exact ⟨fun h => ⟨h, Tracked.not_mem_empty⟩, And.left⟩
  exact leaves_release.follows before given_up fun p hp => absurd hp Tracked.not_mem_empty

theorem finalize_finalized (sc : Scene) (h : sc.session.finalized = true) :
    sc.finalize = (none, sc) := by simp [finalize, h]

end Scene

end BlockWorld
