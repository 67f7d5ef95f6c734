import BlockWorld.Proofs.Visibility

/-! # Nothing overflows around a session

Distances, discs and the border are computed on words, and columns at opposite ends of the plane are
too far apart for that. No session ever computes with such columns. The column that a point lies in is
a word shifted right by four, whatever word the coordinate was converted into, so it is within `2 ^ 27`;
and a column that is tracked, wanted or fetched was in view from one of those, so it is within `2 ^ 28`.
A jump from one end of the range to the other stays below `2 ^ 31`.

* `ChunkPos.ofWords`: the column of a point, from the two words that its coordinates became.
* `Tracked.Fits`: all that a session computes when it looks around at some place.
* `fits_ofWords`: it fits, wherever that place is.
* `engine_never_overflows`: so it does after any run, and no step of the run overflowed. -/

namespace BlockWorld

/-- The column of a point whose coordinates were converted into the words `x` and `z`. -/
def ChunkPos.ofWords (x z : Int32) : ChunkPos := ⟨x >>> chunkShift, z >>> chunkShift⟩

theorem anchorOf_eq_ofWords (position : Vec3) :
    anchorOf position = .ofWords (floorWord position.x) (floorWord position.z) := rfl

theorem ChunkPos.ofWords_within (x z : Int32) : (ofWords x z).Within anchorBound :=
  ⟨toInt_shiftRight_bounds x, toInt_shiftRight_bounds z⟩

/-- Distances between columns of arbitrary words do overflow. -/
example : (⟨-2147483648, 0⟩ : ChunkPos).distanceSquared ⟨1, 0⟩ = .error .subtract := by decide +kernel

/-- What a session that tracks `t` computes when it looks around from `a` at view distance `v`: that
every operation on words fits, and what the distances are. -/
structure Tracked.Fits (t : Tracked) (w : World) (a : ChunkPos) (v : UInt32) : Prop where
  radius : ∃ r, radiusSquared v = .ok r
  distance : ∀ p ∈ t, ∃ d, a.distanceSquared p = .ok d ∧ d.toInt = a.gapSquared p
  cull : ∃ dropped kept, t.cull a v = .ok (dropped, kept) ∧ ∃ wanted, kept.missing a v = .ok wanted
  disc : ∃ ps, chunksInRange a v = .ok ps ∧ ∀ p ∈ ps, ∃ f w', w.fetch p = .ok (f, w')

theorem ChunkPos.Comparable.exists_distanceSquared {a b : ChunkPos} (h : a.Comparable b) :
    ∃ d, a.distanceSquared b = .ok d ∧ d.toInt = a.gapSquared b :=
  ⟨_, distanceSquared_eq h, toInt_gapSquared h⟩

/-- **Wherever a session is put**, what it computes there fits, as long as the columns it tracks are
near the origin. -/
theorem fits_ofWords {t : Tracked} (near : ∀ p ∈ t, p.Within columnBound) (w : World) (x z : Int32)
    (v : UInt32) : t.Fits w (.ofWords x z) v := by
  have within := ChunkPos.ofWords_within x z
  have comparable : ∀ p ∈ t, (ChunkPos.ofWords x z).Comparable p :=
    fun p hp => ChunkPos.comparable_of_within within (near p hp)
  obtain ⟨r, hr, -⟩ := radiusSquared_eq v
  obtain ⟨disc, hdisc, inDisc⟩ := mem_chunksInRange (within.inland v)
  obtain ⟨wanted, hwanted, -⟩ :=
    Tracked.missing_spec ((t.outside (.ofWords x z) v).foldl Tracked.erase t) (within.inland v)
  refine ⟨⟨r, hr⟩, fun p hp => (comparable p hp).exists_distanceSquared,
    ⟨_, _, Tracked.cull_eq v comparable, wanted, hwanted⟩, disc, hdisc, fun p hp => ?_⟩
  have inView : InView (.ofWords x z) v p := (inDisc p).mp hp
  exact w.exists_fetch (inView.within within)

/-- **No operation of a session overflows**, whatever sessions there are at the beginning, each created
at any point with any view distance, in any world, and whatever is done to them, in any order and with
other operations between the phases of a pass. No step of the run fails; and whatever words the
coordinates of the next point are converted into, and whatever the view distance is then, all that a
session computes fits, and so does what a pass under way is still going to compute. -/
theorem engine_never_overflows (s : Server)
    (fresh : ∀ id session, s.session? id = some session → session.Fresh) (actions : List Action) :
    ∃ g, Game.run { server := s } actions = .ok g ∧
      (∀ id session, g.server.session? id = some session →
        ∀ x z v, session.tracked.Fits g.server.world (.ofWords x z) v) ∧
      ∀ pass ∈ g.passes,
        (∀ p ∈ pass.wanted, ∃ f w, g.server.world.fetch p = .ok (f, w)) ∧
        ∀ p ∈ pass.fetched, ∀ x z v, ∃ near, inRange (.ofWords x z) p v = .ok near := by
  obtain ⟨g, hrun, changes⟩ := run_changes (sound_of_fresh fresh) actions
  have sound := changes.sound (sound_of_fresh fresh)
  refine ⟨g, hrun, fun id session own x z v => ?_, fun pass hpass => ⟨fun p hp => ?_, ?_⟩⟩
  · exact fits_ofWords (sound.session own).tracked g.server.world x z v
  · exact g.server.world.exists_fetch (sound.wanted pass hpass p hp)
  · intro p hp x z v
    have comparable := ChunkPos.comparable_of_within (ChunkPos.ofWords_within x z)
      (sound.fetched pass hpass p hp)
    exact ⟨_, inRange_eq comparable v⟩

/-- A player that begins nowhere on the plane and jumps from one end of it to the other. -/
theorem engine_never_overflows_jump :
    let s := (Server.addSession (Server.create {} { border := some (-1) } .standard)
      (Session.create ⟨1⟩ 1 default (Group.empty "member") ⟨0 / 0, 0, 1 / 0⟩ 4294967295)).2
    (∀ id session, s.session? id = some session → session.Fresh) ∧
      ∃ g, Game.run { server := s }
        [.refresh 0, .advance 0, .move 0 ⟨-1 / 0, 0, 1 / 0⟩ Rotation.zero true, .advance 1,
          .teleport 0 ⟨1 / 0, 0, -1 / 0⟩ Rotation.zero, .setViewDistance 0 0, .settle 0] = .ok g ∧
        (∀ id session, g.server.session? id = some session →
          ∀ x z v, session.tracked.Fits g.server.world (.ofWords x z) v) ∧
        ∀ pass ∈ g.passes, ∀ p ∈ pass.wanted, ∃ f w, g.server.world.fetch p = .ok (f, w) := by
  intro s
  have fresh : ∀ id session, s.session? id = some session → session.Fresh := fun _ _ =>
    fresh_addSession (fun _ _ => fresh_create) (fresh_session ..)
  obtain ⟨g, hrun, fits, passes⟩ := engine_never_overflows s fresh [.refresh 0, .advance 0,
    .move 0 ⟨-1 / 0, 0, 1 / 0⟩ Rotation.zero true, .advance 1,
    .teleport 0 ⟨1 / 0, 0, -1 / 0⟩ Rotation.zero, .setViewDistance 0 0, .settle 0]
  exact ⟨fresh, g, hrun, fits, fun pass hpass => (passes pass hpass).1⟩

end BlockWorld
