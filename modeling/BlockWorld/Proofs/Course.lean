import BlockWorld.Proofs.Scene

/-! # How a session comes to look around

A session looks around when it moves, is teleported, becomes visible, or is told to. All of these do
the same once the session has been changed.

* `Session.Sound`: what holds of a session at every time.
* `Course`, `Course.apply`: the ways, and what each makes of the session before it looks.
* `Course.phase_spec`: what the session keeps and what it wants. -/

namespace BlockWorld

/-! ### Sound sessions -/

/-- What holds of a session at every time: the anchor is the column of the position, the view distance
is one that counts in full, the tracked columns are near the origin, and an end is an end. -/
structure Session.Sound (s : Session) : Prop where
  anchor : s.anchor = anchorOf s.position
  viewDistance : clampViewDistance s.viewDistance = s.viewDistance
  tracked : ∀ p ∈ s.tracked, p.Within columnBound
  despawned : s.finalized = true → s.spawned = false
  released : s.finalized = true → ∀ p, p ∉ s.tracked

theorem clampViewDistance_idem (v : UInt32) :
    clampViewDistance (clampViewDistance v) = clampViewDistance v := by
  have h := clampViewDistance_le v
  show (if clampViewDistance v ≤ 64 then clampViewDistance v else 64) = clampViewDistance v
  exact if_pos (UInt32.le_iff_toNat_le.mpr h)

namespace Session.Sound

variable {s : Session}

theorem within (h : s.Sound) : s.anchor.Within anchorBound := by
  rw [h.anchor]; exact anchorOf_within s.position

theorem create (handle : Handle) (entityId : Int64) (identity : Identity) (group : Group)
    (position : Vec3) (v : UInt32) :
    (Session.create handle entityId identity group position v).Sound where
  anchor := rfl
  viewDistance := clampViewDistance_idem v
  tracked _ hp := absurd hp Tracked.not_mem_empty
  despawned h := by cases h
  released h := by cases h

theorem ended (h : s.Sound) : s.ended.Sound where
  anchor := h.anchor
  viewDistance := h.viewDistance
  tracked _ hp := absurd hp Tracked.not_mem_empty
  despawned _ := rfl
  released _ _ := Tracked.not_mem_empty

theorem setViewDistance (h : s.Sound) (v : UInt32) : (s.setViewDistance v).Sound where
  anchor := h.anchor
  viewDistance := clampViewDistance_idem v
  tracked := h.tracked
  despawned := h.despawned
  released := h.released

/-- A session with other columns, none of them if it is finalized. -/
theorem track (h : s.Sound) {t : Tracked} (ht : ∀ p ∈ t, p.Within columnBound)
    (live : s.finalized = false) : (s.track t).Sound where
  anchor := h.anchor
  viewDistance := h.viewDistance
  tracked := ht
  despawned := h.despawned
  released hf := by
    rw [Session.track_finalized, live] at hf
    cases hf

end Session.Sound

/-! ### Courses -/

/-- The ways in which a session comes to look around. -/
inductive Course where
  | stay
  | move (position : Vec3) (turn : Rotation) (onGround : Bool)
  | teleport (position : Vec3) (rotation : Rotation)
  /-- The player becomes visible. -/
  | enter
deriving DecidableEq

namespace Course

/-- The first phase of the visibility pass. -/
def phase : Course → Scene → Except Overflow (Option Glance × Scene)
  | .stay, sc => sc.refresh
  | .move position turn onGround, sc => sc.move position turn onGround
  | .teleport position rotation, sc => sc.teleport position rotation
  | .enter, sc => Scene.refresh { sc with session := { sc.session with spawned := true } }

/-- What the session is like before it looks. -/
def apply : Course → Session → Session
  | .stay, s => s
  | .move position turn onGround, s =>
    { s with position, rotation := s.rotation + turn, onGround, anchor := anchorOf position }
  | .teleport position rotation, s => { s with position, rotation, anchor := anchorOf position }
  | .enter, s => { s with spawned := true }

/-- The packets that go out before the session looks. -/
def announce : Course → Session → Array Packet
  | .stay, _ => #[]
  | .move .., _ => #[]
  | .teleport position rotation, s =>
    #[.movePlayer
      { runtimeEntityId := s.runtimeId, position, rotation, mode := .teleport
        onGround := s.onGround }]
  | .enter, _ => #[]

/-- Whether the player enters the world at the end of the pass. -/
def enters : Course → Bool
  | .enter => true
  | _ => false

variable (c : Course) (s : Session)

@[simp] theorem apply_handle : (c.apply s).handle = s.handle := by cases c <;> rfl

@[simp] theorem apply_name : (c.apply s).name = s.name := by cases c <;> rfl

@[simp] theorem apply_entityId : (c.apply s).entityId = s.entityId := by cases c <;> rfl

@[simp] theorem apply_viewerId : (c.apply s).viewerId = s.viewerId := by cases c <;> rfl

@[simp] theorem apply_viewDistance : (c.apply s).viewDistance = s.viewDistance := by cases c <;> rfl

@[simp] theorem apply_tracked : (c.apply s).tracked = s.tracked := by cases c <;> rfl

@[simp] theorem apply_finalized : (c.apply s).finalized = s.finalized := by cases c <;> rfl

theorem sound_apply {s : Session} (h : s.Sound) (live : s.finalized = false) : (c.apply s).Sound where
  anchor := by
    cases c with
    | stay => exact h.anchor
    | move position turn onGround => rfl
    | teleport position rotation => rfl
    | enter => exact h.anchor
  viewDistance := by rw [apply_viewDistance]; exact h.viewDistance
  tracked := by rw [apply_tracked]; exact h.tracked
  despawned hf := by rw [apply_finalized, live] at hf; cases hf
  released := by rw [apply_finalized, apply_tracked]; exact h.released

/-- The first phase of a live session is a look at what the course makes of it. -/
theorem phase_eq {sc : Scene} (live : sc.session.finalized = false) :
    c.phase sc =
      (Scene.look { sc with
          session := c.apply sc.session
          sent := sc.sent ++ c.announce sc.session }).map
        fun (glance, sc) => (some glance, sc) := by
  cases c with
  | stay =>
    rw [phase, Scene.refresh, if_neg (by simp [live]), announce, Array.append_empty]
    rfl
  | move position turn onGround =>
    rw [phase, Scene.move, if_neg (by simp [live]), announce, Array.append_empty]
    rfl
  | teleport position rotation =>
    rw [phase, Scene.teleport, if_neg (by simp [live])]
    rfl
  | enter =>
    rw [phase, Scene.refresh, if_neg (by simp [live]), announce, Array.append_empty]
    rfl

/-- A finalized session has no first phase. -/
theorem phase_ended {sc : Scene} (ended : sc.session.finalized = true) (stays : c ≠ .enter) :
    c.phase sc = .ok (none, sc) := by
  cases c with
  | stay => simp [phase, Scene.refresh, ended]
  | move position turn onGround => simp [phase, Scene.move, ended]
  | teleport position rotation => simp [phase, Scene.teleport, ended]
  | enter => exact absurd rfl stays

/-- **The first phase of a live session** succeeds; it keeps the tracked columns that are in view and
lists those in view that are not tracked. -/
theorem phase_spec (sc : Scene) (live : sc.session.finalized = false) (sound : sc.session.Sound) :
    ∃ glance t' sc', c.phase sc = .ok (some glance, sc') ∧
      sc'.session = (c.apply sc.session).track t' ∧
      (∀ p, p ∈ t' ↔ p ∈ sc.session.tracked ∧
        InView (c.apply sc.session).anchor sc.session.viewDistance p) ∧
      (∀ p, p ∈ glance.wanted ↔
        InView (c.apply sc.session).anchor sc.session.viewDistance p ∧ p ∉ sc.session.tracked) ∧
      Follows sc.session.viewerId sc.session.tracked t' sc.world sc'.world := by
  have sound' := c.sound_apply sound live
  obtain ⟨glance, t', sc', hlook, hs, hm, hw, hf⟩ := Scene.look_spec
    { sc with session := c.apply sc.session, sent := sc.sent ++ c.announce sc.session }
    sound'.within sound'.tracked
  simp only [apply_tracked, apply_viewDistance, apply_viewerId] at hm hw hf
  refine ⟨glance, t', sc', ?_, hs, hm, hw, hf⟩
  rw [c.phase_eq live, hlook]
  rfl

end Course

end BlockWorld
