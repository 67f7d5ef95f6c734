import BlockWorld.Proofs.Utterance

/-! # The sessions of a server

How the operations of a server change its table of sessions, and which of them leave everything
alone that the invariants of a game speak of.

* `session?_update`, `session?_absorb`: the table after a change of one session.
* `attempt_eq`, `perform_eq`: a session that acts in its scene.
* `Session.Alike`, `Server.Quiet`: the same places, lives and columns as before.
* `Server.Aside`: the operations that only send, note, or change what is not of that kind, each with
  what is said in it; `Server.Aside.quiet`: none of them is heard. -/

namespace BlockWorld

namespace Server

variable {α : Type} {s s' s'' : Server} {id j : SessionId} {session : Session}

/-! ### The table of sessions -/

theorem session?_update (f : Session → Session) :
    (s.update id f).session? j = if id = j then (s.session? j).map f else s.session? j := by
  simp only [session?, update, Array.getElem?_modify]

theorem session?_absorb (sc : Scene) (h : s.session? id = some session) :
    (s.absorb id sc).session? j = if id = j then some sc.session else s.session? j := by
  have hid : id < s.sessions.size := (Array.getElem?_eq_some_iff.mp h).1
  simp only [session?, absorb, Array.getElem?_setIfInBounds]
  by_cases hj : id = j
  · subst hj; simp [hid]
  · simp [hj]

theorem session?_absorb_ne (sc : Scene) (hj : j ≠ id) :
    (s.absorb id sc).session? j = s.session? j := by
  simp [session?, absorb, hj.symm]

theorem session?_lt (h : s.session? id = some session) : id < s.sessions.size :=
  (Array.getElem?_eq_some_iff.mp h).1

/-- Where a table has as many sessions as one whose sessions are all related to some of its own, each
of its own is related to one of those. -/
theorem session?_back {R : Session → Session → Prop} (size : s'.sessions.size = s.sessions.size)
    (forth : ∀ {id session}, s.session? id = some session →
      ∃ session', s'.session? id = some session' ∧ R session session')
    {session' : Session} (hs' : s'.session? id = some session') :
    ∃ session, s.session? id = some session ∧ R session session' := by
  have hid : id < s.sessions.size := by rw [← size]; exact session?_lt hs'
  have hs : s.session? id = some s.sessions[id] := Array.getElem?_eq_getElem hid
  obtain ⟨session'', hs'', related⟩ := forth hs
  rw [hs'] at hs''
  cases hs''
  exact ⟨_, hs, related⟩

@[simp] theorem size_update (f : Session → Session) :
    (s.update id f).sessions.size = s.sessions.size := by simp [update]

@[simp] theorem size_absorb (sc : Scene) :
    (s.absorb id sc).sessions.size = s.sessions.size := by simp [absorb]

/-- A session that does nothing changes nothing. -/
theorem absorb_self (h : s.session? id = some session) :
    s.absorb id { session, world := s.world } = s := by
  obtain ⟨hid, hs⟩ := Array.getElem?_eq_some_iff.mp h
  have : s.sessions.setIfInBounds id session = s.sessions := by
    rw [← hs, Array.setIfInBounds, dif_pos hid, Array.set_getElem_self]
  simp [absorb, this]

/-- What a session makes of its scene replaces what it was changed to just before. -/
theorem absorb_update (f : Session → Session) (sc : Scene) :
    (s.update id f).absorb id sc = s.absorb id sc := by
  have : (s.sessions.modify id f).setIfInBounds id sc.session =
      s.sessions.setIfInBounds id sc.session := by
    refine Array.ext_getElem? fun j => ?_
    simp only [Array.getElem?_setIfInBounds, Array.getElem?_modify, Array.size_modify]
    by_cases hj : id = j <;> simp [hj]
  simp [absorb, update, this]

theorem attempt_eq {action : Scene → Except Overflow (α × Scene)} {a : α} {sc : Scene}
    (h : s.session? id = some session) (ha : action { session, world := s.world } = .ok (a, sc)) :
    s.attempt id action = .ok (some a, s.absorb id sc) := by
  simp only [attempt, h, ha, bind, Except.bind, pure, Except.pure]

theorem perform_eq (action : Scene → α × Scene) (h : s.session? id = some session) :
    s.perform id action = (some (action { session, world := s.world }).1,
      s.absorb id (action { session, world := s.world }).2) := by
  simp only [perform, h]

theorem perform_none (action : Scene → α × Scene) (h : s.session? id = none) :
    s.perform id action = (none, s) := by simp only [perform, h]

end Server

/-! ### Operations that are not heard -/

theorem Session.viewerId_congr {s s' : Session} (h : s'.entityId = s.entityId) :
    s'.viewerId = s.viewerId := by
  rw [viewerId, runtimeId, h, viewerId, runtimeId]

/-- The same player at the same place, with the same columns and at the same point of its life. -/
structure Session.Alike (s s' : Session) : Prop where
  handle : s'.handle = s.handle
  entityId : s'.entityId = s.entityId
  name : s'.name = s.name
  position : s'.position = s.position
  anchor : s'.anchor = s.anchor
  viewDistance : s'.viewDistance = s.viewDistance
  tracked : s'.tracked = s.tracked
  spawned : s'.spawned = s.spawned
  finalized : s'.finalized = s.finalized

theorem Session.Alike.refl (s : Session) : s.Alike s := ⟨rfl, rfl, rfl, rfl, rfl, rfl, rfl, rfl, rfl⟩

theorem Session.Alike.trans {s s' s'' : Session} (h : s.Alike s') (h' : s'.Alike s'') :
    s.Alike s'' where
  handle := h'.handle.trans h.handle
  entityId := h'.entityId.trans h.entityId
  name := h'.name.trans h.name
  position := h'.position.trans h.position
  anchor := h'.anchor.trans h.anchor
  viewDistance := h'.viewDistance.trans h.viewDistance
  tracked := h'.tracked.trans h.tracked
  spawned := h'.spawned.trans h.spawned
  finalized := h'.finalized.trans h.finalized

theorem Session.Alike.viewerId {s s' : Session} (h : s.Alike s') : s'.viewerId = s.viewerId :=
  Session.viewerId_congr h.entityId

theorem Session.Alike.sound {s s' : Session} (h : s.Alike s') (sound : s.Sound) : s'.Sound where
  anchor := by rw [h.anchor, h.position]; exact sound.anchor
  viewDistance := by rw [h.viewDistance]; exact sound.viewDistance
  tracked := by rw [h.tracked]; exact sound.tracked
  despawned := by rw [h.finalized, h.spawned]; exact sound.despawned
  released := by rw [h.finalized, h.tracked]; exact sound.released

namespace Server

/-- From `s` to `s'` the world, the registry and the settings are the same and all sessions alike. -/
structure Quiet (s s' : Server) : Prop where
  config : s'.config = s.config
  dispatcher : s'.dispatcher = s.dispatcher
  world : s'.world = s.world
  registry : s'.registry = s.registry
  nextEntityId : s'.nextEntityId = s.nextEntityId
  size : s'.sessions.size = s.sessions.size
  session : ∀ {id session'}, s'.session? id = some session' →
    ∃ session, s.session? id = some session ∧ session.Alike session'

variable {α : Type} {s s' s'' : Server} {id j : SessionId} {session : Session}

theorem Quiet.refl (s : Server) : s.Quiet s :=
  ⟨rfl, rfl, rfl, rfl, rfl, rfl, fun h => ⟨_, h, .refl _⟩⟩

theorem Quiet.trans (h : s.Quiet s') (h' : s'.Quiet s'') : s.Quiet s'' where
  config := h'.config.trans h.config
  dispatcher := h'.dispatcher.trans h.dispatcher
  world := h'.world.trans h.world
  registry := h'.registry.trans h.registry
  nextEntityId := h'.nextEntityId.trans h.nextEntityId
  size := h'.size.trans h.size
  session hs := by
    obtain ⟨session', hs', alike'⟩ := h'.session hs
    obtain ⟨session, hs, alike⟩ := h.session hs'
    exact ⟨session, hs, alike.trans alike'⟩

/-- Every session of before is still there. -/
theorem Quiet.session_of (h : s.Quiet s') (hs : s.session? id = some session) :
    ∃ session', s'.session? id = some session' ∧ session.Alike session' :=
  session?_back (R := fun session' session => session.Alike session') h.size.symm h.session hs

theorem quiet_note (n : Notice) : s.Quiet (s.note n) := ⟨rfl, rfl, rfl, rfl, rfl, rfl, fun h => ⟨_, h, .refl _⟩⟩

theorem quiet_send (handle : Handle) (p : Packet) : s.Quiet (s.send handle p) :=
  ⟨rfl, rfl, rfl, rfl, rfl, rfl, fun h => ⟨_, h, .refl _⟩⟩

theorem quiet_close (handle : Handle) (reason : String) : s.Quiet (s.close handle reason) :=
  ⟨rfl, rfl, rfl, rfl, rfl, rfl, fun h => ⟨_, h, .refl _⟩⟩

/-- A change of one session that its likeness survives. -/
theorem quiet_update {f : Session → Session} (h : ∀ session : Session, session.Alike (f session)) :
    s.Quiet (s.update id f) := by
  refine ⟨rfl, rfl, rfl, rfl, rfl, size_update f, ?_⟩
  intro j session' hs
  rw [session?_update] at hs
  split at hs
  · obtain ⟨session, h₀, rfl⟩ := Option.map_eq_some_iff.mp hs
    exact ⟨session, h₀, h session⟩
  · exact ⟨session', hs, .refl _⟩

/-- A session that acts in its scene and changes neither the world nor its likeness. -/
theorem quiet_perform {action : Scene → α × Scene} (hw : ∀ sc, (action sc).2.world = sc.world)
    (hs : ∀ sc : Scene, sc.session.Alike (action sc).2.session) : s.Quiet (s.perform id action).2 := by
  cases h : s.session? id with
  | none => rw [perform_none action h]; exact .refl s
  | some session =>
    rw [perform_eq action h]
    refine ⟨rfl, rfl, hw _, rfl, rfl, size_absorb _, ?_⟩
    intro j session' hj
    rw [session?_absorb _ h] at hj
    split at hj
    · rename_i same
      cases hj
      subst same
      exact ⟨session, h, hs { session, world := s.world }⟩
    · exact ⟨session', hj, .refl _⟩

theorem quiet_foldl {β : Type} {step : Server → β → Server} (h : ∀ (s : Server) b, s.Quiet (step s b)) :
    ∀ (bs : List β) (s : Server), s.Quiet (bs.foldl step s)
  | [], s => .refl s
  | b :: bs, s => (h s b).trans (quiet_foldl h bs (step s b))

/-- The operations that only send and note, or change skins, attributes and clocks; with what is said
in each. -/
inductive Aside : Server → List Utterance → Server → Prop
  | note (s : Server) (n : Notice) : Aside s [] (s.note n)
  | close (s : Server) (handle : Handle) (reason : String) : Aside s [] (s.close handle reason)
  | refuse (s : Server) {username : String} {handle : Handle} {reason : Refusal}
      (h : s.registry.refusal? username handle s.config.capacity.toNat = some reason) :
      Aside s (refusal handle reason) (s.refuse handle username reason)
  | grant (s : Server) {id : SessionId} {session : Session} (h : s.session? id = some session)
      (live : session.finalized = false) (granted : UInt32) :
      Aside s [⟨some id, session.handle, .chunkRadiusUpdated granted.toInt32⟩]
        (s.send session.handle (.chunkRadiusUpdated granted.toInt32))
  | correct (s : Server) (id : SessionId) :
      Aside s (s.correction id) (s.perform id fun sc => ((), sc.correct)).2
  | changeSkin (s : Server) (id : SessionId) (handle : Handle) (change : PlayerSkin) :
      Aside s (s.relays id change) (s.changeSkin id handle change).2
  | setAttribute (s : Server) (id : SessionId) (name : String) (value : Float32) :
      Aside s [] (s.update id fun session => (session.setAttribute name value).2)
  | clock (s : Server) : Aside s [] { s with currentTick := s.currentTick + 1 }
  | tick (s : Server) (id : SessionId) (current interval : UInt64) :
      Aside s (s.ticking id current interval) (s.tickSession id current interval)

theorem quiet_refuse (handle : Handle) (username : String) (reason : Refusal) :
    s.Quiet (s.refuse handle username reason) := by
  unfold refuse
  cases reason with
  | nameTaken => exact (quiet_note _).trans (quiet_note _)
  | handleInUse => exact (quiet_note _).trans (quiet_note _)
  | full => exact ((quiet_note _).trans (quiet_send _ _)).trans (quiet_note _)

theorem quiet_changeSkin (id : SessionId) (handle : Handle) (change : PlayerSkin) :
    s.Quiet (s.changeSkin id handle change).2 := by
  unfold changeSkin
  split
  · exact .refl s
  · split
    · exact .refl s
    · have stored : s.Quiet (s.update id (·.setSkin change.skin)) :=
        quiet_update fun _ => ⟨rfl, rfl, rfl, rfl, rfl, rfl, rfl, rfl, rfl⟩
      exact (stored.trans (quiet_note _)).trans (quiet_foldl (fun s m => quiet_send _ _) _ _)

theorem quiet_tickSession (id : SessionId) (current interval : UInt64) :
    s.Quiet (s.tickSession id current interval) := by
  refine quiet_perform (fun sc => ?_) fun sc => ?_
  · dsimp only
    unfold Scene.tick
    split
    · rfl
    · dsimp only
      split <;> rfl
  · dsimp only
    unfold Scene.tick
    split
    · exact .refl _
    · dsimp only
      split <;> exact ⟨rfl, rfl, rfl, rfl, rfl, rfl, rfl, rfl, rfl⟩

/-- **An operation aside is not heard.** -/
theorem Aside.quiet {us : List Utterance} (h : s.Aside us s') : s.Quiet s' := by
  cases h with
  | note n => exact quiet_note n
  | close handle reason => exact quiet_close handle reason
  | refuse _ => exact quiet_refuse _ _ _
  | grant _ _ _ => exact quiet_send _ _
  | correct id => exact quiet_perform (fun _ => rfl) fun _ => .refl _
  | changeSkin id handle change => exact quiet_changeSkin id handle change
  | setAttribute id name value =>
    exact quiet_update fun _ => ⟨rfl, rfl, rfl, rfl, rfl, rfl, rfl, rfl, rfl⟩
  | clock => exact ⟨rfl, rfl, rfl, rfl, rfl, rfl, fun h => ⟨_, h, .refl _⟩⟩
  | tick id current interval => exact quiet_tickSession id current interval

end Server

end BlockWorld
