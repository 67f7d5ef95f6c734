import BlockWorld.Proofs.Deed
import BlockWorld.Server.Run

/-! # What the clock touches

A tick counts, lets the players in the game age, and tells them of attributes that changed. Nothing
else a server does looks at any of this. So a session comes to the same whatever the time is.

* `Session.clocked`, `Session.timeless`: the session at another time, and out of time.
* `Scene.Heedless`: an action that comes to the same at any time; `Course.phase_heedless`,
  `Scene.subscribe_heedless`, …: all are, but the tick.
* `Server.Concurs`: servers that are the same but for the time; `concurs_tick`: a tick tells no two
  servers apart.
* `Concurs.attempt`, `Concurs.perform`: a session that acts on both. -/

namespace BlockWorld

/-! ### Sessions -/

namespace Session

/-- The session at another time: it has lived for as many ticks, and an attribute may have changed
since its client was told. -/
def clocked (s : Session) (dirty : Bool) (lived : UInt64) : Session :=
  { s with attributes := { s.attributes with dirty }, ticksLived := lived }

/-- The session without regard to time. -/
def timeless (s : Session) : Session := s.clocked false 0

variable {s s' : Session}

@[simp] theorem timeless_clocked (dirty : Bool) (lived : UInt64) :
    (s.clocked dirty lived).timeless = s.timeless := rfl

theorem eq_clocked (h : s'.timeless = s.timeless) :
    s' = s.clocked s'.attributes.dirty s'.ticksLived := by
  calc s' = s'.timeless.clocked s'.attributes.dirty s'.ticksLived := rfl
    _ = s.timeless.clocked s'.attributes.dirty s'.ticksLived := by rw [h]

end Session

/-! ### Actions that take no notice of the time -/

namespace Scene

/-- The scene at another time. -/
def clocked (sc : Scene) (dirty : Bool) (lived : UInt64) : Scene :=
  { sc with session := sc.session.clocked dirty lived }

variable {α : Type} {dirty : Bool} {lived : UInt64}

/-- The action comes to the same at any time. -/
def Heedless (action : Scene → Except Overflow (α × Scene)) : Prop :=
  ∀ (sc : Scene) (dirty : Bool) (lived : UInt64),
    Agree (fun _ sc sc' => sc' = sc.clocked dirty lived) (action sc) (action (sc.clocked dirty lived))

theorem drop_clocked (sc : Scene) (p : ChunkPos) :
    (sc.clocked dirty lived).drop p = (sc.drop p).clocked dirty lived := by
  show (sc.othersAt p).foldl (fun sc id => sc.send (.removeEntity id))
    ((sc.release p).clocked dirty lived) = _
  exact List.foldl_hom (Scene.clocked · dirty lived) fun _ _ => rfl

theorem foldl_drop_clocked (dirty : Bool) (lived : UInt64) (ps : List ChunkPos) (sc : Scene) :
    ps.foldl drop (sc.clocked dirty lived) = (ps.foldl drop sc).clocked dirty lived :=
  List.foldl_hom (Scene.clocked · dirty lived) drop_clocked

theorem foldl_release_clocked (dirty : Bool) (lived : UInt64) (ps : List ChunkPos) (sc : Scene) :
    ps.foldl release (sc.clocked dirty lived) = (ps.foldl release sc).clocked dirty lived :=
  List.foldl_hom (Scene.clocked · dirty lived) fun _ _ => rfl

theorem cull_heedless : Heedless cull := fun sc dirty lived => by
  unfold cull
  refine .bind_same (sc.session.tracked.cull sc.session.anchor sc.session.viewDistance)
    fun ⟨dropped, kept⟩ => ?_
  have given_up := foldl_drop_clocked dirty lived dropped
    { sc with session := sc.session.track kept }
  exact .ite (fun _ => .ok given_up) fun _ => .ok (congrArg (fun sc : Scene =>
    sc.note (.culled sc.session.name dropped.length sc.session.anchor)) given_up)

theorem look_heedless : Heedless look := fun sc dirty lived =>
  (cull_heedless sc dirty lived).bind fun _ sc₁ _ same => same ▸
    .bind_same (sc₁.session.tracked.missing sc₁.session.anchor sc₁.session.viewDistance)
      fun _ => .ok rfl

theorem subscribeTo_heedless (p : ChunkPos) : Heedless (·.subscribeTo p) := fun sc _ _ =>
  .bind_same (inRange sc.session.anchor p sc.session.viewDistance) fun _ =>
    .ite (fun _ => .ok rfl) fun _ => .ok rfl

theorem subscribeAll_heedless : ∀ ps : List ChunkPos, Heedless (subscribeAll ps)
  | [], _, _, _ => .ok rfl
  | p :: ps, sc, dirty, lived =>
    (subscribeTo_heedless p sc dirty lived).bind fun _ sc₁ _ same => same ▸
      (subscribeAll_heedless ps sc₁ dirty lived).bind fun _ _ _ same => .ok same

/-- **The second phase** takes no notice of the time. -/
theorem subscribe_heedless (ps : List ChunkPos) : Heedless (·.subscribe ps) := fun sc dirty lived =>
  .ite (fun _ => .ok rfl) fun _ =>
    (subscribeAll_heedless ps sc dirty lived).bind fun _ _ _ same => same ▸
      .ite (fun _ => .ok rfl) fun _ => .ok rfl

theorem finalize_heedless : Heedless fun sc => .ok sc.finalize := fun sc dirty lived => by
  have given_up := foldl_release_clocked dirty lived
    sc.session.tracked.drain.1 { sc with session := sc.session.ended }
  exact .ok_ite (fun _ => .ok rfl) fun _ => .ok (congrArg
    (·.note (.finalized sc.session.name sc.session.tracked.drain.1.length)) given_up)

theorem completeSpawn_heedless (loaded : Nat) : Heedless fun sc => .ok (sc.completeSpawn loaded) :=
  fun _ _ _ => .ok_ite (fun _ => .ok rfl) fun _ => .ok rfl

theorem correct_heedless : Heedless fun sc => .ok ((), sc.correct) := fun _ _ _ => .ok rfl

end Scene

/-- **The first phase** takes no notice of the time. -/
theorem Course.phase_heedless (course : Course) : Scene.Heedless course.phase := fun sc dirty lived => by
  have looks (sc : Scene) : Agree (fun _ sc sc' => sc' = sc.clocked dirty lived)
      (do
        let looked ← sc.look
        return (some looked.1, looked.2))
      (do
        let looked ← (sc.clocked dirty lived).look
        return (some looked.1, looked.2)) :=
    (Scene.look_heedless sc dirty lived).bind fun _ _ _ same => .ok same
  cases course with
  | stay => exact .ite (fun _ => .ok rfl) fun _ => looks sc
  | move position turn onGround => exact .ite (fun _ => .ok rfl) fun _ => looks _
  | teleport position rotation => exact .ite (fun _ => .ok rfl) fun _ => looks _
  | enter => exact .ite (fun _ => .ok rfl) fun _ => looks _

/-! ### Servers that are the same but for the time -/

/-- Whether the packet tells of attributes. -/
def Packet.isAttributes : Packet → Bool
  | .updateAttributes _ => true
  | _ => false

def Command.isAttributes (c : Command) : Bool := c.sent?.any (·.2.isAttributes)

/-- **A tick in the life of a session** is the time that passes, and at most its attributes go out. -/
theorem Scene.tick_eq (sc : Scene) (current interval : UInt64) : ∃ dirty lived words,
    (∀ p ∈ words, p.isAttributes = true) ∧
      sc.tick current interval = { sc.clocked dirty lived with sent := sc.sent ++ words } := by
  cases spawned : sc.session.spawned with
  | false =>
    have still : sc.tick current interval = sc := by simp [Scene.tick, spawned]
    exact ⟨sc.session.attributes.dirty, sc.session.ticksLived, #[], by simp, by simp [still]; rfl⟩
  | true =>
    have aged : sc.tick current interval =
        if sc.session.attributes.dirty || (0 < interval && current % interval = 0) then
          (sc.clocked false (sc.session.ticksLived + 1)).updateAttributes current
        else sc.clocked false (sc.session.ticksLived + 1) := by
      simp [Scene.tick, spawned, AttributeMap.takeDirty, Scene.clocked, Session.clocked]
    rw [aged]
    split
    · refine ⟨false, sc.session.ticksLived + 1, #[.updateAttributes
        ⟨sc.session.runtimeId, sc.session.attributes.entries, current⟩], ?_, ?_⟩
      · simp [Packet.isAttributes]
      · simp only [Array.append_singleton]
        rfl
    · exact ⟨false, sc.session.ticksLived + 1, #[], by simp, by simp; rfl⟩

namespace Server

variable {α β : Type} {s s' s'' : Server} {id : SessionId} {session : Session}

/-- All that was submitted, but for the attributes. -/
def traffic (s : Server) : List Command := s.outbox.toList.filter (!·.isAttributes)

/-- The servers are the same but for the time: only what ticks count and change differs, and how often
players were told of their attributes. -/
structure Concurs (s s' : Server) : Prop where
  config : s'.config = s.config
  dispatcher : s'.dispatcher = s.dispatcher
  groups : s'.groups = s.groups
  world : s'.world = s.world
  registry : s'.registry = s.registry
  sessions : s'.sessions.map Session.timeless = s.sessions.map Session.timeless
  nextEntityId : s'.nextEntityId = s.nextEntityId
  traffic : s'.traffic = s.traffic
  notices : s'.notices = s.notices

namespace Concurs

theorem refl (s : Server) : s.Concurs s := ⟨rfl, rfl, rfl, rfl, rfl, rfl, rfl, rfl, rfl⟩

theorem symm (h : s.Concurs s') : s'.Concurs s :=
  ⟨h.config.symm, h.dispatcher.symm, h.groups.symm, h.world.symm, h.registry.symm, h.sessions.symm,
    h.nextEntityId.symm, h.traffic.symm, h.notices.symm⟩

theorem trans (h : s.Concurs s') (h' : s'.Concurs s'') : s.Concurs s'' :=
  ⟨h'.config.trans h.config, h'.dispatcher.trans h.dispatcher, h'.groups.trans h.groups,
    h'.world.trans h.world, h'.registry.trans h.registry, h'.sessions.trans h.sessions,
    h'.nextEntityId.trans h.nextEntityId, h'.traffic.trans h.traffic, h'.notices.trans h.notices⟩

/-! #### Looking up -/

theorem session? (h : s.Concurs s') (id : SessionId) :
    (s'.session? id).map Session.timeless = (s.session? id).map Session.timeless := by
  simpa [Server.session?] using congrArg (·[id]?) h.sessions

/-- A session is on both servers or on neither. -/
theorem lookup (h : s.Concurs s') (id : SessionId) :
    (s.session? id = none ∧ s'.session? id = none) ∨
      ∃ session dirty lived, s.session? id = some session ∧
        s'.session? id = some (session.clocked dirty lived) := by
  have same := h.session? id
  cases own : s.session? id with
  | none => exact Or.inl ⟨rfl, by simpa [own] using same⟩
  | some session =>
    obtain ⟨session', own', same⟩ : ∃ session', s'.session? id = some session' ∧
        session'.timeless = session.timeless := by simpa [own] using same
    exact Or.inr ⟨session, _, _, rfl, own'.trans (congrArg some (Session.eq_clocked same))⟩

theorem size (h : s.Concurs s') : s'.sessions.size = s.sessions.size := by
  simpa using congrArg Array.size h.sessions

theorem bound? (h : s.Concurs s') (handle : Handle) : s'.bound? handle = s.bound? handle :=
  bound?_congr h.registry

/-- Whatever is asked of a session without regard to time. -/
theorem any_session? (h : s.Concurs s') (id : SessionId) {p : Session → Bool}
    (timeless : ∀ session : Session, p session.timeless = p session) :
    (s'.session? id).any p = (s.session? id).any p := by
  have same := congrArg (Option.any p) (h.session? id)
  simpa [Option.any_map, Function.comp_def, timeless] using same

/-! #### The same on both -/

theorem note (h : s.Concurs s') (n : Notice) : (s.note n).Concurs (s'.note n) :=
  { h with notices := congrArg (·.push n) h.notices }

theorem submit (h : s.Concurs s') (cs : Array Command) :
    Concurs { s with outbox := s.outbox ++ cs } { s' with outbox := s'.outbox ++ cs } :=
  { h with
    traffic := by
      have before := h.traffic
      simp only [Server.traffic, Array.toList_append, List.filter_append] at before ⊢
      rw [before] }

theorem send (h : s.Concurs s') (handle : Handle) (packet : Packet) :
    (s.send handle packet).Concurs (s'.send handle packet) := by
  simpa only [Server.send, Array.push_eq_append] using h.submit #[.send handle packet]

theorem close (h : s.Concurs s') (handle : Handle) (reason : String) :
    (s.close handle reason).Concurs (s'.close handle reason) := by
  simpa only [Server.close, Array.push_eq_append] using h.submit #[.close handle reason]

theorem setRegistry (h : s.Concurs s') (registry : Registry) :
    Concurs { s with registry } { s' with registry } :=
  { h with registry := rfl }

theorem foldl_send {s s' : Server} (h : s.Concurs s') (handle : β → Handle) (packet : Packet) : ∀ bs : List β,
    Concurs (bs.foldl (fun s b => s.send (handle b) packet) s)
      (bs.foldl (fun s b => s.send (handle b) packet) s')
  | [] => h
  | b :: bs => (h.send (handle b) packet).foldl_send handle packet bs

/-- Tables of sessions are the same but for the time if each session is. -/
theorem sessions_of (h : ∀ j, (s'.session? j).map Session.timeless = (s.session? j).map Session.timeless) :
    s'.sessions.map Session.timeless = s.sessions.map Session.timeless := by
  refine Array.ext_getElem? fun j => ?_
  rw [Array.getElem?_map, Array.getElem?_map]
  exact h j

/-- Changes of a session that take no notice of the time. -/
theorem update (h : s.Concurs s') (id : SessionId) {f f' : Session → Session}
    (alike : ∀ session session' : Session, session'.timeless = session.timeless →
      (f' session').timeless = (f session).timeless) : (s.update id f).Concurs (s'.update id f') := by
  refine { h with sessions := sessions_of fun j => ?_ }
  rw [session?_update, session?_update]
  split
  · obtain ⟨own, own'⟩ | ⟨session, dirty, lived, own, own'⟩ := h.lookup j
    · rw [own, own']
      rfl
    · rw [own, own']
      exact congrArg some (alike session _ rfl)
  · exact h.session? j

/-- What a session makes of its scene, at two times. -/
theorem absorb (h : s.Concurs s') {session' : Session} (own : s.session? id = some session)
    (own' : s'.session? id = some session') (sc : Scene) (dirty : Bool) (lived : UInt64) :
    (s.absorb id sc).Concurs (s'.absorb id (sc.clocked dirty lived)) := by
  have said := h.submit (sc.sent.map (.send sc.session.handle))
  refine { said with
    world := rfl
    sessions := sessions_of fun j => ?_
    notices := congrArg (· ++ sc.notices) h.notices }
  rw [session?_absorb _ own, session?_absorb _ own']
  split
  · rfl
  · exact h.session? j

/-- **A session that acts** without notice of the time does the same on both servers. -/
theorem attempt (h : s.Concurs s') (id : SessionId) {action : Scene → Except Overflow (α × Scene)}
    (heedless : Scene.Heedless action) :
    Agree (fun _ => Concurs) (s.attempt id action) (s'.attempt id action) := by
  unfold Server.attempt
  obtain ⟨own, own'⟩ | ⟨session, dirty, lived, own, own'⟩ := h.lookup id
  · rw [own, own']
    exact .ok h
  · rw [own, own', h.world]
    exact (heedless { session, world := s.world } dirty lived).bind fun _ sc _ same => same ▸
      .ok (h.absorb own own' sc dirty lived)

theorem perform (h : s.Concurs s') (id : SessionId) {action : Scene → α × Scene}
    (heedless : Scene.Heedless fun sc => .ok (action sc)) :
    Agree (fun _ => Concurs) (.ok (s.perform id action)) (.ok (s'.perform id action)) := by
  have attempts : ∀ s : Server,
      .ok (s.perform id action) = s.attempt id fun sc => .ok (action sc) := by
    intro s
    unfold Server.perform Server.attempt
    cases s.session? id <;> rfl
  rw [attempts, attempts]
  exact h.attempt id heedless

/-! #### What the clients got -/

theorem closes (h : s.Concurs s') : s'.closes = s.closes := by
  have kept : ∀ s : Server, s.closes = s.traffic.filterMap Command.closed? := by
    intro s
    unfold Server.closes Server.traffic
    rw [List.filterMap_filter]
    refine List.filterMap_congr fun c _ => ?_
    cases c with
    | send handle packet => exact (ite_self none).symm
    | close handle reason => rfl
  rw [kept, kept, h.traffic]

theorem sentTo (h : s.Concurs s') (handle : Handle) :
    (s'.sentTo handle).filter (!·.isAttributes) = (s.sentTo handle).filter (!·.isAttributes) := by
  have kept : ∀ s : Server,
      s.sent.filter (!·.2.isAttributes) = s.traffic.filterMap Command.sent? := by
    intro s
    unfold Server.sent Server.traffic
    rw [List.filterMap_filter, List.filter_filterMap]
    refine List.filterMap_congr fun c _ => ?_
    cases c with
    | send handle packet =>
      cases attributes : packet.isAttributes <;>
        simp [Command.sent?, Command.isAttributes, attributes]
    | close handle reason => rfl
  have own : ∀ s : Server, (s.sentTo handle).filter (!·.isAttributes) =
      ((s.sent.filter (!·.2.isAttributes)).filter (·.1 == handle)).map Prod.snd := by
    intro s
    unfold Server.sentTo
    rw [List.filter_map, List.filter_filter, List.filter_filter]
    refine congrArg _ (List.filter_congr fun x _ => ?_)
    exact Bool.and_comm _ _
  rw [own, own, kept, kept, h.traffic]

end Concurs

/-! ### Ticks -/

theorem concurs_tickSession (s : Server) (id : SessionId) (current interval : UInt64) :
    s.Concurs (s.tickSession id current interval) := by
  unfold tickSession
  cases own : s.session? id with
  | none =>
    rw [perform_none _ own]
    exact .refl s
  | some session =>
    obtain ⟨dirty, lived, words, attributes, ticked⟩ :=
      Scene.tick_eq { session, world := s.world } current interval
    rw [perform_eq _ own]
    dsimp only
    rw [ticked]
    refine { Concurs.refl s with
      sessions := Concurs.sessions_of fun j => ?_
      traffic := ?_
      notices := Array.append_empty }
    · rw [session?_absorb _ own]
      split
      · rename_i same
        subst same
        rw [own]
        rfl
      · rfl
    · have silent : (words.toList.map (Command.send session.handle)).filter (!·.isAttributes) = [] := by
        refine List.filter_eq_nil_iff.mpr fun c hc => ?_
        obtain ⟨p, hp, rfl⟩ := List.mem_map.mp hc
        simp [Command.isAttributes, Command.sent?, attributes p (Array.mem_toList_iff.mp hp)]
      have submitted : (s.absorb id { Scene.clocked { session, world := s.world } dirty lived with
          sent := #[] ++ words }).outbox.toList =
            s.outbox.toList ++ words.toList.map (.send session.handle) := by
        simp [absorb, Scene.clocked, Session.clocked]
      rw [traffic, submitted, List.filter_append, silent, List.append_nil, traffic]

/-- **A tick** tells no two servers apart. -/
theorem concurs_tick (s : Server) : s.Concurs s.tick.2 := by
  have ticks (current interval : UInt64) : ∀ (ms : List Member) (s : Server),
      s.Concurs (ms.foldl (fun s m => s.tickSession m.session current interval) s) := by
    intro ms
    induction ms with
    | nil => exact Concurs.refl
    | cons m ms ih => exact fun s => (concurs_tickSession s m.session current interval).trans (ih _)
  have counted : s.Concurs { s with currentTick := s.currentTick + 1 } := { Concurs.refl s with }
  exact counted.trans (ticks _ _ _ _)

end Server

end BlockWorld
