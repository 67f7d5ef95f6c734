import BlockWorld.Proofs.Inert
import BlockWorld.Proofs.Shutdown

/-! # What becomes of a session

An action changes at most a few things about a session: its place, its view distance, its attributes,
its skin, and how far its life has got. What it makes of them is a plain function of the session before.
Only the columns that the session tracks depend on more, on the world and on what is under way; they are
left out here.

* `Session.pursue`, `Session.resize`, `Session.age`: what the operations make of a session.
* `Server.treat`, `Action.alter`: what a packet and an action make of it; `treat_cases`: what a packet
  can make of it at all.
* `Server.Alters`: the sessions became what a function makes of them, but for their columns.
* `alters_start`, `alters_startDispatch`, `alters_tick`, …: the operations, one by one.
* `step_alters`: every action; `step_newborn`: the sessions that were not there before; `step_source`:
  where a session comes from. -/

namespace BlockWorld

/-! ### What the operations make of a session -/

namespace Session

/-- A session that comes to look around. One that has ended does not. -/
def pursue (course : Course) (s : Session) : Session := if s.finalized then s else course.apply s

/-- A session whose client asked for a view distance and gets `granted`. -/
def resize (granted : UInt32) (s : Session) : Session :=
  if s.finalized then s else s.setViewDistance granted

/-- A session whose client changed its skin. -/
def dress (skin : Skin) (s : Session) : Session := if s.finalized then s else s.setSkin skin

/-- A session after a tick: if it is visible it has grown older, and its attributes were looked at. -/
def age (s : Session) : Session :=
  if s.spawned then
    { s with attributes := s.attributes.takeDirty.2, ticksLived := s.ticksLived + 1 }
  else s

variable (s : Session)

@[simp] theorem pursue_attributes (course : Course) : (s.pursue course).attributes = s.attributes := by
  unfold pursue
  split
  · rfl
  · cases course <;> rfl

@[simp] theorem pursue_viewDistance (course : Course) :
    (s.pursue course).viewDistance = s.viewDistance := by
  unfold pursue
  split
  · rfl
  · cases course <;> rfl

@[simp] theorem pursue_enter_position : (s.pursue .enter).position = s.position := by
  unfold pursue
  split <;> rfl

@[simp] theorem resize_attributes (granted : UInt32) : (s.resize granted).attributes = s.attributes := by
  unfold resize
  split <;> rfl

@[simp] theorem resize_position (granted : UInt32) : (s.resize granted).position = s.position := by
  unfold resize
  split <;> rfl

@[simp] theorem dress_attributes (skin : Skin) : (s.dress skin).attributes = s.attributes := by
  unfold dress
  split <;> rfl

@[simp] theorem dress_viewDistance (skin : Skin) : (s.dress skin).viewDistance = s.viewDistance := by
  unfold dress
  split <;> rfl

@[simp] theorem dress_position (skin : Skin) : (s.dress skin).position = s.position := by
  unfold dress
  split <;> rfl

@[simp] theorem age_viewDistance : s.age.viewDistance = s.viewDistance := by
  unfold age
  split <;> rfl

@[simp] theorem age_position : s.age.position = s.position := by
  unfold age
  split <;> rfl

@[simp] theorem ended_attributes : s.ended.attributes = s.attributes := rfl

@[simp] theorem ended_viewDistance : s.ended.viewDistance = s.viewDistance := rfl

@[simp] theorem ended_position : s.ended.position = s.position := rfl

end Session

/-- Nothing changes about any session. -/
def unaltered : SessionId → Session → Session := fun _ session => session

/-- One session changes, if any. -/
def only (who : Option SessionId) (f : Session → Session) (id : SessionId) : Session → Session :=
  if who = some id then f else fun session => session

/-- What a packet makes of the session it goes along with. -/
def Server.treat (s : Server) (packet : Packet) (session : Session) : Session :=
  match s.dispatcher.handler? packet.id, packet with
  | some .movement, .movePlayer movement =>
    if movement.position.isFinite then
      session.pursue (.move movement.position movement.rotation movement.onGround)
    else session
  | some .chunkRadius, .requestChunkRadius request =>
    session.resize (s.grantedRadius request.chunkRadius)
  | some .skin, .playerSkin change => session.dress change.skin
  | some .spawn, .setLocalPlayerAsInitialized runtimeId =>
    if runtimeId = session.runtimeId then session.pursue .enter else session
  | some .disconnect, .disconnect _ => session.ended
  | _, _ => session

/-- What a packet can make of a session. -/
theorem Server.treat_cases (s : Server) (p : Packet) (session : Session) :
    s.treat p session = session ∨
    (∃ position turn onGround, position.isFinite = true ∧
      s.treat p session = session.pursue (.move position turn onGround)) ∨
    (∃ request, p = .requestChunkRadius request ∧
      s.treat p session = session.resize (s.grantedRadius request.chunkRadius)) ∨
    (∃ skin, s.treat p session = session.dress skin) ∨
    s.treat p session = session.pursue .enter ∨
    s.treat p session = session.ended := by
  unfold treat
  split
  · split
    · rename_i possible
      exact Or.inr (Or.inl ⟨_, _, _, possible, rfl⟩)
    · exact Or.inl rfl
  · exact Or.inr (Or.inr (Or.inl ⟨_, rfl, rfl⟩))
  · exact Or.inr (Or.inr (Or.inr (Or.inl ⟨_, rfl⟩)))
  · split
    · exact Or.inr (Or.inr (Or.inr (Or.inr (Or.inl rfl))))
    · exact Or.inl rfl
  · exact Or.inr (Or.inr (Or.inr (Or.inr (Or.inr rfl))))
  · exact Or.inl rfl

/-- What an action makes of the sessions. -/
def Action.alter (g : Game) : Action → SessionId → Session → Session
  | .event (.connected _) => unaltered
  | .event (.packet handle p) => only (g.server.bound? handle) (g.server.treat p)
  | .event (.disconnected handle) => only (g.server.bound? handle) Session.ended
  | .packet handle p => only (g.server.bound? handle) (g.server.treat p)
  | .dispatch p who _ => only who (g.server.treat p)
  | .move id position turn onGround => only (some id) (Session.pursue (.move position turn onGround))
  | .teleport id position rotation => only (some id) (Session.pursue (.teleport position rotation))
  | .refresh _ => unaltered
  | .spawn id => only (some id) (Session.pursue .enter)
  | .setViewDistance id v => only (some id) (·.setViewDistance v)
  | .setAttribute id name value => only (some id) fun session => (session.setAttribute name value).2
  | .finalize id => only (some id) Session.ended
  | .remove id => only (some id) Session.ended
  | .disconnect handle => only (g.server.bound? handle) Session.ended
  | .tick => fun _ => Session.age
  | .shutdown => fun _ => Session.ended
  | .fetch _ => unaltered
  | .addEntity .. => unaltered
  | .removeEntity .. => unaltered
  | .advance _ => unaltered
  | .settle _ => unaltered

@[simp] theorem only_self (id : SessionId) (f : Session → Session) : only (some id) f id = f :=
  if_pos rfl

theorem only_ne {who : Option SessionId} {id : SessionId} (h : who ≠ some id) (f : Session → Session)
    (session : Session) : only who f id session = session := by rw [only, if_neg h]

/-- What is the same of the session that changes is the same of all. -/
theorem only_read {α : Type} {who : Option SessionId} {f : Session → Session} {id : SessionId}
    {session : Session} (read : Session → α) (kept : read (f session) = read session) :
    read (only who f id session) = read session := by
  unfold only
  split
  · exact kept
  · rfl

namespace Server

/-- From `s` to `s'` every session became what `f` makes of it, but for the columns it tracks. -/
def Alters (s : Server) (f : SessionId → Session → Session) (s' : Server) : Prop :=
  ∀ id session, s.session? id = some session → ∃ t, s'.session? id = some ((f id session).track t)

variable {α : Type} {s s' s'' : Server} {id : SessionId} {who : Option SessionId}
  {session session' : Session} {f f' : SessionId → Session → Session} {h h' : Session → Session}

/-! ### One session after the other -/

theorem Keeps.alters (keeps : s.Keeps s') : s.Alters unaltered s' :=
  fun _ session own => ⟨session.tracked, keeps.known own⟩

/-- What is made of a session counts only where there is one. -/
theorem Alters.congr (alters : s.Alters f s')
    (same : ∀ id session, s.session? id = some session → f' id session = f id session) :
    s.Alters f' s' := by
  intro id session own
  rw [same id session own]
  exact alters id session own

theorem Alters.keeps (alters : s.Alters f s') (keeps : s'.Keeps s'') : s.Alters f s'' := by
  intro id session own
  obtain ⟨t, own'⟩ := alters id session own
  exact ⟨t, keeps.known own'⟩

/-- Where nobody is, nobody changes. -/
theorem Alters.nobody (alters : s.Alters unaltered s') (nobody : s.session? id = none) :
    s.Alters (only (some id) h) s' := by
  refine alters.congr fun j session own => only_ne (fun same => ?_) h session
  rw [← Option.some.inj same, nobody] at own
  cases own

/-- What is made of the other sessions does not matter. -/
theorem Alters.of_self (alters : s.Alters (only (some id) h) s') (own : s.session? id = some session)
    (same : h' session = h session) : s.Alters (only (some id) h') s' := by
  refine alters.congr fun j session' own' => ?_
  by_cases here : j = id
  · subst here
    rw [own] at own'
    cases own'
    rw [only_self, only_self, same]
  · have apart : some id ≠ some j := fun same => here (Option.some.inj same).symm
    rw [only_ne apart, only_ne apart]

/-- A session that stays as it is. -/
theorem Alters.idle (alters : s.Alters unaltered s') (own : s.session? id = some session)
    (idle : h session = session) : s.Alters (only (some id) h) s' := by
  have stays : s.Alters (only (some id) fun session => session) s' :=
    alters.congr fun j session _ => by simp [only, unaltered]
  exact stays.of_self own idle

/-- One session becomes what `h` makes of it, but for its columns. -/
theorem Becomes.alters {t : Tracked} (own : s.session? id = some session)
    (becomes : s.Becomes id ((h session).track t) s') : s.Alters (only (some id) h) s' := by
  intro j session' own'
  rw [becomes.session?]
  split
  · rename_i same
    subst same
    rw [own] at own'
    cases own'
    exact ⟨t, by rw [only_self]⟩
  · rename_i apart
    rw [only_ne fun same => apart (Option.some.inj same)]
    exact ⟨session'.tracked, own'⟩

/-- One session changes twice. -/
theorem Becomes.then_alters (becomes : s.Becomes id session' s')
    (alters : s'.Alters (only (some id) h) s'') :
    s.Alters (only (some id) fun _ => h session') s'' := by
  intro j session₁ own₁
  by_cases same : id = j
  · subst same
    obtain ⟨t, own''⟩ := alters id session' becomes.self
    rw [only_self] at own'' ⊢
    exact ⟨t, own''⟩
  · have apart : some id ≠ some j := fun h => same (Option.some.inj h)
    obtain ⟨t, own''⟩ := alters j session₁ ((becomes.other (Ne.symm same)).trans own₁)
    rw [only_ne apart] at own'' ⊢
    exact ⟨t, own''⟩

theorem Becomes.then_keeps (becomes : s.Becomes id session' s') (keeps : s'.Keeps s'') :
    s.Becomes id session' s'' where
  config := keeps.config.trans becomes.config
  dispatcher := keeps.dispatcher.trans becomes.dispatcher
  nextEntityId := keeps.nextEntityId.trans becomes.nextEntityId
  size := keeps.size.trans becomes.size
  session? j := (keeps.session? j).trans (becomes.session? j)

theorem keeps_foldl_send (packet : Packet) : ∀ (ms : List Member) (s : Server),
    s.Keeps (ms.foldl (fun s m => s.send m.handle packet) s)
  | [], s => .refl s
  | m :: ms, s => by
    have first : s.Keeps (s.send m.handle packet) := ⟨rfl, rfl, rfl, rfl, fun _ => rfl⟩
    exact first.trans (keeps_foldl_send packet ms _)

/-- **A live session that changes its skin** gets exactly that skin, and nobody else changes. -/
theorem changeSkin_live (own : s.session? id = some session) (live : session.finalized = false)
    (handle : Handle) (change : PlayerSkin) : ∃ s', s.changeSkin id handle change = (.handled, s') ∧
      s.Becomes id (session.setSkin change.skin) s' := by
  have updated : s.Becomes id (session.setSkin change.skin)
      ((s.update id (·.setSkin change.skin)).note
        (.skinChanged session.name handle change.skin.skinId)) := by
    have updated := becomes_update own (·.setSkin change.skin)
    exact ⟨rfl, rfl, rfl, updated.size, updated.session?⟩
  simp only [changeSkin, own, live, Bool.false_eq_true, if_false]
  exact ⟨_, rfl, updated.then_keeps (keeps_foldl_send _ _ _)⟩

/-! ### Passes -/

section Sound

variable (sound : ∀ {id session}, s.session? id = some session → session.Sound)
include sound

/-- A live session that looks around becomes what it is to be then. -/
theorem alters_look (own : s.session? id = some session) (live : session.finalized = false)
    (course : Course) {spawning : Bool} {answer : Report → α} {refused : α} {progress : Progress α}
    (started : s.start id spawning course.phase answer refused = .ok (progress, s')) :
    s.Alters (only (some id) (Session.pursue course)) s' := by
  obtain ⟨glance, t, sc, phase, became, -⟩ :=
    course.phase_spec { session, world := s.world } live (sound own)
  have pursued : session.pursue course = course.apply session := if_neg (by simp [live])
  have becomes := becomes_absorb own sc
  rw [became, ← pursued] at becomes
  rw [start, attempt_eq own phase] at started
  cases started
  exact becomes.alters own

/-- **Whatever makes a session look around** makes of it what it is to be then. -/
theorem alters_start (course : Course) (stays : course ≠ .enter) {spawning : Bool}
    {answer : Report → α} {refused : α} {progress : Progress α}
    (started : s.start id spawning course.phase answer refused = .ok (progress, s')) :
    s.Alters (only (some id) (Session.pursue course)) s' := by
  cases own : s.session? id with
  | none =>
    rw [start_none course own] at started
    cases started
    exact (Keeps.refl s).alters.nobody own
  | some session =>
    cases live : session.finalized with
    | true =>
      rw [start_ended course stays own live] at started
      cases started
      exact (Keeps.refl s).alters.idle own (if_pos live)
    | false => exact alters_look sound own live course started

theorem alters_startSpawn {progress : Progress Bool}
    (started : s.startSpawn id = .ok (progress, s')) :
    s.Alters (only (some id) (Session.pursue .enter)) s' := by
  unfold startSpawn at started
  cases own : s.session? id with
  | none =>
    rw [own] at started
    cases started
    exact (Keeps.refl s).alters.nobody own
  | some session =>
    rw [own] at started
    cases live : session.finalized with
    | true =>
      simp only [Session.setSpawned, live, if_true, Bool.false_eq_true, if_false] at started
      cases started
      exact (Keeps.refl s).alters.idle own (if_pos live)
    | false =>
      cases fresh : session.spawned with
      | true =>
        have there : session.pursue .enter = session := by
          rw [Session.pursue, live, if_neg Bool.false_ne_true, Course.apply, ← fresh]
        simp only [Session.setSpawned, live, fresh, Bool.not_true, Bool.false_eq_true, if_false]
          at started
        cases started
        exact (Keeps.refl s).alters.idle own there
      | false =>
        have set : session.setSpawned = (true, Course.enter.apply session) := by
          simp [Session.setSpawned, live, fresh, Course.apply]
        simp only [set, if_true, start_update_enter own] at started
        exact alters_look sound own live .enter started

omit sound in
/-- The end of a pass gives the session columns, and nothing else. -/
theorem Settles.alters {pass : Pass} {report : Report} (settles : s.Settles pass report s') :
    s.Alters unaltered s' := by
  cases settles with
  | void _ keeps _ _ _ => exact keeps.alters
  | live own live becomes _ _ _ _ _ =>
    intro j session' own'
    rw [becomes.session?]
    split
    · rename_i same
      subst same
      rw [own] at own'
      cases own'
      exact ⟨_, rfl⟩
    · exact ⟨session'.tracked, own'⟩

/-! ### Handlers -/

theorem alters_startMovement {handle : Handle} {movement : MovePlayer} {progress : Progress Outcome}
    (started : s.startMovement id handle movement = .ok (progress, s')) :
    s.Alters (only (some id) fun session =>
      if movement.position.isFinite then
        session.pursue (.move movement.position movement.rotation movement.onGround)
      else session) s' := by
  cases own : s.session? id with
  | none =>
    simp only [startMovement, own] at started
    cases started
    exact (Keeps.refl s).alters.nobody own
  | some session =>
    cases finite : movement.position.isFinite with
    | true =>
      simp only [startMovement, own, finite, if_true] at started
      obtain ⟨⟨progress', s₁⟩, moved, rest⟩ := bind_eq_ok started
      cases rest
      have moves := alters_start sound
        (.move movement.position movement.rotation movement.onGround) Course.noConfusion moved
      exact moves.of_self own (if_pos rfl)
    | false =>
      obtain ⟨s₁, corrected, notices, rfl⟩ := startMovement_impossible own handle finite
      rw [corrected] at started
      cases started
      exact Alters.idle (fun _ session own => ⟨session.tracked, own⟩) own rfl

theorem alters_startChunkRadius {handle : Handle} {requested : Int32} {progress : Progress Outcome}
    (started : s.startChunkRadius id handle requested = .ok (progress, s')) :
    s.Alters (only (some id) (Session.resize (s.grantedRadius requested))) s' := by
  cases own : s.session? id with
  | none =>
    simp only [startChunkRadius, own] at started
    cases started
    exact (Keeps.refl s).alters.nobody own
  | some session =>
    cases live : session.finalized with
    | true =>
      rw [startChunkRadius_ended own live] at started
      cases started
      exact (Keeps.refl s).alters.idle own (if_pos live)
    | false =>
      simp only [startChunkRadius, own, live, Bool.false_eq_true, if_false] at started
      obtain ⟨⟨progress', s₁⟩, refreshed, rest⟩ := bind_eq_ok started
      cases rest
      set granted := s.grantedRadius requested
      set told := ((s.note (.radiusRequested session.name handle requested granted)).update id
        (·.setViewDistance granted)).send session.handle (.chunkRadiusUpdated granted.toInt32)
      have becomes : s.Becomes id (session.setViewDistance granted) told := by
        have updated := becomes_update own (·.setViewDistance granted)
        exact ⟨rfl, rfl, rfl, updated.size, updated.session?⟩
      have sound' : ∀ {j session'}, told.session? j = some session' → session'.Sound :=
        becomes.sound sound ((sound own).setViewDistance granted)
      have resized : session.resize granted = session.setViewDistance granted :=
        if_neg (by simp [live])
      have stays : (session.setViewDistance granted).pursue .stay =
          session.setViewDistance granted := ite_self _
      have refreshes := alters_start sound' .stay Course.noConfusion refreshed
      exact (becomes.then_alters refreshes).of_self own (resized.trans stays.symm)

omit sound in
theorem alters_changeSkin (s : Server) (id : SessionId) (handle : Handle) (change : PlayerSkin) :
    s.Alters (only (some id) (Session.dress change.skin)) (s.changeSkin id handle change).2 := by
  cases own : s.session? id with
  | none =>
    simp only [changeSkin, own]
    exact (Keeps.refl s).alters.nobody own
  | some session =>
    cases live : session.finalized with
    | true =>
      rw [changeSkin_ended own live]
      exact (Keeps.refl s).alters.idle own (if_pos live)
    | false =>
      obtain ⟨s', changed, becomes⟩ := changeSkin_live own live handle change
      have dressed : session.setSkin change.skin =
          (session.dress change.skin).track session.tracked := by
        rw [Session.dress, live, if_neg Bool.false_ne_true]
        rfl
      rw [dressed] at becomes
      rw [changed]
      exact becomes.alters own

theorem alters_startInitialized {handle : Handle} {runtimeId : UInt64} {progress : Progress Outcome}
    (started : s.startInitialized id handle runtimeId = .ok (progress, s')) :
    s.Alters (only (some id) fun session =>
      if runtimeId = session.runtimeId then session.pursue .enter else session) s' := by
  cases own : s.session? id with
  | none =>
    simp only [startInitialized, own] at started
    cases started
    exact (Keeps.refl s).alters.nobody own
  | some session =>
    simp only [startInitialized, own] at started
    split at started
    · rename_i same
      obtain ⟨⟨progress', s₁⟩, spawned, rest⟩ := bind_eq_ok started
      cases rest
      exact (alters_startSpawn sound spawned).of_self own (if_pos same)
    · rename_i wrong
      cases started
      exact Alters.idle (fun _ session own => ⟨session.tracked, own⟩) own (if_neg wrong)

/-- **The end of a session** is its end, if it had not ended before. -/
theorem Ends.alters (ends : s.Ends id s') : s.Alters (only (some id) Session.ended) s' := by
  cases ends with
  | void ended keeps _ =>
    cases own : s.session? id with
    | none => exact keeps.alters.nobody own
    | some session => exact keeps.alters.idle own ((sound own).ended_eq (ended session own))
  | live own _ becomes _ => exact Becomes.alters (t := Tracked.empty) own becomes

theorem alters_leave (id : SessionId) (handle : Handle) (message : String) :
    s.Alters (only (some id) Session.ended) (s.leave id handle message).2 := by
  unfold leave
  cases own : s.session? id with
  | none => exact (Keeps.refl s).alters.nobody own
  | some session =>
    exact Ends.alters (s := s.note (.disconnected session.name handle message)) sound
      (ends_removePlayer _ id)

theorem alters_disconnect (handle : Handle) :
    s.Alters (only (s.bound? handle) Session.ended) (s.disconnect handle).2 := by
  unfold disconnect
  cases s.bound? handle with
  | none => exact fun _ session own => ⟨session.tracked, own⟩
  | some id => exact (s.ends_removePlayer id).alters sound

omit sound in
/-- A login adds a session, and leaves those alone that are there. -/
theorem alters_login (s : Server) (login : Login) (existing : Option SessionId) (handle : Handle) :
    s.Alters unaltered (s.login login existing handle).2 := by
  intro j session own
  refine ⟨session.tracked, ?_⟩
  rcases s.login_cases login existing handle with ⟨n, n', -, h⟩ | ⟨reason, -, -, h⟩ | ⟨-, -, -, h⟩
  · rw [h]; exact own
  · rw [h]
    cases reason <;> exact own
  · rw [h]
    exact (s.accept_spec login handle).known own

/-! ### Packets and events -/

omit sound in
theorem Alters.unaltered_only (alters : s.Alters unaltered s') (idle : ∀ session, h session = session) :
    s.Alters (only who h) s' := by
  refine alters.congr fun j session _ => ?_
  unfold only unaltered
  split
  · exact idle session
  · rfl

/-- **A packet** makes of the session it goes along with what its handler makes of it. -/
theorem alters_startDispatch {packet : Packet} {handle : Handle} {progress : Progress Outcome}
    (started : s.startDispatch packet who handle = .ok (progress, s')) :
    s.Alters (only who (s.treat packet)) s' := by
  unfold startDispatch at started
  cases routed : s.dispatcher.handler? packet.id with
  | none =>
    rw [routed] at started
    cases started
    refine Alters.unaltered_only (fun _ session own => ⟨session.tracked, own⟩) fun session => ?_
    simp only [treat, routed]
  | some handler =>
    rw [routed] at started
    dsimp only at started
    unfold startHandler at started
    split at started
    · rename_i login
      cases started
      exact (alters_login s login who handle).unaltered_only fun session => by
        simp only [treat, routed]
    · rename_i movement id
      have treats : s.treat (.movePlayer movement) = fun session =>
          if movement.position.isFinite then
            session.pursue (.move movement.position movement.rotation movement.onGround)
          else session := funext fun session => by simp only [treat, routed]
      rw [treats]
      exact alters_startMovement sound started
    · rename_i request id
      have treats : s.treat (.requestChunkRadius request) =
          Session.resize (s.grantedRadius request.chunkRadius) :=
        funext fun session => by simp only [treat, routed]
      rw [treats]
      exact alters_startChunkRadius sound started
    · rename_i change id
      have treats : s.treat (.playerSkin change) = Session.dress change.skin :=
        funext fun session => by simp only [treat, routed]
      cases started
      rw [treats]
      exact alters_changeSkin s id handle change
    · rename_i runtimeId id
      have treats : s.treat (.setLocalPlayerAsInitialized runtimeId) = fun session =>
          if runtimeId = session.runtimeId then session.pursue .enter else session :=
        funext fun session => by simp only [treat, routed]
      rw [treats]
      exact alters_startInitialized sound started
    · rename_i goodbye id
      have treats : s.treat (.disconnect goodbye) = Session.ended :=
        funext fun session => by simp only [treat, routed]
      cases started
      rw [treats]
      exact alters_leave sound id handle goodbye.message
    · cases started
      refine (Keeps.refl s).alters.congr fun j session own => ?_
      unfold only unaltered
      split
      · unfold treat
        rw [routed]
        split <;> simp_all
      · rfl

theorem alters_startEvent {e : Event} {progress : Progress Unit}
    (started : s.startEvent e = .ok (progress, s')) (g : Game) (server : g.server = s) :
    s.Alters (Action.alter g (.event e)) s' := by
  subst server
  cases e with
  | connected handle =>
    cases started
    exact fun _ session own => ⟨session.tracked, own⟩
  | packet handle packet =>
    obtain ⟨⟨outcome, s₁⟩, dispatched, rest⟩ := bind_eq_ok started
    have alters := alters_startDispatch sound dispatched
    cases outcome with
    | done outcome =>
      cases rest
      unfold closeRefused
      split
      · exact alters.keeps ⟨rfl, rfl, rfl, rfl, fun _ => rfl⟩
      · exact alters
    | pending pass answer =>
      cases rest
      exact alters
  | disconnected handle =>
    cases started
    exact alters_disconnect sound handle

end Sound

/-! ### Ticks and the end of the game -/

end Server

theorem Scene.tick_session (sc : Scene) (current interval : UInt64) :
    (sc.tick current interval).session = sc.session.age := by
  cases spawned : sc.session.spawned with
  | false => simp [Scene.tick, Session.age, spawned]
  | true =>
    simp only [Scene.tick, Session.age, spawned, Bool.not_true, Bool.false_eq_true, if_false, if_true]
    split <;> simp [Scene.updateAttributes, Scene.send]

namespace Server

variable {s s' : Server}

theorem session?_tickSession (s : Server) (id j : SessionId) (current interval : UInt64) :
    (s.tickSession id current interval).session? j =
      if id = j then (s.session? j).map Session.age else s.session? j := by
  unfold tickSession
  cases own : s.session? id with
  | none =>
    rw [perform_none _ own]
    split
    · rename_i same
      rw [← same, own]
      rfl
    · rfl
  | some session =>
    rw [perform_eq _ own, session?_absorb _ own, Scene.tick_session]
    split
    · rename_i same
      rw [← same, own]
      rfl
    · rfl

/-- **A tick for each of a list of players** lets every one of them grow older once. -/
theorem session?_tickAll (current interval : UInt64) (j : SessionId) : ∀ (ms : List Member) (s : Server),
    (ms.map Member.session).Nodup →
      (ms.foldl (fun s m => s.tickSession m.session current interval) s).session? j =
        if j ∈ ms.map Member.session then (s.session? j).map Session.age else s.session? j
  | [], _, _ => (if_neg List.not_mem_nil).symm
  | m :: ms, s, distinct => by
    obtain ⟨new, distinct⟩ := List.nodup_cons.mp distinct
    rw [List.foldl_cons, session?_tickAll current interval j ms _ distinct, session?_tickSession]
    by_cases first : m.session = j
    · subst first
      rw [if_neg new, if_pos rfl, List.map_cons, if_pos List.mem_cons_self]
    · simp only [List.map_cons, List.mem_cons, Ne.symm first, false_or, if_neg first]

/-- No two members are one session. -/
theorem Enrolled.nodup_sessions (h : s.Enrolled) : (s.registry.players.map Member.session).Nodup := by
  refine h.paired.nodup_players.map_on fun m hm m' hm' same => ?_
  obtain ⟨session, own, -, is⟩ := h.mem_players.mp hm
  obtain ⟨session', own', -, is'⟩ := h.mem_players.mp hm'
  rw [same, own'] at own
  cases own
  rw [is, is', same]

section Everybody

variable (sound : ∀ {id session}, s.session? id = some session → session.Sound) (h : s.Enrolled)
include h

/-- Whoever is not among the players has ended. -/
theorem Enrolled.ended_of_not_mem {id : SessionId} {session : Session}
    (own : s.session? id = some session) (gone : id ∉ s.registry.players.map Member.session) :
    session.finalized = true := by
  by_contra lives
  have registered : Server.member id session ∈ s.registry.players :=
    h.mem_players.mpr ⟨session, own, Bool.eq_false_iff.mpr lives, rfl⟩
  exact gone (List.mem_map.mpr ⟨_, registered, rfl⟩)

include sound

/-- **A tick** lets every visible session grow older. -/
theorem alters_tick : s.Alters (fun _ => Session.age) s.tick.2 := by
  intro id session own
  have ticked := session?_tickAll (s.currentTick + 1) s.config.world.attributeSyncInterval id
    s.registry.players { s with currentTick := s.currentTick + 1 } h.nodup_sessions
  have own' : Server.session? { s with currentTick := s.currentTick + 1 } id = some session := own
  rw [own'] at ticked
  by_cases player : id ∈ s.registry.players.map Member.session
  · rw [if_pos player] at ticked
    exact ⟨session.age.tracked, ticked⟩
  · have unseen : session.spawned = false :=
      (sound own).despawned (h.ended_of_not_mem own player)
    have still : session.age = session := if_neg (by simp [unseen])
    rw [if_neg player] at ticked
    refine ⟨session.tracked, ?_⟩
    show _ = some (session.age.track session.tracked)
    rw [still]
    exact ticked

/-- **The end of the game** ends every session. -/
theorem alters_shutdown : s.Alters (fun _ => Session.ended) s.shutdown := by
  intro id session own
  have cleared := (clears_removeAll s.registry.players
    (s := s.note (.shuttingDown s.registry.players.length)) sound).session? id
  have own' : (s.note (.shuttingDown s.registry.players.length)).session? id = some session := own
  rw [own'] at cleared
  by_cases player : id ∈ s.registry.players.map Member.session
  · rw [if_pos player] at cleared
    exact ⟨Tracked.empty, cleared⟩
  · have ended := (sound own).ended_eq (h.ended_of_not_mem own player)
    rw [if_neg player] at cleared
    refine ⟨session.tracked, ?_⟩
    show _ = some (session.ended.track session.tracked)
    rw [ended]
    exact cleared

end Everybody

end Server

/-! ### Actions -/

variable {g g' : Game} {a : Action} {id : SessionId} {session : Session}

/-- What an operation makes of the sessions of its server, it makes of those of the game. -/
theorem Server.Alters.enact {α : Type} {f : SessionId → Session → Session}
    {operation : Except Overflow (Progress α × Server)}
    (alters : ∀ {progress s}, operation = .ok (progress, s) → g.server.Alters f s)
    (hstep : g.enact operation = .ok g') : g.server.Alters f g'.server := by
  obtain ⟨⟨progress, s⟩, operated, joined⟩ := bind_eq_ok hstep
  cases joined
  rw [Game.join_server]
  exact alters operated

/-- **What an action makes of the sessions** is a function of each of them, but for their columns. -/
theorem step_alters (sound : g.Sound) (enrolled : g.server.Enrolled) (hstep : g.step a = .ok g') :
    g.server.Alters (a.alter g) g'.server := by
  have updates : ∀ id (f : Session → Session), g.server.Alters (only (some id) f)
      (g.server.update id f) := by
    intro id f
    cases own : g.server.session? id with
    | none =>
      refine Server.Alters.nobody (fun j session own' => ⟨session.tracked, ?_⟩) own
      rw [Server.session?_update]
      split
      · rename_i same
        rw [← same, own] at own'
        cases own'
      · exact own'
    | some session =>
      exact Server.Becomes.alters (t := (f session).tracked) own (Server.becomes_update own f)
  have same : ∀ {s : Server}, s.sessions = g.server.sessions → g.server.Alters unaltered s := by
    intro s kept j session own
    refine ⟨session.tracked, ?_⟩
    rw [Server.session?, kept]
    exact own
  cases a with
  | event e =>
    exact Server.Alters.enact (fun started =>
      Server.alters_startEvent sound.session started g rfl) hstep
  | packet handle packet =>
    exact Server.Alters.enact (Server.alters_startDispatch sound.session) hstep
  | dispatch packet who handle =>
    exact Server.Alters.enact (Server.alters_startDispatch sound.session) hstep
  | move id position turn onGround =>
    exact Server.Alters.enact (fun started => Server.alters_start sound.session
      (.move position turn onGround) Course.noConfusion started) hstep
  | teleport id position rotation =>
    exact Server.Alters.enact (fun started => Server.alters_start sound.session
      (.teleport position rotation) Course.noConfusion started) hstep
  | refresh id =>
    refine Server.Alters.enact (fun started => ?_) hstep
    refine (Server.alters_start sound.session .stay Course.noConfusion started).congr
      fun j session _ => ?_
    show session = only (some id) (Session.pursue .stay) j session
    unfold only
    split
    · exact (ite_self session).symm
    · rfl
  | spawn id => exact Server.Alters.enact (Server.alters_startSpawn sound.session) hstep
  | setViewDistance id v => cases hstep; exact updates id _
  | setAttribute id name value => cases hstep; exact updates id _
  | finalize id => cases hstep; exact (g.server.ends_finalize id).alters sound.session
  | remove id => cases hstep; exact (g.server.ends_removePlayer id).alters sound.session
  | disconnect handle => cases hstep; exact Server.alters_disconnect sound.session handle
  | tick => cases hstep; exact Server.alters_tick sound.session enrolled
  | shutdown => cases hstep; exact Server.alters_shutdown sound.session enrolled
  | fetch p =>
    simp only [Game.step] at hstep
    split at hstep
    · rename_i f s fetched
      cases hstep
      exact (Server.column_spec fetched).1.alters
    · cases hstep
      exact same rfl
  | addEntity p e => cases hstep; exact same rfl
  | removeEntity p uniqueId => cases hstep; exact same rfl
  | advance i =>
    simp only [Game.step] at hstep
    split at hstep
    · cases hstep
      exact same rfl
    · obtain ⟨⟨pass, s⟩, advanced, rest⟩ := bind_eq_ok hstep
      cases rest
      exact (Server.advance_spec advanced).keeps.alters
  | settle i =>
    simp only [Game.step] at hstep
    split at hstep
    · cases hstep
      exact same rfl
    · rename_i pass own
      split at hstep
      · obtain ⟨⟨report, s⟩, settled, rest⟩ := bind_eq_ok hstep
        cases rest
        exact (sound.settled own settled).2.alters
      · cases hstep
        exact same rfl

/-- **A session that was not there before** is that of the player that logs in. -/
theorem step_newborn (sound : g.Sound) (hstep : g.step a = .ok g')
    (fresh : g.server.session? id = none) (own : g'.server.session? id = some session) :
    ∃ login handle, a.login? = some login ∧ session = g.server.newcomer login handle ∧
      g' = { g with server := g.server.accept login handle } ∧
      a.words g = g.server.greeting handle ∧ id = g.server.sessions.size := by
  have unborn : g.server.sessions.size ≤ id := by
    rw [Server.session?, Array.getElem?_eq_none_iff] at fresh
    exact fresh
  cases admits : a.admits g with
  | false =>
    have known := Server.session?_lt own
    rw [(step_population sound hstep admits).size] at known
    exact absurd known (Nat.not_lt.mpr unborn)
  | true =>
    obtain ⟨login, handle, carried, -, -, words, accepted⟩ := Action.admitted admits
    rw [hstep] at accepted
    cases accepted
    have spec := g.server.accept_spec login handle
    rw [spec.session?] at own
    split at own
    · rename_i same
      cases own
      exact ⟨login, handle, carried, rfl, rfl, words, same⟩
    · rw [fresh] at own
      cases own

/-- **Every session after an action** is what became of one before, or that of a player that logs in. -/
theorem step_source (sound : g.Sound) (enrolled : g.server.Enrolled) (hstep : g.step a = .ok g')
    {session' : Session} (own' : g'.server.session? id = some session') :
    (∃ session t, g.server.session? id = some session ∧ session' = (a.alter g id session).track t) ∨
      ∃ login handle, session' = g.server.newcomer login handle := by
  cases own : g.server.session? id with
  | some session =>
    obtain ⟨t, altered⟩ := step_alters sound enrolled hstep id session own
    rw [own'] at altered
    cases altered
    exact Or.inl ⟨session, t, rfl, rfl⟩
  | none =>
    obtain ⟨login, handle, -, same, -⟩ := step_newborn sound hstep own own'
    exact Or.inr ⟨login, handle, same⟩

end BlockWorld
