import BlockWorld.Proofs.Reception

/-! # Who wears what

A player may change its skin while it plays. The others are told, under the uuid that it logged in with,
whatever uuid its client claims. And nobody is ever told of a skin but by such a change: of all that a
server sends, only the relays of a skin carry one.

* `Identity.From`: what an identity keeps from its login; `alter_identity`: no action changes it.
* `Action.submission?`: the change of skin that an action submits.
* `Packet.skin?`, `words_skin`: whose skin is told, and of what submission.
* `Step.Relays`, `step_relays`: what comes of a submission; `submits_of_live`: who lives submits.
* `loginOf`, `Game.Authentic`: what holds of the steps so far.
* `skins_authentic`: all of it, after any run. -/

namespace BlockWorld

/-! ### Identities -/

/-- What an identity keeps from the login that it was created by. -/
structure Identity.From (login : Login) (identity : Identity) : Prop where
  name : identity.name = login.username
  uuid : identity.uuid = login.clientUuid
  xuid : identity.xuid = login.clientXuid
  clientId : identity.clientId = login.clientId
  locale : identity.locale = login.language

namespace Session

variable (s : Session)

@[simp] theorem pursue_identity (course : Course) : (s.pursue course).identity = s.identity := by
  unfold pursue
  split
  · rfl
  · cases course <;> rfl

@[simp] theorem resize_identity (granted : UInt32) : (s.resize granted).identity = s.identity := by
  unfold resize
  split <;> rfl

@[simp] theorem age_identity : s.age.identity = s.identity := by
  unfold age
  split <;> rfl

@[simp] theorem ended_identity : s.ended.identity = s.identity := rfl

theorem dress_identity {login : Login} (h : s.identity.From login) (skin : Skin) :
    (s.dress skin).identity.From login := by
  unfold dress
  split
  · exact h
  · exact ⟨h.name, h.uuid, h.xuid, h.clientId, h.locale⟩

end Session

section Alter

variable {g : Game} {a : Action} {id : SessionId} {session : Session} {login : Login}

theorem treat_identity (s : Server) (packet : Packet) (h : session.identity.From login) :
    (s.treat packet session).identity.From login := by
  rcases s.treat_cases packet session with
    same | ⟨position, turn, onGround, -, same⟩ | ⟨request, -, same⟩ | ⟨skin, same⟩ | same | same
  · rwa [same]
  · rwa [same, Session.pursue_identity]
  · rwa [same, Session.resize_identity]
  · rw [same]
    exact session.dress_identity h skin
  · rwa [same, Session.pursue_identity]
  · rwa [same, Session.ended_identity]

/-- **No action changes** what an identity keeps from its login. -/
theorem alter_identity (g : Game) (a : Action) (id : SessionId) (h : session.identity.From login) :
    (a.alter g id session).identity.From login := by
  have kept {who : Option SessionId} {f : Session → Session}
      (keeps : (f session).identity.From login) : (only who f id session).identity.From login := by
    unfold only
    split
    · exact keeps
    · exact h
  have treats {p : Packet} {who : Option SessionId} :
      (only who (g.server.treat p) id session).identity.From login :=
    kept (treat_identity g.server p h)
  have pursues {course : Course} {who : Option SessionId} :
      (only who (Session.pursue course) id session).identity.From login :=
    kept (by rwa [Session.pursue_identity])
  have ends {who : Option SessionId} : (only who Session.ended id session).identity.From login := kept h
  cases a with
  | event e =>
    cases e with
    | connected handle => exact h
    | packet handle p => exact treats
    | disconnected handle => exact ends
  | packet handle p => exact treats
  | dispatch p who handle => exact treats
  | move j position turn onGround => exact pursues
  | teleport j position rotation => exact pursues
  | spawn j => exact pursues
  | setViewDistance j v => exact kept h
  | setAttribute j name value => exact kept h
  | finalize j => exact ends
  | remove j => exact ends
  | disconnect handle => exact ends
  | tick =>
    show session.age.identity.From login
    rwa [Session.age_identity]
  | _ => exact h

end Alter

/-! ### Submissions -/

/-- The change of skin that a packet submits to the handler for skins, with the session it goes along
with. -/
def Server.submission? (s : Server) (packet : Packet) (who : Option SessionId) :
    Option (SessionId × PlayerSkin) :=
  match s.dispatcher.handler? packet.id, packet, who with
  | some .skin, .playerSkin change, some id => some (id, change)
  | _, _, _ => none

/-- The change of skin that an action submits, with the session that it is submitted for. -/
def Action.submission? (g : Game) : Action → Option (SessionId × PlayerSkin)
  | .event (.packet handle p) => g.server.submission? p (g.server.bound? handle)
  | .packet handle p => g.server.submission? p (g.server.bound? handle)
  | .dispatch p who _ => g.server.submission? p who
  | _ => none

theorem Server.submission?_eq_some {s : Server} {packet : Packet} {who : Option SessionId}
    {id : SessionId} {change : PlayerSkin} (h : s.submission? packet who = some (id, change)) :
    packet = .playerSkin change ∧ who = some id ∧ s.dispatcher.handler? packet.id = some .skin := by
  unfold submission? at h
  split at h
  · rename_i routed
    cases h
    exact ⟨rfl, rfl, routed⟩
  · cases h

/-! ### Who is told of a skin -/

def Packet.skin? : Packet → Option PlayerSkin
  | .playerSkin change => some change
  | _ => none

theorem Packet.skin?_of_isPhase {p : Packet} (h : p.isPhase = true) : p.skin? = none := by
  cases p <;> first | rfl | cases h

theorem Packet.skin?_of_isReport {p : Packet} (h : p.isReport = true) : p.skin? = none := by
  cases p <;> first | rfl | cases h

/-- Nobody is told of a skin. -/
def Plain (us : List Utterance) : Prop := ∀ u ∈ us, u.packet.skin? = none

theorem plain_nil : Plain [] := fun _ hu => by cases hu

namespace Server

variable {s : Server} {id : SessionId}

theorem plain_phase (s : Server) (id : SessionId) (course : Course) :
    Plain (s.voice id course.phase) := fun _ hu => Packet.skin?_of_isPhase (voice_isPhase hu)

theorem plain_spawnWords (s : Server) (id : SessionId) : Plain (s.spawnWords id) :=
  fun u hu => plain_phase s id .enter u (mem_spawnWords hu)

theorem plain_movementWords (s : Server) (id : SessionId) (movement : MovePlayer) :
    Plain (s.movementWords id movement) := by
  unfold movementWords
  split
  · exact plain_phase s id _
  · cases own : s.session? id with
    | none =>
      rw [correction, voice_none own]
      exact plain_nil
    | some session =>
      rw [correction_eq own]
      intro u hu
      cases List.mem_singleton.mp hu
      rfl

theorem plain_radiusWords (s : Server) (id : SessionId) (requested : Int32) :
    Plain (s.radiusWords id requested) := by
  intro u hu
  obtain ⟨session, -, -, rfl | hu⟩ := mem_radiusWords hu
  · rfl
  · exact plain_phase _ id .stay u hu

theorem plain_initializedWords (s : Server) (id : SessionId) (runtimeId : UInt64) :
    Plain (s.initializedWords id runtimeId) :=
  fun u hu => plain_phase s id .enter u (mem_initializedWords hu)

theorem plain_loginWords (s : Server) (login : Login) (existing : Option SessionId) (handle : Handle) :
    Plain (s.loginWords login existing handle) := by
  rcases s.login_cases login existing handle with
    ⟨n, n', words, -⟩ | ⟨reason, -, words, -⟩ | ⟨-, -, words, -⟩
  · rw [words]
    exact plain_nil
  · rw [words]
    cases reason <;> simp [Plain, refusal, Packet.skin?]
  · rw [words]
    simp [Plain, greeting, Packet.skin?]

theorem plain_farewell (s : Server) (id : SessionId) : Plain (s.farewell id) := by
  intro u hu
  obtain ⟨session, -, -, m, -, rfl⟩ := mem_farewell hu
  rfl

theorem plain_removals (rs : List Removal) : Plain (rs.flatMap Removal.words) := by
  intro u hu
  obtain ⟨r, -, hr⟩ := List.mem_flatMap.mp hu
  exact plain_farewell r.before r.session u hr

theorem plain_ticking (s : Server) (id : SessionId) (current interval : UInt64) :
    Plain (s.ticking id current interval) := by
  cases own : s.session? id with
  | none =>
    rw [ticking, voice_none own]
    exact plain_nil
  | some session =>
    rw [ticking_eq own, ← syncs_isReport]
    intro u hu
    obtain ⟨p, hp, rfl⟩ := List.mem_map.mp hu
    exact Packet.skin?_of_isReport (List.mem_filter.mp hp).2

theorem plain_tickWords (current interval : UInt64) : ∀ (ms : List Member) (s : Server),
    Plain (tickWords current interval ms s)
  | [], _ => plain_nil
  | m :: ms, s => by
    intro u hu
    rcases List.mem_append.mp hu with hu | hu
    · exact plain_ticking s m.session current interval u hu
    · exact plain_tickWords current interval ms _ u hu

theorem Settles.plain {s' : Server} {pass : Pass} {report : Report} (h : s.Settles pass report s') :
    Plain (s.settling pass) := by
  intro u hu
  rcases h.packet_cases hu with ⟨q, shown⟩ | ⟨session, enters⟩
  · rw [shown]
    rfl
  · simp only [Session.entry, List.mem_cons, List.not_mem_nil, or_false] at enters
    rcases enters with enters | enters <;> rw [enters] <;> rfl

/-- What is said when a packet is dealt with are the relays of the skin that it submits, or nobody is
told of a skin. -/
theorem packetWords_skin (s : Server) (packet : Packet) (who : Option SessionId) (handle : Handle) :
    (∃ id change, s.submission? packet who = some (id, change) ∧
        s.packetWords packet who handle = s.relays id change) ∨
      (s.submission? packet who = none ∧ Plain (s.packetWords packet who handle)) := by
  unfold packetWords
  split
  · rename_i login routed
    exact Or.inr ⟨by simp only [submission?, routed], plain_loginWords s login _ handle⟩
  · rename_i movement id routed
    exact Or.inr ⟨by simp only [submission?, routed], plain_movementWords s id movement⟩
  · rename_i request id routed
    exact Or.inr ⟨by simp only [submission?, routed], plain_radiusWords s id request.chunkRadius⟩
  · rename_i change id routed
    exact Or.inl ⟨id, change, by simp only [submission?, routed], rfl⟩
  · rename_i runtimeId id routed
    exact Or.inr ⟨by simp only [submission?, routed], plain_initializedWords s id runtimeId⟩
  · rename_i goodbye id routed
    exact Or.inr ⟨by simp only [submission?, routed], plain_farewell s id⟩
  · rename_i others notSkin _ _
    refine Or.inr ⟨?_, plain_nil⟩
    refine Option.eq_none_iff_forall_ne_some.mpr fun ⟨id, change⟩ submitted => ?_
    obtain ⟨kind, whose, routed⟩ := submission?_eq_some submitted
    exact notSkin change id routed kind whose

end Server

/-- **Whenever a skin is told** in an action, the action submits it, for a live session, and what is told
carries the uuid of that session. -/
theorem words_skin {g : Game} (sound : g.Sound) {a : Action} {u : Utterance} (hu : u ∈ a.words g)
    {relay : PlayerSkin} (told : u.packet = .playerSkin relay) :
    ∃ id change session, a.submission? g = some (id, change) ∧ g.server.session? id = some session ∧
      session.finalized = false ∧ relay = { change with uuid := session.identity.uuid } := by
  have notPlain {us : List Utterance} (hu : u ∈ us) (plain : Plain us) : False := by
    have none := plain u hu
    rw [told] at none
    cases none
  have packets {p : Packet} {who : Option SessionId} {handle : Handle}
      (hu : u ∈ g.server.packetWords p who handle) :
      ∃ id change session, g.server.submission? p who = some (id, change) ∧
        g.server.session? id = some session ∧ session.finalized = false ∧
          relay = { change with uuid := session.identity.uuid } := by
    rcases g.server.packetWords_skin p who handle with ⟨id, change, submitted, words⟩ | ⟨-, plain⟩
    · rw [words] at hu
      obtain ⟨session, own, live, m, -, rfl⟩ := Server.mem_relays hu
      cases told
      exact ⟨id, change, session, submitted, own, live, rfl⟩
    · exact (notPlain hu plain).elim
  cases a with
  | event e =>
    cases e with
    | connected handle => cases hu
    | packet handle p => exact packets hu
    | disconnected handle => exact (notPlain hu (Server.plain_removals _)).elim
  | packet handle p => exact packets hu
  | dispatch p who handle => exact packets hu
  | move id position turn onGround => exact (notPlain hu (Server.plain_phase _ _ _)).elim
  | teleport id position rotation => exact (notPlain hu (Server.plain_phase _ _ _)).elim
  | refresh id => exact (notPlain hu (Server.plain_phase _ _ _)).elim
  | spawn id => exact (notPlain hu (Server.plain_spawnWords _ _)).elim
  | remove id => exact (notPlain hu (Server.plain_farewell _ _)).elim
  | disconnect handle => exact (notPlain hu (Server.plain_removals _)).elim
  | tick => exact (notPlain hu (Server.plain_tickWords _ _ _ _)).elim
  | shutdown => exact (notPlain hu (Server.plain_removals _)).elim
  | settle i =>
    rcases sound.settle_words i with silent | ⟨pass, report, s, settles, words⟩
    · rw [silent] at hu
      cases hu
    · rw [words] at hu
      exact (notPlain hu settles.plain).elim
  | _ => cases hu

/-! ### What comes of a submission -/

/-- In the step the session `id`, which was `session`, changes its skin: the skin of its identity becomes
exactly that one, all else of it stays as it was, and so does every other session. Every other player
that is visible is told once, under the uuid `uuid`, and nobody else is told anything. -/
structure Step.Relays (t : Step) (id : SessionId) (session : Session) (change : PlayerSkin)
    (uuid : Uuid) : Prop where
  handled : ∃ handle, t.before.server.startDispatch (.playerSkin change) (some id) handle =
    .ok (.done .handled, t.after.server)
  stored : t.after.server.session? id =
    some { session with identity := { session.identity with skin := change.skin } }
  others : ∀ j, j ≠ id → t.after.server.session? j = t.before.server.session? j
  told : ∀ j peer, t.before.server.session? j = some peer → t.before.server.Registered j peer →
    t.after.server.sentTo peer.handle = t.before.server.sentTo peer.handle ++
      if j ≠ id ∧ peer.spawned = true then [.playerSkin { change with uuid }] else []
  nobody : ∀ handle, t.before.server.bound? handle = none →
    t.after.server.sentTo handle = t.before.server.sentTo handle

namespace Server

variable {s : Server} {id : SessionId} {session : Session} {change : PlayerSkin}

/-- **Whom a relay reaches**: the connection of every other player that is visible. -/
theorem Enrolled.relays_to (h : s.Enrolled) (own : s.session? id = some session)
    (live : session.finalized = false) (change : PlayerSkin) (handle : Handle) :
    ((s.relays id change).filter (·.handle == handle)).map Utterance.packet =
      match s.bound? handle with
      | none => []
      | some j => if j ≠ id ∧ s.isSpawned j = true then
          [.playerSkin { change with uuid := session.identity.uuid }] else [] := by
  have relays : s.relays id change = (s.spawnedOthers id).map fun m =>
      ⟨some m.session, m.handle, .playerSkin { change with uuid := session.identity.uuid }⟩ := by
    simp only [relays, own, live, Bool.false_eq_true, if_false]
  have reached : (s.spawnedOthers id).filter (·.handle == handle) =
      (s.registry.byHandle? handle).toList.filter fun m =>
        m.session != id && s.isSpawned m.session := by
    rw [← h.paired.filter_handle, List.filter_comm]
    rfl
  rw [relays, List.filter_map, List.map_map]
  show ((s.spawnedOthers id).filter (·.handle == handle)).map _ = _
  rw [reached, bound?]
  cases s.registry.byHandle? handle with
  | none => rfl
  | some m =>
    have test : (m.session != id && s.isSpawned m.session) =
        decide (m.session ≠ id ∧ s.isSpawned m.session = true) := by
      rw [Bool.eq_iff_iff, Bool.and_eq_true, bne_iff_ne, decide_eq_true_iff]
    rw [Option.toList_some, List.filter_singleton, test]
    by_cases other : m.session ≠ id ∧ s.isSpawned m.session = true
    · rw [decide_eq_true other]
      exact (if_pos other).symm
    · rw [decide_eq_false other]
      exact (if_neg other).symm

theorem startDispatch_skin (routed : s.dispatcher.handler? (Packet.playerSkin change).id = some .skin)
    (id : SessionId) (handle : Handle) : s.startDispatch (.playerSkin change) (some id) handle =
      .ok (.done (s.changeSkin id handle change).1, (s.changeSkin id handle change).2) := by
  simp only [startDispatch, routed, startHandler]

end Server

section Step

variable {g g' : Game} {a : Action} {id : SessionId} {session : Session} {change : PlayerSkin}

/-- An action that submits a change of skin is that change, and nothing else. -/
theorem step_submission (submitted : a.submission? g = some (id, change)) (hstep : g.step a = .ok g') :
    a.words g = g.server.relays id change ∧ ∃ handle,
      g.server.startDispatch (.playerSkin change) (some id) handle =
        .ok (.done (g.server.changeSkin id handle change).1, g'.server) ∧
      g'.server = (g.server.changeSkin id handle change).2 := by
  have packets {p : Packet} {who : Option SessionId} (handle : Handle)
      (submitted : g.server.submission? p who = some (id, change)) :
      p = .playerSkin change ∧ who = some id ∧
        g.server.packetWords p who handle = g.server.relays id change ∧
        g.server.startDispatch (.playerSkin change) (some id) handle =
          .ok (.done (g.server.changeSkin id handle change).1,
            (g.server.changeSkin id handle change).2) := by
    obtain ⟨rfl, rfl, routed⟩ := Server.submission?_eq_some submitted
    refine ⟨rfl, rfl, ?_, Server.startDispatch_skin routed id handle⟩
    simp only [Server.packetWords, routed]
  cases a with
  | event e =>
    cases e with
    | packet handle p =>
      obtain ⟨rfl, bound, words, dispatched⟩ := packets handle submitted
      simp only [Game.step, Game.enact, Server.startEvent, Server.startPacket, bound, dispatched, bind,
        Except.bind, pure, Except.pure] at hstep
      cases hstep
      exact ⟨words, handle, dispatched, rfl⟩
    | connected handle => cases submitted
    | disconnected handle => cases submitted
  | packet handle p =>
    obtain ⟨rfl, bound, words, dispatched⟩ := packets handle submitted
    simp only [Game.step, Game.enact, Server.startPacket, bound, dispatched, bind, Except.bind, pure,
      Except.pure] at hstep
    cases hstep
    exact ⟨words, handle, dispatched, rfl⟩
  | dispatch p who handle =>
    obtain ⟨rfl, rfl, words, dispatched⟩ := packets handle submitted
    simp only [Game.step, Game.enact, dispatched, bind, Except.bind, pure, Except.pure] at hstep
    cases hstep
    exact ⟨words, handle, dispatched, rfl⟩
  | _ => cases submitted

/-- **What comes of a submission** for a live session. -/
theorem step_relays (sound : g.Sound) (enrolled : g.server.Enrolled) (hstep : g.step a = .ok g')
    (submitted : a.submission? g = some (id, change)) (own : g.server.session? id = some session)
    (live : session.finalized = false) :
    Step.Relays ⟨g, a, g'⟩ id session change session.identity.uuid := by
  obtain ⟨words, handle, dispatched, after⟩ := step_submission submitted hstep
  obtain ⟨s', changed, becomes⟩ := Server.changeSkin_live own live handle change
  rw [changed] at dispatched after
  cases after
  have sent (address : Handle) : g'.server.sentTo address = g.server.sentTo address ++
      ((g.server.relays id change).filter (·.handle == address)).map Utterance.packet := by
    rw [sentTo_eq (step_sent sound hstep), words]
  refine ⟨⟨handle, dispatched⟩, becomes.self, fun j apart => becomes.other apart,
    fun j peer there registered => ?_, fun address unbound => ?_⟩
  · have bound : g.server.bound? peer.handle = some j :=
      enrolled.bound?_eq_some_iff.mpr ⟨peer, there, registered.live, rfl⟩
    show g'.server.sentTo peer.handle = _
    rw [sent, enrolled.relays_to own live, bound]
    simp only [Server.isSpawned_eq there]
  · show g'.server.sentTo address = _
    rw [sent, enrolled.relays_to own live, unbound]
    exact List.append_nil _

end Step

/-! ### Runs -/

/-- The login by which the session `id` came. -/
def loginOf (ts : List Step) (id : SessionId) : Option Login :=
  (ts.find? (·.brings id)).bind (·.action.login?)

theorem loginOf_append {ts : List Step} {id : SessionId} {login : Login}
    (h : loginOf ts id = some login) (us : List Step) : loginOf (ts ++ us) id = some login := by
  obtain ⟨t, found, carried⟩ := Option.bind_eq_some_iff.mp h
  rw [loginOf, List.find?_append, found]
  exact carried

theorem loginOf_brought {ts : List Step} {t : Step} {id : SessionId}
    (unborn : ∀ u ∈ ts, u.brings id = false) (brings : t.brings id = true) :
    loginOf (ts ++ [t]) id = t.action.login? := by
  have none : ts.find? (·.brings id) = none :=
    List.find?_eq_none.mpr fun u hu => by rw [unborn u hu]; exact Bool.false_ne_true
  rw [loginOf, List.find?_append, none, List.find?_singleton, brings]
  rfl

/-- Every session keeps the identity of the login by which it came. -/
def Server.Known (s : Server) (ts : List Step) : Prop :=
  ∀ id session, s.session? id = some session →
    ∃ login, loginOf ts id = some login ∧ session.identity.From login

/-- The step submits a change of skin for the session `id`, which is registered. -/
structure Step.Submits (t : Step) (id : SessionId) (session : Session) (change : PlayerSkin) : Prop where
  submitted : t.action.submission? t.before = some (id, change)
  own : t.before.server.session? id = some session
  registered : t.before.server.Registered id session

/-- What holds of the steps so far: all sessions keep their identities, every submission is relayed, and
nothing else tells of a skin. -/
structure Game.Authentic (ts : List Step) (g : Game) : Prop where
  unborn : ∀ id, g.server.session? id = none → ∀ t ∈ ts, t.brings id = false
  known : g.server.Known ts
  history : ∀ t ∈ ts, t.after.server.Known ts
  relays : ∀ t ∈ ts, ∀ id session change, t.Submits id session change →
    ∃ login, loginOf ts id = some login ∧ t.Relays id session change login.clientUuid
  sent : ∀ handle relay, (handle, .playerSkin relay) ∈ g.server.sent →
    ∃ t ∈ ts, ∃ id session change login, t.Submits id session change ∧
      loginOf ts id = some login ∧ relay = { change with uuid := login.clientUuid }

theorem Server.Known.append {s : Server} {ts : List Step} (h : s.Known ts) (us : List Step) :
    s.Known (ts ++ us) := by
  intro id session own
  obtain ⟨login, brought, keeps⟩ := h id session own
  exact ⟨login, loginOf_append brought us, keeps⟩

theorem authentic_create (config : Config) (world : World) (dispatcher : Dispatcher) :
    Game.Authentic [] { server := Server.create config world dispatcher } where
  unborn _ _ _ ht := by cases ht
  known id session own := by
    rw [session?_create] at own
    cases own
  history _ ht := by cases ht
  relays _ ht := by cases ht
  sent _ _ ht := by cases ht

section Step

variable {g g' : Game} {a : Action} {ts : List Step}

/-- A session that comes in a step keeps the identity of the login that the step carries, and the others
keep theirs. -/
theorem Game.Authentic.step_known (h : g.Authentic ts) (sound : g.Sound) (enrolled : g.server.Enrolled)
    (hstep : g.step a = .ok g') : g'.server.Known (ts ++ [⟨g, a, g'⟩]) := by
  intro id session' own'
  cases own : g.server.session? id with
  | none =>
    obtain ⟨login, handle, carried, rfl, -⟩ := step_newborn sound hstep own own'
    have brings : Step.brings id ⟨g, a, g'⟩ = true := by simp [Step.brings, own, own']
    exact ⟨login, (loginOf_brought (h.unborn id own) brings).trans carried, rfl, rfl, rfl, rfl, rfl⟩
  | some session =>
    obtain ⟨login, brought, keeps⟩ := h.known id session own
    obtain ⟨t, altered⟩ := step_alters sound enrolled hstep id session own
    rw [own'] at altered
    cases altered
    exact ⟨login, loginOf_append brought _, alter_identity g a id keeps⟩

/-- **Every step** keeps identities, relays what it submits, and tells of nothing else. -/
theorem Game.Authentic.step (h : g.Authentic ts) (sound : g.Sound) (enrolled : g.server.Enrolled)
    (hstep : g.step a = .ok g') : g'.Authentic (ts ++ [⟨g, a, g'⟩]) := by
  have known' := h.step_known sound enrolled hstep
  have changes := (turns_of_step sound hstep).changes
  refine ⟨fun id unborn' t ht => ?_, known', fun t ht => ?_, fun t ht id session change submits => ?_,
    fun handle relay told => ?_⟩
  · have unborn : g.server.session? id = none := by
      refine Option.eq_none_iff_forall_ne_some.mpr fun session own => ?_
      obtain ⟨session', own', -⟩ := changes.lasts sound own
      rw [unborn'] at own'
      cases own'
    rcases List.mem_append.mp ht with ht | ht
    · exact h.unborn id unborn t ht
    · cases List.mem_singleton.mp ht
      rw [Step.brings, unborn']
      exact Bool.and_false _
  · rcases List.mem_append.mp ht with ht | ht
    · exact (h.history t ht).append _
    · cases List.mem_singleton.mp ht
      exact known'
  · rcases List.mem_append.mp ht with ht | ht
    · obtain ⟨login, brought, relays⟩ := h.relays t ht id session change submits
      exact ⟨login, loginOf_append brought _, relays⟩
    · cases List.mem_singleton.mp ht
      obtain ⟨submitted, own, registered⟩ := submits
      obtain ⟨login, brought, keeps⟩ := h.known id session own
      refine ⟨login, loginOf_append brought _, ?_⟩
      rw [← keeps.uuid]
      exact step_relays sound enrolled hstep submitted own registered.live
  · -- a skin was told before, or is told in this step, and then of what the step submits
    rw [step_sent sound hstep] at told
    rcases List.mem_append.mp told with told | told
    · obtain ⟨t, ht, id, session, change, login, submits, brought, same⟩ := h.sent handle relay told
      exact ⟨t, List.mem_append_left _ ht, id, session, change, login, submits,
        loginOf_append brought _, same⟩
    · obtain ⟨u, hu, message⟩ := List.mem_map.mp told
      obtain ⟨id, change, session, submitted, own, live, rfl⟩ :=
        words_skin sound hu (congrArg Prod.snd message)
      obtain ⟨login, brought, keeps⟩ := h.known id session own
      refine ⟨_, List.mem_append_right _ List.mem_cons_self, id, session, change, login,
        ⟨submitted, own, enrolled.registered own live⟩, loginOf_append brought _, ?_⟩
      rw [keeps.uuid]

end Step

/-- **Skins are told, to everybody and under the right name.** After any run, in which sessions end only
with the server told: no session ever had another name, uuid, xuid, client id or locale than those of
the login by which it came. Wherever a change of skin was submitted for a session that was registered,
it got exactly that skin, every other player that was visible was told once, under the uuid of that
login, and nobody else was told anything. And whatever skin anybody was ever told of was told in such a
step. -/
theorem skins_authentic (config : Config) (world : World) (dispatcher : Dispatcher)
    (actions : List Action) (told : ∀ a ∈ actions, a.isFinalize = false) :
    let start : Game := { server := Server.create config world dispatcher }
    let ts := start.history actions
    ∃ g, start.run actions = .ok g ∧
      (∀ t ∈ ts, ∀ id session, t.after.server.session? id = some session →
        ∃ login, loginOf ts id = some login ∧ session.identity.From login) ∧
      (∀ t ∈ ts, ∀ id session change, t.Submits id session change →
        ∃ login, loginOf ts id = some login ∧ t.Relays id session change login.clientUuid) ∧
      ∀ handle relay, (handle, .playerSkin relay) ∈ g.server.sent →
        ∃ t ∈ ts, ∃ id session change login, t.Submits id session change ∧
          loginOf ts id = some login ∧ relay = { change with uuid := login.clientUuid } := by
  intro start ts
  obtain ⟨g, hrun, -, -, authentic⟩ := run_fresh (P := Game.Authentic) (fun _ told => told)
    (fun sound enrolled h _ hstep => h.step sound enrolled hstep)
    (authentic_create config world dispatcher) told
  exact ⟨g, hrun, authentic.history, authentic.relays, authentic.sent⟩

/-- While a run hears of every end, whoever lives is registered, and so submits what it sends. -/
theorem submits_of_live {config : Config} {world : World} {dispatcher : Dispatcher} {actions : List Action}
    (told : ∀ a ∈ actions, a.isFinalize = false) {t : Step} {id : SessionId} {session : Session}
    {change : PlayerSkin}
    (ht : t ∈ Game.history { server := Server.create config world dispatcher } actions)
    (submitted : t.action.submission? t.before = some (id, change))
    (own : t.before.server.session? id = some session) (live : session.finalized = false) :
    t.Submits id session change := by
  obtain ⟨-, -, enrolled, -⟩ := history_reached (P := fun g => g.server.Enrolled)
    (fun sound h c => c.enrolled sound h) actions (sound_create config world dispatcher)
    (Server.enrolled_create config world dispatcher) told t ht
  exact ⟨submitted, own, enrolled.registered own live⟩

/-- A player that claims the uuid of the one it shows its new skin to. -/
theorem skins_authentic_claimed :
    let ada : Login := { username := "ada", clientUuid := ⟨1, 2⟩ }
    let bob : Login := { username := "bob", clientUuid := ⟨3, 4⟩ }
    let claimed : PlayerSkin :=
      { uuid := bob.clientUuid, skin := { skinId := "cape" }, newSkinName := "cape", oldSkinName := "" }
    let actions : List Action :=
      [.packet ⟨1⟩ (.login ada), .packet ⟨2⟩ (.login bob), .setViewDistance 1 0, .spawn 1,
        .packet ⟨1⟩ (.playerSkin claimed)]
    let start : Game := { server := Server.create {} {} .standard }
    (∀ a ∈ actions, a.isFinalize = false) ∧
      ∃ g, start.run actions = .ok g ∧
        (∃ t ∈ start.history actions, ∃ session, t.Submits 0 session claimed ∧
          session.identity = Identity.ofLogin ada ∧ t.Relays 0 session claimed ada.clientUuid) ∧
        (∀ handle relay, (handle, .playerSkin relay) ∈ g.server.sent →
          ∃ id login, loginOf (start.history actions) id = some login ∧ relay.uuid = login.clientUuid) ∧
        (g.server.session? 0).map Session.identity =
          some { Identity.ofLogin ada with skin := claimed.skin } ∧
        (g.server.sent.filterMap fun message => message.2.skin?.map fun relay => (message.1, relay)) =
          [(⟨2⟩, { claimed with uuid := ada.clientUuid })] := by
  intro ada bob claimed actions start
  have told : ∀ a ∈ actions, a.isFinalize = false := by decide
  have reached : (start.run actions).toOption.any (fun g => decide (
      (g.server.session? 0).map Session.identity = some { Identity.ofLogin ada with skin := claimed.skin } ∧
      (g.server.sent.filterMap fun message => message.2.skin?.map fun relay => (message.1, relay)) =
        [(⟨2⟩, { claimed with uuid := ada.clientUuid })])) = true := by
    decide +kernel
  have submitting : (start.history actions).any (fun t => decide (
      t.action.submission? t.before = some (0, claimed) ∧
      (t.before.server.session? 0).map (fun session => (session.finalized, session.identity)) =
        some (false, Identity.ofLogin ada))) = true := by
    decide +kernel
  have came : loginOf (start.history actions) 0 = some ada := by decide +kernel
  obtain ⟨g, hrun, -, relayed, sent⟩ := skins_authentic {} {} .standard actions told
  obtain ⟨t, ht, submission⟩ := List.any_eq_true.mp submitting
  obtain ⟨submitted, found⟩ := of_decide_eq_true submission
  obtain ⟨session, own, state⟩ := Option.map_eq_some_iff.mp found
  obtain ⟨live, identity⟩ := Prod.mk.inj state
  have submits : t.Submits 0 session claimed := submits_of_live told ht submitted own live
  refine ⟨told, g, hrun, ⟨t, ht, session, submits, identity, ?_⟩, fun handle relay hrelay => ?_,
    Game.holds_of_run reached hrun⟩
  · obtain ⟨login, brought, relays⟩ := relayed t ht 0 session claimed submits
    obtain rfl : ada = login := Option.some.inj (came.symm.trans brought)
    exact relays
  · obtain ⟨u, -, id, sender, change, login, -, brought, rfl⟩ := sent handle relay hrelay
    exact ⟨id, login, brought, rfl⟩

end BlockWorld
