import BlockWorld.Proofs.Run

/-! # What is sent is what is said

The outbox gains exactly the messages of what is said, change by change. And most of what is said is
chatter: a login alone welcomes a player, and the end of a pass alone shows it columns or brings it
into the world.

* `Turn.sent`, `run_sent`: the outbox after a change and after a run.
* `Packet.isChatter`, `Server.Chatter`: what is neither a welcome nor a column nor an entry.
* `Turn.kind`: a change is a login, the end of a pass, or chatters.
* `Action.admitted`, `Action.words_chatter`: an action is a login that succeeds, the end of a pass,
  or chatters. -/

namespace BlockWorld

namespace Server

variable {s s' : Server} {id : SessionId} {session : Session} {us : List Utterance}

/-! ### The outbox -/

theorem sent_of_outbox (h : s'.outbox = s.outbox) : s'.sent = s.sent := by rw [sent, sent, h]

theorem sent_refuse (handle : Handle) (username : String) (reason : Refusal) :
    (s.refuse handle username reason).sent = s.sent ++ (refusal handle reason).map Utterance.message := by
  cases reason <;> simp [refuse, handshake, refusal, Utterance.message]

theorem sent_changeSkin (id : SessionId) (handle : Handle) (change : PlayerSkin) :
    (s.changeSkin id handle change).2.sent = s.sent ++ (s.relays id change).map Utterance.message := by
  unfold changeSkin relays
  cases s.session? id with
  | none => simp
  | some session =>
    cases live : session.finalized with
    | true => simp [live]
    | false =>
      have others : ((s.update id (·.setSkin change.skin)).note
          (.skinChanged session.name handle change.skin.skinId)).spawnedOthers id =
            s.spawnedOthers id := by
        refine List.filter_congr fun m _ => ?_
        show (_ && ((s.update id _).session? m.session).any _) = _
        rw [session?_update]
        split
        · cases s.session? m.session <;> rfl
        · rfl
      simp only [live, Bool.false_eq_true, if_false, others]
      rw [sent_foldl_send, sent_note, sent_update, List.map_map]
      rfl

theorem sent_aside (h : s.Aside us s') : s'.sent = s.sent ++ us.map Utterance.message := by
  cases h with
  | note n => simp
  | close handle reason => simp
  | refuse h => exact sent_refuse _ _ _
  | grant h live granted => simp [Utterance.message]
  | correct id => exact message_perform _
  | changeSkin id handle change => exact sent_changeSkin id handle change
  | setAttribute id name value => simp
  | clock => simp [sent]
  | tick id current interval => exact message_perform _

theorem sent_accept (login : Login) (handle : Handle) :
    (s.accept login handle).sent = s.sent ++ (s.greeting handle).map Utterance.message := by
  have welcomed : ∀ (s : Server) (m : Member), (s.welcome m).sent =
      s.sent ++ [(m.handle, .playStatus .loginSuccess), (m.handle, .resourcePacksInfo {})] := by
    intro s m
    unfold welcome
    dsimp only
    split <;> simp [handshake]
  exact welcomed _ _

theorem sent_finalize (id : SessionId) : (s.perform id (·.finalize)).2.sent = s.sent := by
  cases h : s.session? id with
  | none => rw [perform_none _ h]
  | some session =>
    cases live : session.finalized with
    | true => rw [finalize_ended h live]
    | false =>
      obtain ⟨s', heq, -, -, outbox, -⟩ := finalize_live h live
      rw [heq]
      exact sent_of_outbox outbox

theorem sent_removePlayer (id : SessionId) :
    (s.removePlayer id).2.sent = s.sent ++ (s.farewell id).map Utterance.message := by
  unfold farewell
  cases h : s.session? id with
  | none => simp [removePlayer_none h]
  | some session =>
    cases live : session.finalized with
    | true =>
      rw [removePlayer_ended h live]
      simp [live, sent]
    | false =>
      obtain ⟨s', heq, -, -, outbox, -⟩ := removePlayer_live h live
      rw [heq]
      simp only [sent, outbox, live, Bool.false_eq_true, if_false, Array.toList_append,
        List.filterMap_append, List.filterMap_map, List.map_map]
      congr 1
      exact congrFun List.filterMap_eq_map _

theorem sent_column {p : ChunkPos} {f : Fetch} (h : s.column p = .ok (f, s')) : s'.sent = s.sent := by
  obtain ⟨⟨f', w'⟩, -, hrest⟩ := bind_eq_ok h
  cases f' <;> cases hrest <;> rfl

theorem sent_advance {pass pass' : Pass} (h : s.advance pass = .ok (pass', s')) :
    s'.sent = s.sent := by
  unfold advance at h
  split at h
  · cases h; rfl
  · obtain ⟨⟨f, s₁⟩, hcol, hrest⟩ := bind_eq_ok h
    cases hrest
    exact sent_column hcol

theorem sent_settle {pass : Pass} {report : Report} (h : s.settle pass = .ok (report, s')) :
    s'.sent = s.sent ++ (s.settling pass).map Utterance.message := by
  obtain ⟨⟨loaded, s₁⟩, hsub, hrest⟩ := bind_eq_ok h
  have subscribed := message_attempt hsub
  unfold settling
  rw [hsub]
  dsimp only at hrest ⊢
  split at hrest
  · rename_i spawning
    cases hrest
    rw [if_pos spawning, List.map_append, ← List.append_assoc, ← subscribed]
    exact message_perform _
  · rename_i spawning
    cases hrest
    rw [if_neg spawning, List.append_nil, subscribed]

end Server

variable {acts : SessionId → Prop} {ends : Ending → Prop} {g g' : Game} {us : List Utterance}

/-- **The outbox gains what is said** in a change, and nothing else. -/
theorem Turn.sent (h : Turn acts ends g us g') :
    g'.server.sent = g.server.sent ++ us.map Utterance.message := by
  cases h with
  | aside h => exact Server.sent_aside h
  | login named free => exact Server.sent_accept _ _
  | setViewDistance act v => simp
  | finalize _ act => simpa using Server.sent_finalize _
  | remove _ act => exact Server.sent_removePlayer _
  | look act own live fresh phase => exact Server.message_voice own phase
  | fetch h => simpa using Server.sent_column h
  | edit p h => simp [Server.sent]
  | advance own act h => simpa using Server.sent_advance h
  | settle own act idle h => exact Server.sent_settle h

theorem Turns.sent (h : Turns acts ends g us g') :
    g'.server.sent = g.server.sent ++ us.map Utterance.message := by
  induction h with
  | refl => simp
  | tail c d ih => rw [d.sent, ih, List.map_append, List.append_assoc]

/-- **The outbox gains what is said in a run**, and nothing else. -/
theorem run_sent (sound : g.Sound) {actions : List Action} (hrun : g.run actions = .ok g') :
    g'.server.sent = g.server.sent ++ (g.transcript actions).map Utterance.message := by
  obtain ⟨g'', hrun', c⟩ := run_turns sound actions
  rw [hrun] at hrun'
  cases hrun'
  exact c.sent

/-! ### Chatter -/

/-- Whether the packet neither welcomes a player nor shows it a column nor brings it into the
world. -/
def Packet.isChatter : Packet → Bool
  | .playStatus .loginSuccess => false
  | .playStatus .playerSpawn => false
  | .levelChunk _ => false
  | _ => true

theorem announcement_not_chatter (p : ChunkPos) : p.announcement.isChatter = false := rfl

namespace Server

/-- All that is said is chatter, in the name of sessions of the server. -/
def Chatter (s : Server) (us : List Utterance) : Prop :=
  ∀ u ∈ us, u.packet.isChatter = true ∧ ∀ id, u.speaker = some id → id < s.sessions.size

variable {α : Type} {s s' : Server} {id : SessionId} {session : Session} {us : List Utterance}

theorem chatter_nil : s.Chatter [] := fun _ hu => by cases hu

/-- What a session says in its scene is chatter, if its packets are. -/
theorem chatter_voice {action : Scene → Except Overflow (α × Scene)}
    (h : ∀ {session a sc}, s.session? id = some session →
      action { session, world := s.world } = .ok (a, sc) → ∀ p ∈ sc.sent, p.isChatter = true) :
    s.Chatter (s.voice id action) := by
  intro u hu
  obtain ⟨session, a, sc, own, acted, p, hp, rfl⟩ := exists_of_mem_voice hu
  refine ⟨h own acted p hp, fun j hj => ?_⟩
  cases hj
  exact session?_lt own

theorem chatter_refusal (handle : Handle) (reason : Refusal) :
    s.Chatter (refusal handle reason) := by
  cases reason with
  | full =>
    intro u hu
    cases List.mem_singleton.mp hu
    exact ⟨rfl, fun id hid => by cases hid⟩
  | nameTaken => exact chatter_nil
  | handleInUse => exact chatter_nil

theorem chatter_correction (id : SessionId) : s.Chatter (s.correction id) := by
  refine chatter_voice fun _ acted p hp => ?_
  cases acted
  simp only [Scene.correct, Scene.send, List.mem_toArray, List.push_toArray, List.nil_append,
    List.mem_singleton] at hp
  rw [hp]
  rfl

theorem chatter_ticking (id : SessionId) (current interval : UInt64) :
    s.Chatter (s.ticking id current interval) := by
  refine chatter_voice fun _ acted p hp => ?_
  cases acted
  unfold Scene.tick at hp
  split at hp
  · simp at hp
  · dsimp only at hp
    split at hp
    · simp only [Scene.updateAttributes, Scene.send, List.mem_toArray, List.push_toArray,
        List.nil_append, List.mem_singleton] at hp
      rw [hp]
      rfl
    · simp at hp

theorem chatter_relays (id : SessionId) (change : PlayerSkin) : s.Chatter (s.relays id change) := by
  intro u hu
  obtain ⟨session, -, -, m, hm, rfl⟩ := mem_relays hu
  refine ⟨rfl, fun j hj => ?_⟩
  cases hj
  have spawned := (List.mem_filter.mp hm).2
  simp only [Bool.and_eq_true, Option.any_eq_true] at spawned
  obtain ⟨-, peer, own, -⟩ := spawned
  exact session?_lt own

theorem chatter_farewell (id : SessionId) : s.Chatter (s.farewell id) := by
  intro u hu
  obtain ⟨session, -, -, m, hm, rfl⟩ := mem_farewell hu
  refine ⟨rfl, fun j hj => ?_⟩
  cases hj
  unfold audience at hm
  split at hm
  · have seen := (List.mem_filter.mp hm).2
    obtain ⟨peer, own, -⟩ := (Option.any_eq_true _ _).mp seen
    exact session?_lt own
  · cases hm

end Server

/-- A live session looks around in its first phase. Its client is told what is announced, and what it
loses sight of. -/
theorem Course.phase_sent {course : Course} {sc sc' : Scene} {found : Option Glance}
    (live : sc.session.finalized = false) (h : course.phase sc = .ok (found, sc')) :
    ∃ glance, found = some glance ∧ ∃ ids : List Int64, sc'.sent.toList =
      sc.sent.toList ++ (course.announce sc.session).toList ++ ids.map Packet.removeEntity := by
  rw [course.phase_eq live] at h
  cases hlook : Scene.look { sc with
      session := course.apply sc.session
      sent := sc.sent ++ course.announce sc.session } with
  | error e => rw [hlook] at h; cases h
  | ok r =>
    obtain ⟨glance, sc₁⟩ := r
    rw [hlook] at h
    cases h
    obtain ⟨ids, hids⟩ := Scene.look_sent hlook
    exact ⟨glance, rfl, ids, by rw [hids, Array.toList_append]⟩

/-- A session that is finalized says nothing in its first phase. -/
theorem Course.phase_finalized {course : Course} {sc sc' : Scene} {glance : Option Glance}
    (ended : sc.session.finalized = true) (h : course.phase sc = .ok (glance, sc')) :
    sc'.sent = sc.sent := by
  cases course <;>
    simp only [Course.phase, Scene.refresh, Scene.move, Scene.teleport, ended, if_true] at h <;>
    cases h <;> rfl

/-- Whether the packet moves the player or takes something from its sight. -/
def Packet.isPhase : Packet → Bool
  | .movePlayer _ => true
  | .removeEntity _ => true
  | _ => false

theorem Packet.isChatter_of_isPhase {p : Packet} (h : p.isPhase = true) : p.isChatter = true := by
  cases p <;> first | rfl | cases h

theorem Course.announce_isPhase (course : Course) (session : Session) :
    ∀ p ∈ course.announce session, p.isPhase = true := by
  cases course <;> simp [Course.announce, Packet.isPhase]

/-- A first phase sends nothing but movements and removals. -/
theorem Course.phase_isPhase {course : Course} {session : Session} {w : World} {sc : Scene}
    {glance : Option Glance} (h : course.phase { session, world := w } = .ok (glance, sc)) :
    ∀ p ∈ sc.sent, p.isPhase = true := by
  intro p hp
  cases live : session.finalized with
  | true =>
    rw [Course.phase_finalized live h] at hp
    simp at hp
  | false =>
    obtain ⟨-, -, ids, hsent⟩ := Course.phase_sent live h
    rw [← Array.mem_toList_iff, hsent] at hp
    simp only [List.nil_append, List.mem_append, List.mem_map, Array.mem_toList_iff] at hp
    rcases hp with hp | ⟨e, -, rfl⟩
    · exact course.announce_isPhase session p hp
    · rfl

namespace Server

theorem voice_isPhase {s : Server} {id : SessionId} {course : Course} {u : Utterance}
    (hu : u ∈ s.voice id course.phase) : u.packet.isPhase = true := by
  obtain ⟨session, glance, sc, -, phase, p, hp, rfl⟩ := exists_of_mem_voice hu
  exact Course.phase_isPhase phase p hp

theorem chatter_phase (s : Server) (id : SessionId) (course : Course) :
    s.Chatter (s.voice id course.phase) :=
  chatter_voice fun _ phase p hp => Packet.isChatter_of_isPhase (Course.phase_isPhase phase p hp)

theorem chatter_aside {s s' : Server} {us : List Utterance} (h : s.Aside us s') : s.Chatter us := by
  cases h with
  | note n => exact chatter_nil
  | close handle reason => exact chatter_nil
  | refuse h => exact chatter_refusal _ _
  | grant own live granted =>
    intro u hu
    cases List.mem_singleton.mp hu
    refine ⟨rfl, fun j hj => ?_⟩
    cases hj
    exact session?_lt own
  | correct id => exact chatter_correction id
  | changeSkin id handle change => exact chatter_relays id change
  | setAttribute id name value => exact chatter_nil
  | clock => exact chatter_nil
  | tick id current interval => exact chatter_ticking id current interval

end Server

/-- **What kind of change it is**, by what is said in it: a player is welcomed, a pass ends, or there
is nothing but chatter. -/
theorem Turn.kind (h : Turn acts ends g us g') :
    (∃ login handle, us = g.server.greeting handle ∧
      g' = { g with server := g.server.accept login handle }) ∨
    (∃ i pass report s, g.passes[i]? = some pass ∧ g.server.settle pass = .ok (report, s) ∧
      us = g.server.settling pass ∧ g' = { g with server := s, passes := g.passes.eraseIdx i }) ∨
    g.server.Chatter us := by
  cases h with
  | aside h => exact Or.inr (Or.inr (Server.chatter_aside h))
  | login named free => exact Or.inl ⟨_, _, rfl, rfl⟩
  | setViewDistance act v => exact Or.inr (Or.inr Server.chatter_nil)
  | finalize _ act => exact Or.inr (Or.inr Server.chatter_nil)
  | remove _ act => exact Or.inr (Or.inr (Server.chatter_farewell _))
  | look act own live fresh phase => exact Or.inr (Or.inr (Server.chatter_phase _ _ _))
  | fetch h => exact Or.inr (Or.inr Server.chatter_nil)
  | edit p h => exact Or.inr (Or.inr Server.chatter_nil)
  | advance own act h => exact Or.inr (Or.inr Server.chatter_nil)
  | settle own act idle h => exact Or.inr (Or.inl ⟨_, _, _, _, own, h, rfl, rfl⟩)

namespace Server

variable {s : Server}

theorem chatter_spawnWords (id : SessionId) : s.Chatter (s.spawnWords id) :=
  fun u hu => chatter_phase s id .enter u (mem_spawnWords hu)

theorem chatter_movementWords (id : SessionId) (movement : MovePlayer) :
    s.Chatter (s.movementWords id movement) := by
  unfold movementWords
  split
  · exact chatter_phase s id _
  · exact chatter_correction id

theorem chatter_radiusWords (id : SessionId) (requested : Int32) :
    s.Chatter (s.radiusWords id requested) := by
  intro u hu
  obtain ⟨session, own, -, rfl | hu⟩ := mem_radiusWords hu
  · refine ⟨rfl, fun j hj => ?_⟩
    cases hj
    exact session?_lt own
  · have looked := chatter_phase (s.update id (·.setViewDistance (s.grantedRadius requested)))
      id .stay u hu
    rwa [size_update] at looked

theorem chatter_initializedWords (id : SessionId) (runtimeId : UInt64) :
    s.Chatter (s.initializedWords id runtimeId) :=
  fun u hu => chatter_phase s id .enter u (mem_initializedWords hu)

/-- Nothing but the handler for logins admits anybody. -/
theorem admits_eq_false {packet : Packet} {who : Option SessionId} {handle : Handle}
    (h : ∀ login, packet = .login login → s.dispatcher.handler? packet.id ≠ some .login) :
    s.admits packet who handle = false := by
  cases packet with
  | login login =>
    have misrouted := h login rfl
    unfold admits startDispatch
    cases routed : s.dispatcher.handler? (Packet.login login).id with
    | none => rfl
    | some handler =>
      cases handler with
      | login => exact absurd routed misrouted
      | _ => rfl
  | _ => rfl

theorem startDispatch_login {login : Login} (who : Option SessionId) (handle : Handle)
    (routed : s.dispatcher.handler? (Packet.login login).id = some .login) :
    s.startDispatch (.login login) who handle =
      .ok (.done (s.login login who handle).1, (s.login login who handle).2) := by
  simp only [startDispatch, routed, startHandler]

theorem admits_login {login : Login} (who : Option SessionId) (handle : Handle)
    (routed : s.dispatcher.handler? (Packet.login login).id = some .login) :
    s.admits (.login login) who handle = decide ((s.login login who handle).1 = .handled) := by
  simp [admits, startDispatch_login who handle routed, Packet.isLogin]

/-- **A login that succeeds** is greeted, and the player it brings is accepted. -/
theorem admitted {packet : Packet} {who : Option SessionId} {handle : Handle}
    (h : s.admits packet who handle = true) : ∃ login, packet = .login login ∧
      login.username.isEmpty = false ∧
      s.registry.refusal? login.username handle s.config.capacity.toNat = none ∧
      s.packetWords packet who handle = s.greeting handle ∧
      s.startDispatch packet who handle = .ok (.done .handled, s.accept login handle) := by
  by_cases logs : ∃ login, packet = .login login ∧ s.dispatcher.handler? packet.id = some .login
  · obtain ⟨login, rfl, routed⟩ := logs
    rw [admits_login who handle routed, decide_eq_true_iff] at h
    rw [startDispatch_login who handle routed]
    have words : s.packetWords (.login login) who handle = s.loginWords login who handle := by
      simp only [packetWords, routed]
    rw [words]
    rcases s.login_cases login who handle with
      ⟨n, n', -, eq⟩ | ⟨reason, -, -, eq⟩ | ⟨named, free, greeted, eq⟩
    · rw [eq] at h; cases h
    · rw [eq] at h; cases h
    · exact ⟨login, rfl, named, free, greeted, by rw [eq]⟩
  · have refused : s.admits packet who handle = false :=
      admits_eq_false fun login same routed => logs ⟨login, same, routed⟩
    rw [refused] at h
    cases h

/-- **Any other packet** is met with chatter. -/
theorem chatter_packetWords {packet : Packet} {who : Option SessionId} {handle : Handle}
    (h : s.admits packet who handle = false) : s.Chatter (s.packetWords packet who handle) := by
  unfold packetWords
  split
  · rename_i login routed
    rw [admits_login _ handle routed, decide_eq_false_iff_not] at h
    rcases s.login_cases login _ handle with
      ⟨n, n', words, -⟩ | ⟨reason, -, words, -⟩ | ⟨-, -, -, eq⟩
    · rw [words]; exact chatter_nil
    · rw [words]; exact chatter_refusal _ _
    · exact absurd (by rw [eq]) h
  · exact chatter_movementWords _ _
  · exact chatter_radiusWords _ _
  · exact chatter_relays _ _
  · exact chatter_initializedWords _ _
  · exact chatter_farewell _
  · exact chatter_nil

theorem tickWords_isChatter (current interval : UInt64) : ∀ (ms : List Member) (s : Server),
    ∀ u ∈ tickWords current interval ms s, u.packet.isChatter = true
  | [], _, _, hu => by cases hu
  | m :: ms, s, u, hu => by
    rcases List.mem_append.mp hu with hu | hu
    · exact (chatter_ticking m.session current interval u hu).1
    · exact tickWords_isChatter current interval ms _ u hu

end Server

theorem Removal.words_isChatter {rs : List Removal} {u : Utterance}
    (hu : u ∈ rs.flatMap Removal.words) : u.packet.isChatter = true := by
  obtain ⟨r, -, hr⟩ := List.mem_flatMap.mp hu
  exact (Server.chatter_farewell r.session u hr).1

/-- **An action that admits a player** is the acceptance of its login, and nothing else. -/
theorem Action.admitted {a : Action} (h : a.admits g = true) : ∃ login handle,
    a.login? = some login ∧ login.username.isEmpty = false ∧
    g.server.registry.refusal? login.username handle g.server.config.capacity.toNat = none ∧
    a.words g = g.server.greeting handle ∧
    g.step a = .ok { g with server := g.server.accept login handle } := by
  cases a with
  | packet handle p =>
    obtain ⟨login, rfl, named, free, words, dispatched⟩ := Server.admitted h
    refine ⟨login, handle, rfl, named, free, words, ?_⟩
    simp only [Game.step, Server.startPacket, dispatched]
    rfl
  | dispatch p who handle =>
    obtain ⟨login, rfl, named, free, words, dispatched⟩ := Server.admitted h
    refine ⟨login, handle, rfl, named, free, words, ?_⟩
    simp only [Game.step, dispatched]
    rfl
  | event e =>
    cases e with
    | packet handle p =>
      obtain ⟨login, rfl, named, free, words, dispatched⟩ := Server.admitted h
      have kept : (g.server.accept login handle).closeRefused handle (.login login) .handled =
          g.server.accept login handle := by simp [Server.closeRefused]
      refine ⟨login, handle, rfl, named, free, words, ?_⟩
      simp only [Game.step, Server.startEvent, Server.startPacket, dispatched, bind, Except.bind,
        pure, Except.pure, kept]
      rfl
    | _ => cases h
  | _ => cases h

/-- **Any other action**, but for the end of a pass, chatters. -/
theorem Action.words_chatter {a : Action} (unsettled : ∀ i, a ≠ .settle i)
    (h : a.admits g = false) : ∀ u ∈ a.words g, u.packet.isChatter = true := by
  cases a with
  | settle i => exact absurd rfl (unsettled i)
  | event e =>
    cases e with
    | packet handle p => exact fun u hu => (Server.chatter_packetWords h u hu).1
    | connected handle => exact fun u hu => by cases hu
    | disconnected handle => exact fun u hu => Removal.words_isChatter hu
  | packet handle p => exact fun u hu => (Server.chatter_packetWords h u hu).1
  | dispatch p who handle => exact fun u hu => (Server.chatter_packetWords h u hu).1
  | move id position turn onGround => exact fun u hu => (Server.chatter_phase _ _ _ u hu).1
  | teleport id position rotation => exact fun u hu => (Server.chatter_phase _ _ _ u hu).1
  | refresh id => exact fun u hu => (Server.chatter_phase _ _ _ u hu).1
  | spawn id => exact fun u hu => (Server.chatter_spawnWords _ u hu).1
  | remove id => exact fun u hu => (Server.chatter_farewell _ u hu).1
  | disconnect handle => exact fun u hu => Removal.words_isChatter hu
  | tick => exact Server.tickWords_isChatter _ _ _ _
  | shutdown => exact fun u hu => Removal.words_isChatter hu
  | _ => exact fun u hu => by cases hu

end BlockWorld
