import BlockWorld.Proofs.Alteration
import BlockWorld.Proofs.Protocol

/-! # What a client is told of its own player

Three kinds of packets tell a client of the state of its own player: its attributes, the view distance
it was given, and the place it was put back to. Most actions send none of them. Which ones an action
sends is a plain function of the session that sends them.

* `Packet.isReport`: those packets; `reported`: those of them that a session said.
* `Session.syncs`: what a session reports in a tick.
* `Server.answer`, `Action.reports`: what a session reports when a packet is dealt with, and in an
  action; `reports_cases`: never more than one packet.
* `saidBy_tick`: what is said in a tick; `words_reports`: what is reported in any action. -/

namespace BlockWorld

/-- Whether the packet tells the client of the state of its own player. -/
def Packet.isReport : Packet → Bool
  | .updateAttributes _ => true
  | .chunkRadiusUpdated _ => true
  | .movePlayer movement => movement.mode == .reset
  | _ => false

/-- What the session `id` tells its client of the state of its player. -/
def reported (id : SessionId) (us : List Utterance) : List Packet :=
  (saidBy id us).filter Packet.isReport

/-- What a session reports in a tick: its attributes, if one changed or it is time to. -/
def Session.syncs (current interval : UInt64) (s : Session) : List Packet :=
  if s.spawned && (s.attributes.dirty || (0 < interval && current % interval = 0)) then
    [.updateAttributes ⟨s.runtimeId, s.attributes.entries, current⟩]
  else []

/-- What a session reports when a packet is dealt with that goes along with it: where its player is, if
it claims to be at an impossible position, and the view distance that it gets. -/
def Server.answer (s : Server) (packet : Packet) (session : Session) : List Packet :=
  match s.dispatcher.handler? packet.id, packet with
  | some .movement, .movePlayer movement =>
    if movement.position.isFinite then [] else [session.correction]
  | some .chunkRadius, .requestChunkRadius request =>
    if session.finalized then []
    else [.chunkRadiusUpdated (s.grantedRadius request.chunkRadius).toInt32]
  | _, _ => []

/-- What a session reports at the end of a pass: its attributes, if it enters the world. -/
def Pass.reports (pass : Pass) (session : Session) : List Packet :=
  if pass.wanted.isEmpty && pass.spawning && !session.finalized then
    [.updateAttributes ⟨session.runtimeId, session.attributes.entries, 0⟩]
  else []

/-- What the session `id` reports in an action. -/
def Action.reports (g : Game) (a : Action) (id : SessionId) (session : Session) : List Packet :=
  match a with
  | .event (.packet handle p) =>
    if g.server.bound? handle = some id then g.server.answer p session else []
  | .packet handle p => if g.server.bound? handle = some id then g.server.answer p session else []
  | .dispatch p who _ => if who = some id then g.server.answer p session else []
  | .tick => session.syncs (g.server.currentTick + 1) g.server.config.world.attributeSyncInterval
  | .settle i =>
    match g.passes[i]? with
    | none => []
    | some pass => if pass.session = id then pass.reports session else []
  | _ => []

/-- Whatever a session reports, it is one packet, which tells what holds of the session. -/
theorem Action.reports_cases (g : Game) (a : Action) (id : SessionId) (session : Session) :
    a.reports g id session = [] ∨ a.reports g id session = [session.correction] ∨
    (∃ radius, a.reports g id session = [.chunkRadiusUpdated radius]) ∨
    ∃ tick, a.reports g id session =
      [.updateAttributes ⟨session.runtimeId, session.attributes.entries, tick⟩] := by
  have answers {P : Prop} [Decidable P] {p : Packet} {qs : List Packet}
      (h : qs = if P then g.server.answer p session else []) :
      qs = [] ∨ qs = [session.correction] ∨ (∃ radius, qs = [.chunkRadiusUpdated radius]) ∨
        ∃ tick, qs = [.updateAttributes ⟨session.runtimeId, session.attributes.entries, tick⟩] := by
    unfold Server.answer at h
    split at h
    · split at h
      · split at h
        · exact Or.inl h
        · exact Or.inr (Or.inl h)
      · split at h
        · exact Or.inl h
        · exact Or.inr (Or.inr (Or.inl ⟨_, h⟩))
      · exact Or.inl h
    · exact Or.inl h
  cases a with
  | event e =>
    cases e with
    | packet handle p => exact answers rfl
    | _ => exact Or.inl rfl
  | packet handle p => exact answers rfl
  | dispatch p who handle => exact answers rfl
  | tick =>
    simp only [reports, Session.syncs]
    split
    · exact Or.inr (Or.inr (Or.inr ⟨_, rfl⟩))
    · exact Or.inl rfl
  | settle i =>
    simp only [reports, Pass.reports]
    split
    · exact Or.inl rfl
    · split
      · split
        · exact Or.inr (Or.inr (Or.inr ⟨_, rfl⟩))
        · exact Or.inl rfl
      · exact Or.inl rfl
  | _ => exact Or.inl rfl

/-! ### What is no report -/

section Reported

variable {id : SessionId} {us vs : List Utterance}

theorem reported_append : reported id (us ++ vs) = reported id us ++ reported id vs := by
  simp only [reported, saidBy_append, List.filter_append]

theorem reported_eq_nil (h : ∀ u ∈ us, u.packet.isReport = false) : reported id us = [] := by
  refine List.filter_eq_nil_iff.mpr fun p hp => ?_
  obtain ⟨u, hu, -, rfl⟩ := mem_saidBy.mp hp
  rw [h u hu]
  exact Bool.false_ne_true

theorem reported_map (handle : Handle) (ps : List Packet) :
    reported id (ps.map (Utterance.mk (some id) handle)) = ps.filter Packet.isReport := by
  rw [reported, saidBy_map]

theorem reported_map_ne {j : SessionId} (h : id ≠ j) (handle : Handle) (ps : List Packet) :
    reported id (ps.map (Utterance.mk (some j) handle)) = [] := by
  rw [reported, saidBy_map_ne h, List.filter_nil]

end Reported

theorem Course.announce_not_report (course : Course) (session : Session) :
    ∀ p ∈ course.announce session, p.isReport = false := by
  cases course <;> simp [Course.announce, Packet.isReport]

namespace Server

variable {s s' : Server} {id j : SessionId} {session : Session}

/-- A session that looks around reports nothing. -/
theorem phase_not_report (s : Server) (id : SessionId) (course : Course) :
    ∀ u ∈ s.voice id course.phase, u.packet.isReport = false := by
  intro u hu
  obtain ⟨session, glance, sc, -, phase, p, hp, rfl⟩ := exists_of_mem_voice hu
  cases live : session.finalized with
  | true =>
    rw [Course.phase_finalized live phase] at hp
    simp at hp
  | false =>
    obtain ⟨-, -, ids, sent⟩ := Course.phase_sent live phase
    rw [← Array.mem_toList_iff, sent] at hp
    simp only [List.nil_append, List.mem_append, List.mem_map, Array.mem_toList_iff] at hp
    rcases hp with hp | ⟨e, -, rfl⟩
    · exact course.announce_not_report session p hp
    · rfl

theorem spawnWords_not_report (s : Server) (id : SessionId) :
    ∀ u ∈ s.spawnWords id, u.packet.isReport = false :=
  fun u hu => phase_not_report s id .enter u (mem_spawnWords hu)

theorem initializedWords_not_report (s : Server) (id : SessionId) (runtimeId : UInt64) :
    ∀ u ∈ s.initializedWords id runtimeId, u.packet.isReport = false :=
  fun u hu => phase_not_report s id .enter u (mem_initializedWords hu)

theorem loginWords_not_report (s : Server) (login : Login) (existing : Option SessionId)
    (handle : Handle) : ∀ u ∈ s.loginWords login existing handle, u.packet.isReport = false := by
  rcases s.login_cases login existing handle with
    ⟨n, n', words, -⟩ | ⟨reason, -, words, -⟩ | ⟨-, -, words, -⟩
  · rw [words]
    exact fun u hu => by cases hu
  · rw [words]
    cases reason <;> simp [refusal, Packet.isReport]
  · rw [words]
    simp [greeting, Packet.isReport]

theorem relays_not_report (s : Server) (id : SessionId) (change : PlayerSkin) :
    ∀ u ∈ s.relays id change, u.packet.isReport = false := by
  intro u hu
  obtain ⟨session, -, -, m, -, rfl⟩ := mem_relays hu
  rfl

theorem farewell_not_report (s : Server) (id : SessionId) :
    ∀ u ∈ s.farewell id, u.packet.isReport = false := by
  intro u hu
  obtain ⟨session, -, -, m, -, rfl⟩ := mem_farewell hu
  rfl

theorem removals_not_report (rs : List Removal) :
    ∀ u ∈ rs.flatMap Removal.words, u.packet.isReport = false := by
  intro u hu
  obtain ⟨r, -, hr⟩ := List.mem_flatMap.mp hu
  exact farewell_not_report r.before r.session u hr

/-! ### What is reported -/

theorem correction_eq (own : s.session? id = some session) :
    s.correction id = [⟨some id, session.handle, session.correction⟩] := by
  have acted : (fun sc => .ok ((), sc.correct) : Scene → Except Overflow (Unit × Scene))
      { session, world := s.world } = .ok ((), Scene.correct { session, world := s.world }) := rfl
  rw [correction, voice_eq own acted]
  rfl

theorem ticking_eq (own : s.session? id = some session) (current interval : UInt64) :
    s.ticking id current interval =
      (session.syncs current interval).map (Utterance.mk (some id) session.handle) := by
  have acted : (fun sc => .ok ((), sc.tick current interval) : Scene → Except Overflow (Unit × Scene))
      { session, world := s.world } =
        .ok ((), Scene.tick { session, world := s.world } current interval) := rfl
  rw [ticking, voice_eq own acted]
  cases spawned : session.spawned with
  | false => simp [Scene.tick, Session.syncs, spawned]
  | true =>
    simp only [Scene.tick, Session.syncs, spawned, Bool.not_true, Bool.false_eq_true, if_false,
      Bool.true_and, AttributeMap.takeDirty]
    split <;> rfl

theorem syncs_isReport (current interval : UInt64) (session : Session) :
    (session.syncs current interval).filter Packet.isReport = session.syncs current interval := by
  unfold Session.syncs
  split <;> rfl

/-- **In a tick each of a list of players** speaks once, and says what it is to report. -/
theorem saidBy_tickWords (current interval : UInt64) : ∀ (ms : List Member) {s : Server}
    {session : Session}, (ms.map Member.session).Nodup → s.session? id = some session →
      saidBy id (tickWords current interval ms s) =
        if id ∈ ms.map Member.session then session.syncs current interval else []
  | [], _, _, _, _ => (if_neg List.not_mem_nil).symm
  | m :: ms, s, session, distinct, own => by
    obtain ⟨new, distinct⟩ := List.nodup_cons.mp distinct
    rw [tickWords, saidBy_append]
    have next := session?_tickSession s m.session id current interval
    by_cases first : m.session = id
    · rw [if_pos first, own] at next
      rw [saidBy_tickWords current interval ms distinct next]
      rw [first] at new ⊢
      rw [ticking_eq own, saidBy_map, if_neg new, List.append_nil, List.map_cons, first,
        if_pos List.mem_cons_self]
    · have others : saidBy id (s.ticking m.session current interval) = [] := by
        cases own' : s.session? m.session with
        | none => rw [ticking, voice_none own']; rfl
        | some session' => rw [ticking_eq own', saidBy_map_ne (Ne.symm first)]
      rw [if_neg first, own] at next
      rw [others, List.nil_append, saidBy_tickWords current interval ms distinct next]
      simp only [List.map_cons, List.mem_cons, Ne.symm first, false_or]

theorem reported_movementWords (own : s.session? id = some session) (j : SessionId)
    (movement : MovePlayer) : reported id (s.movementWords j movement) =
      if j = id then (if movement.position.isFinite then [] else [session.correction]) else [] := by
  unfold movementWords
  split
  · rw [reported_eq_nil (phase_not_report s j _), ite_self]
  · by_cases same : j = id
    · subst same
      rw [if_pos rfl, correction_eq own]
      exact reported_map session.handle [session.correction]
    · rw [if_neg same]
      cases own' : s.session? j with
      | none => rw [correction, voice_none own']; rfl
      | some session' =>
        rw [correction_eq own']
        exact reported_map_ne (Ne.symm same) session'.handle [session'.correction]

theorem reported_radiusWords (own : s.session? id = some session) (j : SessionId) (requested : Int32) :
    reported id (s.radiusWords j requested) =
      if j = id then (if session.finalized then []
        else [.chunkRadiusUpdated (s.grantedRadius requested).toInt32]) else [] := by
  have said : ∀ {j : SessionId} {session' : Session}, s.session? j = some session' →
      reported id (s.radiusWords j requested) = if session'.finalized then [] else
        reported id [⟨some j, session'.handle, .chunkRadiusUpdated (s.grantedRadius requested).toInt32⟩] := by
    intro j session' own'
    simp only [radiusWords, own']
    split
    · rfl
    · rw [← List.singleton_append, reported_append,
        reported_eq_nil (phase_not_report _ j .stay), List.append_nil]
  by_cases same : j = id
  · subst same
    rw [said own, if_pos rfl]
    exact if_congr Iff.rfl rfl (reported_map session.handle [_])
  · rw [if_neg same]
    cases own' : s.session? j with
    | none => simp only [radiusWords, own']; rfl
    | some session' =>
      rw [said own']
      have others : reported id [⟨some j, session'.handle,
          .chunkRadiusUpdated (s.grantedRadius requested).toInt32⟩] = [] :=
        reported_map_ne (Ne.symm same) session'.handle [_]
      rw [others, ite_self]

/-- **When a packet is dealt with**, the session it goes along with answers, and no other reports. -/
theorem reported_packetWords (own : s.session? id = some session) (packet : Packet)
    (who : Option SessionId) (handle : Handle) : reported id (s.packetWords packet who handle) =
      if who = some id then s.answer packet session else [] := by
  unfold packetWords
  split
  · rename_i login routed
    have silent : s.answer (.login login) session = [] := by simp only [answer, routed]
    rw [reported_eq_nil (loginWords_not_report s _ _ _), silent, ite_self]
  · rename_i movement j routed
    have answers : s.answer (.movePlayer movement) session =
        if movement.position.isFinite then [] else [session.correction] := by
      simp only [answer, routed]
    rw [reported_movementWords own, answers]
    simp only [Option.some.injEq]
  · rename_i request j routed
    have answers : s.answer (.requestChunkRadius request) session = if session.finalized then []
        else [.chunkRadiusUpdated (s.grantedRadius request.chunkRadius).toInt32] := by
      simp only [answer, routed]
    rw [reported_radiusWords own, answers]
    simp only [Option.some.injEq]
  · rename_i change j routed
    have silent : s.answer (.playerSkin change) session = [] := by simp only [answer, routed]
    rw [reported_eq_nil (relays_not_report s _ _), silent, ite_self]
  · rename_i runtimeId j routed
    have silent : s.answer (.setLocalPlayerAsInitialized runtimeId) session = [] := by
      simp only [answer, routed]
    rw [reported_eq_nil (initializedWords_not_report s _ _), silent, ite_self]
  · rename_i goodbye j routed
    have silent : s.answer (.disconnect goodbye) session = [] := by simp only [answer, routed]
    rw [reported_eq_nil (farewell_not_report s _), silent, ite_self]
  · split
    · rename_i same
      subst same
      unfold answer
      split <;> simp_all [reported, saidBy]
    · rfl

/-- **At the end of a pass** its session reports, if it enters the world, and no other does. -/
theorem Settles.reported {pass : Pass} {report : Report} (settles : s.Settles pass report s')
    (own : s.session? id = some session) (idle : pass.wanted = []) :
    reported id (s.settling pass) = if pass.session = id then pass.reports session else [] := by
  by_cases same : id = pass.session
  · subst same
    rw [if_pos rfl]
    cases settles with
    | void ended _ _ _ silent =>
      have silenced : pass.reports session = [] := by simp [Pass.reports, ended session own]
      rw [silent, silenced]
      rfl
    | live own' live becomes tracked joins spawned announces words =>
      rename_i session' t' new
      rw [own] at own'
      cases own'
      have columns : (new.map ChunkPos.announcement).filter Packet.isReport = [] :=
        List.filter_eq_nil_iff.mpr fun p hp => by
          obtain ⟨q, -, rfl⟩ := List.mem_map.mp hp
          exact Bool.false_ne_true
      rw [words, reported_map, List.filter_append, columns, List.nil_append]
      cases spawning : pass.spawning with
      | false => simp [Pass.reports, spawning]
      | true =>
        simp only [Pass.reports, idle, spawning, live, List.isEmpty_nil, Bool.not_false, Bool.and_self,
          if_true]
        rfl
  · rw [BlockWorld.reported, settles.silent_of_ne same, if_neg (Ne.symm same), List.filter_nil]

end Server

/-! ### Actions -/

variable {g : Game} {id : SessionId} {session : Session}

/-- **In a tick** a session says what it is to report, and nothing else. -/
theorem saidBy_tick (sound : g.Sound) (enrolled : g.server.Enrolled)
    (own : g.server.session? id = some session) : saidBy id (Action.words g .tick) =
      session.syncs (g.server.currentTick + 1) g.server.config.world.attributeSyncInterval := by
  have current := Server.saidBy_tickWords (g.server.currentTick + 1)
    g.server.config.world.attributeSyncInterval g.server.registry.players
    (s := { g.server with currentTick := g.server.currentTick + 1 }) enrolled.nodup_sessions own
  refine current.trans ?_
  split
  · rfl
  · rename_i gone
    have unseen : session.spawned = false :=
      (sound.session own).despawned (enrolled.ended_of_not_mem own gone)
    simp [Session.syncs, unseen]

/-- **What a session reports in an action** is a function of the session before, and nothing else. -/
theorem words_reports (sound : g.Sound) (enrolled : g.server.Enrolled)
    (own : g.server.session? id = some session) (a : Action) :
    reported id (a.words g) = a.reports g id session := by
  cases a with
  | event e =>
    cases e with
    | connected handle => rfl
    | packet handle p => exact Server.reported_packetWords own p _ handle
    | disconnected handle => exact reported_eq_nil (Server.removals_not_report _)
  | packet handle p => exact Server.reported_packetWords own p _ handle
  | dispatch p who handle => exact Server.reported_packetWords own p who handle
  | move id position turn onGround => exact reported_eq_nil (Server.phase_not_report _ _ _)
  | teleport id position rotation => exact reported_eq_nil (Server.phase_not_report _ _ _)
  | refresh id => exact reported_eq_nil (Server.phase_not_report _ _ _)
  | spawn id => exact reported_eq_nil (Server.spawnWords_not_report _ _)
  | remove id => exact reported_eq_nil (Server.farewell_not_report _ _)
  | disconnect handle => exact reported_eq_nil (Server.removals_not_report _)
  | shutdown => exact reported_eq_nil (Server.removals_not_report _)
  | tick =>
    rw [reported, saidBy_tick sound enrolled own]
    exact Server.syncs_isReport _ _ session
  | settle i =>
    cases under_way : g.passes[i]? with
    | none => simp [Action.words, Action.reports, under_way, reported, saidBy]
    | some pass =>
      simp only [Action.reports, under_way]
      cases idle : pass.wanted with
      | cons p wanted =>
        simp [Action.words, under_way, idle, Pass.reports, reported, saidBy]
      | nil =>
        obtain ⟨report, s, -, -, settles⟩ := sound.settles under_way
        rw [Action.words_settle under_way idle]
        exact settles.reported own idle
  | _ => rfl

end BlockWorld
