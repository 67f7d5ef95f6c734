import BlockWorld.Proofs.Speaker
import BlockWorld.Proofs.Visibility

/-! # Who is in the game

A login that succeeds creates a session and registers it at once; nothing else does either. So the
sessions are as many as such logins, each with the next id, and at all times a session is in the game
or gone for good.

* `Server.Registered`, `Server.Gone`: the two conditions of a session; `Server.InOrder`: every session
  is in one of them, and the registry knows nobody else.
* `Turn.population`: a change is a login, or nobody comes by it; `step_population`: so is an action.
* `Server.Numbered`, `Change.numbered`: ids are given in the order of creation.
* `Game.admissions`, `run_admissions`: the logins of a run that succeed, and how many there are.
* `session_life`: all of it after a run from a fresh server. -/

namespace BlockWorld

namespace Server

/-! ### The two conditions of a session -/

/-- The session is in the game: it lives, and the indexes lead to it under its own name and its own
handle, and under no others. -/
structure Registered (s : Server) (id : SessionId) (session : Session) : Prop where
  live : session.finalized = false
  byName : ∀ name m, s.registry.byName? name = some m ∧ m.session = id ↔
    name = session.name ∧ m = member id session
  byHandle : ∀ handle m, s.registry.byHandle? handle = some m ∧ m.session = id ↔
    handle = session.handle ∧ m = member id session

/-- The session is gone: it was finalized, no index leads to it, nobody sees it and it sees nothing. -/
structure Gone (s : Server) (id : SessionId) (session : Session) : Prop where
  ended : session.finalized = true
  byName : ∀ name m, s.registry.byName? name = some m → m.session ≠ id
  byHandle : ∀ handle m, s.registry.byHandle? handle = some m → m.session ≠ id
  despawned : session.spawned = false
  released : session.tracked.positions = []

/-- Sessions and registry agree, and there are not more players than there may be. -/
structure InOrder (s : Server) : Prop where
  life : ∀ {id session}, s.session? id = some session →
    Xor (s.Registered id session) (s.Gone id session)
  players : ∀ m ∈ s.registry.players, ∃ session,
    s.session? m.session = some session ∧ m = member m.session session
  names : (s.registry.players.map Member.name).Nodup
  handles : (s.registry.players.map Member.handle).Nodup
  room : s.config.maxPlayers ≠ 0 → s.registry.players.length ≤ s.config.maxPlayers.toNat

variable {s s' s'' : Server} {id : SessionId} {session : Session}

theorem Enrolled.registered (h : s.Enrolled) (own : s.session? id = some session)
    (live : session.finalized = false) : s.Registered id session := by
  have known : s.registry.byName? session.name = some (Server.member id session) := h.live own live
  have bound : s.registry.byHandle? session.handle = some (Server.member id session) :=
    (h.paired.name known).2
  have same : ∀ {name m}, s.registry.byName? name = some m → m.session = id →
      m = Server.member id session := by
    rintro name m hm rfl
    obtain ⟨session', own', -, is⟩ := h.member hm
    rw [own] at own'
    cases own'
    exact is
  refine ⟨live, fun name m => ⟨fun ⟨hm, hid⟩ => ?_, ?_⟩, fun handle m => ⟨fun ⟨hm, hid⟩ => ?_, ?_⟩⟩
  · have is : m = Server.member id session := same hm hid
    exact ⟨by rw [← (h.paired.name hm).1, is]; rfl, is⟩
  · rintro ⟨rfl, rfl⟩
    exact ⟨known, rfl⟩
  · obtain ⟨hhandle, hname⟩ := h.paired.handle hm
    have is : m = Server.member id session := same hname hid
    exact ⟨by rw [← hhandle, is]; rfl, is⟩
  · rintro ⟨rfl, rfl⟩
    exact ⟨bound, rfl⟩

theorem Enrolled.gone (h : s.Enrolled) (sound : session.Sound) (own : s.session? id = some session)
    (ended : session.finalized = true) : s.Gone id session := by
  have absent : ∀ {name m}, s.registry.byName? name = some m → m.session ≠ id := by
    rintro name m hm rfl
    obtain ⟨session', own', live, -⟩ := h.member hm
    rw [own] at own'
    cases own'
    rw [ended] at live
    cases live
  exact ⟨ended, fun name m hm => absent hm, fun handle m hm => absent (h.paired.handle hm).2,
    sound.despawned ended, sound.positions_eq_nil ended⟩

/-- A limit of players is what there is room for. -/
theorem capacity_of_limit {config : Config} (limited : config.maxPlayers ≠ 0) :
    config.capacity = config.maxPlayers := if_neg limited

theorem Enrolled.inOrder (h : s.Enrolled)
    (sound : ∀ {id session}, s.session? id = some session → session.Sound)
    (room : s.registry.size ≤ s.config.capacity.toNat) : s.InOrder where
  life {id session} own := by
    cases ended : session.finalized with
    | false =>
      refine Or.inl ⟨h.registered own ended, fun gone => ?_⟩
      rw [gone.ended] at ended
      cases ended
    | true =>
      refine Or.inr ⟨h.gone (sound own) own ended, fun registered => ?_⟩
      rw [registered.live] at ended
      cases ended
  players m hm := by
    obtain ⟨session, own, -, is⟩ := h.mem_players.mp hm
    exact ⟨session, own, is⟩
  names := h.paired.nodup_names
  handles := h.paired.nodup_handles
  room limited := by rwa [Registry.length_players, ← capacity_of_limit limited]

/-! ### Who comes -/

/-- From `s` to `s'` nobody came: no session was created, no id given, and nobody registered. -/
structure NobodyComes (s s' : Server) : Prop where
  size : s'.sessions.size = s.sessions.size
  nextEntityId : s'.nextEntityId = s.nextEntityId
  registry : s.registry.Shrinks s'.registry

theorem NobodyComes.refl (s : Server) : s.NobodyComes s := ⟨rfl, rfl, .refl _⟩

theorem NobodyComes.trans (h : s.NobodyComes s') (h' : s'.NobodyComes s'') : s.NobodyComes s'' :=
  ⟨h'.size.trans h.size, h'.nextEntityId.trans h.nextEntityId, h.registry.trans h'.registry⟩

theorem Keeps.nobodyComes (h : s.Keeps s') (registry : s'.registry = s.registry) :
    s.NobodyComes s' := ⟨h.size, h.nextEntityId, by rw [registry]; exact .refl _⟩

theorem Becomes.nobodyComes (h : s.Becomes id session s') (registry : s.registry.Shrinks s'.registry) :
    s.NobodyComes s' := ⟨h.size, h.nextEntityId, registry⟩

theorem nobodyComes_finalize (id : SessionId) : s.NobodyComes (s.perform id (·.finalize)).2 := by
  cases own : s.session? id with
  | none => rw [perform_none _ own]; exact .refl s
  | some session =>
    cases live : session.finalized with
    | true => rw [finalize_ended own live]; exact .refl s
    | false =>
      obtain ⟨s', heq, becomes, registry, -⟩ := finalize_live own live
      rw [heq]
      exact becomes.nobodyComes (by rw [registry]; exact .refl _)

theorem nobodyComes_removePlayer (id : SessionId) : s.NobodyComes (s.removePlayer id).2 := by
  cases own : s.session? id with
  | none => rw [removePlayer_none own]; exact .refl s
  | some session =>
    cases live : session.finalized with
    | true =>
      rw [removePlayer_ended own live]
      exact ⟨rfl, rfl, Registry.shrinks_unbind _ _⟩
    | false =>
      obtain ⟨s', heq, becomes, registry, -⟩ := removePlayer_live own live
      rw [heq]
      exact becomes.nobodyComes (by rw [registry]; exact Registry.shrinks_unbind _ _)

end Server

variable {acts : SessionId → Prop} {ends : Ending → Prop} {g g' : Game} {us : List Utterance}

/-- **A change is a login, or nobody comes by it.** -/
theorem Turn.population (h : Turn acts ends g us g') (sound : g.Sound) :
    (∃ login handle, g.server.registry.refusal? login.username handle
        g.server.config.capacity.toNat = none ∧ us = g.server.greeting handle ∧
      g' = { g with server := g.server.accept login handle }) ∨
    g.server.NobodyComes g'.server := by
  cases h with
  | aside h => exact Or.inr ⟨h.quiet.size, h.quiet.nextEntityId, by rw [h.quiet.registry]; exact .refl _⟩
  | login named free => exact Or.inl ⟨_, _, free, rfl, rfl⟩
  | setViewDistance act v => exact Or.inr ⟨Server.size_update _, rfl, .refl _⟩
  | finalize _ act => exact Or.inr (Server.nobodyComes_finalize _)
  | remove _ act => exact Or.inr (Server.nobodyComes_removePlayer _)
  | look act own live fresh phase => exact Or.inr ⟨Server.size_absorb _, rfl, .refl _⟩
  | fetch h =>
    obtain ⟨keeps, registry, -⟩ := Server.column_spec h
    exact Or.inr (keeps.nobodyComes registry)
  | edit p h => exact Or.inr ⟨rfl, rfl, .refl _⟩
  | advance own act h =>
    have advances := Server.advance_spec h
    exact Or.inr (advances.keeps.nobodyComes advances.registry)
  | settle own act idle h =>
    obtain ⟨registry, settles⟩ := sound.settled own h
    cases settles with
    | void _ keeps _ => exact Or.inr (keeps.nobodyComes registry)
    | live _ _ becomes _ _ => exact Or.inr (becomes.nobodyComes (by rw [registry]; exact .refl _))

/-- Where nobody is welcomed, nobody comes. -/
theorem Turns.nobodyComes (c : Turns acts ends g us g') (sound : g.Sound)
    (unwelcome : ∀ u ∈ us, u.packet ≠ .playStatus .loginSuccess) : g.server.NobodyComes g'.server := by
  induction c with
  | refl => exact .refl _
  | tail c d ih =>
    have before := ih fun u hu => unwelcome u (List.mem_append_left _ hu)
    rcases d.population (c.changes.sound sound) with ⟨login, handle, -, greeted, -⟩ | nobody
    · rw [greeted] at unwelcome
      exact absurd rfl (unwelcome _ (List.mem_append_right _ List.mem_cons_self))
    · exact before.trans nobody

theorem Packet.ne_loginSuccess {p : Packet} (h : p.isChatter = true) : p ≠ .playStatus .loginSuccess := by
  rintro rfl
  cases h

/-- The end of a pass welcomes nobody. -/
theorem Server.Settles.unwelcome {s s' : Server} {pass : Pass} {report : Report}
    (h : s.Settles pass report s') :
    ∀ u ∈ s.settling pass, u.packet ≠ .playStatus .loginSuccess := by
  intro u hu
  rcases h.packet_cases hu with ⟨q, shown⟩ | ⟨session, enters⟩
  · rw [shown]
    exact Packet.noConfusion
  · simp only [Session.entry, List.mem_cons, List.not_mem_nil, or_false] at enters
    rcases enters with enters | enters <;> rw [enters] <;> simp

/-- Nobody is welcomed in an action that admits nobody. -/
theorem Action.unwelcome (sound : g.Sound) {a : Action} (refused : a.admits g = false) :
    ∀ u ∈ a.words g, u.packet ≠ .playStatus .loginSuccess := by
  by_cases settles : ∃ i, a = .settle i
  · obtain ⟨i, rfl⟩ := settles
    rcases sound.settle_words i with silent | ⟨pass, report, s, spec, words⟩
    · rw [silent]
      exact fun u hu => absurd hu List.not_mem_nil
    · rw [words]
      exact spec.unwelcome
  · intro u hu
    exact Packet.ne_loginSuccess
      (Action.words_chatter (fun i same => settles ⟨i, same⟩) refused u hu)

/-- **By an action that admits nobody, nobody comes.** -/
theorem step_population (sound : g.Sound) {a : Action} (hstep : g.step a = .ok g')
    (refused : a.admits g = false) : g.server.NobodyComes g'.server := by
  obtain ⟨g₁, hstep₁, turns⟩ := step_turns sound a
  rw [hstep] at hstep₁
  cases hstep₁
  exact turns.nobodyComes sound (Action.unwelcome sound refused)

/-! ### Ids -/

/-- Ids are given in the order of creation, beginning with one. They are words, and come round. -/
structure Server.Numbered (s : Server) : Prop where
  entityId : ∀ {id session}, s.session? id = some session → session.entityId = Int64.ofNat (id + 1)
  next : s.nextEntityId = Int64.ofNat (s.sessions.size + 1)

namespace Server

variable {s : Server} {id j : SessionId} {session session' : Session}

theorem numbered_create (config : Config) (world : World) (dispatcher : Dispatcher) :
    (Server.create config world dispatcher).Numbered :=
  ⟨fun own => (by rw [session?_create] at own; cases own), rfl⟩

theorem Numbered.accept (h : s.Numbered) (login : Login) (handle : Handle) :
    (s.accept login handle).Numbered := by
  have spec := s.accept_spec login handle
  refine ⟨fun {j session} own => ?_, ?_⟩
  · rw [spec.session?] at own
    split at own
    · rename_i same
      cases own
      rw [same]
      exact h.next
    · exact h.entityId own
  · rw [spec.nextEntityId, spec.size, h.next]
    exact (Int64.ofNat_add _ 1).symm

/-- Up to `2 ^ 64` logins no two sessions have an id in common. -/
theorem Numbered.distinct (h : s.Numbered) (few : s.sessions.size ≤ 2 ^ 64)
    (hi : s.session? id = some session) (hj : s.session? j = some session') (apart : id ≠ j) :
    session.entityId ≠ session'.entityId ∧ session.runtimeId ≠ session'.runtimeId ∧
      session.viewerId ≠ session'.viewerId := by
  have shift : ∀ m n : Nat, m < 2 ^ 64 → n < 2 ^ 64 → (m + 1) % 2 ^ 64 = (n + 1) % 2 ^ 64 → m = n := by
    omega
  have runtime : session.runtimeId ≠ session'.runtimeId := by
    rw [Session.runtimeId, Session.runtimeId, h.entityId hi, h.entityId hj, Ne,
      ofNat_toUInt64_eq_iff]
    exact fun same => apart
      (shift id j ((session?_lt hi).trans_le few) ((session?_lt hj).trans_le few) same)
  exact ⟨fun same => runtime (congrArg Int64.toUInt64 same), runtime,
    fun same => runtime (congrArg ViewerId.id same)⟩

end Server

/-- **The numbering survives every change.** -/
theorem Change.numbered (c : Change acts ends g g') (sound : g.Sound) (h : g.server.Numbered) :
    g'.server.Numbered := by
  obtain ⟨us, turn⟩ := id c
  rcases turn.population sound with ⟨login, handle, -, -, rfl⟩ | nobody
  · exact h.accept login handle
  · refine ⟨fun {id session'} own' => ?_, by rw [nobody.nextEntityId, nobody.size, h.next]⟩
    obtain ⟨session, own, lasts⟩ := Server.session?_back nobody.size (fun hs => c.lasts sound hs) own'
    rw [lasts.entityId, h.entityId own]

/-- **Nobody is registered beyond the capacity.** -/
theorem Change.room (c : Change acts ends g g') (sound : g.Sound)
    (h : g.server.registry.size ≤ g.server.config.capacity.toNat) :
    g'.server.registry.size ≤ g'.server.config.capacity.toNat := by
  obtain ⟨us, turn⟩ := id c
  rw [(c.settings sound).config]
  rcases turn.population sound with ⟨login, handle, free, -, rfl⟩ | nobody
  · obtain ⟨-, -, room⟩ := Registry.refusal?_eq_none free
    have spec := g.server.accept_spec login handle
    dsimp only
    rw [spec.registry]
    exact Registry.size_bind_le.trans room
  · exact nobody.registry.size.trans h

/-! ### Runs -/

namespace Game

/-- The logins of a run that succeed, in order. -/
def admissions (g : Game) (actions : List Action) : List Step := (g.history actions).filter Step.admits

theorem length_admissions_le (actions : List Action) :
    (g.admissions actions).length ≤ actions.length :=
  (List.length_filter_le _ _).trans (length_history_le actions g)

theorem mem_admissions {actions : List Action} {t : Step} :
    t ∈ g.admissions actions ↔ t ∈ g.history actions ∧ t.admits = true := List.mem_filter

end Game

/-- **There are as many sessions more as logins succeed**, each of which finds those before it. -/
theorem run_admissions : ∀ (actions : List Action) {g : Game}, g.Sound → g.run actions = .ok g' →
    g'.server.sessions.size = g.server.sessions.size + (g.admissions actions).length ∧
    ∀ k t, (g.admissions actions)[k]? = some t →
      t.before.server.sessions.size = g.server.sessions.size + k
  | [], g, _, hrun => by
    cases hrun
    exact ⟨rfl, fun k t ht => by simp [Game.admissions, Game.history] at ht⟩
  | a :: actions, g, sound, hrun => by
    obtain ⟨g₁, hstep, hc⟩ := step_changes sound a
    have rest : g₁.run actions = .ok g' := (Game.run_cons hstep actions).symm.trans hrun
    obtain ⟨size, later⟩ := run_admissions actions (hc.sound sound) rest
    have history : g.history (a :: actions) = ⟨g, a, g₁⟩ :: g₁.history actions :=
      Game.history_cons hstep actions
    cases admits : a.admits g with
    | false =>
      have nobody : g₁.server.sessions.size = g.server.sessions.size :=
        (step_population sound hstep admits).size
      have same : g.admissions (a :: actions) = g₁.admissions actions := by
        simp [Game.admissions, history, Step.admits, admits]
      rw [same, ← nobody]
      exact ⟨size, later⟩
    | true =>
      obtain ⟨login, handle, -, -, -, -, accepted⟩ := Action.admitted admits
      rw [hstep] at accepted
      cases accepted
      have one : (g.server.accept login handle).sessions.size = g.server.sessions.size + 1 :=
        (g.server.accept_spec login handle).size
      have first : g.admissions (a :: actions) =
          ⟨g, a, { g with server := g.server.accept login handle }⟩ ::
            Game.admissions { g with server := g.server.accept login handle } actions := by
        simp [Game.admissions, history, Step.admits, admits]
      rw [first]
      dsimp only at size later
      refine ⟨by rw [size, one, List.length_cons]; omega, fun k t ht => ?_⟩
      cases k with
      | zero => cases ht; rfl
      | succ k =>
        rw [later k t ht, one]
        omega

/-- The step creates the session `k` and registers it, with the id that comes after `k`. -/
structure Step.Creates (t : Step) (k : SessionId) : Prop where
  fresh : t.before.server.session? k = none
  created : ∃ session, t.after.server.session? k = some session ∧
    t.after.server.Registered k session ∧ session.entityId = Int64.ofNat (k + 1)

/-- A login that succeeds creates the session that comes next. -/
theorem Step.creates {t : Step} (enrolled : t.before.server.Enrolled) (numbered : t.before.server.Numbered)
    (hstep : t.before.step t.action = .ok t.after) (admits : t.admits = true) :
    t.Creates t.before.server.sessions.size := by
  obtain ⟨login, handle, -, -, free, -, accepted⟩ := Action.admitted admits
  rw [hstep] at accepted
  have after : t.after.server = t.before.server.accept login handle :=
    congrArg Game.server (Except.ok.inj accepted)
  have spec := t.before.server.accept_spec login handle
  have registered : (t.before.server.accept login handle).Registered t.before.server.sessions.size
      (t.before.server.newcomer login handle) :=
    (enrolled.accept login handle free).registered spec.new rfl
  refine ⟨Array.getElem?_eq_none le_rfl, t.before.server.newcomer login handle, ?_, ?_, numbered.next⟩
  · rw [after]; exact spec.new
  · rw [after]; exact registered

/-- **Sessions and registry agree**, whatever is done on a fresh server that hears of every end, in any
order and with other operations between the phases of a pass.

Every session is registered under its own name and handle and lives, or it is gone; there are not more
players than there may be, and no two of them share a name or a handle. The logins that succeed create
the sessions one by one, the first with id one; the ids are those numbers up to the greatest word, and
up to `2 ^ 64` logins no two sessions have an id in common. -/
theorem session_life (config : Config) (world : World) (dispatcher : Dispatcher)
    (actions : List Action) (told : ∀ a ∈ actions, a.isFinalize = false) :
    let fresh : Game := { server := Server.create config world dispatcher }
    ∃ g, fresh.run actions = .ok g ∧ g.server.config = config ∧ g.server.InOrder ∧
      (fresh.admissions actions).length = g.server.sessions.size ∧
      (∀ k (t : Step), (fresh.admissions actions)[k]? = some t → t.Creates k) ∧
      (∀ k session, g.server.session? k = some session → k + 1 < 2 ^ 63 →
        session.entityId.toInt = k + 1) ∧
      (g.server.sessions.size ≤ 2 ^ 64 → ∀ i j session session', i ≠ j →
        g.server.session? i = some session → g.server.session? j = some session' →
        session.entityId ≠ session'.entityId ∧ session.runtimeId ≠ session'.runtimeId ∧
          session.viewerId ≠ session'.viewerId) := by
  intro fresh
  have sound : fresh.Sound := sound_create config world dispatcher
  have start : fresh.server.Enrolled ∧ fresh.server.Numbered :=
    ⟨Server.enrolled_create config world dispatcher, Server.numbered_create config world dispatcher⟩
  have kept : ∀ {g g' : Game}, g.Sound → g.server.Enrolled ∧ g.server.Numbered →
      Change (fun _ => True) (· = .heard) g g' → g'.server.Enrolled ∧ g'.server.Numbered :=
    fun sound h c => ⟨c.enrolled sound h.1, c.numbered sound h.2⟩
  obtain ⟨g, hrun, hc⟩ := run_told sound told
  obtain ⟨enrolled, numbered⟩ := hc.invariant kept sound start
  have room : g.server.registry.size ≤ g.server.config.capacity.toNat :=
    hc.invariant (P := fun g => g.server.registry.size ≤ g.server.config.capacity.toNat)
      (fun sound h c => c.room sound h) sound (Nat.zero_le _)
  obtain ⟨g₁, hrun₁, -, -, settings, -⟩ := run_enrolled config world dispatcher told
  have same : g₁ = g := by rw [hrun] at hrun₁; cases hrun₁; rfl
  obtain ⟨size, numbers⟩ := run_admissions actions sound hrun
  have none_before : fresh.server.sessions.size = 0 := rfl
  refine ⟨g, hrun, same ▸ settings, enrolled.inOrder (hc.sound sound).session room, by omega,
    fun k t ht => ?_, fun k session own few => ?_, fun few i j session session' apart hi hj =>
      numbered.distinct few hi hj apart⟩
  · obtain ⟨mem, admits⟩ := Game.mem_admissions.mp (List.mem_of_getElem? ht)
    obtain ⟨-, -, ⟨enrolled, numbered⟩, hstep⟩ := history_reached kept actions sound start told t mem
    have number : t.before.server.sessions.size = k := by rw [numbers k t ht, none_before, Nat.zero_add]
    exact number ▸ Step.creates enrolled numbered hstep admits
  · rw [numbered.entityId own, Int64.toInt_ofNat_of_lt few]
    rfl

/-- On a server for one player: two logins under one name, of which the second is turned away, and the
same name and connection again after the first player was removed. -/
theorem session_life_again :
    let actions : List Action :=
      [.packet ⟨1⟩ (.login { username := "ada" }), .packet ⟨2⟩ (.login { username := "ada" }),
        .spawn 0, .remove 0, .packet ⟨1⟩ (.login { username := "ada" }), .shutdown]
    (∀ a ∈ actions, a.isFinalize = false) ∧
      ∃ g, Game.run { server := Server.create { maxPlayers := 1 } {} .standard } actions = .ok g ∧
        g.server.InOrder := by
  intro actions
  have told : ∀ a ∈ actions, a.isFinalize = false := by decide
  exact ⟨told, (session_life { maxPlayers := 1 } {} .standard actions told).imp
    fun g hg => ⟨hg.1, hg.2.2.1⟩⟩

end BlockWorld
