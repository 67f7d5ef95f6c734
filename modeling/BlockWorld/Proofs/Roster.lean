import BlockWorld.Proofs.Registry
import BlockWorld.Proofs.Run

/-! # A session is registered as long as it lives

A login registers the session it creates, and only the end of the session takes it out again. So the
members of the registry are the sessions that are not finalized, each under its own name and handle,
unless some session was finalized behind the back of the server.

* `Server.Enrolled`, `Change.enrolled`: the invariant, and that it survives every change.
* `Enrolled.bound?_eq_some_iff`: what a handle is bound to.
* `Enrolled.removePlayer_ended`: removing a player again changes nothing.
* `run_enrolled`: the invariant after a run from a fresh server. -/

namespace BlockWorld

namespace Server

/-- The two indexes hold the same members, and these are the sessions that are not finalized. -/
structure Enrolled (s : Server) : Prop where
  paired : s.registry.Paired
  member : ∀ {name m}, s.registry.byName? name = some m → ∃ session,
    s.session? m.session = some session ∧ session.finalized = false ∧ m = member m.session session
  live : ∀ {id session}, s.session? id = some session → session.finalized = false →
    s.registry.byName? session.name = some (Server.member id session)

variable {s s' : Server} {id : SessionId} {session session' : Session}

theorem enrolled_create (config : Config) (world : World) (dispatcher : Dispatcher) :
    (Server.create config world dispatcher).Enrolled := by
  refine ⟨Registry.paired_empty, ?_, ?_⟩
  · intro name m hm
    simp [create, Registry.byName?] at hm
  · intro id session hs
    rw [session?_create] at hs
    cases hs

namespace Enrolled

/-- **What a handle is bound to** is the live session with that handle. -/
theorem bound?_eq_some_iff (h : s.Enrolled) {handle : Handle} : s.bound? handle = some id ↔
    ∃ session, s.session? id = some session ∧ session.finalized = false ∧ session.handle = handle := by
  constructor
  · intro hb
    obtain ⟨m, hm, rfl⟩ := Option.map_eq_some_iff.mp hb
    obtain ⟨hhandle, hname⟩ := h.paired.handle hm
    obtain ⟨session, hs, live, hmem⟩ := h.member hname
    rw [hmem] at hhandle
    exact ⟨session, hs, live, hhandle⟩
  · rintro ⟨session, hs, live, rfl⟩
    have registered : s.registry.byHandle? session.handle = some (Server.member id session) :=
      (h.paired.name (h.live hs live)).2
    rw [bound?, registered]
    rfl

/-- The members are the live sessions. -/
theorem mem_players (h : s.Enrolled) {m : Member} : m ∈ s.registry.players ↔
    ∃ session, s.session? m.session = some session ∧ session.finalized = false ∧
      m = Server.member m.session session := by
  rw [h.paired.mem_players]
  constructor
  · exact h.member
  · rintro ⟨session, hs, live, hm⟩
    rw [hm]
    exact h.live hs live

/-- Nobody is bound to the name of a finalized session but, maybe, another session. -/
theorem unbind_ended (h : s.Enrolled) (hs : s.session? id = some session)
    (ended : session.finalized = true) : s.registry.unbind (Server.member id session) = s.registry := by
  refine Registry.unbind_of_not_bound ?_
  intro m' hm' same
  obtain ⟨session', hs', live, -⟩ := h.member hm'
  change m'.session = id at same
  rw [same, hs] at hs'
  cases hs'
  rw [ended] at live
  cases live

/-- **Removing a player again** changes nothing. -/
theorem removePlayer_ended (h : s.Enrolled) (hs : s.session? id = some session)
    (ended : session.finalized = true) : s.removePlayer id = (false, s) := by
  rw [Server.removePlayer_ended hs ended, h.unbind_ended hs ended]

/-! ### Preservation -/

/-- The same registry and the same sessions as far as it is concerned. -/
theorem transport (h : s.Enrolled) (registry : s'.registry = s.registry)
    (size : s'.sessions.size = s.sessions.size)
    (forth : ∀ {id session}, s.session? id = some session → ∃ session',
      s'.session? id = some session' ∧ session'.name = session.name ∧
        session'.handle = session.handle ∧ session'.finalized = session.finalized) : s'.Enrolled := by
  refine ⟨by rw [registry]; exact h.paired, ?_, ?_⟩
  · intro name m hm
    rw [registry] at hm
    obtain ⟨session, hs, live, hmem⟩ := h.member hm
    obtain ⟨session', hs', hname, hhandle, hfin⟩ := forth hs
    have live' : session'.finalized = false := by rw [hfin, live]
    have hmem' : m = Server.member m.session session' := by
      rw [hmem, Server.member, Server.member, hname, hhandle]
    exact ⟨session', hs', live', hmem'⟩
  · intro id session' hs' live'
    obtain ⟨session, hs, hname, hhandle, hfin⟩ := session?_back size forth hs'
    have live : session.finalized = false := by rw [← hfin, live']
    rw [registry, hname, Server.member, hname, hhandle]
    exact h.live hs live

theorem keeps (h : s.Enrolled) (registry : s'.registry = s.registry) (keeps : s.Keeps s') :
    s'.Enrolled :=
  h.transport registry keeps.size fun {_ session} hs =>
    ⟨session, keeps.known hs, rfl, rfl, rfl⟩

/-- One session changes, but not its name, its handle or whether it is finalized. -/
theorem becomes (h : s.Enrolled) (registry : s'.registry = s.registry)
    (hs : s.session? id = some session) (becomes : s.Becomes id session' s')
    (name : session'.name = session.name) (handle : session'.handle = session.handle)
    (finalized : session'.finalized = session.finalized) : s'.Enrolled := by
  refine h.transport registry becomes.size ?_
  exact becomes.forth (R := fun session₁ session₂ => session₂.name = session₁.name ∧
      session₂.handle = session₁.handle ∧ session₂.finalized = session₁.finalized)
    (fun _ => ⟨rfl, rfl, rfl⟩) hs ⟨name, handle, finalized⟩

/-- **A login** registers the newcomer. -/
theorem accept (h : s.Enrolled) (login : Login) (handle : Handle) {limit : Nat}
    (free : s.registry.refusal? login.username handle limit = none) :
    (s.accept login handle).Enrolled := by
  obtain ⟨hname, hhandle, -⟩ := Registry.refusal?_eq_none free
  have spec := s.accept_spec login handle
  have apart : ∀ {j session}, s.session? j = some session → session.finalized = false →
      (s.newcomer login handle).name ≠ session.name := by
    intro j session hj live same
    have hreg := h.live hj live
    rw [← same] at hreg
    change s.registry.byName? login.username = _ at hreg
    rw [hname] at hreg
    cases hreg
  refine ⟨?_, ?_, ?_⟩
  · rw [spec.registry]
    exact h.paired.bind (m := Server.member s.sessions.size (s.newcomer login handle)) hname hhandle
  · intro name m hm
    rw [spec.registry, Registry.byName?_bind] at hm
    split at hm
    · cases hm
      exact ⟨s.newcomer login handle, spec.new, rfl, rfl⟩
    · obtain ⟨session, hs, live, hmem⟩ := h.member hm
      exact ⟨session, spec.known hs, live, hmem⟩
  · intro j session hj live
    rw [spec.registry, Registry.byName?_bind]
    rw [spec.session?] at hj
    split at hj
    · rename_i same
      cases hj
      rw [if_pos rfl, same]
    · rw [if_neg (apart hj live)]
      exact h.live hj live

/-- **The end of a live player** takes it, and nobody else, out of the registry. -/
theorem unbind (h : s.Enrolled) (hs : s.session? id = some session)
    (live : session.finalized = false) (becomes : s.Becomes id session.ended s')
    (registry : s'.registry = s.registry.unbind (Server.member id session)) : s'.Enrolled := by
  have bound : s.registry.byName? (Server.member id session).name =
      some (Server.member id session) := h.live hs live
  refine ⟨by rw [registry]; exact h.paired.unbind bound, ?_, ?_⟩
  · intro name m hm
    rw [registry, Registry.byName?_unbind bound] at hm
    split at hm
    · cases hm
    · rename_i hne
      obtain ⟨session', hs', live', hmem⟩ := h.member hm
      have apart : m.session ≠ id := by
        intro same
        rw [same, hs] at hs'
        cases hs'
        have hname := (h.paired.name hm).1
        rw [hmem] at hname
        exact hne hname
      have kept : s'.session? m.session = some session' := by rw [becomes.other apart, hs']
      exact ⟨session', kept, live', hmem⟩
  · intro j session' hj live'
    rw [becomes.session?] at hj
    split at hj
    · cases hj
      cases live'
    · rename_i hne
      have hreg := h.live hj live'
      have apart : (Server.member id session).name ≠ session'.name := by
        intro same
        rw [← same, bound] at hreg
        exact hne (congrArg Member.session (Option.some.inj hreg))
      rw [registry, Registry.byName?_unbind bound, if_neg apart, hreg]

theorem removePlayer (h : s.Enrolled) (id : SessionId) : (s.removePlayer id).2.Enrolled := by
  cases hs : s.session? id with
  | none => rw [removePlayer_none hs]; exact h
  | some session =>
    cases live : session.finalized with
    | true => rw [h.removePlayer_ended hs live]; exact h
    | false =>
      obtain ⟨s', heq, becomes, registry, -⟩ := removePlayer_live hs live
      rw [heq]
      exact h.unbind hs live becomes registry

end Enrolled

end Server

variable {acts : SessionId → Prop} {g g' : Game}

/-- **The invariant survives every change** that the server hears of. -/
theorem Change.enrolled (c : Change acts (· = .heard) g g') (sound : g.Sound) (h : g.server.Enrolled) :
    g'.server.Enrolled := by
  obtain ⟨us, c⟩ := c
  cases c with
  | aside c =>
    refine h.transport c.quiet.registry c.quiet.size ?_
    intro id session hs
    obtain ⟨session', hs', alike⟩ := c.quiet.session_of hs
    exact ⟨session', hs', alike.name, alike.handle, alike.finalized⟩
  | login named free => exact h.accept _ _ free
  | setViewDistance act v =>
    refine h.transport rfl (Server.size_update _) ?_
    intro id session hs
    dsimp only
    rw [Server.session?_update, hs]
    split <;> exact ⟨_, rfl, rfl, rfl, rfl⟩
  | finalize unheard act => cases unheard
  | remove _ act => exact h.removePlayer _
  | look act own live fresh phase =>
    rename_i id session course glance sc
    obtain ⟨t', hs, -⟩ := looked live (sound.session own) phase
    have becomes := Server.becomes_absorb own sc
    rw [hs] at becomes
    exact h.becomes rfl own becomes (by simp) (by simp) (by simp)
  | fetch c =>
    obtain ⟨keeps, registry, -⟩ := Server.column_spec c
    exact h.keeps registry keeps
  | edit p c => exact h.keeps rfl ⟨rfl, rfl, rfl, rfl, fun _ => rfl⟩
  | advance own act c =>
    have advances := Server.advance_spec c
    exact h.keeps advances.registry advances.keeps
  | settle own act idle c =>
    obtain ⟨registry, settles⟩ := sound.settled own c
    cases settles with
    | void _ keeps _ => exact h.keeps registry keeps
    | live own' _ becomes _ _ => exact h.becomes registry own' becomes rfl rfl rfl

theorem Changes.enrolled (c : Changes acts (· = .heard) g g') (sound : g.Sound)
    (h : g.server.Enrolled) : g'.server.Enrolled :=
  c.invariant (P := fun g => g.server.Enrolled) (fun sound h c => c.enrolled sound h) sound h

/-- **After a run from a fresh server** in which the server hears of every end, the registered sessions
are those that live. The settings are those it was created with. -/
theorem run_enrolled (config : Config) (world : World) (dispatcher : Dispatcher)
    {actions : List Action} (told : ∀ a ∈ actions, a.isFinalize = false) :
    ∃ g, Game.run { server := Server.create config world dispatcher } actions = .ok g ∧
      g.Sound ∧ g.server.Enrolled ∧ g.server.config = config ∧ g.server.dispatcher = dispatcher := by
  have fresh := sound_create config world dispatcher
  obtain ⟨g, hrun, hc⟩ := run_told fresh told
  have settings := hc.settings fresh
  exact ⟨g, hrun, hc.sound fresh, hc.enrolled fresh (Server.enrolled_create config world dispatcher),
    settings.config, settings.dispatcher⟩

end BlockWorld
