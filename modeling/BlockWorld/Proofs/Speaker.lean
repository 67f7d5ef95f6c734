import BlockWorld.Proofs.Speech
import BlockWorld.Proofs.Teardown

/-! # Only the living speak

Whatever is said in the name of a session is said while the session lives, to its own client, to which
nobody else is bound. The one exception is a packet that goes along with a session found earlier, so
the actions here are those in which the session of a packet is looked up at once.

* `Action.isRegular`: those actions.
* `Server.Spoken`: all that is said comes from sessions that live, to their own clients.
* `Action.words_spoken`: what is said in an action: a greeting, a refusal, or words of the living.
* `Step.Attributed`, `step_attributed`: the same, by what the handles are bound to.
* `step_last_words`: what a session says in the step that ends it. -/

namespace BlockWorld

/-- Whether the session of a packet is looked up at once, and every end of a session heard. -/
def Action.isRegular : Action → Bool
  | .dispatch .. => false
  | .finalize _ => false
  | _ => true

theorem Action.told_of_regular {a : Action} (h : a.isRegular = true) : a.isFinalize = false := by
  cases a <;> first | rfl | cases h

namespace Server

/-- The packet comes from a session that lives, and goes to its own client. -/
def Speaks (s : Server) (u : Utterance) : Prop :=
  ∃ id session, u.speaker = some id ∧ s.session? id = some session ∧
    session.finalized = false ∧ session.handle = u.handle

/-- All that is said comes from sessions that live, and goes to their own clients. -/
def Spoken (s : Server) (us : List Utterance) : Prop := ∀ u ∈ us, s.Speaks u

/-- The packet turns a login away from a full server, on a connection without a session. -/
def TurnsAway (s : Server) (u : Utterance) : Prop :=
  u.speaker = none ∧ u.packet = .playStatus .failedServerFull ∧ s.bound? u.handle = none

variable {s s' : Server} {id : SessionId} {session : Session} {us : List Utterance}

theorem spoken_nil : s.Spoken [] := fun _ hu => by cases hu

/-- Whoever lives later has lived before. -/
theorem Spoken.before (back : ∀ {id session'}, s'.session? id = some session' → ∃ session,
      s.session? id = some session ∧ session.Lasts session') (h : s'.Spoken us) : s.Spoken us := by
  intro u hu
  obtain ⟨id, session', speaker, hs', live', handle⟩ := h u hu
  obtain ⟨session, hs, lasts⟩ := back hs'
  have live : session.finalized = false := by
    rw [Bool.eq_false_iff]
    intro ended
    rw [lasts.finalized ended] at live'
    cases live'
  exact ⟨id, session, speaker, hs, live, lasts.handle.symm.trans handle⟩

theorem Quiet.spoken (quiet : s.Quiet s') (h : s'.Spoken us) : s.Spoken us :=
  h.before fun hs' => by
    obtain ⟨session, hs, alike⟩ := quiet.session hs'
    exact ⟨session, hs, alike.lasts⟩

theorem Ends.spoken (ends : s.Ends id s') (size : s'.sessions.size = s.sessions.size)
    (h : s'.Spoken us) : s.Spoken us :=
  h.before fun hs' => session?_back size (fun hs => ends.lasts hs) hs'

/-! ### What one session says -/

/-- In its first phase a live session speaks to its own client, and a finalized one says nothing. -/
theorem spoken_phase (sound : ∀ {id session}, s.session? id = some session → session.Sound)
    (id : SessionId) (course : Course) : s.Spoken (s.voice id course.phase) := by
  intro u hu
  obtain ⟨session, glance, sc, own, phase, p, hp, rfl⟩ := exists_of_mem_voice hu
  cases live : session.finalized with
  | true =>
    rw [Course.phase_finalized live phase] at hp
    simp at hp
  | false =>
    obtain ⟨glance', t', sc', phase', hs, -⟩ :=
      course.phase_spec { session, world := s.world } live (sound own)
    rw [phase] at phase'
    cases phase'
    have handle : sc.session.handle = session.handle := by simp [hs]
    exact ⟨id, session, rfl, own, live, handle.symm⟩

theorem spoken_correction (own : s.session? id = some session) (live : session.finalized = false) :
    s.Spoken (s.correction id) := by
  intro u hu
  obtain ⟨session', a, sc, own', acted, p, hp, rfl⟩ := exists_of_mem_voice hu
  rw [own] at own'
  cases own'
  cases acted
  exact ⟨id, session, rfl, own, live, rfl⟩

/-- Only a spawned player has ticks, and it lives. -/
theorem spoken_ticking (sound : ∀ {id session}, s.session? id = some session → session.Sound)
    (id : SessionId) (current interval : UInt64) : s.Spoken (s.ticking id current interval) := by
  intro u hu
  obtain ⟨session, a, sc, own, acted, p, hp, rfl⟩ := exists_of_mem_voice hu
  cases acted
  cases spawned : session.spawned with
  | false => simp [Scene.tick, spawned] at hp
  | true =>
    have live : session.finalized = false := by
      rw [Bool.eq_false_iff]
      intro ended
      rw [(sound own).despawned ended] at spawned
      cases spawned
    refine ⟨id, session, rfl, own, live, ?_⟩
    simp only [Scene.tick, spawned, Bool.not_true, Bool.false_eq_true, if_false]
    split <;> rfl

theorem spoken_spawnWords (sound : ∀ {id session}, s.session? id = some session → session.Sound)
    (id : SessionId) : s.Spoken (s.spawnWords id) :=
  fun u hu => spoken_phase sound id .enter u (mem_spawnWords hu)

theorem spoken_radiusWords (sound : ∀ {id session}, s.session? id = some session → session.Sound)
    (id : SessionId) (requested : Int32) : s.Spoken (s.radiusWords id requested) := by
  intro u hu
  obtain ⟨session, own, live, rfl | hu⟩ := mem_radiusWords hu
  · exact ⟨id, session, rfl, own, live, rfl⟩
  · set resized := s.update id (·.setViewDistance (s.grantedRadius requested)) with hresized
    have sound' : ∀ {j session'}, resized.session? j = some session' → session'.Sound := by
      intro j session' hs'
      rw [hresized, session?_update] at hs'
      split at hs'
      · obtain ⟨session, hs, rfl⟩ := Option.map_eq_some_iff.mp hs'
        exact (sound hs).setViewDistance _
      · exact sound hs'
    have spoken : resized.Spoken _ := spoken_phase sound' id .stay
    refine spoken.before (fun {j session'} hs' => ?_) u hu
    rw [hresized, session?_update] at hs'
    split at hs'
    · obtain ⟨session, hs, rfl⟩ := Option.map_eq_some_iff.mp hs'
      exact ⟨session, hs, rfl, rfl, rfl, fun ended => ended⟩
    · exact ⟨session', hs', .refl _⟩

theorem spoken_initializedWords
    (sound : ∀ {id session}, s.session? id = some session → session.Sound)
    (id : SessionId) (runtimeId : UInt64) : s.Spoken (s.initializedWords id runtimeId) :=
  fun u hu => spoken_phase sound id .enter u (mem_initializedWords hu)

theorem spoken_settling {pass : Pass} {report : Report} (h : s.Settles pass report s') :
    s.Spoken (s.settling pass) := by
  cases h with
  | void _ _ _ _ silent => rw [silent]; exact spoken_nil
  | live own live becomes tracked joins spawned announces words =>
    rename_i session t' new
    rw [words]
    intro u hu
    obtain ⟨packet, -, rfl⟩ := List.mem_map.mp hu
    exact ⟨pass.session, session, rfl, own, live, rfl⟩

/-! ### What others are told -/

theorem Enrolled.spoken_relays (h : s.Enrolled) (id : SessionId) (change : PlayerSkin) :
    s.Spoken (s.relays id change) := by
  intro u hu
  obtain ⟨session, -, -, m, hm, rfl⟩ := mem_relays hu
  obtain ⟨peer, own, live, is⟩ := h.mem_players.mp (List.mem_filter.mp hm).1
  have handle : peer.handle = m.handle := by rw [is]; rfl
  exact ⟨m.session, peer, rfl, own, live, handle⟩

theorem Enrolled.spoken_farewell (h : s.Enrolled) (id : SessionId) : s.Spoken (s.farewell id) := by
  intro u hu
  obtain ⟨session, -, -, m, hm, rfl⟩ := mem_farewell hu
  obtain ⟨-, registered, -, peer, own, handle, -, -⟩ := (h.mem_audience m).mp hm
  obtain ⟨peer', own', live, -⟩ := h.mem_players.mp registered
  rw [own] at own'
  cases own'
  exact ⟨m.session, peer, rfl, own, live, handle⟩

/-- The player that is removed is not among those that are told. -/
theorem Enrolled.farewell_others (h : s.Enrolled) {u : Utterance} (hu : u ∈ s.farewell id) :
    u.speaker ≠ some id := by
  obtain ⟨session, -, -, m, hm, rfl⟩ := mem_farewell hu
  obtain ⟨-, -, apart, -⟩ := (h.mem_audience m).mp hm
  exact fun same => apart (Option.some.inj same)

/-! ### What is said one after the other -/

theorem spoken_tickWords (current interval : UInt64) : ∀ (ms : List Member) {s : Server},
    (∀ {id session}, s.session? id = some session → session.Sound) →
      s.Spoken (tickWords current interval ms s)
  | [], _, _ => spoken_nil
  | m :: ms, s, sound => by
    have quiet : s.Quiet (s.tickSession m.session current interval) := quiet_tickSession _ _ _
    have sound' : ∀ {id session'}, (s.tickSession m.session current interval).session? id =
        some session' → session'.Sound := by
      intro id session' hs'
      obtain ⟨session, hs, alike⟩ := quiet.session hs'
      exact alike.sound (sound hs)
    intro u hu
    rcases List.mem_append.mp hu with hu | hu
    · exact spoken_ticking sound m.session current interval u hu
    · exact quiet.spoken (spoken_tickWords current interval ms sound') u hu

theorem spoken_removeAll : ∀ (ms : List Member) {s : Server}, s.Enrolled →
    s.Spoken ((s.removeAllRemovals ms).flatMap Removal.words)
  | [], _, _ => spoken_nil
  | m :: ms, s, h => by
    have removed : (s.removePlayer m.session).2.Enrolled := h.removePlayer m.session
    have closed : ((s.removePlayer m.session).2.close m.handle "Server closed").Enrolled :=
      removed.keeps rfl ⟨rfl, rfl, rfl, rfl, fun _ => rfl⟩
    have size : (s.removePlayer m.session).2.sessions.size = s.sessions.size :=
      (s.ends_removePlayer m.session).size
    intro u hu
    rw [removeAllRemovals, List.flatMap_cons] at hu
    rcases List.mem_append.mp hu with hu | hu
    · exact h.spoken_farewell m.session u hu
    · exact (s.ends_removePlayer m.session).spoken size
        ((quiet_close m.handle "Server closed").spoken (spoken_removeAll ms closed)) u hu

/-! ### Packets -/

theorem turnsAway_refusal {login : Login} {handle : Handle} {limit : Nat} {reason : Refusal}
    (h : s.registry.refusal? login.username handle limit = some reason) :
    ∀ u ∈ refusal handle reason, s.TurnsAway u := by
  intro u hu
  cases reason with
  | nameTaken => cases hu
  | handleInUse => cases hu
  | full =>
    cases List.mem_singleton.mp hu
    have free : s.registry.byHandle.contains handle = false := by
      unfold Registry.refusal? at h
      split at h
      · cases h
      · split at h
        · cases h
        · rename_i unused
          exact Bool.eq_false_iff.mpr unused
    have unbound : s.registry.byHandle? handle = none := by
      rw [Registry.byHandle?, Std.ExtTreeMap.getElem?_eq_none_of_contains_eq_false free]
    refine ⟨rfl, rfl, ?_⟩
    rw [bound?, unbound]
    rfl

/-- A packet goes along with the session that its connection is bound to, and that one lives. -/
theorem Enrolled.packetWords_spoken (h : s.Enrolled)
    (sound : ∀ {id session}, s.session? id = some session → session.Sound) {packet : Packet}
    {handle : Handle} (refused : s.admits packet (s.bound? handle) handle = false) :
    ∀ u ∈ s.packetWords packet (s.bound? handle) handle, s.Speaks u ∨ s.TurnsAway u := by
  unfold packetWords
  split
  · rename_i login routed
    rw [admits_login _ handle routed, decide_eq_false_iff_not] at refused
    rcases s.login_cases login (s.bound? handle) handle with
      ⟨n, n', words, -⟩ | ⟨reason, full, words, -⟩ | ⟨-, -, -, eq⟩
    · rw [words]; exact fun u hu => by cases hu
    · rw [words]; exact fun u hu => Or.inr (turnsAway_refusal full u hu)
    · exact absurd (by rw [eq]) refused
  · rename_i movement id bound routed
    obtain ⟨session, own, live, -⟩ := h.bound?_eq_some_iff.mp bound
    unfold movementWords
    split
    · exact fun u hu => Or.inl (spoken_phase sound id _ u hu)
    · exact fun u hu => Or.inl (spoken_correction own live u hu)
  · exact fun u hu => Or.inl (spoken_radiusWords sound _ _ u hu)
  · exact fun u hu => Or.inl (h.spoken_relays _ _ u hu)
  · exact fun u hu => Or.inl (spoken_initializedWords sound _ _ u hu)
  · exact fun u hu => Or.inl (h.spoken_farewell _ u hu)
  · exact fun u hu => by cases hu

theorem Enrolled.spoken_disconnect (h : s.Enrolled) (handle : Handle) :
    s.Spoken ((s.disconnectRemovals handle).flatMap Removal.words) := by
  intro u hu
  obtain ⟨r, hr, hu⟩ := List.mem_flatMap.mp hu
  obtain ⟨id, -, rfl⟩ := Option.map_eq_some_iff.mp (Option.mem_toList.mp hr)
  exact h.spoken_farewell id u hu

end Server

/-! ### Actions -/

variable {g g' : Game}

/-- **Only the living speak** in an action that admits nobody, except to turn a login away. -/
theorem Action.words_spoken (sound : g.Sound) (h : g.server.Enrolled) {a : Action}
    (regular : a.isRegular = true) (refused : a.admits g = false) :
    ∀ u ∈ a.words g, g.server.Speaks u ∨ g.server.TurnsAway u := by
  have phases : ∀ id (course : Course), ∀ u ∈ g.server.voice id course.phase,
      g.server.Speaks u ∨ g.server.TurnsAway u :=
    fun id course u hu => Or.inl (Server.spoken_phase sound.session id course u hu)
  cases a with
  | event e =>
    cases e with
    | connected handle => exact fun u hu => by cases hu
    | packet handle p => exact h.packetWords_spoken sound.session refused
    | disconnected handle => exact fun u hu => Or.inl (h.spoken_disconnect handle u hu)
  | packet handle p => exact h.packetWords_spoken sound.session refused
  | dispatch p who handle => cases regular
  | move id position turn onGround => exact phases id _
  | teleport id position rotation => exact phases id _
  | refresh id => exact phases id _
  | spawn id => exact fun u hu => Or.inl (Server.spoken_spawnWords sound.session id u hu)
  | remove id => exact fun u hu => Or.inl (h.spoken_farewell id u hu)
  | disconnect handle => exact fun u hu => Or.inl (h.spoken_disconnect handle u hu)
  | tick =>
    have ticked : Server.Spoken { g.server with currentTick := g.server.currentTick + 1 }
        (Action.words g .tick) := Server.spoken_tickWords _ _ _ sound.session
    exact fun u hu => Or.inl (ticked u hu)
  | shutdown =>
    have noted : (g.server.note (.shuttingDown g.server.registry.players.length)).Enrolled :=
      h.keeps rfl ⟨rfl, rfl, rfl, rfl, fun _ => rfl⟩
    exact fun u hu => Or.inl (Server.spoken_removeAll g.server.registry.players noted u hu)
  | settle i =>
    intro u hu
    rcases sound.settle_words i with silent | ⟨pass, report, s, settles, words⟩
    · rw [silent] at hu
      cases hu
    · rw [words] at hu
      exact Or.inl (Server.spoken_settling settles u hu)
  | _ => exact fun u hu => by cases hu

/-- Every packet goes to a connection that is bound to its speaker: all through the step or, where a
login succeeds, from then on. A login that is turned away comes on a connection that is bound to
nobody. -/
def Step.Attributed (t : Step) : Prop :=
  ∀ u ∈ t.words,
    (∃ id, u.speaker = some id ∧ t.before.server.bound? u.handle = some id) ∨
    (t.before.server.bound? u.handle = none ∧ ∃ id, u.speaker = some id ∧
      t.before.server.session? id = none ∧ t.after.server.bound? u.handle = some id) ∨
    t.before.server.TurnsAway u

/-- A session that ended before the step says nothing in it. -/
theorem Step.Attributed.silent {t : Step} (h : t.Attributed) (enrolled : t.before.server.Enrolled)
    {id : SessionId} (ended : t.before.server.isEnded id = true) : saidBy id t.words = [] := by
  refine List.eq_nil_iff_forall_not_mem.mpr fun p hp => ?_
  obtain ⟨u, hu, speaker, -⟩ := mem_saidBy.mp hp
  obtain ⟨own, hown, finalized⟩ := (Option.any_eq_true _ _).mp ended
  rcases h u hu with ⟨id', speaker', bound⟩ | ⟨-, id', speaker', newborn, -⟩ | ⟨nobody, -⟩
  · rw [speaker] at speaker'
    cases speaker'
    obtain ⟨live, hlive, lives, -⟩ := enrolled.bound?_eq_some_iff.mp bound
    rw [hown] at hlive
    cases hlive
    rw [finalized] at lives
    cases lives
  · rw [speaker] at speaker'
    cases speaker'
    rw [hown] at newborn
    cases newborn
  · rw [speaker] at nobody
    cases nobody

/-- **Every packet of a step is attributed.** -/
theorem step_attributed (sound : g.Sound) (h : g.server.Enrolled) {a : Action}
    (regular : a.isRegular = true) (hstep : g.step a = .ok g') : Step.Attributed ⟨g, a, g'⟩ := by
  intro u hu
  cases admits : a.admits g with
  | true =>
    obtain ⟨login, handle, -, -, free, words, accepted⟩ := Action.admitted admits
    rw [accepted] at hstep
    cases hstep
    have spec := g.server.accept_spec login handle
    have bound : (g.server.accept login handle).bound? handle = some g.server.sessions.size :=
      (h.accept login handle free).bound?_eq_some_iff.mpr ⟨_, spec.new, rfl, rfl⟩
    obtain ⟨-, unused, -⟩ := Registry.refusal?_eq_none free
    have unbound : g.server.bound? handle = none := by rw [Server.bound?, unused]; rfl
    have newborn : g.server.session? g.server.sessions.size = none := Array.getElem?_eq_none le_rfl
    change u ∈ a.words g at hu
    rw [words] at hu
    simp only [Server.greeting, List.mem_cons, List.not_mem_nil, or_false] at hu
    rcases hu with rfl | rfl
    · exact Or.inr (Or.inl ⟨unbound, _, rfl, newborn, bound⟩)
    · exact Or.inr (Or.inl ⟨unbound, _, rfl, newborn, bound⟩)
  | false =>
    rcases Action.words_spoken sound h regular admits u hu with
      ⟨id, session, speaker, own, live, handle⟩ | away
    · exact Or.inl ⟨id, speaker, h.bound?_eq_some_iff.mpr ⟨session, own, live, handle⟩⟩
    · exact Or.inr (Or.inr away)

/-! ### Last words -/

/-- All that is said in an action that removes players is said in the removals. -/
theorem Action.words_removals {a : Action} (h : a.removals g ≠ []) :
    a.words g = (a.removals g).flatMap Removal.words := by
  have packets : ∀ packet who handle, g.server.packetRemovals packet who handle ≠ [] →
      g.server.packetWords packet who handle =
        (g.server.packetRemovals packet who handle).flatMap Removal.words := by
    intro packet who handle some
    rcases packetRemovals_cases g.server packet who handle with
      none | ⟨goodbye, j, session, routed, rfl, rfl, -, one⟩
    · exact absurd none some
    · rw [one, List.flatMap_singleton]
      simp only [Server.packetWords, routed]
      rfl
  cases a with
  | event e =>
    cases e with
    | connected handle => exact absurd rfl h
    | packet handle p => exact packets p _ handle h
    | disconnected handle => rfl
  | packet handle p => exact packets p _ handle h
  | dispatch p who handle => exact packets p who handle h
  | remove id => exact (List.flatMap_singleton _ _).symm
  | disconnect handle => rfl
  | shutdown => rfl
  | _ => exact absurd rfl h

/-- **What a session says in the step that ends it**, it says while it lives, of others that are
removed before it. -/
theorem step_last_words (sound : g.Sound) (h : g.server.Enrolled) {a : Action}
    (regular : a.isRegular = true) (hstep : g.step a = .ok g') {id : SessionId}
    (live : g.server.isEnded id = false) (ended : g'.server.isEnded id = true) :
    ∀ u ∈ a.words g, u.speaker = some id →
      ∃ r ∈ a.removals g, u ∈ r.words ∧ r.session ≠ id ∧ r.before.isEnded id = false := by
  intro u hu speaker
  have told : a.isFinalize = false := Action.told_of_regular regular
  have removes : a.removals g ≠ [] := by
    intro none
    obtain ⟨g'', hstep', c⟩ := step_changes sound a
    rw [hstep] at hstep'
    cases hstep'
    have endless : Changes (· ∈ a.actors g) (fun _ => False) g g' := by
      refine c.mono (fun _ h => h) fun e ends => ?_
      rw [Action.ends_told told ends] at ends
      exact ends none
    have same := endless.isEnded sound id
    rw [live, ended] at same
    cases same
  rw [Action.words_removals removes] at hu
  obtain ⟨r, hr, hu⟩ := List.mem_flatMap.mp hu
  have enrolled : r.before.Enrolled := (changes_removals hr).invariant
    (P := fun g => g.server.Enrolled) (fun sound h c => c.enrolled sound h) sound h
  obtain ⟨id', session, speaker', own, lives, -⟩ := enrolled.spoken_farewell r.session u hu
  rw [speaker] at speaker'
  cases speaker'
  refine ⟨r, hr, hu, fun same => ?_, by rw [Server.isEnded_eq own, lives]⟩
  exact enrolled.farewell_others hu (by rw [speaker, same])

end BlockWorld
