import Mathlib.Logic.Relation
import BlockWorld.Proofs.Removal
import BlockWorld.Proofs.Operations

/-! # An action is a chain of changes

Whatever happens to a game comes down to ten kinds of changes. An invariant of games is shown for each
of them once, and then holds along every run.

* `Game.Sound`: what makes sure that no operation overflows.
* `Turn`: the kinds of changes, each with the exact game that comes of it and with all that is said.
* `Change`: the same, whatever is said.
* `Changes`, `Turns`: chains of changes; `Changes.invariant`, `Turns.invariant`: what they keep.
* `Change.sound`: soundness survives every change.
* `Change.lasts`: no session is ever lost, and none comes back after its end.
* `Change.other`: nobody changes but those who act. -/

namespace BlockWorld

open Relation

/-! ### Sound games -/

/-- All sessions are sound, and the passes under way deal with columns near the origin. -/
structure Game.Sound (g : Game) : Prop where
  session : ∀ {id session}, g.server.session? id = some session → session.Sound
  wanted : ∀ pass ∈ g.passes, ∀ p ∈ pass.wanted, p.Within columnBound
  fetched : ∀ pass ∈ g.passes, ∀ p ∈ pass.fetched, p.Within columnBound

/-! ### Changes -/

/-- One change of a game by a session of `acts`, which may end in the ways of `ends`; with what is said
in it. -/
inductive Turn (acts : SessionId → Prop) (ends : Ending → Prop) :
    Game → List Utterance → Game → Prop
  | aside (g : Game) {us : List Utterance} {s : Server} (h : g.server.Aside us s) :
    Turn acts ends g us { g with server := s }
  | login (g : Game) {login : Login} {handle : Handle} (named : login.username.isEmpty = false)
      (free : g.server.registry.refusal? login.username handle
        g.server.config.capacity.toNat = none) :
    Turn acts ends g (g.server.greeting handle) { g with server := g.server.accept login handle }
  | setViewDistance (g : Game) {id : SessionId} (act : acts id) (v : UInt32) :
    Turn acts ends g [] { g with
      server := g.server.update id (·.setViewDistance v)
      lookers := g.lookers.erase id }
  | finalize (g : Game) {id : SessionId} (h : ends .unheard) (act : acts id) :
    Turn acts ends g [] { g with server := (g.server.perform id (·.finalize)).2 }
  | remove (g : Game) {id : SessionId} (h : ends .heard) (act : acts id) :
    Turn acts ends g (g.server.farewell id) { g with server := (g.server.removePlayer id).2 }
  | look (g : Game) {id : SessionId} {session : Session} {course : Course} {glance : Glance}
      {sc : Scene} (act : acts id) (own : g.server.session? id = some session)
      (live : session.finalized = false) (fresh : course = .enter → session.spawned = false)
      (phase : course.phase { session, world := g.server.world } = .ok (some glance, sc)) :
    Turn acts ends g (g.server.voice id course.phase)
      { server := g.server.absorb id sc
        passes := g.passes ++ [{ session := id, spawning := course.enters, culled := glance.culled,
                                 wanted := glance.wanted }]
        lookers := insert id g.lookers }
  | fetch (g : Game) {p : ChunkPos} {f : Fetch} {s : Server} (h : g.server.column p = .ok (f, s)) :
    Turn acts ends g [] { g with server := s }
  | edit (g : Game) (p : ChunkPos) {f : Column → Column} (h : ∀ c, (f c).viewers = c.viewers) :
    Turn acts ends g [] { g with server.world := g.server.world.modify p f }
  | advance (g : Game) {i : Nat} {pass pass' : Pass} {s : Server} (own : g.passes[i]? = some pass)
      (act : acts pass.session) (h : g.server.advance pass = .ok (pass', s)) :
    Turn acts ends g [] { g with server := s, passes := g.passes.set i pass' }
  | settle (g : Game) {i : Nat} {pass : Pass} {report : Report} {s : Server}
      (own : g.passes[i]? = some pass) (act : acts pass.session) (idle : pass.wanted = [])
      (h : g.server.settle pass = .ok (report, s)) :
    Turn acts ends g (g.server.settling pass) { g with server := s, passes := g.passes.eraseIdx i }

/-- One change, whatever is said in it. -/
def Change (acts : SessionId → Prop) (ends : Ending → Prop) (g g' : Game) : Prop :=
  ∃ us, Turn acts ends g us g'

/-- Several changes one after the other. -/
abbrev Changes (acts : SessionId → Prop) (ends : Ending → Prop) : Game → Game → Prop :=
  ReflTransGen (Change acts ends)

/-- Several changes one after the other, with all that is said in them. -/
inductive Turns (acts : SessionId → Prop) (ends : Ending → Prop) :
    Game → List Utterance → Game → Prop
  | refl (g : Game) : Turns acts ends g [] g
  | tail {g g' g'' : Game} {us vs : List Utterance} (c : Turns acts ends g us g')
      (d : Turn acts ends g' vs g'') : Turns acts ends g (us ++ vs) g''

variable {acts acts' : SessionId → Prop} {ends ends' : Ending → Prop} {g g' g'' : Game}
  {us vs : List Utterance}

theorem Turn.mono (h : Turn acts ends g us g') (ha : ∀ id, acts id → acts' id)
    (he : ∀ e, ends e → ends' e) : Turn acts' ends' g us g' := by
  cases h with
  | aside h => exact .aside g h
  | login named free => exact .login g named free
  | setViewDistance act v => exact .setViewDistance g (ha _ act) v
  | finalize h act => exact .finalize g (he _ h) (ha _ act)
  | remove h act => exact .remove g (he _ h) (ha _ act)
  | look act own live fresh phase => exact .look g (ha _ act) own live fresh phase
  | fetch h => exact .fetch g h
  | edit p h => exact .edit g p h
  | advance own act h => exact .advance g own (ha _ act) h
  | settle own act idle h => exact .settle g own (ha _ act) idle h

theorem Changes.mono (h : Changes acts ends g g') (ha : ∀ id, acts id → acts' id)
    (he : ∀ e, ends e → ends' e) : Changes acts' ends' g g' :=
  ReflTransGen.mono (fun _ _ ⟨us, c⟩ => ⟨us, c.mono ha he⟩) _ _ h

namespace Turns

theorem single (c : Turn acts ends g us g') : Turns acts ends g us g' := (Turns.refl g).tail c

theorem trans (c : Turns acts ends g us g') (d : Turns acts ends g' vs g'') :
    Turns acts ends g (us ++ vs) g'' := by
  induction d with
  | refl => rw [List.append_nil]; exact c
  | tail _ e ih => rw [← List.append_assoc]; exact ih.tail e

theorem head (c : Turn acts ends g us g') (d : Turns acts ends g' vs g'') :
    Turns acts ends g (us ++ vs) g'' := (single c).trans d

theorem mono (c : Turns acts ends g us g') (ha : ∀ id, acts id → acts' id)
    (he : ∀ e, ends e → ends' e) : Turns acts' ends' g us g' := by
  induction c with
  | refl => exact .refl _
  | tail _ d ih => exact ih.tail (d.mono ha he)

theorem changes (c : Turns acts ends g us g') : Changes acts ends g g' := by
  induction c with
  | refl => exact .refl
  | tail _ d ih => exact ih.tail ⟨_, d⟩

end Turns

/-! ### Soundness survives -/

section Sound

/-- What the phase of a look came to is what it is specified to be. -/
theorem looked {course : Course} {session : Session} {w : World} {glance : Glance} {sc : Scene}
    (live : session.finalized = false) (sound : session.Sound)
    (phase : course.phase { session, world := w } = .ok (some glance, sc)) :
    ∃ t', sc.session = (course.apply session).track t' ∧
      (∀ p, p ∈ t' ↔ p ∈ session.tracked ∧
        InView (course.apply session).anchor session.viewDistance p) ∧
      (∀ p, p ∈ glance.wanted ↔
        InView (course.apply session).anchor session.viewDistance p ∧ p ∉ session.tracked) ∧
      Follows session.viewerId session.tracked t' w sc.world := by
  obtain ⟨glance', t', sc', hphase, hs, hm, hw, hf⟩ :=
    course.phase_spec { session, world := w } live sound
  rw [hphase] at phase
  cases phase
  exact ⟨t', hs, hm, hw, hf⟩

/-- A pass comes to its end, and to what it is specified to come to. -/
theorem Game.Sound.settles (sound : g.Sound) {i : Nat} {pass : Pass} (own : g.passes[i]? = some pass) :
    ∃ report s, g.server.settle pass = .ok (report, s) ∧ s.registry = g.server.registry ∧
      g.server.Settles pass report s :=
  Server.settle_spec (fun _ hs => sound.session hs) (sound.fetched pass (List.mem_of_getElem? own))

/-- What the end of a pass came to is what it is specified to be. -/
theorem Game.Sound.settled (sound : g.Sound) {i : Nat} {pass : Pass} {report : Report} {s : Server}
    (own : g.passes[i]? = some pass) (h : g.server.settle pass = .ok (report, s)) :
    s.registry = g.server.registry ∧ g.server.Settles pass report s := by
  obtain ⟨report', s', heq, registry, settles⟩ := sound.settles own
  rw [heq] at h
  cases h
  exact ⟨registry, settles⟩

/-- Where one session becomes a sound one, all stay sound. -/
theorem Server.Becomes.sound {s s' : Server} {id : SessionId} {session' : Session}
    (h : s.Becomes id session' s')
    (hs : ∀ {j session}, s.session? j = some session → session.Sound) (sound : session'.Sound)
    {j : SessionId} {session : Session} (hj : s'.session? j = some session) : session.Sound := by
  rw [h.session?] at hj
  split at hj
  · cases hj; exact sound
  · exact hs hj

/-- A sound game with another server all of whose sessions are sound. -/
theorem Game.Sound.server (h : g.Sound) {s : Server} {lookers : Finset SessionId}
    (hs : ∀ {id session}, s.session? id = some session → session.Sound) :
    Game.Sound { server := s, passes := g.passes, lookers } :=
  ⟨hs, h.wanted, h.fetched⟩

theorem Server.Ends.sound {s s' : Server} {id : SessionId} (h : s.Ends id s')
    (hs : ∀ {j session}, s.session? j = some session → session.Sound) {j : SessionId}
    {session : Session} (hj : s'.session? j = some session) : session.Sound := by
  cases h with
  | void _ keeps _ => rw [keeps.session?] at hj; exact hs hj
  | live own _ becomes _ => exact becomes.sound hs (hs own).ended hj

/-- **Soundness survives every change.** -/
theorem Change.sound (h : Change acts ends g g') (sound : g.Sound) : g'.Sound := by
  obtain ⟨us, h⟩ := h
  cases h with
  | aside h =>
    refine sound.server ?_
    intro id session' hs'
    obtain ⟨session, hs, alike⟩ := h.quiet.session hs'
    exact alike.sound (sound.session hs)
  | login named free =>
    refine sound.server ?_
    intro id session' hs'
    rw [(g.server.accept_spec _ _).session?] at hs'
    split at hs'
    · cases hs'
      exact .create _ _ _ _ _ _
    · exact sound.session hs'
  | setViewDistance act v =>
    refine sound.server ?_
    intro id session' hs'
    rw [Server.session?_update] at hs'
    split at hs'
    · obtain ⟨session, hs, rfl⟩ := Option.map_eq_some_iff.mp hs'
      exact (sound.session hs).setViewDistance v
    · exact sound.session hs'
  | finalize _ act => exact sound.server ((g.server.ends_finalize _).sound sound.session)
  | remove _ act => exact sound.server ((g.server.ends_removePlayer _).sound sound.session)
  | look act own live fresh phase =>
    rename_i id session course glance sc
    obtain ⟨t', hs, hm, hw, -⟩ := looked live (sound.session own) phase
    have moved := course.sound_apply (sound.session own) live
    have lives : (course.apply session).finalized = false := by rw [Course.apply_finalized, live]
    have near : ∀ p ∈ t', p.Within columnBound :=
      fun p hp => (sound.session own).tracked p ((hm p).mp hp).1
    have becomes := Server.becomes_absorb own sc
    rw [hs] at becomes
    refine ⟨becomes.sound sound.session (moved.track near lives), ?_, ?_⟩
    · intro pass hpass p hp
      rcases List.mem_append.mp hpass with hpass | hpass
      · exact sound.wanted pass hpass p hp
      · cases List.mem_singleton.mp hpass
        have inView := ((hw p).mp hp).1
        exact inView.within moved.within
    · intro pass hpass p hp
      rcases List.mem_append.mp hpass with hpass | hpass
      · exact sound.fetched pass hpass p hp
      · cases List.mem_singleton.mp hpass
        simp at hp
  | fetch h =>
    obtain ⟨keeps, -⟩ := Server.column_spec h
    refine sound.server ?_
    intro id session hs
    rw [keeps.session?] at hs
    exact sound.session hs
  | edit p h => exact sound.server sound.session
  | advance own act h =>
    rename_i i pass pass' s
    have mem : pass ∈ g.passes := List.mem_of_getElem? own
    have advances := Server.advance_spec h
    refine ⟨?_, ?_, ?_⟩
    · intro j session hs
      rw [advances.keeps.session?] at hs
      exact sound.session hs
    · intro q hq p hp
      rcases List.mem_or_eq_of_mem_set hq with hq | rfl
      · exact sound.wanted q hq p hp
      · exact sound.wanted pass mem p (advances.wanted p hp)
    · intro q hq p hp
      rcases List.mem_or_eq_of_mem_set hq with hq | rfl
      · exact sound.fetched q hq p hp
      · rcases advances.fetched p hp with hp | ⟨hp, -⟩
        · exact sound.fetched pass mem p hp
        · exact sound.wanted pass mem p hp
  | settle own act idle h =>
    rename_i i pass report s
    have mem : pass ∈ g.passes := List.mem_of_getElem? own
    obtain ⟨-, settles⟩ := sound.settled own h
    refine ⟨?_, fun q hq => sound.wanted q (List.mem_of_mem_eraseIdx hq),
      fun q hq => sound.fetched q (List.mem_of_mem_eraseIdx hq)⟩
    intro id session hs
    cases settles with
    | void _ keeps _ =>
      rw [keeps.session?] at hs
      exact sound.session hs
    | live own' live becomes tracked _ =>
      refine becomes.sound sound.session ((sound.session own').track ?_ live) hs
      intro p hp
      rcases (tracked p).mp hp with hp | ⟨hp, -⟩
      · exact (sound.session own').tracked p hp
      · exact sound.fetched pass mem p hp

theorem Changes.sound (h : Changes acts ends g g') (sound : g.Sound) : g'.Sound := by
  induction h with
  | refl => exact sound
  | tail _ c ih => exact Change.sound c ih

end Sound

/-- An invariant that every change of a sound game keeps holds after any chain of changes. -/
theorem Changes.invariant {P : Game → Prop}
    (kept : ∀ {g g'}, g.Sound → P g → Change acts ends g g' → P g')
    (h : Changes acts ends g g') (sound : g.Sound) (hP : P g) : P g' := by
  induction h with
  | refl => exact hP
  | tail c d ih => exact kept (Changes.sound c sound) ih d

/-- The same of what is said along the way. -/
theorem Turns.invariant {P : List Utterance → Game → Prop}
    (kept : ∀ {g g' us vs}, g.Sound → P us g → Turn acts ends g vs g' → P (us ++ vs) g')
    (h : Turns acts ends g us g') (sound : g.Sound) (hP : P vs g) : P (vs ++ us) g' := by
  induction h with
  | refl => rw [List.append_nil]; exact hP
  | tail c d ih =>
    rw [← List.append_assoc]
    exact kept (c.changes.sound sound) ih d

/-! ### What lasts -/

/-- The configuration and the dispatcher are the same. -/
structure Server.SameSettings (s s' : Server) : Prop where
  config : s'.config = s.config
  dispatcher : s'.dispatcher = s.dispatcher

theorem Server.Ends.settings {s s' : Server} {id : SessionId} (h : s.Ends id s') :
    s.SameSettings s' := by
  cases h with
  | void _ keeps _ => exact ⟨keeps.config, keeps.dispatcher⟩
  | live _ _ becomes _ => exact ⟨becomes.config, becomes.dispatcher⟩

/-- No change touches the settings. -/
theorem Change.settings (h : Change acts ends g g') (sound : g.Sound) :
    g.server.SameSettings g'.server := by
  obtain ⟨us, h⟩ := h
  cases h with
  | aside h => exact ⟨h.quiet.config, h.quiet.dispatcher⟩
  | login named free =>
    have spec := g.server.accept_spec
    exact ⟨(spec _ _).config, (spec _ _).dispatcher⟩
  | setViewDistance act v => exact ⟨rfl, rfl⟩
  | finalize _ act => exact (g.server.ends_finalize _).settings
  | remove _ act => exact (g.server.ends_removePlayer _).settings
  | look act own live fresh phase => exact ⟨rfl, rfl⟩
  | fetch h =>
    obtain ⟨keeps, -⟩ := Server.column_spec h
    exact ⟨keeps.config, keeps.dispatcher⟩
  | edit p h => exact ⟨rfl, rfl⟩
  | advance own act h =>
    have keeps := (Server.advance_spec h).keeps
    exact ⟨keeps.config, keeps.dispatcher⟩
  | settle own act idle h =>
    obtain ⟨-, settles⟩ := sound.settled own h
    cases settles with
    | void _ keeps _ => exact ⟨keeps.config, keeps.dispatcher⟩
    | live _ _ becomes _ _ => exact ⟨becomes.config, becomes.dispatcher⟩

theorem Changes.settings (h : Changes acts ends g g') (sound : g.Sound) :
    g.server.SameSettings g'.server :=
  h.invariant (P := fun g' => g.server.SameSettings g'.server)
    (fun sound before c =>
      have after := c.settings sound
      ⟨after.config.trans before.config, after.dispatcher.trans before.dispatcher⟩)
    sound ⟨rfl, rfl⟩

/-- The same player, later: an end is for good. -/
structure Session.Lasts (s s' : Session) : Prop where
  handle : s'.handle = s.handle
  entityId : s'.entityId = s.entityId
  name : s'.name = s.name
  finalized : s.finalized = true → s'.finalized = true

theorem Session.Lasts.refl (s : Session) : s.Lasts s := ⟨rfl, rfl, rfl, id⟩

theorem Session.Lasts.trans {s s' s'' : Session} (h : s.Lasts s') (h' : s'.Lasts s'') :
    s.Lasts s'' :=
  ⟨h'.handle.trans h.handle, h'.entityId.trans h.entityId, h'.name.trans h.name,
    fun hf => h'.finalized (h.finalized hf)⟩

theorem Session.Alike.lasts {s s' : Session} (h : s.Alike s') : s.Lasts s' :=
  ⟨h.handle, h.entityId, h.name, fun hf => by rw [h.finalized, hf]⟩

theorem Server.Ends.lasts {s s' : Server} {id j : SessionId} {session : Session}
    (h : s.Ends id s') (hj : s.session? j = some session) :
    ∃ session', s'.session? j = some session' ∧ session.Lasts session' := by
  cases h with
  | void _ keeps _ => exact ⟨session, keeps.known hj, .refl _⟩
  | live own _ becomes _ => exact becomes.forth .refl own ⟨rfl, rfl, rfl, fun _ => rfl⟩ hj

theorem Server.Ends.other {s s' : Server} {id j : SessionId} {session : Session}
    (h : s.Ends id s') (hne : j ≠ id) (hj : s.session? j = some session) :
    ∃ session', s'.session? j = some session' ∧ session.Alike session' := by
  cases h with
  | void _ keeps _ => exact ⟨session, keeps.known hj, .refl _⟩
  | live own _ becomes _ => exact ⟨session, by rw [becomes.other hne, hj], .refl _⟩

/-- **No session is ever lost**, and none comes back after its end. -/
theorem Change.lasts (h : Change acts ends g g') (sound : g.Sound) {id : SessionId}
    {session : Session} (hs : g.server.session? id = some session) :
    ∃ session', g'.server.session? id = some session' ∧ session.Lasts session' := by
  obtain ⟨us, h⟩ := h
  cases h with
  | aside h =>
    obtain ⟨session', hs', alike⟩ := h.quiet.session_of hs
    exact ⟨session', hs', alike.lasts⟩
  | login named free =>
    have spec := g.server.accept_spec
    exact ⟨session, (spec _ _).known hs, .refl _⟩
  | setViewDistance act v =>
    dsimp only
    rw [Server.session?_update, hs]
    split
    · exact ⟨_, rfl, rfl, rfl, rfl, fun hf => hf⟩
    · exact ⟨session, rfl, .refl _⟩
  | finalize _ act => exact (g.server.ends_finalize _).lasts hs
  | remove _ act => exact (g.server.ends_removePlayer _).lasts hs
  | look act own live fresh phase =>
    obtain ⟨t', heq, -⟩ := looked live (sound.session own) phase
    refine (Server.becomes_absorb own _).forth .refl own ?_ hs
    rw [heq]
    exact ⟨by simp, by simp, by simp, by simp [live]⟩
  | fetch h =>
    obtain ⟨keeps, -⟩ := Server.column_spec h
    exact ⟨session, keeps.known hs, .refl _⟩
  | edit p h => exact ⟨session, hs, .refl _⟩
  | advance own act h =>
    have keeps := (Server.advance_spec h).keeps
    exact ⟨session, keeps.known hs, .refl _⟩
  | settle own act idle h =>
    obtain ⟨-, settles⟩ := sound.settled own h
    cases settles with
    | void _ keeps _ => exact ⟨session, keeps.known hs, .refl _⟩
    | live own' _ becomes _ _ => exact becomes.forth .refl own' ⟨rfl, rfl, rfl, fun hf => hf⟩ hs

/-- **Whoever does not act** has the same place, life and columns after a change. -/
theorem Change.other (h : Change acts ends g g') (sound : g.Sound) {id : SessionId} (idle : ¬ acts id)
    {session : Session} (hs : g.server.session? id = some session) :
    ∃ session', g'.server.session? id = some session' ∧ session.Alike session' := by
  have apart : ∀ {j}, acts j → id ≠ j := fun act same => idle (same ▸ act)
  obtain ⟨us, h⟩ := h
  cases h with
  | aside h => exact h.quiet.session_of hs
  | login named free =>
    have spec := g.server.accept_spec
    exact ⟨session, (spec _ _).known hs, .refl _⟩
  | setViewDistance act v =>
    refine ⟨session, ?_, .refl _⟩
    rw [Server.session?_update, if_neg (apart act).symm, hs]
  | finalize _ act => exact (g.server.ends_finalize _).other (apart act) hs
  | remove _ act => exact (g.server.ends_removePlayer _).other (apart act) hs
  | look act own live fresh phase =>
    exact ⟨session, by rw [Server.session?_absorb_ne _ (apart act), hs], .refl _⟩
  | fetch h =>
    obtain ⟨keeps, -⟩ := Server.column_spec h
    exact ⟨session, keeps.known hs, .refl _⟩
  | edit p h => exact ⟨session, hs, .refl _⟩
  | advance own act h =>
    have keeps := (Server.advance_spec h).keeps
    exact ⟨session, keeps.known hs, .refl _⟩
  | settle own act idle h =>
    obtain ⟨-, settles⟩ := sound.settled own h
    cases settles with
    | void _ keeps _ => exact ⟨session, keeps.known hs, .refl _⟩
    | live own' _ becomes _ _ => exact ⟨session, by rw [becomes.other (apart act), hs], .refl _⟩

theorem Changes.other (h : Changes acts ends g g') (sound : g.Sound) {id : SessionId}
    (idle : ¬ acts id) {session : Session} (hs : g.server.session? id = some session) :
    ∃ session', g'.server.session? id = some session' ∧ session.Alike session' :=
  h.invariant (P := fun g => ∃ session', g.server.session? id = some session' ∧ session.Alike session')
    (fun sound ⟨_, hs', alike⟩ c => by
      obtain ⟨session'', hs'', alike'⟩ := c.other sound idle hs'
      exact ⟨session'', hs'', alike.trans alike'⟩)
    sound ⟨session, hs, .refl _⟩

theorem Changes.lasts (h : Changes acts ends g g') (sound : g.Sound) {id : SessionId}
    {session : Session} (hs : g.server.session? id = some session) :
    ∃ session', g'.server.session? id = some session' ∧ session.Lasts session' :=
  h.invariant (P := fun g => ∃ session', g.server.session? id = some session' ∧ session.Lasts session')
    (fun sound ⟨_, hs', l⟩ c => by
      obtain ⟨session'', hs'', l'⟩ := c.lasts sound hs'
      exact ⟨session'', hs'', l.trans l'⟩)
    sound ⟨session, hs, .refl _⟩

end BlockWorld
