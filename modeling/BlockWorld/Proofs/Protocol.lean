import BlockWorld.Proofs.Speaker

/-! # The protocol of a session

What a session says to its client in the course of its life: first a welcome; at most once that it is
in the world, right after its attributes; and nothing once it has ended, whatever was still under way
for it by then.

* `Heralded`: each entry into the world comes right after the attributes.
* `Game.Protocol`, `Turn.protocol`: what holds of what was said so far, and that it survives every
  change.
* `Server.hasEntered`, `Step.appears`: a session becomes visible at most once.
* `startSpawn_answer`, `settle_answer`: a spawn that fails brings nobody into the world.
* `packet_protocol`: all of it, along every run from a fresh server. -/

namespace BlockWorld

/-- What a player is told first. -/
def welcome : List Packet := [.playStatus .loginSuccess, .resourcePacksInfo {}]

/-! ### Entries -/

/-- Each entry into the world comes right after the attributes of the entity `r`, with tick 0. -/
def Heralded (r : UInt64) (ps : List Packet) : Prop :=
  ∀ before after, ps = before ++ .playStatus .playerSpawn :: after →
    ∃ earlier attributes, before = earlier ++ [.updateAttributes ⟨r, attributes, 0⟩]

namespace Heralded

variable {r : UInt64} {ps qs : List Packet}

theorem of_not_mem (h : .playStatus .playerSpawn ∉ ps) : Heralded r ps := by
  rintro before after rfl
  exact absurd (List.mem_append_right _ List.mem_cons_self) h

theorem append (h : Heralded r ps) (h' : Heralded r qs) : Heralded r (ps ++ qs) := by
  intro before after split
  rcases List.append_eq_append_iff.mp split with ⟨middle, rfl, inner⟩ | ⟨middle, rfl, inner⟩
  · obtain ⟨earlier, attributes, rfl⟩ := h' middle after inner
    exact ⟨ps ++ earlier, attributes, (List.append_assoc _ _ _).symm⟩
  · rcases List.append_eq_cons_iff.mp inner.symm with ⟨rfl, inner⟩ | ⟨rest, rfl, -⟩
    · obtain ⟨earlier, attributes, none⟩ := h' [] after inner.symm
      exact absurd none.symm (List.append_ne_nil_of_right_ne_nil _ (List.cons_ne_nil _ _))
    · exact h before rest rfl

end Heralded

/-- How often a player is told that it is in the world. -/
def entries (ps : List Packet) : Nat := ps.countP fun p => decide (p = .playStatus .playerSpawn)

theorem entries_append (ps qs : List Packet) : entries (ps ++ qs) = entries ps + entries qs :=
  List.countP_append

theorem entries_eq_zero {ps : List Packet} (h : .playStatus .playerSpawn ∉ ps) : entries ps = 0 :=
  List.countP_eq_zero.mpr fun _ hp entry => h (of_decide_eq_true entry ▸ hp)

theorem heralded_entry (session : Session) : Heralded session.runtimeId session.entry := by
  intro before after split
  unfold Session.entry at split
  match before, split with
  | [], split => simp at split
  | [p], split =>
    simp only [List.cons_append, List.nil_append, List.cons.injEq] at split
    exact ⟨[], session.attributes.entries, by rw [← split.1]; rfl⟩
  | p :: q :: rest, split => simp at split

theorem playerSpawn_not_mem_of_chatter {us : List Utterance} {id : SessionId}
    (h : ∀ u ∈ us, u.packet.isChatter = true) : .playStatus .playerSpawn ∉ saidBy id us := by
  intro hp
  obtain ⟨u, hu, -, packet⟩ := mem_saidBy.mp hp
  have chatter := h u hu
  rw [packet] at chatter
  cases chatter

theorem playerSpawn_not_mem_announcements (new : List ChunkPos) :
    .playStatus .playerSpawn ∉ new.map ChunkPos.announcement := by
  simp [ChunkPos.announcement]

theorem saidBy_map (id : SessionId) (handle : Handle) (ps : List Packet) :
    saidBy id (ps.map (Utterance.mk (some id) handle)) = ps := by
  induction ps with
  | nil => rfl
  | cons p ps ih => simpa [saidBy] using ih

theorem saidBy_map_ne {id j : SessionId} (h : j ≠ id) (handle : Handle) (ps : List Packet) :
    saidBy j (ps.map (Utterance.mk (some id) handle)) = [] := by
  have others : ∀ u ∈ ps.map (Utterance.mk (some id) handle), ¬ (u.speaker == some j) = true := by
    intro u hu same
    obtain ⟨p, -, rfl⟩ := List.mem_map.mp hu
    have speaker : some id = some j := eq_of_beq same
    exact h (Option.some.inj speaker).symm
  rw [saidBy, List.filter_eq_nil_iff.mpr others, List.map_nil]

theorem saidBy_of_lt {s : Server} {us : List Utterance} (h : s.Chatter us) {id : SessionId}
    (new : s.sessions.size ≤ id) : saidBy id us = [] := by
  have others : ∀ u ∈ us, ¬ (u.speaker == some id) = true := by
    intro u hu same
    exact absurd ((h u hu).2 id (eq_of_beq same)) (Nat.not_lt.mpr new)
  rw [saidBy, List.filter_eq_nil_iff.mpr others, List.map_nil]

/-! ### The protocol so far -/

/-- Whether the session is or was visible. -/
def Session.hasEntered (s : Session) : Bool := s.spawned || s.finalized

/-- The passes at whose end the session `id` enters the world. -/
def Game.entering (g : Game) (id : SessionId) : Nat :=
  g.passes.countP fun pass => pass.session == id && pass.spawning

/-- The same player, at least as visible as before. -/
structure Session.Advances (s s' : Session) : Prop where
  entityId : s'.entityId = s.entityId
  hasEntered : s.hasEntered = true → s'.hasEntered = true

theorem Session.Advances.refl (s : Session) : s.Advances s := ⟨rfl, fun h => h⟩

theorem Session.Alike.advances {s s' : Session} (h : s.Alike s') : s.Advances s' :=
  ⟨h.entityId, fun entered => by rwa [hasEntered, h.spawned, h.finalized]⟩

theorem Course.advances (course : Course) (session : Session) (t : Tracked) :
    session.Advances ((course.apply session).track t) := by
  refine ⟨by simp, ?_⟩
  cases course <;> simp [Session.hasEntered, Course.apply, Session.track]

/-- What holds of what was said so far. A session that has not become visible has not entered the
world and has no pass under way by which it would; one that has, had one such pass. -/
structure Game.Protocol (us : List Utterance) (g : Game) : Prop where
  known : ∀ pass ∈ g.passes, pass.session < g.server.sessions.size
  unborn : ∀ id, g.server.sessions.size ≤ id → saidBy id us = []
  greeted : ∀ id, id < g.server.sessions.size → welcome <+: saidBy id us
  heralded : ∀ {id session}, g.server.session? id = some session →
    Heralded session.runtimeId (saidBy id us)
  once : ∀ {id session}, g.server.session? id = some session →
    entries (saidBy id us) + g.entering id ≤ session.hasEntered.toNat

variable {acts : SessionId → Prop} {ends : Ending → Prop} {g g' : Game} {us vs : List Utterance}

/-- **No session becomes less visible** but by its end. -/
theorem Change.advances (h : Change acts ends g g') (sound : g.Sound) {id : SessionId}
    {session : Session} (hs : g.server.session? id = some session) :
    ∃ session', g'.server.session? id = some session' ∧ session.Advances session' := by
  have ending : ∀ {j s'}, g.server.Ends j s' → ∃ session', s'.session? id = some session' ∧
      session.Advances session' := by
    intro j s' h
    cases h with
    | void _ keeps _ => exact ⟨session, keeps.known hs, .refl _⟩
    | live own _ becomes _ => exact becomes.forth .refl own ⟨rfl, fun _ => rfl⟩ hs
  obtain ⟨us, h⟩ := h
  cases h with
  | aside h =>
    obtain ⟨session', hs', alike⟩ := h.quiet.session_of hs
    exact ⟨session', hs', alike.advances⟩
  | login named free => exact ⟨session, (g.server.accept_spec _ _).known hs, .refl _⟩
  | setViewDistance act v =>
    dsimp only
    rw [Server.session?_update, hs]
    split
    · exact ⟨_, rfl, rfl, fun h => h⟩
    · exact ⟨session, rfl, .refl _⟩
  | finalize _ act => exact ending (g.server.ends_finalize _)
  | remove _ act => exact ending (g.server.ends_removePlayer _)
  | look act own live fresh phase =>
    rename_i j looker course glance sc
    obtain ⟨t', heq, -⟩ := looked live (sound.session own) phase
    refine (Server.becomes_absorb own sc).forth .refl own ?_ hs
    rw [heq]
    exact course.advances looker t'
  | fetch h =>
    obtain ⟨keeps, -⟩ := Server.column_spec h
    exact ⟨session, keeps.known hs, .refl _⟩
  | edit p h => exact ⟨session, hs, .refl _⟩
  | advance own act h => exact ⟨session, (Server.advance_spec h).keeps.known hs, .refl _⟩
  | settle own act idle h =>
    obtain ⟨-, settles⟩ := sound.settled own h
    cases settles with
    | void _ keeps _ => exact ⟨session, keeps.known hs, .refl _⟩
    | live own' _ becomes _ _ => exact becomes.forth .refl own' ⟨rfl, fun h => h⟩ hs

theorem Session.Advances.runtimeId {s s' : Session} (h : s.Advances s') : s'.runtimeId = s.runtimeId :=
  congrArg Int64.toUInt64 h.entityId

/-- What is said keeps the protocol, if the same sessions are there, and each of them says what it may:
entries after its attributes, and those only that a pass stood for or that its visibility allows. -/
theorem Game.Protocol.said (h : g.Protocol us)
    (size : g'.server.sessions.size = g.server.sessions.size)
    (known : ∀ pass ∈ g'.passes, pass.session < g.server.sessions.size)
    (unborn : ∀ id, g.server.sessions.size ≤ id → saidBy id vs = [])
    (back : ∀ {id session'}, g'.server.session? id = some session' → ∃ session,
      g.server.session? id = some session ∧ session.Advances session' ∧
        Heralded session.runtimeId (saidBy id vs) ∧
        (entries (saidBy id us) + g.entering id ≤ session.hasEntered.toNat →
          entries (saidBy id us) + entries (saidBy id vs) + g'.entering id ≤
            session'.hasEntered.toNat)) :
    g'.Protocol (us ++ vs) := by
  refine ⟨by rw [size]; exact known, fun id new => ?_, fun id old => ?_, fun {id session'} hs' => ?_,
    fun {id session'} hs' => ?_⟩
  · rw [size] at new
    rw [saidBy_append, h.unborn id new, unborn id new]
    rfl
  · rw [size] at old
    rw [saidBy_append]
    exact (h.greeted id old).trans (List.prefix_append _ _)
  · obtain ⟨session, hs, advances, heralded, -⟩ := back hs'
    rw [saidBy_append, advances.runtimeId]
    exact (h.heralded hs).append heralded
  · obtain ⟨session, hs, -, -, kept⟩ := back hs'
    rw [saidBy_append, entries_append]
    exact kept (h.once hs)

/-- Chatter keeps the protocol, if the same sessions are there and no session gains a pass by which it
enters without having become visible. -/
theorem Game.Protocol.chatter (h : g.Protocol us) (chatter : g.server.Chatter vs)
    (size : g'.server.sessions.size = g.server.sessions.size)
    (known : ∀ pass ∈ g'.passes, pass.session < g.server.sessions.size)
    (back : ∀ {id session'}, g'.server.session? id = some session' → ∃ session,
      g.server.session? id = some session ∧ session.Advances session' ∧
        (entries (saidBy id us) + g.entering id ≤ session.hasEntered.toNat →
          entries (saidBy id us) + g'.entering id ≤ session'.hasEntered.toNat)) :
    g'.Protocol (us ++ vs) := by
  have silent : ∀ id, .playStatus .playerSpawn ∉ saidBy id vs :=
    fun id => playerSpawn_not_mem_of_chatter fun u hu => (chatter u hu).1
  refine h.said size known (fun id new => saidBy_of_lt chatter new) fun {id session'} hs' => ?_
  obtain ⟨session, hs, advances, kept⟩ := back hs'
  rw [entries_eq_zero (silent id), Nat.add_zero]
  exact ⟨session, hs, advances, .of_not_mem (silent id), kept⟩

/-- Chatter keeps the protocol, if the same sessions and passes are there. -/
theorem Game.Protocol.same (h : g.Protocol us) (sound : g.Sound) (c : Turn acts ends g vs g')
    (chatter : g.server.Chatter vs) (size : g'.server.sessions.size = g.server.sessions.size)
    (passes : g'.passes = g.passes) : g'.Protocol (us ++ vs) := by
  refine h.chatter chatter size (by rw [passes]; exact h.known) fun hs' => ?_
  obtain ⟨session, hs, advances⟩ := Server.session?_back size
    (fun hs => Change.advances ⟨vs, c⟩ sound hs) hs'
  refine ⟨session, hs, advances, fun once => ?_⟩
  rw [Game.entering, passes]
  exact once.trans (Bool.toNat_le_toNat advances.hasEntered)

/-- **A login** welcomes a session of which nothing was said before. -/
theorem protocol_login (h : g.Protocol us) (login : Login) (handle : Handle) :
    Game.Protocol (us ++ g.server.greeting handle)
      { g with server := g.server.accept login handle } := by
  have spec := g.server.accept_spec login handle
  have own : saidBy g.server.sessions.size (g.server.greeting handle) = welcome := by
    simp [saidBy, Server.greeting, welcome]
  have others : ∀ {id}, id ≠ g.server.sessions.size → saidBy id (g.server.greeting handle) = [] := by
    intro id hid
    simp [saidBy, Server.greeting, hid.symm]
  have silent : ∀ id, .playStatus .playerSpawn ∉ saidBy id (g.server.greeting handle) := by
    intro id
    by_cases hid : id = g.server.sessions.size
    · rw [hid, own]
      simp [welcome]
    · rw [others hid]
      exact List.not_mem_nil
  refine ⟨fun pass hpass => ?_, fun id new => ?_, fun id old => ?_, fun {id session} hs => ?_,
    fun {id session} hs => ?_⟩
  · have known := h.known pass hpass
    show pass.session < (g.server.accept login handle).sessions.size
    rw [spec.size]
    exact Nat.lt_succ_of_lt known
  · have unborn : g.server.sessions.size < id := by
      rw [spec.size] at new
      exact new
    rw [saidBy_append, h.unborn id unborn.le, others unborn.ne']
    rfl
  · rw [saidBy_append]
    by_cases hid : id = g.server.sessions.size
    · rw [h.unborn id hid.ge, hid, own]
      exact List.prefix_rfl
    · have known : id < g.server.sessions.size := by
        rw [spec.size] at old
        exact lt_of_le_of_ne (Nat.lt_succ_iff.mp old) hid
      exact (h.greeted id known).trans (List.prefix_append _ _)
  · rw [saidBy_append]
    rw [spec.session?] at hs
    split at hs
    · rename_i hid
      rw [h.unborn id hid.ge]
      exact .of_not_mem (silent id)
    · exact (h.heralded hs).append (.of_not_mem (silent id))
  · rw [saidBy_append, entries_append, entries_eq_zero (silent id), Nat.add_zero]
    rw [spec.session?] at hs
    split at hs
    · rename_i hid
      have none : g.entering id = 0 := by
        refine List.countP_eq_zero.mpr fun pass hpass entering => ?_
        have same : pass.session = id := eq_of_beq (Bool.and_eq_true_iff.mp entering).1
        exact (h.known pass hpass).ne (same.trans hid)
      rw [h.unborn id hid.ge]
      show entries [] + g.entering id ≤ _
      rw [none]
      exact Nat.zero_le _
    · exact h.once hs

theorem countP_eraseIdx {α : Type} {f : α → Bool} {as : List α} {i : Nat} {a : α}
    (h : as[i]? = some a) : (as.eraseIdx i).countP f + (f a).toNat = as.countP f := by
  obtain ⟨hi, rfl⟩ := List.getElem?_eq_some_iff.mp h
  rw [← (List.getElem_cons_eraseIdx_perm hi).countP_eq, List.countP_cons]
  cases f as[i] <;> rfl

theorem countP_set_of_eq {α : Type} {f : α → Bool} {as : List α} {i : Nat} {a b : α}
    (h : as[i]? = some a) (same : f b = f a) : (as.set i b).countP f = as.countP f := by
  obtain ⟨hi, rfl⟩ := List.getElem?_eq_some_iff.mp h
  have hi' : i < (as.map f).length := by rwa [List.length_map]
  have values : (as.set i b).map f = as.map f := by
    rw [List.map_set, same, ← List.getElem_map f (h := hi'), List.set_getElem_self]
  have count : ∀ bs : List α, bs.countP f = (bs.map f).countP id := fun bs => by
    rw [List.countP_map]; rfl
  rw [count, values, ← count]

namespace Server.Settles

variable {s s' : Server} {pass : Pass} {report : Report} {id : SessionId}

theorem size (h : s.Settles pass report s') : s'.sessions.size = s.sessions.size := by
  cases h with
  | void _ keeps _ _ _ => exact keeps.size
  | live _ _ becomes _ _ _ _ _ => exact becomes.size

/-- At the end of a pass only its session says something. -/
theorem silent_of_ne (h : s.Settles pass report s') (apart : id ≠ pass.session) :
    saidBy id (s.settling pass) = [] := by
  cases h with
  | void _ _ _ _ silent => rw [silent]; rfl
  | live _ _ _ _ _ _ _ words => rw [words, saidBy_map_ne apart]

theorem unborn (h : s.Settles pass report s') (new : s.sessions.size ≤ id) :
    saidBy id (s.settling pass) = [] := by
  cases h with
  | void _ _ _ _ silent => rw [silent]; rfl
  | live own _ _ _ _ _ _ words =>
    have known : pass.session < s.sessions.size := Server.session?_lt own
    rw [words, saidBy_map_ne (known.trans_le new).ne']

/-- **The end of a pass** tells a player that it is in the world only if that was to be told, and
right after its attributes. -/
theorem said {session : Session} (h : s.Settles pass report s') (hs : s.session? id = some session) :
    Heralded session.runtimeId (saidBy id (s.settling pass)) ∧
      entries (saidBy id (s.settling pass)) ≤ (pass.session == id && pass.spawning).toNat := by
  by_cases same : id = pass.session
  · subst same
    cases h with
    | void _ _ _ _ silent =>
      rw [silent]
      exact ⟨.of_not_mem List.not_mem_nil, Nat.zero_le _⟩
    | live own live becomes tracked joins spawned announces words =>
      rename_i session' t' new
      rw [hs] at own
      cases own
      have entered : Heralded session.runtimeId (if pass.spawning then session.entry else []) := by
        split
        · exact heralded_entry session
        · exact .of_not_mem List.not_mem_nil
      rw [words, saidBy_map, entries_append,
        entries_eq_zero (playerSpawn_not_mem_announcements new)]
      refine ⟨.append (.of_not_mem (playerSpawn_not_mem_announcements new)) entered, ?_⟩
      cases pass.spawning <;> simp [entries, Session.entry]
  · rw [h.silent_of_ne same]
    exact ⟨.of_not_mem List.not_mem_nil, Nat.zero_le _⟩

end Server.Settles

/-- The end of a pass takes it away from those at whose end its session may enter the world. -/
theorem protocol_settle (h : g.Protocol us) (sound : g.Sound) {i : Nat} {pass : Pass} {report : Report}
    {s : Server} (own : g.passes[i]? = some pass) (settles : g.server.Settles pass report s)
    (c : Turn acts ends g (g.server.settling pass)
      { g with server := s, passes := g.passes.eraseIdx i }) :
    Game.Protocol (us ++ g.server.settling pass)
      { g with server := s, passes := g.passes.eraseIdx i } := by
  refine h.said settles.size (fun pass' hp => h.known pass' ((List.eraseIdx_sublist _ _).subset hp))
    (fun id new => settles.unborn new) fun {id session'} hs' => ?_
  obtain ⟨session, hs, advances⟩ := Server.session?_back settles.size
    (fun hs => Change.advances ⟨_, c⟩ sound hs) hs'
  obtain ⟨heralded, told⟩ := settles.said hs
  refine ⟨session, hs, advances, heralded, fun once => ?_⟩
  have balance : Game.entering { g with server := s, passes := g.passes.eraseIdx i } id +
      (pass.session == id && pass.spawning).toNat = g.entering id := countP_eraseIdx own
  have visible := Bool.toNat_le_toNat advances.hasEntered
  omega

/-- A look around is a pass more for the session, and makes it visible if it is to enter. -/
theorem protocol_look (h : g.Protocol us) (sound : g.Sound) {id : SessionId} {session : Session}
    {course : Course} {glance : Glance} {sc : Scene} (own : g.server.session? id = some session)
    (live : session.finalized = false) (fresh : course = .enter → session.spawned = false)
    (phase : course.phase { session, world := g.server.world } = .ok (some glance, sc))
    {lookers : Finset SessionId} :
    Game.Protocol (us ++ g.server.voice id course.phase)
      { server := g.server.absorb id sc
        passes := g.passes ++ [{ session := id, spawning := course.enters, culled := glance.culled,
                                 wanted := glance.wanted }]
        lookers } := by
  have becomes := Server.becomes_absorb own sc
  obtain ⟨t', heq, -⟩ := looked live (sound.session own) phase
  refine h.chatter (g.server.chatter_phase id course) becomes.size (fun pass hp => ?_)
    fun {j session'} hs' => ?_
  · rcases List.mem_append.mp hp with hp | hp
    · exact h.known pass hp
    · cases List.mem_singleton.mp hp
      exact Server.session?_lt own
  · have entering : Game.entering { server := g.server.absorb id sc, passes := g.passes ++ [{
        session := id, spawning := course.enters, culled := glance.culled,
        wanted := glance.wanted }], lookers } j =
          g.entering j + (id == j && course.enters).toNat := by
      rw [Game.entering, List.countP_append, List.countP_singleton, Game.entering]
      cases id == j && course.enters <;> rfl
    rw [entering]
    rw [becomes.session?] at hs'
    split at hs'
    · rename_i same
      cases hs'
      subst same
      refine ⟨session, own, ?_, fun once => ?_⟩
      · rw [heq]
        exact course.advances session t'
      · rw [heq, beq_self_eq_true, Bool.true_and]
        cases course with
        | enter =>
          have unseen : session.hasEntered = false := by
            simp [Session.hasEntered, fresh rfl, live]
          rw [unseen] at once
          show _ + (_ + 1) ≤ 1
          have nothing : (false : Bool).toNat = 0 := rfl
          omega
        | stay => exact once
        | move position turn onGround => exact once
        | teleport position rotation => exact once
    · rename_i apart
      have other : (id == j) = false := beq_eq_false_iff_ne.mpr apart
      refine ⟨session', hs', .refl _, fun once => ?_⟩
      rw [other, Bool.false_and]
      exact once

/-- **The protocol survives every change.** -/
theorem Turn.protocol (c : Turn acts ends g vs g') (sound : g.Sound) (h : g.Protocol us) :
    g'.Protocol (us ++ vs) := by
  have turn := c
  cases c with
  | aside c => exact h.same sound turn (Server.chatter_aside c) c.quiet.size rfl
  | login named free => exact protocol_login h _ _
  | setViewDistance act v =>
    exact h.same sound turn Server.chatter_nil (Server.size_update _) rfl
  | finalize _ act =>
    exact h.same sound turn Server.chatter_nil (g.server.ends_finalize _).size rfl
  | remove _ act =>
    exact h.same sound turn (Server.chatter_farewell _) (g.server.ends_removePlayer _).size rfl
  | look act own live fresh phase => exact protocol_look h sound own live fresh phase
  | fetch c =>
    obtain ⟨keeps, -⟩ := Server.column_spec c
    exact h.same sound turn Server.chatter_nil keeps.size rfl
  | edit p c => exact h.same sound turn Server.chatter_nil rfl rfl
  | advance own act c =>
    rename_i i pass pass' s
    have advances := Server.advance_spec c
    refine h.chatter Server.chatter_nil advances.keeps.size (fun q hq => ?_)
      fun {id session} hs => ?_
    · rcases List.mem_or_eq_of_mem_set hq with hq | rfl
      · exact h.known q hq
      · rw [advances.session]
        exact h.known pass (List.mem_of_getElem? own)
    · rw [advances.keeps.session?] at hs
      refine ⟨session, hs, .refl _, fun once => ?_⟩
      have same : (g.passes.set i pass').countP (fun q => q.session == id && q.spawning) =
          g.entering id := countP_set_of_eq own (by rw [advances.session, advances.spawning])
      rw [Game.entering, same]
      exact once
  | settle own act idle c =>
    obtain ⟨-, settles⟩ := sound.settled own c
    exact protocol_settle h sound own settles turn

theorem protocol_create (config : Config) (world : World) (dispatcher : Dispatcher) :
    Game.Protocol [] { server := Server.create config world dispatcher } := by
  refine ⟨fun pass hp => absurd hp List.not_mem_nil, fun id new => rfl,
    fun id old => absurd old (Nat.not_lt_zero id), ?_, ?_⟩
  · intro id session hs
    rw [session?_create] at hs
    cases hs
  · intro id session hs
    rw [session?_create] at hs
    cases hs

theorem run_protocol (config : Config) (world : World) (dispatcher : Dispatcher) {actions : List Action}
    (hrun : Game.run { server := Server.create config world dispatcher } actions = .ok g) :
    g.Protocol (Game.transcript { server := Server.create config world dispatcher } actions) := by
  have sound := sound_create config world dispatcher
  obtain ⟨g₁, hrun₁, turns⟩ := run_turns sound actions
  rw [hrun] at hrun₁
  cases hrun₁
  exact turns.invariant (P := fun us g => g.Protocol us) (fun sound h d => d.protocol sound h) sound
    (protocol_create config world dispatcher)

/-! ### Visibility -/

namespace Server

/-- Whether the session `id` is visible. -/
def isSpawned (s : Server) (id : SessionId) : Bool := (s.session? id).any Session.spawned

theorem isSpawned_eq {s : Server} {id : SessionId} {session : Session}
    (own : s.session? id = some session) : s.isSpawned id = session.spawned := by
  rw [isSpawned, own, Option.any_some]

/-- Whether the session `id` is or was visible. -/
def hasEntered (s : Server) (id : SessionId) : Bool := (s.session? id).any Session.hasEntered

end Server

/-- Whether the session `id` becomes visible in the step. -/
def Step.appears (id : SessionId) (t : Step) : Bool :=
  !t.before.server.isSpawned id && t.after.server.isSpawned id

/-- Whether the session `id` ceases to be visible in the step. -/
def Step.vanishes (id : SessionId) (t : Step) : Bool :=
  t.before.server.isSpawned id && !t.after.server.isSpawned id

theorem Changes.hasEntered (c : Changes acts ends g g') (sound : g.Sound) {id : SessionId}
    (h : g.server.hasEntered id = true) : g'.server.hasEntered id = true := by
  refine c.invariant (P := fun g => g.server.hasEntered id = true) ?_ sound h
  intro g g' sound h d
  obtain ⟨session, hs, entered⟩ := (Option.any_eq_true _ _).mp h
  obtain ⟨session', hs', advances⟩ := d.advances sound hs
  exact (Option.any_eq_true _ _).mpr ⟨session', hs', advances.hasEntered entered⟩

/-- Whoever becomes visible has never been so before. -/
theorem Changes.appears (c : Changes acts ends g g') (sound : g.Sound) {id : SessionId}
    (before : g.server.isSpawned id = false) (after : g'.server.isSpawned id = true) :
    g.server.hasEntered id = false ∧ g'.server.hasEntered id = true := by
  obtain ⟨session', hs', spawned⟩ := (Option.any_eq_true _ _).mp after
  have entered' : session'.hasEntered = true := by rw [Session.hasEntered, spawned, Bool.true_or]
  refine ⟨?_, (Option.any_eq_true _ _).mpr ⟨session', hs', entered'⟩⟩
  rw [Bool.eq_false_iff]
  intro entered
  obtain ⟨session, hs, entered⟩ := (Option.any_eq_true _ _).mp entered
  have unseen : session.spawned = false := by
    rw [Server.isSpawned, hs] at before
    exact before
  have ended : session.finalized = true := by
    rw [Session.hasEntered, unseen, Bool.false_or] at entered
    exact entered
  obtain ⟨session'', hs'', lasts⟩ := c.lasts sound hs
  rw [hs'] at hs''
  cases hs''
  have despawned := ((c.sound sound).session hs').despawned (lasts.finalized ended)
  rw [spawned] at despawned
  cases despawned

/-- Whoever ceases to be visible has just ended. -/
theorem Changes.vanishes (c : Changes acts ends g g') (sound : g.Sound) {id : SessionId}
    (before : g.server.isSpawned id = true) (after : g'.server.isSpawned id = false) :
    g.server.isEnded id = false ∧ g'.server.isEnded id = true := by
  obtain ⟨session, hs, spawned⟩ := (Option.any_eq_true _ _).mp before
  have live : session.finalized = false := by
    rw [Bool.eq_false_iff]
    intro ended
    rw [(sound.session hs).despawned ended] at spawned
    cases spawned
  have entered : g.server.hasEntered id = true := by
    rw [Server.hasEntered, hs, Option.any_some, Session.hasEntered, spawned, Bool.true_or]
  obtain ⟨session', hs', entered'⟩ := (Option.any_eq_true _ _).mp (c.hasEntered sound entered)
  have unseen : session'.spawned = false := by
    rw [Server.isSpawned, hs'] at after
    exact after
  rw [Session.hasEntered, unseen, Bool.false_or] at entered'
  exact ⟨by rw [Server.isEnded_eq hs, live], by rw [Server.isEnded_eq hs', entered']⟩

/-- **A session becomes visible at most once** in a run, and only if it has never been so. -/
theorem run_appears (id : SessionId) : ∀ (actions : List Action) {g : Game}, g.Sound →
    g.run actions = .ok g' →
      (g.history actions).countP (Step.appears id) + (g.server.hasEntered id).toNat ≤
        (g'.server.hasEntered id).toNat
  | [], g, _, h => by
    cases h
    exact (Nat.zero_add _).le
  | a :: actions, g, sound, h => by
    obtain ⟨g₁, hstep, c⟩ := step_changes sound a
    have hrun : g₁.run actions = .ok g' := (Game.run_cons hstep actions).symm.trans h
    have rest := run_appears id actions (c.sound sound) hrun
    rw [Game.history_cons hstep, List.countP_cons]
    cases appears : Step.appears id ⟨g, a, g₁⟩ with
    | false =>
      have grows : (g.server.hasEntered id).toNat ≤ (g₁.server.hasEntered id).toNat :=
        Bool.toNat_le_toNat (c.hasEntered sound)
      simp only [Bool.false_eq_true, if_false]
      omega
    | true =>
      obtain ⟨before, after⟩ := Bool.and_eq_true_iff.mp appears
      obtain ⟨fresh, entered⟩ := c.appears sound (Bool.not_eq_true' _ ▸ before) after
      rw [entered] at rest
      rw [fresh]
      simp only [if_true, Bool.toNat_true, Bool.toNat_false] at rest ⊢
      omega

/-! ### Answers of a spawn -/

/-- Whether the packet is one of those by which a player enters the world. -/
def Packet.isEntry : Packet → Bool
  | .updateAttributes _ => true
  | .playStatus .playerSpawn => true
  | _ => false

theorem Packet.isEntry_of_isPhase {p : Packet} (h : p.isPhase = true) : p.isEntry = false := by
  cases p <;> first | rfl | cases h

/-- **A spawn that is over at once** has failed, and nothing was said; any other waits for a pass, and
nothing but a first phase was said. -/
theorem startSpawn_answer {s s' : Server} {id : SessionId} {progress : Progress Bool}
    (h : s.startSpawn id = .ok (progress, s')) :
    (∀ u ∈ s.spawnWords id, u.packet.isEntry = false) ∧
      ((progress = .done false ∧ s.spawnWords id = []) ∨
        ∃ pass, progress = .pending pass Report.spawned ∧ pass.session = id ∧
          pass.spawning = true) := by
  unfold Server.startSpawn at h
  unfold Server.spawnWords
  cases own : s.session? id with
  | none =>
    rw [own] at h
    cases h
    exact ⟨fun _ hu => absurd hu List.not_mem_nil, Or.inl ⟨rfl, rfl⟩⟩
  | some session =>
    rw [own] at h
    dsimp only at h ⊢
    cases fresh : session.setSpawned.1 with
    | false =>
      simp only [fresh, Bool.false_eq_true, if_false] at h ⊢
      cases h
      exact ⟨fun _ hu => absurd hu List.not_mem_nil, Or.inl ⟨rfl, trivial⟩⟩
    | true =>
      have live : session.finalized = false := by
        rw [Bool.eq_false_iff]
        intro ended
        simp [Session.setSpawned, ended] at fresh
      have set : session.setSpawned.2 = Course.enter.apply session := by
        simp [Session.setSpawned, live, Course.apply]
      simp only [fresh, if_true, set, start_update_enter own] at h ⊢
      refine ⟨fun u hu => Packet.isEntry_of_isPhase (Server.voice_isPhase hu), Or.inr ?_⟩
      obtain ⟨⟨glance, s₁⟩, attempted, rest⟩ := bind_eq_ok h
      simp only [Server.attempt, own] at attempted
      obtain ⟨⟨found, sc⟩, phase, absorbed⟩ := bind_eq_ok attempted
      obtain ⟨glance, rfl, -⟩ := Course.phase_sent live phase
      cases absorbed
      cases rest
      exact ⟨_, rfl, rfl, rfl⟩

/-- **A spawn whose pass answers `false`** has told nobody that it is in the world. -/
theorem settle_answer {s s' : Server} {pass : Pass} {report : Report}
    (h : s.Settles pass report s') (failed : report.spawned = false) :
    ∀ u ∈ s.settling pass, u.packet.isEntry = false := by
  cases h with
  | void _ _ _ _ silent => rw [silent]; exact fun u hu => by cases hu
  | live own live becomes tracked joins spawned announces words =>
    rename_i session t' new
    rw [failed] at spawned
    rw [words, ← spawned]
    simp only [Bool.false_eq_true, if_false, List.append_nil, List.map_map, List.mem_map]
    rintro u ⟨p, -, rfl⟩
    rfl

/-- A spawn that fails, at once or at the end of its pass, sends neither attributes nor word that the
player is in the world. -/
structure Step.Candid (t : Step) : Prop where
  spawn : ∀ id, t.action = .spawn id → (∀ u ∈ t.words, u.packet.isEntry = false) ∧
    ∃ progress s, t.before.server.startSpawn id = .ok (progress, s) ∧
      ((progress = .done false ∧ t.words = []) ∨
        ∃ pass, progress = .pending pass Report.spawned ∧ pass.session = id ∧
          pass.spawning = true ∧ t.after.passes = t.before.passes ++ [pass])
  settle : ∀ i pass, t.action = .settle i → t.before.passes[i]? = some pass → pass.wanted = [] →
    ∃ report s, t.before.server.settle pass = .ok (report, s) ∧
      (report.spawned = false → ∀ u ∈ t.words, u.packet.isEntry = false)

theorem step_candid (sound : g.Sound) {a : Action} (hstep : g.step a = .ok g') :
    Step.Candid ⟨g, a, g'⟩ := by
  constructor
  · rintro id rfl
    obtain ⟨⟨progress, s⟩, started, joined⟩ := bind_eq_ok hstep
    cases joined
    obtain ⟨silent, answer⟩ := startSpawn_answer started
    refine ⟨silent, progress, s, started, ?_⟩
    rcases answer with finished | ⟨pass, rfl, own, spawning⟩
    · exact Or.inl finished
    · exact Or.inr ⟨pass, rfl, own, spawning, rfl⟩
  · rintro i pass rfl own idle
    obtain ⟨report, s, settled, -, settles⟩ := sound.settles own
    refine ⟨report, s, settled, fun failed => ?_⟩
    show ∀ u ∈ Action.words g (.settle i), _
    rw [Action.words_settle own idle]
    exact settle_answer settles failed

/-! ### All of it -/

/-- **Each session keeps to the protocol**, along every run from a fresh server, with other operations
between the phases of a pass. Every packet goes to a connection that is bound to its speaker. What a
session says begins with the welcome; it says at most once that the player is in the world, right
after the attributes with tick 0; it becomes visible at most once, and ceases to be so only by its
end; once it has ended it says nothing, whatever was under way for it. A spawn that fails sends
neither attributes nor word that the player is in the world. -/
theorem packet_protocol (config : Config) (world : World) (dispatcher : Dispatcher)
    (actions : List Action) (regular : ∀ a ∈ actions, a.isRegular = true) :
    let start : Game := { server := Server.create config world dispatcher }
    ∃ g, start.run actions = .ok g ∧
      g.server.sent = (start.transcript actions).map Utterance.message ∧
      (∀ t ∈ start.history actions, t.Attributed ∧ t.Candid) ∧
      ∀ id session, g.server.session? id = some session →
        welcome <+: saidBy id (start.transcript actions) ∧
        entries (saidBy id (start.transcript actions)) ≤ 1 ∧
        Heralded session.runtimeId (saidBy id (start.transcript actions)) ∧
        (start.history actions).countP (Step.appears id) ≤ 1 ∧
        ∀ t ∈ start.history actions,
          (t.vanishes id = true →
            t.before.server.isEnded id = false ∧ t.after.server.isEnded id = true) ∧
          (t.before.server.isEnded id = true → saidBy id t.words = []) ∧
          (t.before.server.isEnded id = false → t.after.server.isEnded id = true →
            ∀ u ∈ t.words, u.speaker = some id → ∃ r ∈ t.action.removals t.before,
              u ∈ r.words ∧ r.session ≠ id ∧ r.before.isEnded id = false) := by
  intro start
  have sound : start.Sound := sound_create config world dispatcher
  have told : ∀ a ∈ actions, a.isFinalize = false :=
    fun a ha => Action.told_of_regular (regular a ha)
  obtain ⟨g, hrun, c⟩ := run_turns sound actions
  have protocol : g.Protocol (start.transcript actions) := c.invariant
    (P := fun us g => g.Protocol us) (fun sound h d => d.protocol sound h) sound
    (protocol_create config world dispatcher)
  have steps : ∀ t ∈ start.history actions, t.before.Sound ∧ t.before.server.Enrolled ∧
      t.action.isRegular = true ∧ t.before.step t.action = .ok t.after := by
    intro t ht
    obtain ⟨mem, sound, enrolled, hstep⟩ := history_reached (P := fun g => g.server.Enrolled)
      (fun sound h c => c.enrolled sound h) actions sound
      (Server.enrolled_create config world dispatcher) told t ht
    exact ⟨sound, enrolled, regular _ mem, hstep⟩
  have attributed : ∀ t ∈ start.history actions, t.Attributed := by
    intro t ht
    obtain ⟨sound, enrolled, regular, hstep⟩ := steps t ht
    exact step_attributed sound enrolled regular hstep
  refine ⟨g, hrun, run_sent sound hrun, fun t ht => ⟨attributed t ht, ?_⟩, fun id session hs => ?_⟩
  · obtain ⟨sound, -, -, hstep⟩ := steps t ht
    exact step_candid sound hstep
  have once := protocol.once hs
  have entered : session.hasEntered.toNat ≤ 1 := Bool.toNat_le _
  have appears := run_appears id actions sound hrun
  have visible : (g.server.hasEntered id).toNat ≤ 1 := Bool.toNat_le _
  refine ⟨protocol.greeted id (Server.session?_lt hs), by omega, protocol.heralded hs, by omega,
    fun t ht => ?_⟩
  obtain ⟨sound, enrolled, regular, hstep⟩ := steps t ht
  obtain ⟨g₁, hstep₁, changes⟩ := step_changes sound t.action
  rw [hstep] at hstep₁
  cases hstep₁
  refine ⟨fun vanishes => ?_, (attributed t ht).silent enrolled,
    step_last_words sound enrolled regular hstep⟩
  obtain ⟨before, after⟩ := Bool.and_eq_true_iff.mp vanishes
  exact changes.vanishes sound before (Bool.not_eq_true' _ ▸ after)

/-- A player that is removed before the pass of its spawn ends, and another that logs in on the same
connection by then, enters the world and leaves it. -/
theorem packet_protocol_successor :
    let actions : List Action :=
      [.packet ⟨1⟩ (.login { username := "ada" }), .setViewDistance 0 0, .spawn 0, .remove 0,
        .packet ⟨1⟩ (.login { username := "bob" }), .settle 0, .setViewDistance 1 0, .spawn 1, .settle 0,
        .shutdown]
    let start : Game := { server := Server.create {} {} .standard }
    (∀ a ∈ actions, a.isRegular = true) ∧
      (∃ g, start.run actions = .ok g ∧
        ∀ id session, g.server.session? id = some session →
          welcome <+: saidBy id (start.transcript actions) ∧
            entries (saidBy id (start.transcript actions)) ≤ 1 ∧
            Heralded session.runtimeId (saidBy id (start.transcript actions))) ∧
      entries (saidBy 0 (start.transcript actions)) = 0 ∧
      entries (saidBy 1 (start.transcript actions)) = 1 := by
  intro actions start
  have regular : ∀ a ∈ actions, a.isRegular = true := by decide
  obtain ⟨g, hrun, -, -, keeps⟩ := packet_protocol {} {} .standard actions regular
  refine ⟨regular, ⟨g, hrun, fun id session hs => ?_⟩, by decide +kernel, by decide +kernel⟩
  obtain ⟨greeted, once, heralded, -⟩ := keeps id session hs
  exact ⟨greeted, once, heralded⟩

end BlockWorld
