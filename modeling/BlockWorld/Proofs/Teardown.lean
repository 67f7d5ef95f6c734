import BlockWorld.Proofs.Coherence
import BlockWorld.Proofs.Roster

/-! # The end of a player happens once

A player may be removed by a call, by the loss of its connection, by a packet of its client or by the
end of the game, and more than once by each. The first removal ends the session and tells those who
see the player; every later one finds the session finalized and does nothing.

* `Change.isEnded`: where no change ends a session, each is as much at its end as before.
* `step_isEnded`, `run_isEnded`: the removals of an action and of a run account for every end.
* `Game.removals_reached`: what every change keeps, every removal finds.
* `Server.Teardown`, `teardown_of_live`: what the first removal does; `removes`: what any does.
* `teardown_once`: all of it, along every run from a fresh server. -/

namespace BlockWorld

variable {acts : SessionId → Prop} {s s' : Server} {id j : SessionId} {session : Session}
  {g g' : Game}

/-! ### Who has ended -/

namespace Server

/-- Whether the session `id` has ended; one that is yet to be created has not. -/
def isEnded (s : Server) (id : SessionId) : Bool := (s.session? id).any Session.finalized

theorem isEnded_eq (hs : s.session? id = some session) : s.isEnded id = session.finalized := by
  rw [isEnded, hs, Option.any_some]

theorem isEnded_congr (h : s'.session? id = s.session? id) : s'.isEnded id = s.isEnded id := by
  rw [isEnded, h, isEnded]

/-- The same sessions, each as much at its end as before. -/
theorem isEnded_transport (size : s'.sessions.size = s.sessions.size)
    (forth : ∀ {id session}, s.session? id = some session → ∃ session',
      s'.session? id = some session' ∧ session'.finalized = session.finalized) (id : SessionId) :
    s'.isEnded id = s.isEnded id := by
  cases hs : s.session? id with
  | some session =>
    obtain ⟨session', hs', same⟩ := forth hs
    rw [isEnded_eq hs, isEnded_eq hs', same]
  | none =>
    refine isEnded_congr ?_
    cases hs' : s'.session? id with
    | none => rw [hs]
    | some session' =>
      obtain ⟨session, hs'', -⟩ := session?_back size forth hs'
      rw [hs] at hs''
      cases hs''

theorem Becomes.isEnded {session' : Session} (h : s.Becomes id session' s')
    (own : s.session? id = some session) (same : session'.finalized = session.finalized)
    (j : SessionId) : s'.isEnded j = s.isEnded j :=
  isEnded_transport h.size (h.forth (R := fun session₁ session₂ =>
    session₂.finalized = session₁.finalized) (fun _ => rfl) own same) j

/-- Whether a removal succeeds is a matter of the session alone. -/
theorem removePlayer_fst (s : Server) (id : SessionId) :
    (s.removePlayer id).1 = (s.session? id).any fun session => !session.finalized := by
  cases hs : s.session? id with
  | none => rw [removePlayer_none hs]; rfl
  | some session =>
    cases live : session.finalized with
    | true => rw [removePlayer_ended hs live]; simp [live]
    | false =>
      obtain ⟨s', heq, -⟩ := removePlayer_live hs live
      rw [heq]
      simp [live]

end Server

/-- **Where no change ends a session**, each is as much at its end as before. -/
theorem Change.isEnded (c : Change acts (fun _ => False) g g') (sound : g.Sound) (id : SessionId) :
    g'.server.isEnded id = g.server.isEnded id := by
  obtain ⟨us, c⟩ := c
  cases c with
  | aside c =>
    refine Server.isEnded_transport c.quiet.size (fun hs => ?_) id
    obtain ⟨session', hs', alike⟩ := c.quiet.session_of hs
    exact ⟨session', hs', alike.finalized⟩
  | login named free =>
    have spec := g.server.accept_spec
    by_cases new : id = g.server.sessions.size
    · have none : g.server.session? id = none := Array.getElem?_eq_none new.ge
      rw [Server.isEnded, (spec _ _).session?, if_pos new, Server.isEnded, none]
      rfl
    · exact Server.isEnded_congr (by rw [(spec _ _).session?, if_neg new])
  | setViewDistance act v =>
    refine Server.isEnded_transport (Server.size_update _) (fun {j session} hs => ?_) id
    rw [Server.session?_update, hs]
    split <;> exact ⟨_, rfl, rfl⟩
  | finalize never act => exact never.elim
  | remove never act => exact never.elim
  | look act own live fresh phase =>
    obtain ⟨t', hs, -⟩ := looked live (sound.session own) phase
    exact (Server.becomes_absorb own _).isEnded own (by rw [hs]; simp) id
  | fetch c => exact Server.isEnded_congr ((Server.column_spec c).1.session? id)
  | edit p c => rfl
  | advance own act c => exact Server.isEnded_congr ((Server.advance_spec c).keeps.session? id)
  | settle own act idle c =>
    obtain ⟨-, settles⟩ := sound.settled own c
    cases settles with
    | void _ keeps _ => exact Server.isEnded_congr (keeps.session? id)
    | live own' _ becomes _ _ => exact becomes.isEnded own' rfl id

theorem Changes.isEnded (h : Changes acts (fun _ => False) g g') (sound : g.Sound) (id : SessionId) :
    g'.server.isEnded id = g.server.isEnded id :=
  h.invariant (P := fun g' => g'.server.isEnded id = g.server.isEnded id)
    (fun sound same c => (c.isEnded sound id).trans same) sound rfl

/-! ### Every end is accounted for -/

/-- **A removal** that succeeds ends its session, and none ends another. -/
theorem countP_removal (r : Removal) (id : SessionId) :
    (r.before.isEnded id).toNat + [r].countP (Removal.ended id) = (r.after.isEnded id).toNat := by
  have answer : r.answer = _ := r.before.removePlayer_fst r.session
  have ends := r.before.ends_removePlayer r.session
  cases ends with
  | void ended keeps _ =>
    have fails : r.answer = false := by
      rw [answer]
      cases hs : r.before.session? r.session with
      | none => rfl
      | some session => simp [ended session hs]
    have same : r.after.isEnded id = r.before.isEnded id := Server.isEnded_congr (keeps.session? id)
    rw [same]
    simp [Removal.ended, fails]
  | live own live becomes _ =>
    have succeeds : r.answer = true := by rw [answer, own]; simp [live]
    by_cases hid : id = r.session
    · subst hid
      have now : r.after.isEnded r.session = true := Server.isEnded_eq becomes.self
      rw [Server.isEnded_eq own, live, now]
      simp [Removal.ended, succeeds]
    · have same : r.after.isEnded id = r.before.isEnded id := Server.isEnded_congr (becomes.other hid)
      rw [same]
      simp [Removal.ended, Ne.symm hid]

theorem countP_removeAll (id : SessionId) : ∀ (ms : List Member) (s : Server),
    (s.isEnded id).toNat + (s.removeAllRemovals ms).countP (Removal.ended id) =
      ((s.removeAll ms).isEnded id).toNat
  | [], s => rfl
  | m :: ms, s => by
    let closed := (s.removePlayer m.session).2.close m.handle "Server closed"
    have first := countP_removal ⟨s, m.session⟩ id
    have rest := countP_removeAll id ms closed
    have kept : closed.isEnded id = (Removal.mk s m.session).after.isEnded id := rfl
    rw [kept] at rest
    change _ + List.countP _ ([⟨s, m.session⟩] ++ closed.removeAllRemovals ms) =
      ((closed.removeAll ms).isEnded id).toNat
    rw [List.countP_append]
    dsimp only at first
    omega

theorem countP_disconnect (s : Server) (handle : Handle) (id : SessionId) :
    (s.isEnded id).toNat + (s.disconnectRemovals handle).countP (Removal.ended id) =
      ((s.disconnect handle).2.isEnded id).toNat := by
  unfold Server.disconnectRemovals Server.disconnect
  cases s.bound? handle with
  | none => rfl
  | some j => exact countP_removal ⟨s, j⟩ id

/-- A packet that comes to a removal, whatever becomes of its outcome. -/
theorem countP_packet {packet : Packet} {who : Option SessionId} {handle : Handle}
    (removes : s.packetRemovals packet who handle ≠ []) (id : SessionId) :
    ∃ s', s.startDispatch packet who handle = .ok (.done .handled, s') ∧
      (s.isEnded id).toNat + (s.packetRemovals packet who handle).countP (Removal.ended id) =
        (s'.isEnded id).toNat := by
  rcases packetRemovals_cases s packet who handle with
    silent | ⟨goodbye, j, session, routed, rfl, rfl, own, one⟩
  · exact absurd silent removes
  · let r : Removal := ⟨s.note (.disconnected session.name handle goodbye.message), j⟩
    have counted := countP_removal r id
    refine ⟨r.after, ?_, by rw [one]; exact counted⟩
    simp only [Server.startDispatch, routed, Server.startHandler, Server.leave, own]
    rfl

/-- **The removals of an action** account for every session that it ends. -/
theorem step_isEnded (sound : g.Sound) {a : Action} (told : a.isFinalize = false)
    (h : g.step a = .ok g') (id : SessionId) :
    (g.server.isEnded id).toNat + (a.removals g).countP (Removal.ended id) =
      (g'.server.isEnded id).toNat := by
  by_cases removes : a.removals g = []
  · obtain ⟨g₁, hstep, hc⟩ := step_changes sound a
    rw [h] at hstep
    cases hstep
    have silent : Changes (· ∈ a.actors g) (fun _ => False) g g' := by
      refine hc.mono (fun _ h => h) fun e ended => ?_
      have heard : e = .heard := Action.ends_told told ended
      rw [heard] at ended
      exact ended removes
    rw [silent.isEnded sound, removes]
    rfl
  · cases a with
    | event e =>
      cases e with
      | connected handle => exact absurd rfl removes
      | disconnected handle =>
        cases h
        exact countP_disconnect g.server handle id
      | packet handle packet =>
        obtain ⟨s', hstart, counted⟩ := countP_packet removes id
        simp only [Game.step, Server.startEvent, Server.startPacket, hstart] at h
        cases h
        have closed : (s'.closeRefused handle packet .handled).isEnded id = s'.isEnded id := by
          unfold Server.closeRefused
          split <;> rfl
        rw [Game.join_server, closed]
        exact counted
    | packet handle packet =>
      obtain ⟨s', hstart, counted⟩ := countP_packet removes id
      simp only [Game.step, Server.startPacket, hstart] at h
      cases h
      exact counted
    | dispatch packet who handle =>
      obtain ⟨s', hstart, counted⟩ := countP_packet removes id
      simp only [Game.step, hstart] at h
      cases h
      exact counted
    | remove j =>
      cases h
      exact countP_removal ⟨g.server, j⟩ id
    | disconnect handle =>
      cases h
      exact countP_disconnect g.server handle id
    | shutdown =>
      cases h
      exact countP_removeAll id g.server.registry.players
        (g.server.note (.shuttingDown g.server.registry.players.length))
    | _ => exact absurd rfl removes

/-- **The removals of a run** account for every session that it ends. -/
theorem run_isEnded (id : SessionId) : ∀ (actions : List Action) {g : Game}, g.Sound →
    (∀ a ∈ actions, a.isFinalize = false) → g.run actions = .ok g' →
      (g.server.isEnded id).toNat + (g.removals actions).countP (Removal.ended id) =
        (g'.server.isEnded id).toNat
  | [], g, _, _, h => by cases h; rfl
  | a :: actions, g, sound, told, h => by
    obtain ⟨g₁, hstep, hc⟩ := step_changes sound a
    have hrun : g₁.run actions = .ok g' := (Game.run_cons hstep actions).symm.trans h
    have first := step_isEnded sound (told a List.mem_cons_self) hstep id
    have rest := run_isEnded id actions (hc.sound sound)
      (fun b hb => told b (List.mem_cons_of_mem a hb)) hrun
    simp only [Game.removals, hstep, List.countP_append]
    omega

/-- **Where no session ends twice**, whoever removes a player after the removal that ended it gets
`false`. -/
theorem pairwise_answer : ∀ rs : List Removal, (∀ id, rs.countP (Removal.ended id) ≤ 1) →
    rs.Pairwise fun r r' => r.answer = true → r'.session = r.session → r'.answer = false
  | [], _ => .nil
  | r :: rs, once => by
    refine List.pairwise_cons.mpr ⟨fun r' hr' ended same => ?_, pairwise_answer rs fun id => ?_⟩
    · have first : Removal.ended r.session r = true := by simp [Removal.ended, ended]
      have total := once r.session
      rw [List.countP_cons_of_pos first] at total
      have none_left : rs.countP (Removal.ended r.session) = 0 := by omega
      have later := List.countP_eq_zero.mp none_left r' hr'
      simpa [Removal.ended, same] using later
    · exact ((List.sublist_cons_self r rs).countP_le).trans (once id)

/-! ### What a removal finds -/

/-- What the server of a removal went through, besides what other actions made of it. -/
theorem changes_removeAllRemovals {r : Removal} : ∀ (ms : List Member) (s : Server),
    r ∈ s.removeAllRemovals ms → Changes (fun _ => True) (· = .heard)
      { g with server := s } { g with server := r.before }
  | [], _, hr => by cases hr
  | m :: ms, s, hr => by
    rcases List.mem_cons.mp hr with rfl | hr
    · exact .refl
    · have rest := changes_removeAllRemovals ms _ hr
      exact .head ⟨_, .remove { g with server := s } rfl trivial⟩
        (.head ⟨_, .aside { g with server := (s.removePlayer m.session).2 } (.close _ _ _)⟩ rest)

theorem changes_packetRemovals {packet : Packet} {who : Option SessionId} {handle : Handle}
    {r : Removal} (hr : r ∈ g.server.packetRemovals packet who handle) :
    Changes (fun _ => True) (· = .heard) g { g with server := r.before } := by
  rcases packetRemovals_cases g.server packet who handle with
    silent | ⟨goodbye, j, session, -, -, -, -, one⟩
  · rw [silent] at hr
    cases hr
  · rw [one] at hr
    cases List.mem_singleton.mp hr
    exact .single ⟨_, .aside g (.note _ _)⟩

theorem changes_disconnectRemovals {handle : Handle} {r : Removal}
    (hr : r ∈ g.server.disconnectRemovals handle) :
    Changes (fun _ => True) (· = .heard) g { g with server := r.before } := by
  obtain ⟨j, -, rfl⟩ := Option.map_eq_some_iff.mp (Option.mem_toList.mp hr)
  exact .refl

theorem changes_removals {a : Action} {r : Removal} (hr : r ∈ a.removals g) :
    Changes (fun _ => True) (· = .heard) g { g with server := r.before } := by
  cases a with
  | event e =>
    cases e with
    | connected handle => cases hr
    | disconnected handle => exact changes_disconnectRemovals hr
    | packet handle packet => exact changes_packetRemovals hr
  | packet handle packet => exact changes_packetRemovals hr
  | dispatch packet who handle => exact changes_packetRemovals hr
  | remove j =>
    cases List.mem_singleton.mp hr
    exact .refl
  | disconnect handle => exact changes_disconnectRemovals hr
  | shutdown =>
    exact .head ⟨_, .aside g (.note _ _)⟩ (changes_removeAllRemovals g.server.registry.players _ hr)
  | _ => cases hr

/-- **What every change keeps, every removal of a run finds.** -/
theorem Game.removals_reached {P : Game → Prop}
    (kept : ∀ {g g' : Game}, g.Sound → P g → Change (fun _ => True) (· = .heard) g g' → P g') :
    ∀ (actions : List Action) {g : Game}, g.Sound → P g → (∀ a ∈ actions, a.isFinalize = false) →
      ∀ r ∈ g.removals actions, ∃ g', g'.server = r.before ∧ P g'
  | [], _, _, _, _, r, hr => by cases hr
  | a :: actions, g, sound, hP, told, r, hr => by
    rcases List.mem_append.mp hr with hr | hr
    · exact ⟨_, rfl, (changes_removals hr).invariant kept sound hP⟩
    · obtain ⟨g₁, hstep, hc⟩ := step_changes sound a
      rw [hstep] at hr
      have hears : Changes (fun _ => True) (· = .heard) g g₁ :=
        hc.mono (fun _ _ => trivial) fun _ => Action.ends_told (told a List.mem_cons_self)
      exact Game.removals_reached kept actions (hc.sound sound) (hears.invariant kept sound hP)
        (fun b hb => told b (List.mem_cons_of_mem a hb)) r hr

/-! ### What a removal does -/

namespace Server

/-- The end of the session `id`, from `s` to `s'`. -/
structure Teardown (s : Server) (id : SessionId) (session : Session) (s' : Server) : Prop where
  /-- All that is sent is one packet for each of the others in the game that are spawned and see the
  column the player was last in, if it was spawned itself. -/
  despawned : ∃ audience : List Member,
    s'.outbox = s.outbox ++ (audience.map fun m =>
      Command.send m.handle (.removeEntity session.entityId)).toArray ∧
    (audience.map Member.handle).Nodup ∧
    ∀ m, m ∈ audience ↔ session.spawned = true ∧ m ∈ s.registry.players ∧ m.session ≠ id ∧
      ∃ peer, s.session? m.session = some peer ∧ peer.handle = m.handle ∧ peer.spawned = true ∧
        peer.sees session.anchor = true
  name : s'.registry.byName? session.name = none
  handle : s'.registry.byHandle? session.handle = none
  /-- Nobody else leaves the game. -/
  players : ∀ m, m ∈ s'.registry.players ↔ m ∈ s.registry.players ∧ m.session ≠ id
  own : s'.session? id = some session.ended
  tracksNothing : ∀ p, session.ended.sees p = false
  sole : s.sessions.size ≤ 2 ^ 64 → s.Sole id session
  unwatched : s.Sole id session → ∀ p, ¬ s'.world.Watched p session.viewerId
  others : ∀ j, j ≠ id → s'.session? j = s.session? j
  viewers : ∀ p v, v ≠ session.viewerId → (s'.world.Watched p v ↔ s.world.Watched p v)

theorem Enrolled.mem_audience (h : s.Enrolled) (m : Member) :
    m ∈ s.audience id session ↔ session.spawned = true ∧ m ∈ s.registry.players ∧ m.session ≠ id ∧
      ∃ peer, s.session? m.session = some peer ∧ peer.handle = m.handle ∧ peer.spawned = true ∧
        peer.sees session.anchor = true := by
  unfold audience
  split
  · rename_i spawned
    rw [List.mem_filter, Registry.mem_peers, watches, Option.any_eq_true]
    constructor
    · rintro ⟨⟨hm, apart⟩, peer, own, sees⟩
      obtain ⟨session', own', -, is⟩ := h.mem_players.mp hm
      rw [own] at own'
      cases own'
      obtain ⟨hspawned, hsees⟩ := Bool.and_eq_true_iff.mp sees
      exact ⟨spawned, hm, apart, peer, own, by rw [is]; rfl, hspawned, hsees⟩
    · rintro ⟨-, hm, apart, peer, own, -, hspawned, hsees⟩
      exact ⟨⟨hm, apart⟩, peer, own, by rw [hspawned, hsees]; rfl⟩
  · rename_i unspawned
    constructor
    · exact fun hm => by cases hm
    · rintro ⟨spawned, -⟩
      exact absurd spawned unspawned

theorem Enrolled.nodup_audience (h : s.Enrolled) :
    ((s.audience id session).map Member.handle).Nodup := by
  unfold audience
  split
  · have sublist := (List.filter_sublist (p := s.watches session.anchor)).trans
      (List.filter_sublist (l := s.registry.players) (p := fun m => m.session != id))
    exact h.paired.nodup_handles.sublist (sublist.map Member.handle)
  · exact .nil

end Server

/-- **The end of a live player**, all at once. -/
theorem teardown_of_live (enrolled : g.server.Enrolled) (coherent : g.Coherent)
    (own : g.server.session? id = some session) (live : session.finalized = false) :
    ∃ s', g.server.removePlayer id = (true, s') ∧ g.server.Teardown id session s' := by
  obtain ⟨s', heq, becomes, registry, outbox, follows⟩ := Server.removePlayer_live own live
  have bound : g.server.registry.byName? (Server.member id session).name =
      some (Server.member id session) := enrolled.live own live
  have paired : s'.registry.Paired := by rw [registry]; exact enrolled.paired.unbind bound
  refine ⟨s', heq, {
    despawned := ⟨_, outbox, enrolled.nodup_audience, enrolled.mem_audience⟩
    name := by rw [registry, Registry.byName?_unbind bound]; exact if_pos rfl
    handle := by rw [registry, Registry.byHandle?_unbind bound]; exact if_pos rfl
    players := fun m => ?_
    own := becomes.self
    tracksNothing := fun p => ?_
    sole := fun few => coherent.sole few own
    unwatched := fun sole p watched => ?_
    others := fun j hj => becomes.other hj
    viewers := fun p v hv => ?_ }⟩
  · rw [paired.mem_players, enrolled.paired.mem_players, registry, Registry.byName?_unbind bound]
    constructor
    · intro hm
      split at hm
      · cases hm
      · rename_i apart
        refine ⟨hm, fun same => apart ?_⟩
        obtain ⟨session', own', -, is⟩ := enrolled.member hm
        rw [same, own] at own'
        cases own'
        rw [is]
        rfl
    · rintro ⟨hm, apart⟩
      rw [if_neg, hm]
      intro same
      rw [← same, bound] at hm
      exact apart (congrArg Member.session (Option.some.inj hm)).symm
  · exact (Tracked.contains_index).trans (decide_eq_false Tracked.not_mem_empty)
  · rcases (follows.watched p session.viewerId).mp watched with ⟨hw, stays⟩ | ⟨-, -, joins⟩
    · exact stays ⟨rfl, (coherent.watched own sole p).mp hw, Tracked.not_mem_empty⟩
    · exact Tracked.not_mem_empty joins
  · rw [follows.watched]
    simp [hv]

namespace Server

/-- Removing the player of the session `id` in `s` gives this answer and this server. -/
inductive Removes (s : Server) (id : SessionId) : Bool → Server → Prop
  /-- The session lived, and ends. -/
  | ends {session : Session} {s' : Server} (own : s.session? id = some session)
      (live : session.finalized = false) (teardown : s.Teardown id session s') : Removes s id true s'
  /-- The session had ended before, or never was: nothing at all happens. -/
  | idle (ended : ∀ session, s.session? id = some session → session.finalized = true) :
    Removes s id false s

end Server

/-- **A removal** ends a session that lives, and does nothing otherwise. -/
theorem removes (enrolled : g.server.Enrolled) (coherent : g.Coherent) (id : SessionId) :
    g.server.Removes id (g.server.removePlayer id).1 (g.server.removePlayer id).2 := by
  cases own : g.server.session? id with
  | none =>
    rw [Server.removePlayer_none own]
    exact .idle fun session hs => by rw [own] at hs; cases hs
  | some session =>
    cases live : session.finalized with
    | true =>
      rw [enrolled.removePlayer_ended own live]
      exact .idle fun session' hs => by rw [own] at hs; cases hs; exact live
    | false =>
      obtain ⟨s', heq, teardown⟩ := teardown_of_live enrolled coherent own live
      rw [heq]
      exact .ends own live teardown

/-! ### Runs -/

/-- Between the removals of a run and at its end, the server is one for which `removes` holds. -/
theorem kept_removable {g g' : Game} (sound : g.Sound) (h : g.server.Enrolled ∧ g.Coherent)
    (c : Change acts (· = .heard) g g') : g'.server.Enrolled ∧ g'.Coherent :=
  ⟨c.enrolled sound h.1, c.coherent sound h.2⟩

/-- **A player is removed once**, whatever is done on a fresh server in whose world nobody watches and
that hears of every end, in any order and with other operations between the phases of a pass.

The removals of a run that answer `true` are one for each session that has ended by then. Each removal
does what `Removes` says, also one that comes now, and after one that answers `true` those of the same
session answer `false` and change nothing. Nor does the loss of a connection that nobody is bound to
change more than the notes. -/
theorem teardown_once (config : Config) (world : World) (dispatcher : Dispatcher)
    (unwatched : ∀ p v, ¬ world.Watched p v) (actions : List Action)
    (told : ∀ a ∈ actions, a.isFinalize = false) :
    let fresh : Game := { server := Server.create config world dispatcher }
    ∃ g, fresh.run actions = .ok g ∧
      (∀ id, (fresh.removals actions).countP (Removal.ended id) = (g.server.isEnded id).toNat) ∧
      (∀ r ∈ fresh.removals actions, r.before.Removes r.session r.answer r.after) ∧
      ((fresh.removals actions).Pairwise fun r r' =>
        r.answer = true → r'.session = r.session → r'.answer = false ∧ r'.after = r'.before) ∧
      (∀ id, g.server.Removes id (g.server.removePlayer id).1 (g.server.removePlayer id).2) ∧
      ∀ handle, g.server.bound? handle = none →
        g.server.disconnect handle = (false, g.server.note (.connectionClosed handle)) := by
  intro fresh
  have sound : fresh.Sound := sound_create config world dispatcher
  have start : fresh.server.Enrolled ∧ fresh.Coherent :=
    ⟨Server.enrolled_create config world dispatcher, coherent_create config dispatcher unwatched⟩
  obtain ⟨g, hrun, hc⟩ := run_told sound told
  obtain ⟨enrolled, coherent⟩ := hc.invariant kept_removable sound start
  have counted : ∀ id, (fresh.removals actions).countP (Removal.ended id) =
      (g.server.isEnded id).toNat := fun id => by
    have total := run_isEnded id actions sound told hrun
    have none_yet : fresh.server.isEnded id = false := rfl
    rw [none_yet] at total
    simpa using total
  have each : ∀ r ∈ fresh.removals actions, r.before.Removes r.session r.answer r.after := by
    intro r hr
    obtain ⟨g₁, hbefore, enrolled₁, coherent₁⟩ :=
      Game.removals_reached kept_removable actions sound start told r hr
    have found := removes enrolled₁ coherent₁ r.session
    rw [hbefore] at found
    exact found
  have once : (fresh.removals actions).Pairwise fun r r' =>
      r.answer = true → r'.session = r.session → r'.answer = false :=
    pairwise_answer _ fun id => by rw [counted]; exact Bool.toNat_le _
  refine ⟨g, hrun, counted, each, once.imp_of_mem fun {r r'} _ hr' later ended same => ?_,
    removes enrolled coherent, fun handle unbound => ?_⟩
  · have fails : r'.answer = false := later ended same
    have found := each r' hr'
    rw [fails] at found
    generalize r'.after = after at found
    cases found
    exact ⟨fails, rfl⟩
  · rw [Server.disconnect, unbound]

/-- A player that logs in, is removed, loses its connection and is removed again. -/
theorem teardown_once_twice :
    let fresh : Game := { server := Server.create {} ⟨none, ∅⟩ .standard }
    let actions : List Action := [.packet ⟨1⟩ (.login { username := "ada" }), .remove 0,
      .disconnect ⟨1⟩, .remove 0]
    (∀ p v, ¬ (⟨none, ∅⟩ : World).Watched p v) ∧ (∀ a ∈ actions, a.isFinalize = false) ∧
      (fresh.removals actions).map Removal.answer = [true, false] ∧
      ∃ g, fresh.run actions = .ok g ∧
        ∀ id, (fresh.removals actions).countP (Removal.ended id) = (g.server.isEnded id).toNat := by
  intro fresh actions
  have unwatched : ∀ p v, ¬ (⟨none, ∅⟩ : World).Watched p v := fun _ _ => World.not_watched_empty
  have told : ∀ a ∈ actions, a.isFinalize = false := by decide
  have answers : (fresh.removals actions).map Removal.answer = [true, false] := by decide +kernel
  obtain ⟨g, hrun, counted, -⟩ := teardown_once {} ⟨none, ∅⟩ .standard unwatched actions told
  exact ⟨unwatched, told, answers, g, hrun, counted⟩

end BlockWorld
