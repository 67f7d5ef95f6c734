import BlockWorld.Proofs.Admission
import BlockWorld.Proofs.Deed
import BlockWorld.Proofs.Whole

/-! # Clients do not get in each other's way

The clients of a server share the world, the registry and the outbox. Still, as long as their packets
concern their own players only, each of them finds and gets what it would find and get if it were
alone. So the order in which packets of different clients are dealt with does not matter.

* `Server.Addressed`: whoever a connection is bound to is a session with that connection.
* `Server.Splits`: what a server has in common with those on which one client alone was active.
* `Splits.step`: one packet more; `Splits.run`: a run of packets, and for each client the run of its
  own packets.
* `Splits.eq`: two servers that split in the same way are the same, as far as clients can tell.
* `clients_commute`: two orders of the same packets. -/

namespace BlockWorld

namespace Server

variable {s s' t t' : Server} {handle : Handle} {id : SessionId} {d : Deed} {solo : Handle → Server}

/-! ### Bound connections -/

/-- Whoever a connection is bound to is a session with that connection. -/
def Addressed (s : Server) : Prop :=
  ∀ {handle id}, s.bound? handle = some id →
    ∃ session, s.session? id = some session ∧ session.handle = handle

theorem addressed_create (config : Config) (world : World) (dispatcher : Dispatcher) :
    (Server.create config world dispatcher).Addressed := by
  intro handle id bound
  simp [bound?, Registry.byHandle?, create] at bound

/-- No two connections are bound to the same session. -/
theorem Addressed.injective (h : s.Addressed) {j k : Handle} (hj : s.bound? j = some id)
    (hk : s.bound? k = some id) : j = k := by
  obtain ⟨session, own, rfl⟩ := h hj
  obtain ⟨session', own', rfl⟩ := h hk
  rw [own] at own'
  cases own'
  rfl

theorem Addressed.client (h : s.Addressed) {session : Session} (own : s.client? handle = some session) :
    ∃ id, s.bound? handle = some id ∧ s.session? id = some session ∧ session.handle = handle := by
  obtain ⟨id, bound, hs⟩ := Option.bind_eq_some_iff.mp own
  obtain ⟨session', hs', address⟩ := h bound
  rw [hs] at hs'
  cases hs'
  exact ⟨id, bound, hs, address⟩

theorem Addressed.accept (h : s.Addressed) (login : Login) (handle : Handle) :
    (s.accept login handle).Addressed := by
  have spec := s.accept_spec login handle
  intro k id bound
  rw [bound?, spec.registry, Registry.byHandle?_bind] at bound
  split at bound
  · rename_i same
    cases bound
    exact ⟨_, spec.new, same⟩
  · obtain ⟨session, own, address⟩ := h bound
    exact ⟨session, spec.known own, address⟩

end Server

/-- **Connections stay bound to their own sessions.** -/
theorem Change.addressed {acts : SessionId → Prop} {ends : Ending → Prop} {g g' : Game}
    (c : Change acts ends g g') (sound : g.Sound) (h : g.server.Addressed) : g'.server.Addressed := by
  obtain ⟨us, turn⟩ := id c
  rcases turn.population sound with ⟨login, handle, -, -, rfl⟩ | nobody
  · exact h.accept login handle
  · intro k id bound
    obtain ⟨m, hm, rfl⟩ := Option.map_eq_some_iff.mp bound
    have before : g.server.bound? k = some m.session := by
      rw [Server.bound?, nobody.registry.byHandle hm]
      rfl
    obtain ⟨session, own, address⟩ := h before
    obtain ⟨session', own', lasts⟩ := c.lasts sound own
    exact ⟨session', own', lasts.handle.trans address⟩

theorem Changes.addressed {acts : SessionId → Prop} {ends : Ending → Prop} {g g' : Game}
    (c : Changes acts ends g g') (sound : g.Sound) (h : g.server.Addressed) : g'.server.Addressed :=
  c.invariant (P := fun g => g.server.Addressed) (fun sound h c => c.addressed sound h) sound h

namespace Server

variable {s s' t t' : Server} {handle : Handle} {id : SessionId} {d : Deed} {solo : Handle → Server}

/-- A deed changes the viewer id of no client. -/
theorem Does.viewer? (h : s.Does handle d t) (addressed : s.Addressed) (k : Handle) :
    t.viewer? k = s.viewer? k := by
  have bound : t.bound? k = s.bound? k := bound?_congr h.registry
  cases who : s.bound? k with
  | none => simp [Server.viewer?, client?, bound, who]
  | some id =>
    rw [who] at bound
    by_cases same : k = handle
    · subst same
      rw [Server.viewer?, client?_eq bound, h.own who, h.viewer]
    · have other : s.bound? handle ≠ some id := fun taken => same (addressed.injective who taken)
      rw [Server.viewer?, Server.viewer?, client?_eq bound, client?_eq who, h.session?, if_neg other]

theorem Does.sentTo (h : s.Does handle d t) (k : Handle) :
    t.sentTo k = s.sentTo k ++ if k = handle then d.packets else [] := by
  rw [Server.sentTo, h.sent, List.filter_append, List.map_append, Server.sentTo]
  congr 1
  split
  · rename_i same
    simp [same, List.filter_map, Function.comp_def]
  · rename_i apart
    simp [Ne.symm apart, List.filter_map, Function.comp_def]

/-! ### Servers that split -/

/-- The client of each connection finds on its own server `solo` what it finds on `s`, and got there
what it got on `s`. What belongs to no other client is the same, and whatever is loaded was loaded
for one of the clients. -/
structure Splits (s : Server) (solo : Handle → Server) : Prop where
  config : ∀ k, (solo k).config = s.config
  dispatcher : ∀ k, (solo k).dispatcher = s.dispatcher
  registry : ∀ k, (solo k).registry = s.registry
  session? : ∀ k id, (∀ j, s.bound? j = some id → j = k) → (solo k).session? id = s.session? id
  border : ∀ k, (solo k).world.border = s.world.border
  entities : ∀ k p, (solo k).world.entitiesAt p = s.world.entitiesAt p
  loaded : ∀ p, s.world.Loaded p ↔ ∃ k, (solo k).world.Loaded p
  watched : ∀ k v, (∀ j, s.viewer? j = some v → j = k) →
    ∀ p, (solo k).world.Watched p v ↔ s.world.Watched p v
  sent : ∀ k, (solo k).sentTo k = s.sentTo k

namespace Splits

theorem refl (s : Server) : s.Splits fun _ => s where
  config _ := rfl
  dispatcher _ := rfl
  registry _ := rfl
  session? _ _ _ := rfl
  border _ := rfl
  entities _ _ := rfl
  loaded _ := ⟨fun h => ⟨default, h⟩, fun ⟨_, h⟩ => h⟩
  watched _ _ _ _ := Iff.rfl
  sent _ := rfl

theorem bound? (h : s.Splits solo) (k j : Handle) : (solo k).bound? j = s.bound? j :=
  bound?_congr (h.registry k)

theorem client? (h : s.Splits solo) (addressed : s.Addressed) (k : Handle) :
    (solo k).client? k = s.client? k := by
  cases who : s.bound? k with
  | none => rw [Server.client?, Server.client?, h.bound?, who]; rfl
  | some id =>
    rw [client?_eq ((h.bound? k k).trans who), client?_eq who]
    exact h.session? k id fun j bound => addressed.injective bound who

theorem resembles (h : s.Splits solo) (addressed : s.Addressed) (k : Handle) :
    s.Resembles k (solo k) :=
  ⟨h.config k, h.dispatcher k, h.bound? k k, h.client? addressed k, h.border k, h.entities k⟩

/-- **One deed more**, on the server and on that of the client alone. -/
theorem step (h : s.Splits solo) (addressed : s.Addressed) (does : s.Does handle d t)
    (does' : (solo handle).Does handle d t') : t.Splits (Function.update solo handle t') := by
  have bound : ∀ j, t.bound? j = s.bound? j := fun j => bound?_congr does.registry
  have viewer := does.viewer? addressed
  have viewer' : (solo handle).viewer? handle = s.viewer? handle :=
    congrArg (Option.map Session.viewerId) (h.client? addressed handle)
  -- on the server of the client that acts, and on those of the others, which stay as they are
  have each (P : Handle → Server → Prop) (here : P handle t')
      (there : ∀ k, k ≠ handle → P k (solo k)) : ∀ k, P k (Function.update solo handle t' k) :=
    (Function.forall_update_iff solo P).mpr ⟨here, there⟩
  refine ⟨each (fun _ u => u.config = t.config) ?_ fun k _ => ?_,
    each (fun _ u => u.dispatcher = t.dispatcher) ?_ fun k _ => ?_,
    each (fun _ u => u.registry = t.registry) ?_ fun k _ => ?_,
    each (fun k u => ∀ id, (∀ j, t.bound? j = some id → j = k) → u.session? id = t.session? id)
      (fun id mine => ?_) fun k apart id mine => ?_,
    each (fun _ u => u.world.border = t.world.border) ?_ fun k _ => ?_,
    each (fun _ u => ∀ p, u.world.entitiesAt p = t.world.entitiesAt p) (fun p => ?_) fun k _ p => ?_,
    fun p => ?_,
    each (fun k u => ∀ v, (∀ j, t.viewer? j = some v → j = k) →
        ∀ p, u.world.Watched p v ↔ t.world.Watched p v)
      (fun v mine p => ?_) fun k apart v mine p => ?_,
    each (fun k u => u.sentTo k = t.sentTo k) ?_ fun k apart => ?_⟩
  · rw [does'.config, does.config, h.config]
  · rw [does.config, h.config]
  · rw [does'.dispatcher, does.dispatcher, h.dispatcher]
  · rw [does.dispatcher, h.dispatcher]
  · rw [does'.registry, does.registry, h.registry]
  · rw [does.registry, h.registry]
  · rw [does'.session?, does.session?, h.bound?,
      h.session? handle id fun j hj => mine j ((bound j).trans hj)]
  · have mine₀ : ∀ j, s.bound? j = some id → j = k := fun j hj => mine j ((bound j).trans hj)
    have other : s.bound? handle ≠ some id := fun taken => apart (mine₀ handle taken).symm
    rw [h.session? k id mine₀, does.session?, if_neg other]
  · rw [does'.border, does.border, h.border]
  · rw [does.border, h.border]
  · rw [does'.entities, does.entities, h.entities]
  · rw [does.entities, h.entities]
  · rw [does.loaded, h.loaded, Function.exists_update_iff solo (fun _ u => u.world.Loaded p),
      does'.loaded]
    constructor
    · rintro (⟨k, hk⟩ | loads)
      · by_cases same : k = handle
        · exact Or.inl (Or.inl (same ▸ hk))
        · exact Or.inr ⟨k, same, hk⟩
      · exact Or.inl (Or.inr loads)
    · rintro ((own | loads) | ⟨k, -, hk⟩)
      · exact Or.inl ⟨handle, own⟩
      · exact Or.inr loads
      · exact Or.inl ⟨k, hk⟩
  · have before : (solo handle).world.Watched p v = s.world.Watched p v :=
      propext (h.watched handle v (fun j hj => mine j ((viewer j).trans hj)) p)
    rw [does'.watched, does.watched, viewer', before]
  · have mine₀ : ∀ j, s.viewer? j = some v → j = k := fun j hj => mine j ((viewer j).trans hj)
    have other : s.viewer? handle ≠ some v := fun taken => apart (mine₀ handle taken).symm
    rw [h.watched k v mine₀, does.watched, if_neg other]
  · rw [does'.sentTo, does.sentTo, h.sent]
  · rw [does.sentTo, if_neg apart, List.append_nil, h.sent]

end Splits

/-! ### Servers that split in the same way -/

/-- At most one client has the viewer id `v`. -/
def Unshared (s : Server) (v : ViewerId) : Prop :=
  ∀ j k, s.viewer? j = some v → s.viewer? k = some v → j = k

/-- Up to `2 ^ 64` logins no two clients share a viewer id. -/
theorem Numbered.unshared (h : s.Numbered) (addressed : s.Addressed) (few : s.sessions.size ≤ 2 ^ 64)
    (v : ViewerId) : s.Unshared v := by
  intro j k hj hk
  obtain ⟨session, own, rfl⟩ := Option.map_eq_some_iff.mp hj
  obtain ⟨session', own', same⟩ := Option.map_eq_some_iff.mp hk
  obtain ⟨id, bound, hs, -⟩ := addressed.client own
  obtain ⟨id', bound', hs', -⟩ := addressed.client own'
  by_cases one : id = id'
  · subst one
    exact addressed.injective bound bound'
  · obtain ⟨-, -, apart⟩ := h.distinct few hs hs' one
    exact absurd same.symm apart

/-- What at most one connection has, some connection has alone, or nobody has. -/
theorem exists_owner {P : Handle → Prop} (h : ∀ j k, P j → P k → j = k) : ∃ k, ∀ j, P j → j = k := by
  by_cases somebody : ∃ k, P k
  · obtain ⟨k, hk⟩ := somebody
    exact ⟨k, fun j hj => h j k hj hk⟩
  · exact ⟨default, fun j hj => absurd ⟨j, hj⟩ somebody⟩

/-- The servers are the same, as far as clients can tell. -/
structure Same (s s' : Server) : Prop where
  registry : s'.registry = s.registry
  sessions : s'.sessions = s.sessions
  border : s'.world.border = s.world.border
  loaded : ∀ p, s'.world.Loaded p ↔ s.world.Loaded p
  entities : ∀ p, s'.world.entitiesAt p = s.world.entitiesAt p
  watched : ∀ v, s.Unshared v → ∀ p, s'.world.Watched p v ↔ s.world.Watched p v
  sent : ∀ handle, s'.sentTo handle = s.sentTo handle

/-- **Servers that split in the same way are the same.** -/
theorem Splits.same (h : s.Splits solo) (h' : s'.Splits solo) (addressed : s.Addressed)
    (addressed' : s'.Addressed) : s.Same s' := by
  have registry : s'.registry = s.registry := (h'.registry default).symm.trans (h.registry default)
  have bound : ∀ j, s'.bound? j = s.bound? j := fun j => bound?_congr registry
  have viewer : ∀ j, s'.viewer? j = s.viewer? j := fun j =>
    congrArg (Option.map Session.viewerId)
      ((h'.client? addressed' j).symm.trans (h.client? addressed j))
  refine ⟨registry, Array.ext_getElem? fun id => ?_, (h'.border default).symm.trans (h.border default),
    fun p => (h'.loaded p).trans (h.loaded p).symm,
    fun p => (h'.entities default p).symm.trans (h.entities default p), fun v unshared p => ?_,
    fun k => (h'.sent k).symm.trans (h.sent k)⟩
  · obtain ⟨k, mine⟩ := exists_owner fun j k (hj : s.bound? j = some id) hk =>
      addressed.injective hj hk
    exact (h'.session? k id fun j hj => mine j ((bound j).symm.trans hj)).symm.trans
      (h.session? k id mine)
  · obtain ⟨k, mine⟩ := exists_owner unshared
    exact (h'.watched k v (fun j hj => mine j ((viewer j).symm.trans hj)) p).symm.trans
      (h.watched k v mine p)

end Server

/-- **A world is what can be seen of it**: its border, which columns are there, who watches them and
which entities stand in them. -/
theorem World.eq_of_observed {w w' : World} (border : w'.border = w.border)
    (loaded : ∀ p, w'.Loaded p ↔ w.Loaded p) (entities : ∀ p, w'.entitiesAt p = w.entitiesAt p)
    (watched : ∀ p v, w'.Watched p v ↔ w.Watched p v) : w' = w := by
  have column : ∀ p, w'.column? p = w.column? p := by
    intro p
    cases hc : w.column? p with
    | none =>
      cases hc' : w'.column? p with
      | none => rfl
      | some c' =>
        obtain ⟨c, hc₁⟩ := ((loaded p).mp (loaded_iff.mpr ⟨c', hc'⟩)).column
        rw [hc] at hc₁
        cases hc₁
    | some c =>
      obtain ⟨c', hc'⟩ := ((loaded p).mpr (loaded_iff.mpr ⟨c, hc⟩)).column
      have sameEntities : c'.entities = c.entities := by
        simpa [entitiesAt, hc, hc'] using entities p
      have sameViewers : c'.viewers = c.viewers := by
        refine Std.ExtTreeSet.ext_contains fun v => ?_
        have seen := watched p v
        simp only [Watched, hc, hc', Option.some.injEq, exists_eq_left'] at seen
        exact Bool.eq_iff_iff.mpr seen
      rw [hc']
      cases c; cases c'
      simp_all
  cases w; cases w'
  simp only [World.mk.injEq]
  exact ⟨border, Std.ExtTreeMap.ext_getElem? column⟩

/-! ### Runs -/

open Server in
/-- **For each client a run of packets is the run of its own packets alone**: they have the same
outcomes, and the server splits into those that deal with them. -/
theorem handlePackets_splits : ∀ (xs : List (Handle × Packet)) {g : Game} {solo : Handle → Server},
    (∀ x ∈ xs, x.2.isPrivate = true) → g.Sound → g.server.Addressed → g.server.Splits solo →
    ∃ outcomes t solo', g.server.handlePackets xs = .ok (outcomes, t) ∧
      (∀ k, (solo k).handlePackets (xs.filter (·.1 == k)) =
        .ok (outcomes.filter (·.1 == k), solo' k)) ∧
      t.Splits solo' ∧ t.Addressed ∧ ∀ k, t.viewer? k = g.server.viewer? k
  | [], g, solo, _, _, addressed, splits =>
    ⟨[], g.server, solo, rfl, fun _ => rfl, splits, addressed, fun _ => rfl⟩
  | (handle, packet) :: xs, g, solo, own, sound, addressed, splits => by
    obtain ⟨outcome, g₁, first, c⟩ := handlePacket_changes sound handle packet
    have sound₀ : ∀ session, g.server.client? handle = some session →
        session.Sound ∧ session.handle = handle := by
      intro session hs
      obtain ⟨id, -, hs, address⟩ := addressed.client hs
      exact ⟨sound.session hs, address⟩
    obtain ⟨t', first', d, does, does', -⟩ :=
      (handlePacket_agree (own _ List.mem_cons_self) (splits.resembles addressed handle) sound₀).of_ok
        first
    have addressed₁ : g₁.server.Addressed := c.addressed sound addressed
    obtain ⟨outcomes, t, solo', later, alone, splits', addressed', viewers⟩ :=
      handlePackets_splits xs (fun x hx => own x (List.mem_cons_of_mem _ hx)) (c.sound sound)
        addressed₁ (splits.step addressed does does')
    refine ⟨(handle, outcome) :: outcomes, t, solo', handlePackets_cons first later, fun k => ?_,
      splits', addressed', fun k => (viewers k).trans (does.viewer? addressed k)⟩
    have rest := alone k
    by_cases same : handle = k
    · subst same
      rw [Function.update_self] at rest
      rw [List.filter_cons_of_pos (by simp), List.filter_cons_of_pos (by simp)]
      exact handlePackets_cons first' rest
    · rw [Function.update_of_ne (Ne.symm same)] at rest
      rw [List.filter_cons_of_neg (by simpa using same), List.filter_cons_of_neg (by simpa using same)]
      exact rest

/-- **Clients do not get in each other's way.** After any run from a fresh server, take two orders of
the same packets, the packets of each client in the same order; let them be movements, requests for a
view distance and words that a client is ready, each dealt with completely. Then every packet has the
same outcome in both orders, every client is sent the same packets in the same order, and in the end
the registry, the sessions and the world are the same.

Only who watches under a viewer id that several clients share may depend on the order, and up to
`2 ^ 64` logins there is no such id. -/
theorem clients_commute (config : Config) (world : World) (dispatcher : Dispatcher)
    (actions : List Action) :
    ∃ g, Game.run { server := Server.create config world dispatcher } actions = .ok g ∧
      ∀ xs ys : List (Handle × Packet), (∀ x ∈ xs, x.2.isPrivate = true) →
        (∀ handle, ys.filter (·.1 == handle) = xs.filter (·.1 == handle)) →
        ∃ outcomes s outcomes' s', g.server.handlePackets xs = .ok (outcomes, s) ∧
          g.server.handlePackets ys = .ok (outcomes', s') ∧
          (∀ handle, outcomes'.filter (·.1 == handle) = outcomes.filter (·.1 == handle)) ∧
          s'.registry = s.registry ∧ s'.sessions = s.sessions ∧
          (∀ p, s'.world.Loaded p ↔ s.world.Loaded p) ∧
          (∀ p, s'.world.entitiesAt p = s.world.entitiesAt p) ∧
          (∀ v, g.server.Unshared v → ∀ p, s'.world.Watched p v ↔ s.world.Watched p v) ∧
          (g.server.sessions.size ≤ 2 ^ 64 → s'.world = s.world) ∧
          ∀ handle, s'.sentTo handle = s.sentTo handle := by
  obtain ⟨g, hrun, sound, numbered, addressed⟩ := run_invariant
    (P := fun g => g.server.Numbered ∧ g.server.Addressed)
    (fun sound h c => ⟨c.numbered sound h.1, c.addressed sound h.2⟩)
    (sound_create config world dispatcher)
    ⟨Server.numbered_create config world dispatcher, Server.addressed_create config world dispatcher⟩
    actions
  refine ⟨g, hrun, fun xs ys own merges => ?_⟩
  have own' : ∀ y ∈ ys, y.2.isPrivate = true := by
    intro y hy
    have among : y ∈ ys.filter (·.1 == y.1) := List.mem_filter.mpr ⟨hy, beq_self_eq_true _⟩
    rw [merges] at among
    exact own y (List.mem_filter.mp among).1
  obtain ⟨outcomes, s, solo, ran, alone, splits, addressed₁, viewers⟩ :=
    handlePackets_splits xs own sound addressed (.refl g.server)
  obtain ⟨outcomes', s', solo', ran', alone', splits', addressed₁', -⟩ :=
    handlePackets_splits ys own' sound addressed (.refl g.server)
  have each : ∀ k, outcomes'.filter (·.1 == k) = outcomes.filter (·.1 == k) ∧ solo' k = solo k := by
    intro k
    have answered := alone' k
    rw [merges, alone k] at answered
    exact ⟨(congrArg Prod.fst (Except.ok.inj answered)).symm,
      (congrArg Prod.snd (Except.ok.inj answered)).symm⟩
  have one : solo' = solo := funext fun k => (each k).2
  have same := splits.same (one ▸ splits') addressed₁ addressed₁'
  have unshared : ∀ v, g.server.Unshared v → s.Unshared v := fun v h j k hj hk =>
    h j k ((viewers j).symm.trans hj) ((viewers k).symm.trans hk)
  exact ⟨outcomes, s, outcomes', s', ran, ran', fun k => (each k).1, same.registry, same.sessions,
    same.loaded, same.entities, fun v h => same.watched v (unshared v h),
    fun few => World.eq_of_observed same.border same.loaded same.entities fun p v =>
      same.watched v (unshared v (numbered.unshared addressed few v)) p,
    same.sent⟩

/-- Two players, of which one asks for a view distance and enters the world, while the other asks for
one and moves; all packets of the one before those of the other, or by turns. -/
theorem clients_commute_turns :
    let radius : Packet := .requestChunkRadius ⟨2, 8⟩
    let ready : Packet := .setLocalPlayerAsInitialized 1
    let moves : Packet := .movePlayer
      { runtimeEntityId := 2, position := ⟨20, 5, 0⟩, rotation := Rotation.zero, onGround := true }
    let xs : List (Handle × Packet) := [(⟨1⟩, radius), (⟨1⟩, ready), (⟨2⟩, radius), (⟨2⟩, moves)]
    let ys : List (Handle × Packet) := [(⟨2⟩, radius), (⟨1⟩, radius), (⟨2⟩, moves), (⟨1⟩, ready)]
    (∀ x ∈ xs, x.2.isPrivate = true) ∧
      (∀ handle, ys.filter (·.1 == handle) = xs.filter (·.1 == handle)) ∧
      ∃ g, Game.run { server := Server.create {} {} .standard }
          [.packet ⟨1⟩ (.login { username := "ada" }), .packet ⟨2⟩ (.login { username := "bob" })] =
            .ok g ∧
        ∃ outcomes s outcomes' s', g.server.handlePackets xs = .ok (outcomes, s) ∧
          g.server.handlePackets ys = .ok (outcomes', s') ∧ s'.sessions = s.sessions ∧
          s'.world = s.world := by
  intro radius ready moves xs ys
  have own : ∀ x ∈ xs, x.2.isPrivate = true := by simp [xs, radius, ready, moves, Packet.isPrivate]
  have merges : ∀ handle, ys.filter (·.1 == handle) = xs.filter (·.1 == handle) := by
    intro handle
    rcases eq_or_ne handle ⟨1⟩ with rfl | first
    · rfl
    · rcases eq_or_ne handle ⟨2⟩ with rfl | second
      · rfl
      · simp [xs, ys, first.symm, second.symm]
  obtain ⟨g, hrun, commute⟩ := clients_commute {} {} .standard
    [.packet ⟨1⟩ (.login { username := "ada" }), .packet ⟨2⟩ (.login { username := "bob" })]
  -- no more sessions than actions
  have size : g.server.sessions.size = 0 + _ :=
    (run_admissions _ (sound_create {} {} .standard) hrun).1
  have few : g.server.sessions.size ≤ 2 ^ 64 := by
    rw [size, Nat.zero_add]
    exact (Game.length_admissions_le _).trans (by decide)
  obtain ⟨outcomes, s, outcomes', s', ran, ran', -, -, sessions, -, -, -, worlds, -⟩ :=
    commute xs ys own merges
  exact ⟨own, merges, g, hrun, outcomes, s, outcomes', s', ran, ran', sessions, worlds few⟩

end BlockWorld
