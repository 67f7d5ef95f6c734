import BlockWorld.Proofs.Range
import BlockWorld.Proofs.Reception
import BlockWorld.Proofs.Validation

/-! # The view distance that a client was told is the one it has

A client asks for a view distance and is told which one it gets. The session has it from then on, until
the client asks again; what else happens, also while the columns for it are still being fetched, changes
neither.

* `grantedRadius_spec`: what is granted, as a number.
* `alter_viewDistance`, `reports_radius`: what an action makes of a view distance, and what it tells.
* `Game.Acknowledged`, `Acknowledged.step`: what was told is what holds.
* `radius_acknowledged`: the same after any run. -/

namespace BlockWorld

/-! ### Requests -/

/-- The view distance that a packet asks for. -/
def Packet.asked? : Packet → Option Int32
  | .requestChunkRadius request => some request.chunkRadius
  | _ => none

/-- The view distance that a packet tells of. -/
def Packet.radius? : Packet → Option Int32
  | .chunkRadiusUpdated radius => some radius
  | _ => none

/-- The view distance that is asked for over the connection. -/
def Action.asks (handle : Handle) : Action → Option Int32
  | .event (.packet h p) => if h = handle then p.asked? else none
  | .packet h p => if h = handle then p.asked? else none
  | _ => none

theorem Packet.radius?_of_not_report {p : Packet} (h : p.isReport = false) : p.radius? = none := by
  cases p with
  | chunkRadiusUpdated _ => cases h
  | _ => rfl

theorem handler?_standard_requestChunkRadius :
    Dispatcher.standard.handler? PacketId.requestChunkRadius = some .chunkRadius := by decide +kernel

/-! ### What is granted -/

/-- A valid configuration lets nobody see farther than any session may. -/
theorem Config.viewDistances_of_valid {config : Config} (valid : config.validate = .ok ()) :
    config.world.defaultViewDistance ≤ config.world.maxViewDistance ∧
      config.world.maxViewDistance ≤ maxViewDistance := by
  obtain ⟨⟨ordered, modest, -⟩, -⟩ := config.validate_eq_ok_iff.mp valid
  exact ⟨ordered, modest⟩

theorem clampViewDistance_eq {v : UInt32} (small : v ≤ maxViewDistance) : clampViewDistance v = v := by
  rw [← UInt32.toNat_inj, clampViewDistance, UInt32.toNat_min]
  exact Nat.min_eq_left (UInt32.le_iff_toNat_le.mp small)

theorem toInt_max_zero (r : Int32) : (max r 0).toInt = max r.toInt 0 := by
  show (if r ≤ 0 then 0 else r).toInt = _
  split
  · rename_i negative
    exact (max_eq_right (Int32.le_iff_toInt_le.mp negative)).symm
  · rename_i positive
    rw [Int32.le_iff_toInt_le, not_le] at positive
    exact (max_eq_left positive.le).symm

/-- A number that is not negative is the same without a sign. -/
theorem toNat_toUInt32 {r : Int32} (positive : 0 ≤ r.toInt) : (r.toUInt32.toNat : Int) = r.toInt := by
  have same : r.toUInt32.toNat = r.toBitVec.toNat := rfl
  rw [← Int32.toInt_toBitVec, BitVec.toInt_eq_toNat_cond] at positive ⊢
  split at positive
  · rename_i small
    rw [same, if_pos small]
  · omega

namespace Server

variable {s : Server} {p : Packet} {session : Session}

theorem grantedRadius_le (s : Server) (requested : Int32) :
    s.grantedRadius requested ≤ s.config.world.maxViewDistance := by
  rw [UInt32.le_iff_toNat_le, grantedRadius, UInt32.toNat_min]
  exact Nat.min_le_right _ _

/-- **What is granted**: what was asked for, but at least zero and at most the greatest view distance
there is. -/
theorem grantedRadius_spec (s : Server) (requested : Int32) : ((s.grantedRadius requested).toNat : Int) =
    min (max requested.toInt 0) s.config.world.maxViewDistance.toNat := by
  have positive : 0 ≤ (max requested 0).toInt := by
    rw [toInt_max_zero]
    exact le_max_right _ _
  rw [grantedRadius, UInt32.toNat_min, Nat.cast_min, toNat_toUInt32 positive, toInt_max_zero]

section Modest

variable (modest : s.config.world.maxViewDistance ≤ maxViewDistance)
include modest

/-- What is granted is no more than a session may have. -/
theorem clamp_grantedRadius (requested : Int32) :
    clampViewDistance (s.grantedRadius requested) = s.grantedRadius requested :=
  clampViewDistance_eq (UInt32.le_trans (s.grantedRadius_le requested) modest)

theorem toInt_grantedRadius (requested : Int32) :
    (s.grantedRadius requested).toInt32.toInt = (s.grantedRadius requested).toNat := by
  have small := toInt_reach (s.grantedRadius requested)
  rwa [clamp_grantedRadius modest] at small

/-- What a packet makes of the view distance of its session. -/
theorem treat_viewDistance (standard : s.dispatcher = .standard) (p : Packet) (session : Session) :
    (s.treat p session).viewDistance = if session.finalized then session.viewDistance
      else (p.asked?.map s.grantedRadius).getD session.viewDistance := by
  cases asked : p.asked? with
  | some requested =>
    cases p with
    | requestChunkRadius request =>
      cases asked
      have routed : s.dispatcher.handler? (Packet.requestChunkRadius request).id = some .chunkRadius := by
        rw [standard]
        exact handler?_standard_requestChunkRadius
      simp only [treat, routed, Session.resize]
      split
      · rfl
      · exact clamp_grantedRadius modest request.chunkRadius
    | _ => cases asked
  | none =>
    refine Eq.trans ?_ (ite_self _).symm
    rcases s.treat_cases p session with
      same | ⟨position, turn, onGround, -, same⟩ | ⟨request, asks, -⟩ | ⟨skin, same⟩ | same | same
    case inr.inr.inl =>
      rw [asks] at asked
      cases asked
    all_goals simp [same]

end Modest

/-- What a live session tells of its view distance when a packet is dealt with. -/
theorem answer_radius (standard : s.dispatcher = .standard) (live : session.finalized = false)
    (p : Packet) : (s.answer p session).filterMap Packet.radius? =
      (p.asked?.map fun r => (s.grantedRadius r).toInt32).toList := by
  cases p with
  | requestChunkRadius request =>
    have routed : s.dispatcher.handler? (Packet.requestChunkRadius request).id = some .chunkRadius := by
      rw [standard]
      exact handler?_standard_requestChunkRadius
    simp only [answer, routed, live, Bool.false_eq_true, if_false]
    rfl
  | movePlayer movement =>
    unfold answer
    split
    · split <;> rfl
    · rename_i asks
      cases asks
    · rfl
  | _ =>
    unfold answer
    split
    · rename_i moves
      cases moves
    · rename_i asks
      cases asks
    · rfl

end Server

/-! ### What an action makes of a view distance, and what it tells -/

section Alter

variable {g g' : Game} {a : Action} {id : SessionId} {session : Session} (enrolled : g.server.Enrolled)
  (standard : g.server.dispatcher = .standard) (own : g.server.session? id = some session)

include enrolled own in
/-- A connection is bound to a live session exactly if it is its own. -/
theorem bound?_own (live : session.finalized = false) (handle : Handle) :
    g.server.bound? handle = some id ↔ handle = session.handle := by
  rw [enrolled.bound?_eq_some_iff]
  constructor
  · rintro ⟨session', own', -, rfl⟩
    rw [own] at own'
    cases own'
    rfl
  · rintro rfl
    exact ⟨session, own, live, rfl⟩

include enrolled standard own

/-- **A view distance changes** only when it is asked for, and then to what is granted. -/
theorem alter_viewDistance (modest : g.server.config.world.maxViewDistance ≤ maxViewDistance)
    (transport : a.isTransport = true) :
    (a.alter g id session).viewDistance = if session.finalized then session.viewDistance
      else ((a.asks session.handle).map g.server.grantedRadius).getD session.viewDistance := by
  have treats (handle : Handle) (p : Packet) :
      (only (g.server.bound? handle) (g.server.treat p) id session).viewDistance =
        if session.finalized then session.viewDistance
        else (((if handle = session.handle then p.asked? else none)).map
          g.server.grantedRadius).getD session.viewDistance := by
    cases live : session.finalized with
    | true =>
      refine only_read Session.viewDistance ?_
      rw [Server.treat_viewDistance modest standard, live]
      rfl
    | false =>
      simp only [only, bound?_own enrolled own live]
      split
      · rw [Server.treat_viewDistance modest standard, live]
      · rfl
  have same : session.viewDistance = if session.finalized then session.viewDistance
      else ((none : Option Int32).map g.server.grantedRadius).getD session.viewDistance :=
    (ite_self _).symm
  cases a with
  | event e =>
    cases e with
    | connected handle => exact same
    | packet handle p => exact treats handle p
    | disconnected handle => exact (only_read Session.viewDistance rfl).trans same
  | packet handle p => exact treats handle p
  | tick => exact session.age_viewDistance.trans same
  | shutdown => exact same
  | advance i => exact same
  | settle i => exact same
  | _ => cases transport

/-- **A session tells a view distance** only when it is asked for one, and then what is granted. -/
theorem reports_radius (transport : a.isTransport = true) (live : session.finalized = false) :
    (a.reports g id session).filterMap Packet.radius? =
      ((a.asks session.handle).map fun r => (g.server.grantedRadius r).toInt32).toList := by
  have answers (handle : Handle) (p : Packet) :
      (if g.server.bound? handle = some id then g.server.answer p session else []).filterMap
          Packet.radius? =
        ((if handle = session.handle then p.asked? else none).map
          fun r => (g.server.grantedRadius r).toInt32).toList := by
    simp only [bound?_own enrolled own live]
    split
    · exact Server.answer_radius standard live p
    · rfl
  cases a with
  | event e =>
    cases e with
    | packet handle p => exact answers handle p
    | _ => rfl
  | packet handle p => exact answers handle p
  | tick =>
    simp only [Action.reports, Session.syncs]
    split <;> rfl
  | settle i =>
    simp only [Action.reports, Pass.reports]
    split
    · rfl
    · split
      · split <;> rfl
      · rfl
  | shutdown => rfl
  | advance i => rfl
  | _ => cases transport

/-- What a live session says of its view distance in an action. -/
theorem saidBy_radius (sound : g.Sound) (transport : a.isTransport = true)
    (live : session.finalized = false) : (saidBy id (a.words g)).filterMap Packet.radius? =
      ((a.asks session.handle).map fun r => (g.server.grantedRadius r).toInt32).toList := by
  rw [← filterMap_reported fun _ => Packet.radius?_of_not_report, words_reports sound enrolled own,
    reports_radius enrolled standard own transport live]

/-- **The last view distance that was told is the one in force** after an action, if it was before. -/
theorem last_radius (sound : g.Sound)
    (modest : g.server.config.world.maxViewDistance ≤ maxViewDistance) (transport : a.isTransport = true)
    (live : session.finalized = false) {said : List Packet}
    (before : ∀ radius, latest Packet.radius? said = some radius →
      radius.toInt = session.viewDistance.toNat) {radius : Int32}
    (told : latest Packet.radius? (said ++ saidBy id (a.words g)) = some radius) :
    radius.toInt = (a.alter g id session).viewDistance.toNat := by
  rw [alter_viewDistance enrolled standard own modest transport, live]
  rw [latest_append, latest, saidBy_radius enrolled standard own sound transport live] at told
  cases asked : a.asks session.handle with
  | none =>
    rw [asked] at told
    exact before radius told
  | some requested =>
    rw [asked] at told
    cases told
    exact Server.toInt_grantedRadius modest requested

end Alter

/-! ### Runs -/

/-- In the step exactly the clients of sessions are told a view distance that ask for one, each once:
what it asked for, but at least zero and at most `greatest`. -/
def Step.Grants (greatest : UInt32) (t : Step) : Prop :=
  ∀ handle, ∃ said, t.after.server.sentTo handle = t.before.server.sentTo handle ++ said ∧
    (said.filterMap Packet.radius?).map Int32.toInt =
      (if (t.before.server.bound? handle).isSome then (t.action.asks handle).toList else []).map
        fun requested => min (max requested.toInt 0) (greatest.toNat : Int)

/-- What holds of the steps so far: no view distance is too great, requests were granted, and the last
view distance that a live session told is the one it has. -/
structure Game.Acknowledged (config : Config) (ts : List Step) (g : Game) : Prop where
  settings : g.server.config = config
  standard : g.server.dispatcher = .standard
  received : g.Received ts
  bounded : ∀ id session, g.server.session? id = some session →
    session.viewDistance ≤ config.world.maxViewDistance
  granted : ∀ t ∈ ts, t.Grants config.world.maxViewDistance
  told : ∀ id session, g.server.session? id = some session → session.finalized = false →
    ∀ radius, latest Packet.radius? (saidBy id (ts.flatMap Step.words)) = some radius →
      radius.toInt = session.viewDistance.toNat

theorem acknowledged_create (config : Config) (world : World) :
    Game.Acknowledged config [] { server := Server.create config world .standard } := by
  refine ⟨rfl, rfl, received_create config world .standard, fun id session own => ?_,
    fun t ht => absurd ht List.not_mem_nil, fun id session own => ?_⟩
  · rw [session?_create] at own
    cases own
  · rw [session?_create] at own
    cases own

section Step

variable {g g' : Game} {a : Action} {config : Config}

/-- **Every request is granted**, and nothing is told that nobody asked for. -/
theorem step_grants (sound : g.Sound) (enrolled : g.server.Enrolled)
    (standard : g.server.dispatcher = .standard)
    (modest : g.server.config.world.maxViewDistance ≤ maxViewDistance)
    (transport : a.isTransport = true) (hstep : g.step a = .ok g') :
    Step.Grants g.server.config.world.maxViewDistance ⟨g, a, g'⟩ := by
  have regular := Action.regular_of_transport transport
  intro handle
  cases bound : g.server.bound? handle with
  | some id =>
    obtain ⟨session, own, live, rfl⟩ := enrolled.bound?_eq_some_iff.mp bound
    refine ⟨_, step_sentTo sound enrolled regular hstep own live, ?_⟩
    rw [saidBy_radius enrolled standard own sound transport live]
    cases a.asks session.handle with
    | none => simp
    | some requested =>
      simp [Server.toInt_grantedRadius modest, Server.grantedRadius_spec]
  | none =>
    obtain ⟨said, sent, silent⟩ := step_reports_nobody sound enrolled regular hstep bound
    refine ⟨said, sent, ?_⟩
    have none : said.filterMap Packet.radius? = [] :=
      List.filterMap_eq_nil_iff.mpr fun p hp => Packet.radius?_of_not_report (silent p hp)
    simp [none]

theorem Game.Acknowledged.step {ts : List Step} (h : g.Acknowledged config ts) (sound : g.Sound)
    (enrolled : g.server.Enrolled) (valid : config.validate = .ok ())
    (transport : a.isTransport = true) (hstep : g.step a = .ok g') :
    g'.Acknowledged config (ts ++ [⟨g, a, g'⟩]) := by
  have regular := Action.regular_of_transport transport
  obtain ⟨inner, modest⟩ := config.viewDistances_of_valid valid
  have changes := (turns_of_step sound hstep).changes
  have settings := changes.settings sound
  have modest' : g.server.config.world.maxViewDistance ≤ maxViewDistance := by
    rw [h.settings]
    exact modest
  have newcomer : ∀ login handle, (g.server.newcomer login handle).viewDistance =
      config.world.defaultViewDistance := by
    intro login handle
    show clampViewDistance g.server.config.world.defaultViewDistance = _
    rw [h.settings]
    exact clampViewDistance_eq (UInt32.le_trans inner modest)
  refine ⟨settings.config.trans h.settings, settings.dispatcher.trans h.standard,
    h.received.step sound enrolled regular hstep, fun id session' own' => ?_, fun t ht => ?_,
    fun id session' own' live' radius told => ?_⟩
  · rcases step_source sound enrolled hstep own' with ⟨session, t, own, rfl⟩ | ⟨login, handle, rfl⟩
    · show (a.alter g id session).viewDistance ≤ _
      have before := h.bounded id session own
      rw [alter_viewDistance enrolled h.standard own modest' transport]
      split
      · exact before
      · cases a.asks session.handle with
        | none => exact before
        | some requested =>
          rw [← h.settings]
          exact g.server.grantedRadius_le requested
    · rw [newcomer]
      exact inner
  · rcases List.mem_append.mp ht with ht | ht
    · exact h.granted t ht
    · cases List.mem_singleton.mp ht
      rw [← h.settings]
      exact step_grants sound enrolled h.standard modest' transport hstep
  · rw [List.flatMap_append, List.flatMap_singleton, saidBy_append] at told
    rcases step_before sound hstep own' live' with fresh | ⟨session, own, live, -, -⟩
    · -- the newcomer is greeted, which tells it no view distance
      obtain ⟨login, handle, -, -, -, words, -⟩ := step_newborn sound hstep fresh own'
      have greeted : Step.words ⟨g, a, g'⟩ = g.server.greeting handle := words
      have silent : reported id (g.server.greeting handle) = [] :=
        reported_eq_nil (by simp [Server.greeting, Packet.isReport])
      rw [h.received.unborn id fresh, List.nil_append, greeted, latest,
        ← filterMap_reported fun _ => Packet.radius?_of_not_report, silent] at told
      cases told
    · obtain ⟨t, altered⟩ := step_alters sound enrolled hstep id session own
      rw [own'] at altered
      cases altered
      exact last_radius enrolled h.standard own sound modest' transport live
        (h.told id session own live) told

end Step

/-- **The view distance that a client was told is the one it has.** In every run that clients and the
clock bring about, with a valid configuration: no view distance is greater than the greatest of the
configuration, or than 64. Whenever the client of a session asks for one, it is told exactly one, what
it asked for but at least zero and at most the greatest; otherwise nobody is told any. The last that a
player was told since its login, if any, is the one it has. -/
theorem radius_acknowledged (config : Config) (world : World) (actions : List Action)
    (valid : config.validate = .ok ()) (transport : ∀ a ∈ actions, a.isTransport = true) :
    let start : Game := { server := Server.create config world .standard }
    ∃ g, start.run actions = .ok g ∧
      (∀ id session, g.server.session? id = some session →
        session.viewDistance ≤ config.world.maxViewDistance ∧ session.viewDistance ≤ 64) ∧
      (∀ t ∈ start.history actions, t.Grants config.world.maxViewDistance) ∧
      ∀ m ∈ g.server.registry.players, ∃ session, g.server.session? m.session = some session ∧
        ∃ t ∈ start.history actions, t.brings m.session = true ∧
          ∃ received, g.server.sentTo m.handle = t.before.server.sentTo m.handle ++ received ∧
            ∀ radius, latest Packet.radius? received = some radius →
              radius.toInt = session.viewDistance.toNat := by
  intro start
  obtain ⟨g, hrun, -, enrolled, acknowledged⟩ := run_fresh (P := fun ts g => g.Acknowledged config ts)
    Action.told_of_transport
    (fun sound enrolled h transport hstep => h.step sound enrolled valid transport hstep)
    (acknowledged_create config world) transport
  refine ⟨g, hrun, fun id session own => ?_, acknowledged.granted, fun m hm => ?_⟩
  · have bounded := acknowledged.bounded id session own
    exact ⟨bounded, UInt32.le_trans bounded (config.viewDistances_of_valid valid).2⟩
  · obtain ⟨session, own, live, is⟩ := enrolled.mem_players.mp hm
    have address : m.handle = session.handle := congrArg Member.handle is
    obtain ⟨t, ht, brings, since⟩ := acknowledged.received.since m.session session own live
    rw [address]
    exact ⟨session, own, t, ht, brings, _, since, acknowledged.told m.session session own live⟩

/-- A client that asks three times, while the columns are still being fetched. -/
theorem radius_acknowledged_thrice :
    let config : Config := { world := { defaultViewDistance := 1, maxViewDistance := 2 } }
    let ask (radius : Int32) : Action := .event (.packet ⟨1⟩ (.requestChunkRadius ⟨radius, 64⟩))
    let actions : List Action :=
      [.event (.packet ⟨1⟩ (.login { username := "ada" })), ask 1, .advance 0, ask (-3), .advance 0,
        ask 100, .settle 1]
    let start : Game := { server := Server.create config {} .standard }
    config.validate = .ok () ∧ (∀ a ∈ actions, a.isTransport = true) ∧
      (∃ g, start.run actions = .ok g ∧
        ∀ t ∈ start.history actions, t.Grants config.world.maxViewDistance) ∧
      (start.run actions).toOption.map (fun g =>
        ((g.server.sentTo ⟨1⟩).filterMap Packet.radius?, (g.server.session? 0).map Session.viewDistance)) =
          some ([1, 0, 2], some 2) := by
  intro config ask actions start
  have valid : config.validate = .ok () := rfl
  have transport : ∀ a ∈ actions, a.isTransport = true := by decide
  obtain ⟨g, hrun, -, grants, -⟩ := radius_acknowledged config {} actions valid transport
  exact ⟨valid, transport, ⟨g, hrun, grants⟩, by decide +kernel⟩

end BlockWorld
