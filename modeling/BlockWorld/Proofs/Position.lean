import BlockWorld.Proofs.Reception
import BlockWorld.Proofs.Verdict

/-! # Where a player is put back to

A player comes into the world at the place that the configuration names, and from then on it goes where
its client says, if that is a possible place. So its place is always a possible one, unless it is the
one of the configuration, and that one nobody has looked at. Where its client says an impossible place,
the player is put back to where it is.

* `treat_position`, `alter_position`: what a packet and an action make of a place.
* `reports_position`: where a player is put back to.
* `Game.Placed`, `Placed.step`: every place is a right one, if possible places are and the one of the
  configuration is.
* `positions_finite_iff`: all places are possible in all runs exactly if that of the configuration is.
* `position_impossible`: a run in which one is not. -/

namespace BlockWorld

/-- The place that a packet puts the player of its client back to. -/
def Packet.reset? : Packet → Option Vec3
  | .movePlayer movement => if movement.mode = .reset then some movement.position else none
  | _ => none

theorem Packet.isReport_of_reset {p : Packet} {position : Vec3} (h : p.reset? = some position) :
    p.isReport = true := by
  cases p with
  | movePlayer movement =>
    simp only [reset?] at h
    split at h
    · rename_i mode
      rw [isReport, mode]
      rfl
    · cases h
  | _ => cases h

namespace Server

/-- **A packet moves a player** to a possible place only. -/
theorem treat_position (s : Server) (p : Packet) (session : Session) :
    (s.treat p session).position = session.position ∨
      (s.treat p session).position.isFinite = true := by
  rcases s.treat_cases p session with
    same | ⟨position, turn, onGround, possible, same⟩ | ⟨request, -, same⟩ | ⟨skin, same⟩ | same | same
  case inr.inl =>
    rw [same, Session.pursue]
    split
    · exact Or.inl rfl
    · exact Or.inr possible
  all_goals exact Or.inl (by simp [same])

end Server

section Step

variable {g g' : Game} {a : Action} {id : SessionId} {session : Session}

/-- **A player is moved** to a possible place only. -/
theorem alter_position (transport : a.isTransport = true) (g : Game) (id : SessionId)
    (session : Session) : (a.alter g id session).position = session.position ∨
      (a.alter g id session).position.isFinite = true := by
  have treats (who : Option SessionId) (p : Packet) :
      (only who (g.server.treat p) id session).position = session.position ∨
        (only who (g.server.treat p) id session).position.isFinite = true := by
    unfold only
    split
    · exact g.server.treat_position p session
    · exact Or.inl rfl
  cases a with
  | event e =>
    cases e with
    | connected handle => exact Or.inl rfl
    | packet handle p => exact treats _ p
    | disconnected handle => exact Or.inl (only_read Session.position rfl)
  | packet handle p => exact treats _ p
  | tick => exact Or.inl session.age_position
  | shutdown => exact Or.inl rfl
  | advance i => exact Or.inl rfl
  | settle i => exact Or.inl rfl
  | _ => cases transport

/-- **A player is put back** to where it is. -/
theorem reports_position {p : Packet} {position : Vec3} (told : p ∈ a.reports g id session)
    (reset : p.reset? = some position) : position = session.position := by
  rcases a.reports_cases g id session with same | same | ⟨radius, same⟩ | ⟨tick, same⟩ <;>
    rw [same] at told
  · cases told
  all_goals
    cases List.mem_singleton.mp told
    cases reset
  rfl

/-- Every player is at a right place, and was only ever put back to right places. -/
structure Game.Placed (right : Vec3 → Prop) (g : Game) : Prop where
  spawn : right g.server.config.world.spawn
  sessions : ∀ id session, g.server.session? id = some session → right session.position
  resets : ∀ handle, ∀ p ∈ g.server.sentTo handle, ∀ position, p.reset? = some position → right position

variable {right : Vec3 → Prop}

theorem placed_create {config : Config} (spawn : right config.world.spawn) (world : World)
    (dispatcher : Dispatcher) : Game.Placed right { server := Server.create config world dispatcher } := by
  refine ⟨spawn, fun id session own => ?_, fun handle p hp => ?_⟩
  · rw [session?_create] at own
    cases own
  · cases hp

theorem Game.Placed.step (possible : ∀ position, position.isFinite = true → right position)
    (h : g.Placed right) (sound : g.Sound) (enrolled : g.server.Enrolled)
    (transport : a.isTransport = true) (hstep : g.step a = .ok g') : g'.Placed right := by
  have changes := (turns_of_step sound hstep).changes
  refine ⟨?_, fun id session' own' => ?_, fun handle p hp position reset => ?_⟩
  · rw [(changes.settings sound).config]
    exact h.spawn
  · rcases step_source sound enrolled hstep own' with ⟨session, t, own, rfl⟩ | ⟨login, handle, rfl⟩
    · show right (a.alter g id session).position
      rcases alter_position transport g id session with stays | finite
      · rw [stays]
        exact h.sessions id session own
      · exact possible _ finite
    · exact h.spawn
  · rw [sentTo_eq (step_sent sound hstep)] at hp
    rcases List.mem_append.mp hp with before | said
    · exact h.resets handle p before position reset
    · obtain ⟨u, hu, rfl⟩ := List.mem_map.mp said
      obtain ⟨id, session, own, -, -, told⟩ := words_reported sound enrolled
        (Action.regular_of_transport transport) (List.mem_of_mem_filter hu)
        (Packet.isReport_of_reset reset)
      rw [reports_position told reset]
      exact h.sessions id session own

end Step

/-! ### Runs -/

/-- **After every run** of clients and the clock all places are right ones, if possible places are and
the one of the configuration is. -/
theorem run_placed {right : Vec3 → Prop} (possible : ∀ position, position.isFinite = true → right position)
    {config : Config} (spawn : right config.world.spawn) (world : World) {actions : List Action}
    (transport : ∀ a ∈ actions, a.isTransport = true) :
    ∃ g, Game.run { server := Server.create config world .standard } actions = .ok g ∧
      g.Placed right := by
  obtain ⟨g, hrun, -, -, placed⟩ := run_fresh (P := fun _ g => g.Placed right) Action.told_of_transport
    (fun sound enrolled h transport hstep => h.step possible sound enrolled transport hstep)
    (placed_create spawn world .standard) transport
  exact ⟨g, hrun, placed⟩

/-- The first login on a server brings its player to the place that the configuration names. -/
theorem first_login_position (config : Config) (world : World) (handle : Handle) {login : Login}
    (named : login.username.isEmpty = false) : ∃ g session,
      Game.run { server := Server.create config world .standard }
        [.event (.packet handle (.login login))] = .ok g ∧
      g.server.session? 0 = some session ∧ session.position = config.world.spawn := by
  have nobody : (Server.create config world .standard).registry.players = [] := rfl
  have countable : (Server.create config world .standard).Countable := fun _ => by simp [nobody]
  have room : (Server.create config world .standard).isFull = false := by
    simp [Server.isFull, nobody, ← UInt64.toNat_inj]
  have admitted : (Server.create config world .standard).verdict handle login = .admitted :=
    Server.verdict_eq_admitted.mpr ⟨rfl, named, rfl, room⟩
  have settled := Server.login_verdict (Server.addressed_create config world .standard) handle login
    fun _ => countable
  simp only [Server.Settled, admitted] at settled
  set s' := Server.closeRefused _ _ _ _
  have hstep : Game.step { server := Server.create config world .standard }
      (.event (.packet handle (.login login))) = .ok { server := s' } := by
    have started := Server.startEvent_login (s := Server.create config world .standard) rfl handle login
    simp only [Game.step, Game.enact, started]
    rfl
  refine ⟨_, (Server.create config world .standard).newcomer login handle, Game.run_cons hstep [], ?_, rfl⟩
  show s'.sessions[0]? = _
  rw [settled.sessions]
  rfl

/-- **All places are possible** in all runs of clients and the clock, those of players and those that
they are put back to, exactly if the place is possible at which the configuration lets players come
into the world. -/
theorem positions_finite_iff (config : Config) (world : World) :
    config.world.spawn.isFinite = true ↔
      ∀ actions : List Action, (∀ a ∈ actions, a.isTransport = true) →
        ∃ g, Game.run { server := Server.create config world .standard } actions = .ok g ∧
          (∀ id session, g.server.session? id = some session → session.position.isFinite = true) ∧
          ∀ handle, ∀ p ∈ g.server.sentTo handle, ∀ position, p.reset? = some position →
            position.isFinite = true := by
  constructor
  · intro spawn actions transport
    have possible : ∀ position : Vec3, position.isFinite = true → position.isFinite = true := fun _ h => h
    obtain ⟨g, hrun, placed⟩ := run_placed possible spawn world transport
    exact ⟨g, hrun, placed.sessions, placed.resets⟩
  · intro finite
    have named : ({ username := "ada" } : Login).username.isEmpty = false := by decide
    obtain ⟨g, session, hrun, own, position⟩ := first_login_position config world ⟨1⟩ named
    have transport : ∀ a ∈ [Action.event (.packet ⟨1⟩ (.login { username := "ada" }))],
        a.isTransport = true := fun a ha => by
      cases List.mem_singleton.mp ha
      rfl
    obtain ⟨g', hrun', places, -⟩ := finite _ transport
    rw [hrun] at hrun'
    cases hrun'
    rw [← position]
    exact places 0 session own

/-- A valid configuration under which a client is put back to a place that is none. -/
theorem position_impossible :
    let nowhere : Vec3 := ⟨0 / 0, 0, 0⟩
    let config : Config := { world := { spawn := nowhere } }
    let movement : MovePlayer :=
      { runtimeEntityId := 1, position := nowhere, rotation := Rotation.zero, onGround := true }
    let actions : List Action :=
      [.event (.packet ⟨1⟩ (.login { username := "ada" })), .event (.packet ⟨1⟩ (.movePlayer movement))]
    config.validate = .ok () ∧
      (Game.run { server := Server.create config {} .standard } actions).toOption.map (fun g =>
        ((g.server.session? 0).map fun session => session.position.isFinite,
          ((g.server.sentTo ⟨1⟩).filterMap Packet.reset?).map Vec3.isFinite)) =
            some (some false, [false]) := by
  intro nowhere config movement actions
  exact ⟨rfl, by decide +kernel⟩

end BlockWorld
