import BlockWorld.Proofs.Reception

/-! # No change of an attribute is lost

A value that compares unequal to the one before is noted when it is stored, looked for in the ticks, and
not in those before the player is visible. On its entry into the world a player is told all its
attributes, whatever was noted. Still, after each tick the client of a player that has entered knows
them as they are.

* `Step.stores`, `Step.checks`, `Unsynced`: a change since the last time anybody looked for one.
* `step_isDirty`: what is noted is whether there was one.
* `Game.Informed`, `Informed.step`: a client knows the attributes, or a change of them is noted.
* `attributes_reach_client`: what each tick sends, and what each client knows then, after any run. -/

namespace BlockWorld

/-! ### Changes of attributes -/

/-- Whether a value that is set is stored: the current one compares unequal to it. -/
def AttributeMap.differs (m : AttributeMap) (name : String) (value : Float32) : Bool :=
  (m.entry? name).any fun e => e.current != clampToBounds value e.min e.max

theorem AttributeMap.set_of_differs {m : AttributeMap} {name : String} {value : Float32}
    (h : m.differs name value = true) : (m.set name value).2.dirty = true := by
  obtain ⟨e, found, unequal⟩ := (Option.any_eq_true _ _).mp h
  simp only [set, found, unequal, if_true]

theorem AttributeMap.set_of_not_differs {m : AttributeMap} {name : String} {value : Float32}
    (h : m.differs name value = false) : (m.set name value).2 = m := by
  unfold set
  cases found : m.entry? name with
  | none => rfl
  | some e =>
    have equal : (e.current != clampToBounds value e.min e.max) = false := by
      simpa only [differs, found, Option.any_some] using h
    simp only [equal, Bool.false_eq_true, if_false]

/-- Whether a value is stored in the step that compares unequal to the one before. -/
def Step.stores (id : SessionId) (t : Step) : Bool :=
  match t.action with
  | .setAttribute j name value =>
    j == id && (t.before.server.session? id).any (·.attributes.differs name value)
  | _ => false

/-- Whether the step looks for a change of an attribute. -/
def Step.checks (id : SessionId) (t : Step) : Bool :=
  match t.action with
  | .tick => t.before.server.isSpawned id
  | _ => false

/-- A value was stored that compares unequal to the one before, and since then nobody looked. -/
def Unsynced (id : SessionId) (ts : List Step) : Prop :=
  ∃ earlier t later, ts = earlier ++ t :: later ∧ t.stores id = true ∧
    ∀ u ∈ later, u.checks id = false

theorem unsynced_append {id : SessionId} {ts : List Step} {t : Step} :
    Unsynced id (ts ++ [t]) ↔ t.stores id = true ∨ (Unsynced id ts ∧ t.checks id = false) := by
  constructor
  · rintro ⟨earlier, u, later, split, stores, unchecked⟩
    rcases List.eq_nil_or_concat later with rfl | ⟨later, v, rfl⟩
    · obtain ⟨-, same⟩ := List.append_inj' split rfl
      cases same
      exact Or.inl stores
    · rw [List.concat_eq_append] at split unchecked
      rw [← List.cons_append, ← List.append_assoc] at split
      obtain ⟨rfl, same⟩ := List.append_inj' split rfl
      cases same
      exact Or.inr ⟨⟨earlier, u, later, rfl, stores,
        fun w hw => unchecked w (List.mem_append_left _ hw)⟩,
        unchecked t (List.mem_append_right _ List.mem_cons_self)⟩
  · rintro (stores | ⟨⟨earlier, u, later, rfl, stores, unchecked⟩, unseen⟩)
    · exact ⟨ts, t, [], rfl, stores, fun u hu => absurd hu List.not_mem_nil⟩
    · refine ⟨earlier, u, later ++ [t], by rw [List.append_assoc, List.cons_append], stores, ?_⟩
      intro v hv
      rcases List.mem_append.mp hv with hv | hv
      · exact unchecked v hv
      · cases List.mem_singleton.mp hv
        exact unseen

/-! ### What actions do to attributes -/

section Alter

variable {g g' : Game} {a : Action} {id : SessionId} {session : Session}

theorem treat_attributes (s : Server) (packet : Packet) (session : Session) :
    (s.treat packet session).attributes = session.attributes := by
  rcases s.treat_cases packet session with
    same | ⟨position, turn, onGround, -, same⟩ | ⟨request, -, same⟩ | ⟨skin, same⟩ | same | same <;>
    simp [same]

/-- **Nothing but a tick and a set** changes anything about the attributes of a session. -/
theorem alter_attributes (g : Game) (session : Session) (notTick : a ≠ .tick)
    (notSet : ∀ name value, a ≠ .setAttribute id name value) :
    (a.alter g id session).attributes = session.attributes := by
  have treats {p : Packet} {who : Option SessionId} :
      (only who (g.server.treat p) id session).attributes = session.attributes :=
    only_read Session.attributes (treat_attributes g.server p session)
  have pursues {course : Course} {who : Option SessionId} :
      (only who (Session.pursue course) id session).attributes = session.attributes :=
    only_read Session.attributes (session.pursue_attributes course)
  have ends {who : Option SessionId} :
      (only who Session.ended id session).attributes = session.attributes :=
    only_read Session.attributes rfl
  cases a with
  | event e =>
    cases e with
    | connected handle => rfl
    | packet handle p => exact treats
    | disconnected handle => exact ends
  | packet handle p => exact treats
  | dispatch p who handle => exact treats
  | move j position turn onGround => exact pursues
  | teleport j position rotation => exact pursues
  | refresh j => rfl
  | spawn j => exact pursues
  | setViewDistance j v => exact only_read Session.attributes rfl
  | setAttribute j name value =>
    have other : some j ≠ some id := by
      rintro same
      cases same
      exact notSet name value rfl
    exact congrArg Session.attributes (only_ne other _ session)
  | finalize j => exact ends
  | remove j => exact ends
  | disconnect handle => exact ends
  | tick => exact absurd rfl notTick
  | _ => rfl

/-- Whether a change of an attribute of the session `id` is noted. -/
def Server.isDirty (s : Server) (id : SessionId) : Bool := (s.session? id).any (·.attributes.dirty)

theorem Server.isDirty_eq {s : Server} (own : s.session? id = some session) :
    s.isDirty id = session.attributes.dirty := by rw [isDirty, own, Option.any_some]

/-- The attributes after a step, and whether a change of them is noted. -/
theorem step_attributes (own : g.server.session? id = some session) :
    let t : Step := ⟨g, a, g'⟩
    (a.alter g id session).attributes.dirty =
        (t.stores id || session.attributes.dirty && !t.checks id) ∧
      (t.stores id = false →
        (a.alter g id session).attributes.entries = session.attributes.entries) := by
  intro t
  by_cases ticks : a = .tick
  · subst ticks
    have checks : t.checks id = session.spawned := Server.isSpawned_eq own
    have stores : t.stores id = false := rfl
    rw [checks, stores]
    show session.age.attributes.dirty = _ ∧ (_ → session.age.attributes.entries = _)
    cases spawned : session.spawned <;>
      simp [Session.age, spawned, AttributeMap.takeDirty]
  · have checks : t.checks id = false := by
      show Step.checks id ⟨g, a, g'⟩ = false
      cases a <;> first | rfl | exact absurd rfl ticks
    by_cases sets : ∃ name value, a = .setAttribute id name value
    · obtain ⟨name, value, rfl⟩ := sets
      have stores : t.stores id = session.attributes.differs name value := by
        show (id == id && (g.server.session? id).any _) = _
        rw [own, beq_self_eq_true, Bool.true_and, Option.any_some]
      have altered : (Action.alter g (.setAttribute id name value) id session).attributes =
          (session.attributes.set name value).2 := by
        simp only [Action.alter, only_self]
        rfl
      rw [altered, stores, checks]
      cases differs : session.attributes.differs name value with
      | true => exact ⟨AttributeMap.set_of_differs differs, fun h => by cases h⟩
      | false =>
        rw [AttributeMap.set_of_not_differs differs]
        exact ⟨by simp, fun _ => rfl⟩
    · have stores : t.stores id = false := by
        show Step.stores id ⟨g, a, g'⟩ = false
        cases a with
        | setAttribute j name value =>
          have other : (j == id) = false :=
            beq_eq_false_iff_ne.mpr fun same => sets ⟨name, value, by rw [same]⟩
          simp only [Step.stores, other, Bool.false_and]
        | _ => rfl
      rw [alter_attributes g session ticks fun name value same => sets ⟨name, value, same⟩, stores,
        checks]
      exact ⟨by simp, fun _ => rfl⟩

/-- **What is noted** is whether a value was stored that compares unequal, or one was noted before and
nobody looks. -/
theorem step_isDirty (sound : g.Sound) (enrolled : g.server.Enrolled) (hstep : g.step a = .ok g')
    (id : SessionId) : g'.server.isDirty id =
      (Step.stores id ⟨g, a, g'⟩ || g.server.isDirty id && !Step.checks id ⟨g, a, g'⟩) := by
  cases own : g.server.session? id with
  | some session =>
    obtain ⟨t, own'⟩ := step_alters sound enrolled hstep id session own
    rw [Server.isDirty_eq own', Server.isDirty_eq own]
    exact (step_attributes own).1
  | none =>
    have clean : g.server.isDirty id = false := by rw [Server.isDirty, own]; rfl
    have stores : Step.stores id ⟨g, a, g'⟩ = false := by
      unfold Step.stores
      split
      · rw [own, Option.any_none, Bool.and_false]
      · rfl
    rw [clean, stores, Bool.false_and, Bool.or_false]
    cases own' : g'.server.session? id with
    | none => rw [Server.isDirty, own']; rfl
    | some session' =>
      obtain ⟨login, handle, -, rfl, -⟩ := step_newborn sound hstep own own'
      rw [Server.isDirty_eq own']
      rfl

end Alter

/-! ### What a client knows -/

/-- The attributes that a packet tells of. -/
def Packet.attributes? : Packet → Option (List AttributeEntry)
  | .updateAttributes update => some update.attributes
  | _ => none

theorem Packet.attributes?_of_not_report {p : Packet} (h : p.isReport = false) : p.attributes? = none := by
  cases p with
  | updateAttributes _ => cases h
  | _ => rfl

/-- In the step the player of the session `id` enters the world: a pass that was begun for it ends, and
answers that it did. -/
def Step.Enters (id : SessionId) (t : Step) : Prop :=
  ∃ i pass report s, t.action = .settle i ∧ t.before.passes[i]? = some pass ∧ pass.session = id ∧
    pass.wanted = [] ∧ t.before.server.settle pass = .ok (report, s) ∧ report.spawned = true

section Reports

variable {g g' : Game} {a : Action} {id : SessionId} {session : Session}

/-- Whenever attributes are reported, it is all of them, as they are. -/
theorem reports_attributes (a : Action) (g : Game) (id : SessionId) (session : Session) :
    (a.reports g id session).filterMap Packet.attributes? = [] ∨
      (a.reports g id session).filterMap Packet.attributes? = [session.attributes.entries] := by
  rcases a.reports_cases g id session with same | same | ⟨radius, same⟩ | ⟨tick, same⟩ <;> rw [same]
  · exact Or.inl rfl
  · exact Or.inl rfl
  · exact Or.inl rfl
  · exact Or.inr rfl

/-- A player that enters the world is told its attributes. -/
theorem Step.Enters.reports (sound : g.Sound) (own : g.server.session? id = some session)
    (enters : Step.Enters id ⟨g, a, g'⟩) :
    (a.reports g id session).filterMap Packet.attributes? = [session.attributes.entries] := by
  obtain ⟨i, pass, report, s, rfl, under_way, rfl, idle, settled, entered⟩ := enters
  obtain ⟨-, settles⟩ := sound.settled under_way settled
  cases settles with
  | void _ _ _ refused _ =>
    rw [entered] at refused
    cases refused
  | live own' live becomes tracked joins spawned announces words =>
    rw [own] at own'
    cases own'
    have spawning : pass.spawning = true := spawned.symm.trans entered
    have reported : Action.reports g (.settle i) pass.session session =
        [.updateAttributes ⟨session.runtimeId, session.attributes.entries, 0⟩] := by
      simp only [Action.reports, under_way, if_true, Pass.reports, idle, spawning, live,
        List.isEmpty_nil, Bool.not_false, Bool.and_self]
    rw [reported]
    rfl

/-- Whoever enters the world is there. -/
theorem Step.Enters.known (sound : g.Sound) (enters : Step.Enters id ⟨g, a, g'⟩) :
    ∃ session, g.server.session? id = some session := by
  obtain ⟨i, pass, report, s, rfl, under_way, rfl, idle, settled, entered⟩ := enters
  obtain ⟨-, settles⟩ := sound.settled under_way settled
  cases settles with
  | void _ _ _ refused _ =>
    rw [entered] at refused
    cases refused
  | live own _ _ _ _ _ _ _ => exact ⟨_, own⟩

/-- **Whoever enters the world is told so.** -/
theorem Step.Enters.told (sound : g.Sound) (enters : Step.Enters id ⟨g, a, g'⟩) :
    .playStatus .playerSpawn ∈ saidBy id (a.words g) := by
  obtain ⟨i, pass, report, s, rfl, under_way, rfl, idle, settled, entered⟩ := enters
  obtain ⟨-, settles⟩ := sound.settled under_way settled
  rw [Action.words_settle under_way idle]
  cases settles with
  | void _ _ _ refused _ =>
    rw [entered] at refused
    cases refused
  | live own live becomes tracked joins spawned announces words =>
    have spawning : pass.spawning = true := spawned.symm.trans entered
    rw [words, saidBy_map, spawning, if_pos rfl]
    exact List.mem_append_right _ (by simp [Session.entry])

end Reports

/-- What holds of the steps so far: a change is noted for exactly those with a stored value that nobody
looked for, and a client whose player has entered the world knows its attributes, or a change of them
is noted. -/
structure Game.Informed (ts : List Step) (g : Game) : Prop where
  noted : ∀ id, Unsynced id ts ↔ g.server.isDirty id = true
  known : ∀ id, (∃ t ∈ ts, t.Enters id) → ∃ session, g.server.session? id = some session
  told : ∀ id session, g.server.session? id = some session → session.finalized = false →
    (∃ t ∈ ts, t.Enters id) → session.attributes.dirty = true ∨
      latest Packet.attributes? (g.server.sentTo session.handle) = some session.attributes.entries

theorem informed_create (config : Config) (world : World) (dispatcher : Dispatcher) :
    Game.Informed [] { server := Server.create config world dispatcher } := by
  refine ⟨fun id => ?_, fun id => ?_, fun id session own => ?_⟩
  · have clean : (Server.create config world dispatcher).isDirty id = false := rfl
    rw [clean]
    refine iff_of_false ?_ Bool.false_ne_true
    rintro ⟨earlier, t, later, none, -⟩
    exact absurd none.symm (List.append_ne_nil_of_right_ne_nil _ (List.cons_ne_nil _ _))
  · rintro ⟨t, ht, -⟩
    cases ht
  · rw [session?_create] at own
    cases own

section Step

variable {g g' : Game} {a : Action} {id : SessionId} {session session' : Session}

/-- A step that looks for a change and finds one noted reports the attributes. -/
theorem checks_reports (own : g.server.session? id = some session)
    (checks : Step.checks id ⟨g, a, g'⟩ = true) (dirty : session.attributes.dirty = true) :
    (a.reports g id session).filterMap Packet.attributes? = [session.attributes.entries] := by
  cases a with
  | tick =>
    have spawned : session.spawned = true := by
      rw [← Server.isSpawned_eq own]
      exact checks
    simp only [Action.reports, Session.syncs, spawned, dirty, Bool.true_or, Bool.and_self, if_true]
    rfl
  | _ => cases checks

/-- **After a step** a client knows the attributes of its player, or a change of them is noted, if it
was so before or the player has just entered the world. -/
theorem step_told (sound : g.Sound) (enrolled : g.server.Enrolled) (regular : a.isRegular = true)
    (hstep : g.step a = .ok g') (own : g.server.session? id = some session)
    (live : session.finalized = false) (own' : g'.server.session? id = some session')
    (before : Step.Enters id ⟨g, a, g'⟩ ∨ session.attributes.dirty = true ∨
      latest Packet.attributes? (g.server.sentTo session.handle) = some session.attributes.entries) :
    session'.attributes.dirty = true ∨
      latest Packet.attributes? (g'.server.sentTo session.handle) = some session'.attributes.entries := by
  obtain ⟨t, altered⟩ := step_alters sound enrolled hstep id session own
  rw [own'] at altered
  cases altered
  obtain ⟨dirty, entries⟩ := @step_attributes g g' a id session own
  have news : latest Packet.attributes? (g'.server.sentTo session.handle) =
      ((a.reports g id session).filterMap Packet.attributes?).getLast?.or
        (latest Packet.attributes? (g.server.sentTo session.handle)) := by
    rw [step_sentTo sound enrolled regular hstep own live, latest_append, latest,
      ← filterMap_reported (fun _ => Packet.attributes?_of_not_report),
      words_reports sound enrolled own]
  show (a.alter g id session).attributes.dirty = true ∨
    _ = some (a.alter g id session).attributes.entries
  cases stores : Step.stores id ⟨g, a, g'⟩ with
  | true =>
    rw [stores, Bool.true_or] at dirty
    exact Or.inl dirty
  | false =>
    rw [stores, Bool.false_or] at dirty
    rw [entries stores, news, dirty]
    -- what is reported are the attributes as they are; where nothing is, nobody looked in vain
    rcases reports_attributes a g id session with none | all
    · rw [none]
      rcases before with enters | noted | told
      · have all := enters.reports sound own
        rw [none] at all
        cases all
      · cases checks : Step.checks id ⟨g, a, g'⟩ with
        | true =>
          have all := checks_reports own checks noted
          rw [none] at all
          cases all
        | false => exact Or.inl (by rw [noted]; rfl)
      · exact Or.inr told
    · rw [all]
      exact Or.inr rfl

theorem Game.Informed.step {ts : List Step} (h : g.Informed ts) (sound : g.Sound)
    (enrolled : g.server.Enrolled) (regular : a.isRegular = true) (hstep : g.step a = .ok g') :
    g'.Informed (ts ++ [⟨g, a, g'⟩]) := by
  have entered : ∀ {id}, (∃ t ∈ ts ++ [Step.mk g a g'], t.Enters id) →
      (∃ t ∈ ts, t.Enters id) ∨ Step.Enters id ⟨g, a, g'⟩ := by
    rintro id ⟨t, ht, enters⟩
    rcases List.mem_append.mp ht with ht | ht
    · exact Or.inl ⟨t, ht, enters⟩
    · cases List.mem_singleton.mp ht
      exact Or.inr enters
  have known : ∀ {id}, (∃ t ∈ ts ++ [Step.mk g a g'], t.Enters id) →
      ∃ session, g.server.session? id = some session := fun enters =>
    (entered enters).elim (h.known _) fun now => now.known sound
  refine ⟨fun id => ?_, fun id enters => ?_, fun id session' own' live' enters => ?_⟩
  · rw [unsynced_append, h.noted, step_isDirty sound enrolled hstep]
    simp only [Bool.or_eq_true, Bool.and_eq_true, Bool.not_eq_true']
  · obtain ⟨session, own⟩ := known enters
    obtain ⟨t, own'⟩ := step_alters sound enrolled hstep id session own
    exact ⟨_, own'⟩
  · obtain ⟨session₀, own₀⟩ := known enters
    rcases step_before sound hstep own' live' with fresh | ⟨session, own, live, address, -⟩
    · rw [own₀] at fresh
      cases fresh
    · rw [address]
      refine step_told sound enrolled regular hstep own live own' ?_
      exact (entered enters).symm.imp (fun now => now) fun earlier =>
        h.told id session own live earlier

/-! ### Ticks -/

theorem Session.syncs_subset (current interval : UInt64) (session : Session) :
    session.syncs current interval = [] ∨ session.syncs current interval =
      [.updateAttributes ⟨session.runtimeId, session.attributes.entries, current⟩] := by
  unfold syncs
  split
  · exact Or.inr rfl
  · exact Or.inl rfl

theorem Session.syncs_ne_nil_iff {current interval : UInt64} :
    session.syncs current interval ≠ [] ↔ session.spawned = true ∧ (session.attributes.dirty = true ∨
      (0 < interval.toNat ∧ interval.toNat ∣ current.toNat)) := by
  have divides : current % interval = 0 ↔ interval.toNat ∣ current.toNat := by
    rw [← UInt64.toNat_inj, UInt64.toNat_mod, UInt64.toNat_zero, Nat.dvd_iff_mod_eq_zero]
  unfold syncs
  split
  · rename_i told
    simp only [Bool.and_eq_true, Bool.or_eq_true, decide_eq_true_eq, divides, UInt64.lt_iff_toNat_lt,
      UInt64.toNat_zero] at told
    exact iff_of_true (List.cons_ne_nil _ _) told
  · rename_i silent
    simp only [Bool.and_eq_true, Bool.or_eq_true, decide_eq_true_eq, divides, UInt64.lt_iff_toNat_lt,
      UInt64.toNat_zero] at silent
    exact iff_of_false (fun h => h rfl) silent

/-- **A tick sends** to the client of a live session what the session has to report, and nothing else. -/
theorem tick_sentTo (sound : g.Sound) (enrolled : g.server.Enrolled)
    (own : g.server.session? id = some session) (live : session.finalized = false) :
    g.server.tick.2.sentTo session.handle = g.server.sentTo session.handle ++
      session.syncs g.server.tick.1 g.server.config.world.attributeSyncInterval := by
  have ticked : g.step .tick = .ok { g with server := g.server.tick.2 } := rfl
  have said := step_sentTo sound enrolled rfl ticked own live
  rw [saidBy_tick sound enrolled own] at said
  exact said

/-- **A tick sends nothing** to a connection without a session. -/
theorem tick_sentTo_nobody (sound : g.Sound) (enrolled : g.server.Enrolled) {handle : Handle}
    (unbound : g.server.bound? handle = none) :
    g.server.tick.2.sentTo handle = g.server.sentTo handle := by
  have ticked : g.step .tick = .ok { g with server := g.server.tick.2 } := rfl
  have elsewhere : ∀ u ∈ Action.words g .tick, ¬ (u.handle == handle) = true := by
    intro u hu same
    obtain ⟨id, session, -, own, live, address⟩ := Server.spoken_tickWords
      (s := { g.server with currentTick := g.server.currentTick + 1 }) _ _ _ sound.session u hu
    have bound := enrolled.bound?_eq_some_iff.mpr ⟨session, own, live, address.trans (eq_of_beq same)⟩
    rw [unbound] at bound
    cases bound
  have sent := sentTo_eq (step_sent sound ticked) handle
  rw [List.filter_eq_nil_iff.mpr elsewhere, List.map_nil, List.append_nil] at sent
  exact sent

/-- Whoever has entered the world is visible as long as it lives. -/
theorem entered_spawned {actions : List Action} {start : Game}
    (protocol : g.Protocol (start.transcript actions))
    (own : g.server.session? id = some session) (live : session.finalized = false)
    (told : .playStatus .playerSpawn ∈ saidBy id (start.transcript actions)) :
    session.spawned = true := by
  have once := protocol.once own
  have entry : 0 < entries (saidBy id (start.transcript actions)) :=
    List.countP_pos_iff.mpr ⟨_, told, decide_eq_true rfl⟩
  cases entered : session.hasEntered with
  | true => rwa [Session.hasEntered, live, Bool.or_false] at entered
  | false =>
    rw [entered, Bool.toNat_false] at once
    omega

end Step

/-- **No change of an attribute is lost.** After any run a tick sends each player at most one report of
its attributes, and it does so exactly if the player is visible and a value was stored since the last
look that compares unequal to the one before, or the interval divides the number of the tick. After
the tick the last report that a player got which has entered the world tells its attributes as they
are. Nobody else is sent anything. -/
theorem attributes_reach_client (config : Config) (world : World) (dispatcher : Dispatcher)
    (actions : List Action) (regular : ∀ a ∈ actions, a.isRegular = true) :
    let start : Game := { server := Server.create config world dispatcher }
    ∃ g, start.run actions = .ok g ∧
      let number := g.server.tick.1
      let after := g.server.tick.2
      let interval := g.server.config.world.attributeSyncInterval
      (∀ m ∈ g.server.registry.players, ∃ session session' sent,
        g.server.session? m.session = some session ∧ after.session? m.session = some session' ∧
        after.sentTo m.handle = g.server.sentTo m.handle ++ sent ∧
        (sent = [] ∨
          sent = [.updateAttributes ⟨session.runtimeId, session.attributes.entries, number⟩]) ∧
        (sent ≠ [] ↔ session.spawned = true ∧ (Unsynced m.session (start.history actions) ∨
          (0 < interval.toNat ∧ interval.toNat ∣ number.toNat))) ∧
        ((∃ t ∈ start.history actions, t.Enters m.session) →
          latest Packet.attributes? (after.sentTo m.handle) = some session'.attributes.entries)) ∧
      ∀ handle, g.server.bound? handle = none → after.sentTo handle = g.server.sentTo handle := by
  intro start
  have sound : start.Sound := sound_create config world dispatcher
  have told : ∀ a ∈ actions, a.isFinalize = false :=
    fun a ha => Action.told_of_regular (regular a ha)
  obtain ⟨g, hrun, sound', enrolled', informed⟩ := run_fresh (P := fun ts g => g.Informed ts)
    (fun _ => Action.told_of_regular)
    (fun sound enrolled h regular hstep => h.step sound enrolled regular hstep)
    (informed_create config world dispatcher) regular
  have protocol : g.Protocol (start.transcript actions) := run_protocol config world dispatcher hrun
  have ticked : g.step .tick = .ok { g with server := g.server.tick.2 } := rfl
  have informed' := informed.step sound' enrolled' rfl ticked
  refine ⟨g, hrun, ?_⟩
  intro number after interval
  refine ⟨fun m hm => ?_, fun handle unbound => tick_sentTo_nobody sound' enrolled' unbound⟩
  obtain ⟨session, own, live, is⟩ := enrolled'.mem_players.mp hm
  have address : m.handle = session.handle := congrArg Member.handle is
  obtain ⟨t, own'⟩ := step_alters sound' enrolled' ticked m.session session own
  rw [address]
  refine ⟨session, session.age.track t, session.syncs number interval, own, own',
    tick_sentTo sound' enrolled' own live, session.syncs_subset number interval, ?_, fun entered => ?_⟩
  · rw [Session.syncs_ne_nil_iff, informed.noted, Server.isDirty_eq own]
  · -- the tick looks for a change, so none is noted any more, and the player knows
    obtain ⟨u, hu, enters⟩ := entered
    obtain ⟨-, usound, -, -⟩ := history_reached (P := fun _ => True) (fun _ _ _ => trivial) actions
      sound trivial told u hu
    have spawned : session.spawned = true := by
      obtain ⟨v, hv, said⟩ := mem_saidBy.mp (enters.told usound)
      exact entered_spawned protocol own live
        (mem_saidBy.mpr ⟨v, List.mem_flatMap.mpr ⟨u, hu, hv⟩, said⟩)
    have aged : session.age.finalized = false ∧ session.age.handle = session.handle ∧
        session.age.attributes.dirty = false := by
      simp [Session.age, spawned, live, AttributeMap.takeDirty]
    obtain ⟨lives, same, clean⟩ := aged
    rcases informed'.told m.session _ own' lives ⟨u, List.mem_append_left _ hu, enters⟩ with
      noted | knows
    · have dirty : session.age.attributes.dirty = true := noted
      rw [clean] at dirty
      cases dirty
    · rw [← same]
      exact knows

/-- A player that is wounded after it has entered the world. -/
theorem attributes_reach_client_wounded :
    let actions : List Action :=
      [.packet ⟨1⟩ (.login { username := "ada" }), .setViewDistance 0 0, .spawn 0, .advance 0, .settle 0,
        .setAttribute 0 AttributeName.health 10]
    let start : Game := { server := Server.create {} {} .standard }
    (∀ a ∈ actions, a.isRegular = true) ∧
      (∃ g, start.run actions = .ok g ∧ ∀ m ∈ g.server.registry.players, ∃ session',
        g.server.tick.2.session? m.session = some session' ∧
        ((∃ t ∈ start.history actions, t.Enters m.session) →
          latest Packet.attributes? (g.server.tick.2.sentTo m.handle) =
            some session'.attributes.entries)) ∧
      (start.run actions).toOption.map (fun g =>
        (g.server.tick.2.sentTo ⟨1⟩).filterMap fun p =>
          p.attributes?.map fun entries => entries.map AttributeEntry.current) =
            some [[20, 0.1, 20, 5], [10, 0.1, 20, 5]] := by
  intro actions start
  have regular : ∀ a ∈ actions, a.isRegular = true := by decide
  obtain ⟨g, hrun, players, -⟩ := attributes_reach_client {} {} .standard actions regular
  refine ⟨regular, ⟨g, hrun, fun m hm => ?_⟩, by decide +kernel⟩
  obtain ⟨session, session', sent, -, own', -, -, -, knows⟩ := players m hm
  exact ⟨session', own', knows⟩

end BlockWorld
