import BlockWorld.Proofs.Report

/-! # What a client got since its player logged in

A connection may be used by one player after the other. While a session lives its client gets exactly
what the session says, so from its login on the outbox for its connection grows by what it says, and by
nothing else.

* `Action.isTransport`: what clients and the clock bring about.
* `latest`: the last thing of a kind that a client was told.
* `step_sentTo`: what the client of a live session gets in an action; `words_reported`,
  `step_reports_nobody`: only live sessions report, to their own clients.
* `run_kept`, `run_fresh`: an invariant of the steps so far holds after a run.
* `Game.Received`, `Received.step`: what a client got since the login. -/

namespace BlockWorld

/-! ### Clients and the clock -/

/-- Whether the action comes from a client or from the clock, or carries on with a pass. -/
def Action.isTransport : Action → Bool
  | .event _ => true
  | .packet .. => true
  | .tick => true
  | .shutdown => true
  | .advance _ => true
  | .settle _ => true
  | _ => false

theorem Action.regular_of_transport {a : Action} (h : a.isTransport = true) : a.isRegular = true := by
  cases a <;> first | rfl | cases h

theorem Action.told_of_transport (a : Action) (h : a.isTransport = true) : a.isFinalize = false :=
  Action.told_of_regular (Action.regular_of_transport h)

/-! ### The last of a kind -/

/-- The last thing that was told, of those that `read` finds in a packet. -/
def latest {α : Type} (read : Packet → Option α) (ps : List Packet) : Option α :=
  (ps.filterMap read).getLast?

theorem latest_append {α : Type} (read : Packet → Option α) (ps qs : List Packet) :
    latest read (ps ++ qs) = (latest read qs).or (latest read ps) := by
  rw [latest, List.filterMap_append, List.getLast?_append]
  rfl

/-- Where only reports are read, only what is reported counts. -/
theorem filterMap_reported {α : Type} {read : Packet → Option α}
    (reports : ∀ p, p.isReport = false → read p = none) (id : SessionId) (us : List Utterance) :
    (reported id us).filterMap read = (saidBy id us).filterMap read := by
  rw [reported, List.filterMap_filter]
  refine List.filterMap_congr fun p _ => ?_
  cases hp : p.isReport with
  | true => rfl
  | false => exact (reports p hp).symm

/-! ### What a client gets in an action -/

variable {g g' : Game} {a : Action} {id : SessionId} {session : Session}

theorem sentTo_eq {s s' : Server} {us : List Utterance} (sent : s'.sent = s.sent ++ us.map Utterance.message)
    (handle : Handle) : s'.sentTo handle =
      s.sentTo handle ++ (us.filter (·.handle == handle)).map Utterance.packet := by
  simp only [Server.sentTo, sent, List.filter_append, List.map_append, List.filter_map, List.map_map]
  rfl

theorem step_sent (sound : g.Sound) (hstep : g.step a = .ok g') :
    g'.server.sent = g.server.sent ++ (a.words g).map Utterance.message :=
  (turns_of_step sound hstep).sent

/-- **The client of a live session gets what the session says**, and nothing else. -/
theorem step_sentTo (sound : g.Sound) (enrolled : g.server.Enrolled) (regular : a.isRegular = true)
    (hstep : g.step a = .ok g') (own : g.server.session? id = some session)
    (live : session.finalized = false) :
    g'.server.sentTo session.handle = g.server.sentTo session.handle ++ saidBy id (a.words g) := by
  rw [sentTo_eq (step_sent sound hstep), saidBy]
  congr 2
  have bound : g.server.bound? session.handle = some id :=
    enrolled.bound?_eq_some_iff.mpr ⟨session, own, live, rfl⟩
  refine List.filter_congr fun u hu => ?_
  rw [Bool.eq_iff_iff, beq_iff_eq, beq_iff_eq]
  rcases step_attributed sound enrolled regular hstep u hu with
    ⟨j, speaker, known⟩ | ⟨unbound, j, speaker, newborn, -⟩ | ⟨nobody, -, unbound⟩
  · rw [speaker]
    constructor
    · intro same
      rw [same, bound] at known
      exact known.symm
    · intro same
      cases same
      obtain ⟨session', own', -, address⟩ := enrolled.bound?_eq_some_iff.mp known
      rw [own] at own'
      cases own'
      exact address.symm
  · refine iff_of_false (fun same => ?_) fun same => ?_
    · rw [same, bound] at unbound
      cases unbound
    · rw [speaker] at same
      cases same
      rw [own] at newborn
      cases newborn
  · refine iff_of_false (fun same => ?_) fun same => ?_
    · rw [same, bound] at unbound
      cases unbound
    · rw [nobody] at same
      cases same

/-- **Every report** is made by a live session, to its own client. -/
theorem words_reported (sound : g.Sound) (enrolled : g.server.Enrolled) (regular : a.isRegular = true)
    {u : Utterance} (hu : u ∈ a.words g) (report : u.packet.isReport = true) :
    ∃ id session, g.server.session? id = some session ∧ session.finalized = false ∧
      session.handle = u.handle ∧ u.packet ∈ a.reports g id session := by
  cases admits : a.admits g with
  | true =>
    obtain ⟨login, newcomer, -, -, -, words, -⟩ := Action.admitted admits
    rw [words] at hu
    simp only [Server.greeting, List.mem_cons, List.not_mem_nil, or_false] at hu
    rcases hu with rfl | rfl <;> cases report
  | false =>
    rcases Action.words_spoken sound enrolled regular admits u hu with
      ⟨id, session, speaker, own, live, address⟩ | ⟨-, full, -⟩
    · refine ⟨id, session, own, live, address, ?_⟩
      rw [← words_reports sound enrolled own]
      exact List.mem_filter.mpr ⟨mem_saidBy.mpr ⟨u, hu, speaker, rfl⟩, report⟩
    · rw [full] at report
      cases report

/-- **A connection without a session gets no report.** -/
theorem step_reports_nobody (sound : g.Sound) (enrolled : g.server.Enrolled)
    (regular : a.isRegular = true) (hstep : g.step a = .ok g') {handle : Handle}
    (unbound : g.server.bound? handle = none) :
    ∃ said, g'.server.sentTo handle = g.server.sentTo handle ++ said ∧
      ∀ p ∈ said, p.isReport = false := by
  refine ⟨_, sentTo_eq (step_sent sound hstep) handle, fun p hp => Bool.eq_false_iff.mpr fun report => ?_⟩
  obtain ⟨u, hu, rfl⟩ := List.mem_map.mp hp
  obtain ⟨hu, there⟩ := List.mem_filter.mp hu
  obtain ⟨id, session, own, live, address, -⟩ := words_reported sound enrolled regular hu report
  have bound := enrolled.bound?_eq_some_iff.mpr ⟨session, own, live, address.trans (eq_of_beq there)⟩
  rw [unbound] at bound
  cases bound

/-! ### Runs -/

/-- **What every step keeps of the steps so far, a run keeps.** -/
theorem run_kept {allowed : Action → Prop} {P : List Step → Game → Prop}
    (told : ∀ a, allowed a → a.isFinalize = false)
    (kept : ∀ {ts g g' a}, g.Sound → g.server.Enrolled → P ts g → allowed a → g.step a = .ok g' →
      P (ts ++ [⟨g, a, g'⟩]) g') :
    ∀ (actions : List Action) {ts : List Step} {g g' : Game}, (∀ a ∈ actions, allowed a) → g.Sound →
      g.server.Enrolled → P ts g → g.run actions = .ok g' → P (ts ++ g.history actions) g'
  | [], ts, g, g', _, _, _, hP, hrun => by
    cases hrun
    rw [Game.history, List.append_nil]
    exact hP
  | a :: actions, ts, g, g', all, sound, enrolled, hP, hrun => by
    obtain ⟨g₁, hstep, changes⟩ := step_changes sound a
    have allow := all a List.mem_cons_self
    have hears : Changes (fun _ => True) (· = .heard) g g₁ :=
      changes.mono (fun _ _ => trivial) fun _ => Action.ends_told (told a allow)
    rw [Game.run_cons hstep] at hrun
    rw [Game.history_cons hstep, List.append_cons]
    exact run_kept told kept actions (fun b hb => all b (List.mem_cons_of_mem a hb))
      (changes.sound sound) (hears.enrolled sound enrolled)
      (kept sound enrolled hP allow hstep) hrun

/-- The same for a run of a fresh server. -/
theorem run_fresh {allowed : Action → Prop} {P : List Step → Game → Prop}
    (told : ∀ a, allowed a → a.isFinalize = false)
    (kept : ∀ {ts g g' a}, g.Sound → g.server.Enrolled → P ts g → allowed a → g.step a = .ok g' →
      P (ts ++ [⟨g, a, g'⟩]) g')
    {config : Config} {world : World} {dispatcher : Dispatcher}
    (fresh : P [] { server := Server.create config world dispatcher }) {actions : List Action}
    (all : ∀ a ∈ actions, allowed a) :
    let start : Game := { server := Server.create config world dispatcher }
    ∃ g, start.run actions = .ok g ∧ g.Sound ∧ g.server.Enrolled ∧ P (start.history actions) g := by
  intro start
  have sound : start.Sound := sound_create config world dispatcher
  have enrolled : start.server.Enrolled := Server.enrolled_create config world dispatcher
  obtain ⟨g, hrun, hears⟩ := run_told sound fun a ha => told a (all a ha)
  exact ⟨g, hrun, hears.sound sound, hears.enrolled sound enrolled,
    run_kept told kept actions all sound enrolled fresh hrun⟩

/-- Whether the session `id` comes in the step. -/
def Step.brings (id : SessionId) (t : Step) : Bool :=
  (t.before.server.session? id).isNone && (t.after.server.session? id).isSome

/-- What holds of what was said so far: nothing by those who have not come, and since a live session
came its client got what it said. -/
structure Game.Received (ts : List Step) (g : Game) : Prop where
  unborn : ∀ id, g.server.session? id = none → saidBy id (ts.flatMap Step.words) = []
  since : ∀ id session, g.server.session? id = some session → session.finalized = false →
    ∃ t ∈ ts, t.brings id = true ∧ g.server.sentTo session.handle =
      t.before.server.sentTo session.handle ++ saidBy id (ts.flatMap Step.words)

/-- A session that lives after an action was alive before, or was not there. -/
theorem step_before (sound : g.Sound) (hstep : g.step a = .ok g') {session' : Session}
    (own' : g'.server.session? id = some session') (live' : session'.finalized = false) :
    g.server.session? id = none ∨ ∃ session, g.server.session? id = some session ∧
      session.finalized = false ∧ session'.handle = session.handle ∧
        session'.entityId = session.entityId := by
  have changes := (turns_of_step sound hstep).changes
  cases own : g.server.session? id with
  | none => exact Or.inl rfl
  | some session =>
    obtain ⟨session₁, own₁, lasts⟩ := changes.lasts sound own
    rw [own'] at own₁
    cases own₁
    refine Or.inr ⟨session, rfl, ?_, lasts.handle, lasts.entityId⟩
    rw [Bool.eq_false_iff]
    intro ended
    rw [lasts.finalized ended] at live'
    cases live'

theorem Game.Received.step {ts : List Step} (h : g.Received ts) (sound : g.Sound)
    (enrolled : g.server.Enrolled) (regular : a.isRegular = true) (hstep : g.step a = .ok g') :
    g'.Received (ts ++ [⟨g, a, g'⟩]) := by
  have said (id : SessionId) : saidBy id ((ts ++ [Step.mk g a g']).flatMap Step.words) =
      saidBy id (ts.flatMap Step.words) ++ saidBy id (a.words g) := by
    rw [List.flatMap_append, List.flatMap_singleton, saidBy_append]
    rfl
  have changes := (turns_of_step sound hstep).changes
  have hears : Changes (fun _ => True) (· = .heard) g g' := changes.mono (fun _ _ => trivial)
    fun _ => Action.ends_told (Action.told_of_regular regular)
  have enrolled' := hears.enrolled sound enrolled
  refine ⟨fun id unborn' => ?_, fun id session' own' live' => ?_⟩
  · have unborn : g.server.session? id = none := by
      refine Option.eq_none_iff_forall_ne_some.mpr fun session own => ?_
      obtain ⟨session', own', -⟩ := changes.lasts sound own
      rw [unborn'] at own'
      cases own'
    have silent : saidBy id (a.words g) = [] := by
      refine List.eq_nil_iff_forall_not_mem.mpr fun p hp => ?_
      obtain ⟨u, hu, speaker, -⟩ := mem_saidBy.mp hp
      rcases step_attributed sound enrolled regular hstep u hu with
        ⟨j, speaker', bound⟩ | ⟨-, j, speaker', -, bound⟩ | ⟨nobody, -⟩
      · rw [speaker] at speaker'
        cases speaker'
        obtain ⟨session, own, -⟩ := enrolled.bound?_eq_some_iff.mp bound
        rw [unborn] at own
        cases own
      · rw [speaker] at speaker'
        cases speaker'
        obtain ⟨session', own', -⟩ := enrolled'.bound?_eq_some_iff.mp bound
        rw [unborn'] at own'
        cases own'
      · rw [speaker] at nobody
        cases nobody
    rw [said, h.unborn id unborn, silent]
    rfl
  · rw [said]
    rcases step_before sound hstep own' live' with fresh | ⟨session, own, live, address, -⟩
    · obtain ⟨login, handle, -, rfl, rfl, words, rfl⟩ := step_newborn sound hstep fresh own'
      refine ⟨⟨g, a, _⟩, List.mem_append_right _ List.mem_cons_self, ?_, ?_⟩
      · simp [Step.brings, fresh, own']
      · rw [h.unborn _ fresh, words, List.nil_append, sentTo_eq (step_sent sound hstep), words]
        simp [Server.greeting, saidBy, Server.newcomer, Session.create]
    · obtain ⟨t, ht, brings, since⟩ := h.since id session own live
      refine ⟨t, List.mem_append_left _ ht, brings, ?_⟩
      rw [address, step_sentTo sound enrolled regular hstep own live, since, List.append_assoc]

theorem received_create (config : Config) (world : World) (dispatcher : Dispatcher) :
    Game.Received [] { server := Server.create config world dispatcher } :=
  ⟨fun _ _ => rfl, fun id session own => by rw [session?_create] at own; cases own⟩

end BlockWorld
