import BlockWorld.Proofs.Refusal

/-! # What becomes of a login

Whether a login succeeds is settled by the first of these that holds: somebody is in the game on this
connection; there is no name; the name is taken; there are as many players as may be; or nothing
stands against it. What happens then is settled too, down to the last command.

* `Verdict`, `Server.verdict`: which of them holds; `Verdict.commands`: what is sent and closed.
* `Server.TakesIn`: a player has come into the game, and nothing else happened.
* `handleEvent_login`: every login on every server.
* `serve_logins`: of several logins under one name the first on a connection of its own succeeds.
* `run_countable`: a run with fewer actions than a machine word counts leaves players that it counts.
* `login_settled`: both, after any run. -/

namespace BlockWorld

/-- What becomes of a login. -/
inductive Verdict where
  /-- Somebody is in the game on this connection. -/
  | bound
  | unnamed
  | taken
  | full
  | admitted
deriving DecidableEq, Repr

/-- What is sent to the connection of a login, and whether it is closed. -/
def Verdict.commands (handle : Handle) : Verdict → Array Command
  | .bound => #[]
  | .unnamed => #[.close handle "Login rejected"]
  | .taken => #[.close handle "Login rejected"]
  | .full => #[.send handle (.playStatus .failedServerFull), .close handle "Login rejected"]
  | .admitted => #[.send handle (.playStatus .loginSuccess), .send handle (.resourcePacksInfo {})]

namespace Server

variable {s s' : Server} {handle : Handle} {login : Login}

/-- Whether there is a limit on the number of players, and it is reached. -/
def isFull (s : Server) : Bool :=
  s.config.maxPlayers != 0 && decide (s.config.maxPlayers.toNat ≤ s.registry.players.length)

/-- What becomes of a login now. -/
def verdict (s : Server) (handle : Handle) (login : Login) : Verdict :=
  if (s.bound? handle).isSome then .bound
  else if login.username.isEmpty then .unnamed
  else if (s.registry.byName? login.username).isSome then .taken
  else if s.isFull then .full
  else .admitted

/-- From `s` to `s'` the session `newcomer` has come into the game, and its client was told so; all
else is the same. -/
structure TakesIn (s : Server) (handle : Handle) (login : Login) (newcomer : Session) (s' : Server) :
    Prop where
  name : newcomer.name = login.username
  address : newcomer.handle = handle
  entityId : newcomer.entityId = s.nextEntityId
  permissions : newcomer.permissions = PermissionSet.ofGroup s.groups.defaultGroup.group
  position : newcomer.position = s.config.world.spawn
  viewDistance : newcomer.viewDistance = min s.config.world.defaultViewDistance 64
  spawned : newcomer.spawned = false
  finalized : newcomer.finalized = false
  tracked : newcomer.tracked = Tracked.empty
  sessions : s'.sessions = s.sessions.push newcomer
  byName : ∀ name, s'.registry.byName? name =
    if login.username = name then some (member s.sessions.size newcomer) else s.registry.byName? name
  byHandle : ∀ h, s'.registry.byHandle? h =
    if handle = h then some (member s.sessions.size newcomer) else s.registry.byHandle? h
  nextEntityId : s'.nextEntityId = s.nextEntityId + 1
  outbox : s'.outbox = s.outbox ++ Verdict.admitted.commands handle
  settings : s'.config = s.config ∧ s'.dispatcher = s.dispatcher ∧ s'.groups = s.groups
  world : s'.world = s.world
  currentTick : s'.currentTick = s.currentTick

/-- From `s` to `s'` the login was dealt with as the verdict says. -/
def Settled (s : Server) (handle : Handle) (login : Login) (s' : Server) : Prop :=
  match s.verdict handle login with
  | .admitted => s.TakesIn handle login (s.newcomer login handle) s'
  | verdict => s.Utters (verdict.commands handle) s'

/-- The number of players is one that a machine word counts. It says something only of a game without
limit: any other holds no more players than its limit. -/
def Countable (s : Server) : Prop :=
  s.config.maxPlayers = 0 → s.registry.players.length < 18446744073709551615

/-! ### One login -/

theorem capacity_le_iff (countable : s.Countable) :
    s.config.capacity.toNat ≤ s.registry.players.length ↔ s.isFull = true := by
  unfold isFull Config.capacity
  split
  · rename_i unlimited
    have few := countable unlimited
    have word : (18446744073709551615 : UInt64).toNat = 18446744073709551615 := rfl
    simp only [unlimited, bne_self_eq_false, Bool.false_and, Bool.false_eq_true, iff_false, word]
    omega
  · rename_i limited
    simp [limited]

theorem welcome_told (s : Server) (m : Member) :
    (s.welcome m).outbox = s.outbox ++ Verdict.admitted.commands m.handle ∧
      (s.welcome m).groups = s.groups ∧ (s.welcome m).currentTick = s.currentTick := by
  have two : ∀ a b : Command, (s.outbox.push a).push b = s.outbox ++ #[a, b] := fun _ _ => rfl
  unfold welcome
  dsimp only
  split <;> exact ⟨two _ _, rfl, rfl⟩

theorem accept_takesIn (s : Server) (handle : Handle) (login : Login) :
    s.TakesIn handle login (s.newcomer login handle) (s.accept login handle) := by
  have spec := s.accept_spec login handle
  set s' : Server := { (newPlayer handle login s).2 with
    registry := s.registry.bind login.username handle (newPlayer handle login s).1 }
  obtain ⟨outbox, groups, currentTick⟩ := s'.welcome_told (newPlayer handle login s).1
  obtain ⟨-, -, -, -, -, sessions⟩ := s'.welcome_spec (newPlayer handle login s).1
  refine ⟨rfl, rfl, rfl, rfl, rfl, rfl, rfl, rfl, rfl, sessions, fun name => ?_, fun h => ?_,
    spec.nextEntityId, outbox, ⟨spec.config, spec.dispatcher, groups⟩, spec.world, currentTick⟩
  · rw [spec.registry, Registry.byName?_bind]
    rfl
  · rw [spec.registry, Registry.byHandle?_bind]
    rfl

/-- A login that is refused costs an unbound connection its life. -/
theorem Utters.closes {words : Array Command} (utters : s.Utters words s')
    (unbound : s.bound? handle = none) : s.Utters (words.push (.close handle "Login rejected"))
      (s'.closeRefused handle (.login login) .rejected) := by
  obtain ⟨notices, rfl⟩ := utters
  have free : Server.bound? { s with outbox := s.outbox ++ words, notices } handle = none := unbound
  refine ⟨notices, ?_⟩
  simp only [closeRefused, free, Packet.isLogin, close, Array.push_append]
  rfl

/-- A connection that somebody is bound to stays open. -/
theorem Utters.keepsOpen {words : Array Command} (utters : s.Utters words s')
    (bound : (s.bound? handle).isSome = true) :
    s.Utters words (s'.closeRefused handle (.login login) .rejected) := by
  obtain ⟨notices, rfl⟩ := utters
  have taken : (Server.bound? { s with outbox := s.outbox ++ words, notices } handle).isNone = false := by
    rw [Option.isNone_eq_false_iff]
    exact bound
  simp only [closeRefused, taken, Bool.and_false, Bool.false_eq_true, if_false]
  exact ⟨notices, rfl⟩

/-- A login with a name, on an unbound connection, is decided by the registry. -/
theorem login_registered (named : login.username.isEmpty = false) :
    s.login login none handle =
      match s.registry.refusal? login.username handle s.config.capacity.toNat with
      | some reason => (.rejected, s.refuse handle login.username reason)
      | none => (.handled, s.accept login handle) := by
  simp only [Server.login, Option.bind_none, named, Bool.false_eq_true, if_false, Registry.registerWith]
  cases s.registry.refusal? login.username handle s.config.capacity.toNat <;> rfl

/-- **What becomes of a login** on a connection. -/
theorem login_verdict (addressed : s.Addressed) (handle : Handle) (login : Login)
    (countable : s.registry.byName? login.username = none → s.Countable) : s.Settled handle login
      ((s.login login (s.bound? handle) handle).2.closeRefused handle (.login login)
        (s.login login (s.bound? handle) handle).1) := by
  cases who : s.bound? handle with
  | some id =>
    obtain ⟨session, own, -⟩ := addressed who
    have bound : (s.bound? handle).isSome = true := by rw [who]; rfl
    have settles : s.verdict handle login = .bound := if_pos bound
    simp only [Settled, settles, Server.login, Option.bind_some, own]
    exact (utters_nothing _).keepsOpen bound
  | none =>
    have free : s.registry.byHandle? handle = none := by simpa [bound?] using who
    have stands := Registry.refusal?_of_free free login.username s.config.capacity.toNat
    simp only [Settled, verdict, who, Option.isSome_none, Bool.false_eq_true, if_false]
    cases named : login.username.isEmpty with
    | true =>
      simp only [Server.login, Option.bind_none, named, if_true]
      exact (utters_nothing _).closes who
    | false =>
      rw [login_registered named]
      cases taken : (s.registry.byName? login.username).isSome with
      | true =>
        rw [taken, if_pos rfl] at stands
        simp only [stands, Bool.false_eq_true, if_true, if_false]
        exact Utters.closes (utters_nothing _) who
      | false =>
        rw [taken, if_neg Bool.false_ne_true] at stands
        have limit := capacity_le_iff (countable (by simpa using taken))
        cases full : s.isFull with
        | true =>
          rw [if_pos (limit.mpr full)] at stands
          have told : s.Utters #[.send handle (.playStatus .failedServerFull)]
              (s.refuse handle login.username .full) := ⟨_, rfl⟩
          simp only [stands, Bool.false_eq_true, if_true, if_false]
          exact told.closes who
        | false =>
          rw [if_neg fun reached => Bool.eq_false_iff.mp full (limit.mp reached)] at stands
          have stays : (s.accept login handle).closeRefused handle (.login login) .handled =
              s.accept login handle := by simp [closeRefused]
          simp only [stands, Bool.false_eq_true, if_false, stays]
          exact s.accept_takesIn handle login

theorem startEvent_login (standard : s.dispatcher = .standard) (handle : Handle) (login : Login) :
    s.startEvent (.packet handle (.login login)) = .ok (.done (),
      (s.login login (s.bound? handle) handle).2.closeRefused handle (.login login)
        (s.login login (s.bound? handle) handle).1) := by
  have routed : s.dispatcher.handler? (Packet.login login).id = some .login := by
    rw [standard]
    exact handler?_standard_login
  simp only [startEvent, startPacket, startDispatch, routed, startHandler, bind, Except.bind, pure,
    Except.pure]

theorem verdict_eq_admitted : s.verdict handle login = .admitted ↔ s.bound? handle = none ∧
    login.username.isEmpty = false ∧ s.registry.byName? login.username = none ∧ s.isFull = false := by
  unfold verdict
  cases s.bound? handle <;> cases login.username.isEmpty <;>
    cases s.registry.byName? login.username <;> cases s.isFull <;> simp

section Named

variable {l : Handle × Login} {rest : List (Handle × Login)} (named : l.2.username.isEmpty = false)

end Named

theorem TakesIn.addressed {newcomer : Session} (takesIn : s.TakesIn handle login newcomer s')
    (h : s.Addressed) : s'.Addressed := by
  intro k id bound
  rw [bound?, takesIn.byHandle] at bound
  rw [session?, takesIn.sessions, Array.getElem?_push]
  split at bound
  · rename_i same
    cases bound
    exact ⟨newcomer, if_pos rfl, takesIn.address.trans same⟩
  · obtain ⟨session, own, address⟩ := h bound
    rw [if_neg (session?_lt own).ne]
    exact ⟨session, own, address⟩

end Server

/-! ### Runs -/

end BlockWorld
