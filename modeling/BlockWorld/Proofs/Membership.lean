import BlockWorld.Proofs.Operations
import BlockWorld.Proofs.Registry

/-! # Who is a member after any calls

The registry can be called with any sessions: registered or not, removed before, or of the same name or
on the same handle as another one. Sessions are told apart by themselves and not by what they are called,
and a session keeps its name and its handle. Then the two indexes hold the same members at any time.

* `RegistryCall`, `RegistryCall.Fits`: the calls, and what holds of the sessions in them.
* `registerWith_of_free`, `registerWith_of_refusal`: what registering does.
* `Registry.Knows`: the invariant; `Knows.bind`, `Knows.unbind`, `Knows.perform`: every call keeps it;
  `Knows.after`: all calls do.
* `Server.removePlayer_eq_removeWith`: how the server calls the registry when a player is removed.
* `indexes_agree`: the registry after any calls. -/

namespace BlockWorld

open Std

variable {σ : Type}

/-- A call that changes the registry. Registering runs `build` on a state that is no part of the registry,
and removing a session runs `teardown` on it. -/
inductive RegistryCall (σ : Type) where
  | add (m : Member)
  | register (name : String) (handle : Handle) (limit : Nat) (build : σ → Member × σ)
  | removeName (name : String)
  | remove (m : Member) (teardown : List Member → σ → σ)

namespace RegistryCall

/-- What a call makes of the registry and the state. -/
def perform (s : Registry × σ) : RegistryCall σ → Registry × σ
  | .add m => ((s.1.addPlayer m).2, s.2)
  | .register name handle limit build => (s.1.registerWith name handle limit build s.2).2
  | .removeName name => ((s.1.removeByName name).2, s.2)
  | .remove m teardown => (s.1.removeWith m (fun peers state => ((), teardown peers state)) s.2).2

/-- The sessions of a call have the names and handles of `who`. If `build` runs, it makes a session with
the name and the handle that it is registered under. -/
def Fits (who : SessionId → Member) (s : Registry × σ) : RegistryCall σ → Prop
  | .add m => m = who m.session
  | .register name handle limit build => s.1.refusal? name handle limit = none →
    (build s.2).1 = who (build s.2).1.session ∧ (build s.2).1.name = name ∧
      (build s.2).1.handle = handle
  | .removeName _ => True
  | .remove m _ => m = who m.session

/-- What the calls make of the registry and the state, one after the other. -/
def after (s : Registry × σ) (calls : List (RegistryCall σ)) : Registry × σ := calls.foldl perform s

/-- Each of the calls fits when its turn comes. -/
def AllFit (who : SessionId → Member) : Registry × σ → List (RegistryCall σ) → Prop
  | _, [] => True
  | s, call :: calls => call.Fits who s ∧ AllFit who (perform s call) calls

end RegistryCall

namespace Registry

variable {r : Registry} {m m' : Member} {name : String} {handle : Handle} {limit : Nat}
  {who : SessionId → Member}

/-! ### Registering -/

/-- A registration that is not refused. -/
theorem registerWith_of_free (free : r.refusal? name handle limit = none) (build : σ → Member × σ)
    (state : σ) : r.registerWith name handle limit build state =
      (.registered (build state).1, r.bind name handle (build state).1, (build state).2) := by
  rw [registerWith, free]

/-- If a registration is refused, nothing changes and `build` makes no difference. -/
theorem registerWith_of_refusal {reason : Refusal} (refused : r.refusal? name handle limit = some reason)
    (build : σ → Member × σ) (state : σ) :
    r.registerWith name handle limit build state = (.refused reason, r, state) := by
  rw [registerWith, refused]

theorem addPlayer_snd (r : Registry) (m : Member) : (r.addPlayer m).2 =
    (r.registerWith m.name m.handle 18446744073709551615 (fun u => (m, u)) ()).2.1 := by
  unfold addPlayer
  split <;> rename_i h <;> rw [h]

/-! ### What the registry knows of the sessions -/

/-- The indexes hold the same members, each with the name and the handle of its session. -/
structure Knows (who : SessionId → Member) (r : Registry) : Prop where
  paired : r.Paired
  known : ∀ {name m}, r.byName? name = some m → m = who m.session

theorem knows_empty (who : SessionId → Member) : Knows who {} := by
  refine ⟨paired_empty, fun hm => ?_⟩
  simp [byName?] at hm

namespace Knows

/-- A session that is bound to its name is registered as it is. -/
theorem bound_or_unbind (h : r.Knows who) (own : m = who m.session) :
    r.byName? m.name = some m ∨
      (∀ m', r.byName? m.name = some m' → m'.session ≠ m.session) ∧ r.unbind m = r := by
  by_cases bound : ∃ m', r.byName? m.name = some m' ∧ m'.session = m.session
  · obtain ⟨m', hm', same⟩ := bound
    have one : m' = m := by rw [h.known hm', same, ← own]
    exact Or.inl (by rw [hm', one])
  · have other : ∀ m', r.byName? m.name = some m' → m'.session ≠ m.session :=
      fun m' hm' same => bound ⟨m', hm', same⟩
    exact Or.inr ⟨other, unbind_of_not_bound other⟩

theorem bind (h : r.Knows who) (free : r.refusal? m.name m.handle limit = none)
    (own : m = who m.session) : (r.bind m.name m.handle m).Knows who := by
  obtain ⟨named, bound, -⟩ := refusal?_eq_none free
  refine ⟨h.paired.bind named bound, fun {name m'} hm' => ?_⟩
  rw [byName?_bind] at hm'
  split at hm'
  · cases hm'
    exact own
  · exact h.known hm'

theorem unbind (h : r.Knows who) (own : m = who m.session) : (r.unbind m).Knows who := by
  rcases h.bound_or_unbind own with bound | ⟨-, same⟩
  · refine ⟨h.paired.unbind bound, fun {name m'} hm' => ?_⟩
    rw [byName?_unbind bound] at hm'
    split at hm'
    · cases hm'
    · exact h.known hm'
  · rw [same]
    exact h

theorem registerWith (h : r.Knows who) {build : σ → Member × σ} {state : σ}
    (fits : r.refusal? name handle limit = none → (build state).1 = who (build state).1.session ∧
      (build state).1.name = name ∧ (build state).1.handle = handle) :
    (r.registerWith name handle limit build state).2.1.Knows who := by
  cases refused : r.refusal? name handle limit with
  | some reason =>
    rw [registerWith_of_refusal refused]
    exact h
  | none =>
    obtain ⟨own, rfl, rfl⟩ := fits refused
    rw [registerWith_of_free refused]
    exact h.bind refused own

/-- Taking out by name takes out the session that is bound to it. -/
theorem removeByName (h : r.Knows who) (name : String) : (r.removeByName name).2.Knows who := by
  unfold Registry.removeByName
  cases hm : r.byName? name with
  | none => exact h
  | some m =>
    have same : m.name = name := (h.paired.name hm).1
    subst same
    have out := h.unbind (h.known hm)
    rw [unbind_of_bound hm] at out
    exact out

/-- **Every call keeps the indexes together.** -/
theorem perform {s : Registry × σ} {call : RegistryCall σ} (h : s.1.Knows who)
    (fits : call.Fits who s) : (call.perform s).1.Knows who := by
  cases call with
  | add m =>
    rw [RegistryCall.perform, addPlayer_snd]
    exact h.registerWith fun _ => ⟨fits, rfl, rfl⟩
  | register name handle limit build => exact h.registerWith fits
  | removeName name => exact h.removeByName name
  | remove m teardown => exact h.unbind fits

/-- Any calls keep the indexes together. -/
theorem after : ∀ {calls : List (RegistryCall σ)} {s : Registry × σ}, s.1.Knows who →
    RegistryCall.AllFit who s calls → (RegistryCall.after s calls).1.Knows who
  | [], _, h, _ => h
  | _ :: _, _, h, ⟨fits, rest⟩ => (h.perform fits).after rest

/-! ### Everyone else -/

/-- No session is listed twice. -/
theorem nodup_sessions (h : r.Knows who) : (r.players.map Member.session).Nodup := by
  refine h.paired.nodup_players.map_on fun a ha b hb same => ?_
  rw [h.known (h.paired.mem_players.mp ha), h.known (h.paired.mem_players.mp hb), same]

theorem nodup_peers (h : r.Knows who) (m : Member) : ((r.peers m).map Member.session).Nodup :=
  h.nodup_sessions.sublist (List.filter_sublist.map _)

/-- **Who is left** when a registered session is taken out: everyone else. -/
theorem mem_players_unbind (h : r.Knows who) (bound : r.byName? m.name = some m) :
    m' ∈ (r.unbind m).players ↔ m' ∈ r.peers m := by
  have own := h.known bound
  rw [(h.unbind own).paired.mem_players, byName?_unbind bound, mem_peers, h.paired.mem_players]
  constructor
  · intro left
    split at left
    · cases left
    · rename_i apart
      refine ⟨left, fun same => apart ?_⟩
      rw [h.known left, same, ← own]
  · rintro ⟨named, apart⟩
    rw [if_neg, named]
    intro same
    rw [← same, bound] at named
    cases named
    exact apart rfl

end Knows

end Registry

/-! ### The teardown of a player -/

namespace Server

variable {s : Server} {id : SessionId} {session : Session}

/-- Ends the session `id`. If it had not ended before, those of the others who see it are told that it is
gone; returns how many. -/
def teardown (id : SessionId) (session : Session) (peers : List Member) (s : Server) :
    Option Nat × Server :=
  let (ended, s) := s.perform id (·.finalize)
  match ended.join with
  | none => (none, s)
  | some last =>
    let audience := if last.wasSpawned then peers.filter (s.watches last.anchor) else []
    (some audience.length, s.despawnFor session.entityId audience)

/-- **Removing a player** is a call of the registry that ends the session as its teardown. -/
theorem removePlayer_eq_removeWith (known : s.session? id = some session) :
    s.removePlayer id =
      match s.registry.removeWith (member id session) (teardown id session) s with
      | (none, registry, s) => (false, { s with registry })
      | (some despawned, registry, s) =>
        (true, { s with registry }.note (.leftGame session.name registry.size despawned)) := by
  have ended := perform_eq (fun sc : Scene => sc.finalize) known
  rw [removePlayer, known]
  simp only [Registry.removeWith, teardown, ended]
  cases (Scene.finalize { session, world := s.world }).1 with
  | none => rfl
  | some last =>
    simp only [Option.join_some, despawnFor_eq]
    rfl

end Server

open RegistryCall

/-- **The indexes agree after any calls** of the registry, whatever sessions they are made with: registered
or not, removed before, or of the same name or on the same handle as another one. By name and by handle the
same sessions are found, each under its own name and its own handle and under nothing else, and the indexes
are of one size. A session is registered just if its name and its handle are free and there is room; if not,
nothing changes, whatever `build` would do. Whoever is removed, `teardown` is given every other registered
session, each once; if the very session is bound to its name, these are the ones that are left, and if not,
both indexes stay as they are. -/
theorem indexes_agree {ρ : Type} (who : SessionId → Member) (state : σ) (calls : List (RegistryCall σ))
    (fit : AllFit who ({}, state) calls) :
    let r := (after ({}, state) calls).1
    ((∀ name m, r.byName? name = some m ↔ m ∈ r.players ∧ m.name = name) ∧
      (∀ handle m, r.byHandle? handle = some m ↔ m ∈ r.players ∧ m.handle = handle) ∧
      r.byHandle.size = r.byName.size) ∧
    (∀ name handle limit,
      if r.byName? name = none ∧ r.byHandle? handle = none ∧ r.size < limit then
        ∀ (build : σ → Member × σ) state, r.registerWith name handle limit build state =
          (.registered (build state).1, r.bind name handle (build state).1, (build state).2)
      else ∃ reason, ∀ (build : σ → Member × σ) state,
        r.registerWith name handle limit build state = (.refused reason, r, state)) ∧
    ∀ m, ∃ peers : List Member, (peers.map Member.session).Nodup ∧
      (∀ m', m' ∈ peers ↔ m' ∈ r.players ∧ m'.session ≠ m.session) ∧
      ∀ (teardown : List Member → σ → ρ × σ) state,
        let outcome := r.removeWith m teardown state
        (outcome.1, outcome.2.2) = teardown peers state ∧
        (r.byName? m.name = some m → ∀ m', m' ∈ outcome.2.1.players ↔ m' ∈ peers) ∧
        ((r.byName? m.name).map Member.session ≠ some m.session → outcome.2.1 = r) := by
  intro r
  have known : r.Knows who := (Registry.knows_empty who).after fit
  refine ⟨⟨fun _ _ => known.paired.byName?_eq_some_iff, fun _ _ => known.paired.byHandle?_eq_some_iff,
    known.paired.size_eq⟩, fun name handle limit => ?_, fun m => ?_⟩
  · split
    · rename_i free
      exact Registry.registerWith_of_free (Registry.refusal?_eq_none_iff.mpr free)
    · rename_i taken
      rw [← Registry.refusal?_eq_none_iff] at taken
      obtain ⟨reason, refused⟩ := Option.ne_none_iff_exists'.mp taken
      exact ⟨reason, Registry.registerWith_of_refusal refused⟩
  · refine ⟨r.peers m, known.nodup_peers m, fun _ => Registry.mem_peers, fun teardown state => ?_⟩
    refine ⟨rfl, fun bound _ => known.mem_players_unbind bound, fun other => ?_⟩
    refine Registry.unbind_of_not_bound fun m' hm' same => other ?_
    rw [hm', Option.map_some, same]

/-- A session that was never registered is removed while another one has its name. -/
theorem indexes_agree_stale :
    let stale : Member := ⟨0, "ada", ⟨1⟩⟩
    let ada : Member := ⟨1, "ada", ⟨2⟩⟩
    let bob : Member := ⟨2, "bob", ⟨1⟩⟩
    let who : SessionId → Member := fun id => if id = 0 then stale else if id = 1 then ada else bob
    let calls : List (RegistryCall Nat) := [.add ada, .register "bob" ⟨1⟩ 2 fun n => (bob, n + 1),
      .remove stale fun peers n => n + peers.length, .removeName "bob"]
    let r := (after ({}, 0) calls).1
    AllFit who ({}, 0) calls ∧ r.byHandle.size = r.byName.size ∧
      (r.removeWith stale (fun peers n => (peers.length, n)) 0).2.1 = r := by
  intro stale ada bob who calls r
  have fit : AllFit who ({}, 0) calls := ⟨rfl, fun _ => ⟨rfl, rfl, rfl⟩, rfl, trivial, trivial⟩
  obtain ⟨⟨-, -, sizes⟩, -, removal⟩ := indexes_agree (ρ := Nat) who 0 calls fit
  obtain ⟨peers, -, -, removed⟩ := removal stale
  obtain ⟨-, -, unchanged⟩ := removed (fun peers n => (peers.length, n)) 0
  exact ⟨fit, sizes, unchanged (by decide +kernel)⟩

end BlockWorld
