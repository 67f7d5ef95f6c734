import BlockWorld.Proofs.Speech
import BlockWorld.Proofs.Visibility

/-! # Columns are announced once each time they are tracked

A client learns of a column by one packet, and forgets it when the session stops tracking it. The
passes of a session may overlap, and several may have fetched the same column. Still the packets of
a column and the times it was given up balance, at every moment of every run.

* `Utterance.announces`: that the session tells its client of a column.
* `Step.leaves`: that a column leaves those that the session tracks.
* `Turn.announced`: a change announces a column exactly if it adds it to those tracked.
* `step_announced`, `run_announced`: the balance over an action and over a run.
* `announced_balance`: the balance from the beginning. -/

namespace BlockWorld

/-- Whether the session `id` tells its client of the column at `p`. -/
def Utterance.announces (id : SessionId) (p : ChunkPos) (u : Utterance) : Bool :=
  decide (u.speaker = some id ∧ u.packet = p.announcement)

/-- Whether there is a session `id` and it tracks the column at `p`. -/
def Server.tracks (s : Server) (id : SessionId) (p : ChunkPos) : Bool :=
  (s.session? id).any (·.sees p)

/-- Whether the column at `p` leaves those that the session `id` tracks. -/
def Step.leaves (id : SessionId) (p : ChunkPos) (t : Step) : Bool :=
  t.before.server.tracks id p && !t.after.server.tracks id p

/-! ### What is announced -/

theorem countP_announces_of_chatter {us : List Utterance} (id : SessionId) (p : ChunkPos)
    (h : ∀ u ∈ us, u.packet.isChatter = true) : us.countP (Utterance.announces id p) = 0 := by
  refine List.countP_eq_zero.mpr fun u hu announced => ?_
  have column : u.packet = p.announcement := (of_decide_eq_true announced).2
  have chatter := h u hu
  rw [column, announcement_not_chatter] at chatter
  cases chatter

theorem countP_announces_greeting (s : Server) (handle : Handle) (id : SessionId) (p : ChunkPos) :
    (s.greeting handle).countP (Utterance.announces id p) = 0 := by
  simp [Server.greeting, Utterance.announces, ChunkPos.announcement]

theorem count_announcement_entry (session : Session) (p : ChunkPos) :
    session.entry.countP (fun packet => decide (packet = p.announcement)) = 0 := by
  simp [Session.entry, ChunkPos.announcement]

/-- Among the packets of the session `id` a column is announced as often as it is among the new
ones. -/
theorem countP_announces_settling {id : SessionId} {handle : Handle} {new : List ChunkPos}
    {entry : List Packet} (p : ChunkPos)
    (silent : entry.countP (fun packet => decide (packet = p.announcement)) = 0) :
    ((new.map ChunkPos.announcement ++ entry).map (Utterance.mk (some id) handle)).countP
      (Utterance.announces id p) = new.count p := by
  have own : Utterance.announces id p ∘ Utterance.mk (some id) handle =
      fun packet => decide (packet = p.announcement) := by
    funext packet
    simp [Utterance.announces]
  have pulled : (fun packet => decide (packet = p.announcement)) ∘ ChunkPos.announcement =
      fun q => decide (q = p) := by
    funext q
    simp [ChunkPos.announcement_injective.eq_iff]
  rw [List.countP_map, own, List.countP_append, silent, List.countP_map, pulled, Nat.add_zero,
    List.count]
  refine List.countP_congr fun q _ => ?_
  simp

/-! ### What is tracked -/

namespace Server

variable {s s' : Server} {id j : SessionId} {p : ChunkPos} {session session' : Session}

theorem tracks_iff : s.tracks id p = true ↔
    ∃ session, s.session? id = some session ∧ p ∈ session.tracked := by
  simp [tracks, Session.sees, Tracked.contains_index, Option.any_eq_true]

theorem tracks_of_session (h : s.session? id = some session) : s.tracks id p = session.sees p := by
  simp [tracks, h]

theorem tracks_congr (h : s'.session? id = s.session? id) : s'.tracks id p = s.tracks id p := by
  rw [tracks, tracks, h]

/-- A column that is tracked was tracked before, if it was by the session as it was before. -/
theorem tracks_of_back (back : ∀ {session'}, s'.session? id = some session' → p ∈ session'.tracked →
      ∃ session, s.session? id = some session ∧ p ∈ session.tracked)
    (h : s'.tracks id p = true) : s.tracks id p = true := by
  obtain ⟨session', hs', hp⟩ := tracks_iff.mp h
  exact tracks_iff.mpr (back hs' hp)

theorem Becomes.tracks (becomes : s.Becomes id session' s') (own : s.session? id = some session)
    (grown : ∀ q, q ∈ session'.tracked → q ∈ session.tracked)
    (h : s'.tracks j p = true) : s.tracks j p = true := by
  refine tracks_of_back (fun {session₁} hs hp => ?_) h
  rw [becomes.session?] at hs
  split at hs
  · rename_i same
    cases hs
    exact ⟨session, same ▸ own, grown p hp⟩
  · exact ⟨session₁, hs, hp⟩

theorem Ends.tracks (ends : s.Ends id s') (h : s'.tracks j p = true) : s.tracks j p = true := by
  cases ends with
  | void _ keeps _ => rwa [tracks_congr (keeps.session? j)] at h
  | live own _ becomes _ =>
    exact becomes.tracks own (fun q hq => absurd hq Tracked.not_mem_empty) h

end Server

variable {acts : SessionId → Prop} {ends : Ending → Prop} {g g' : Game} {us : List Utterance}

/-- **The end of a pass** announces the columns that it adds to those tracked, each once. -/
theorem settles_announced {s s' : Server} {pass : Pass} {report : Report}
    (h : s.Settles pass report s') (id : SessionId) (p : ChunkPos) :
    ((s.settling pass).countP (Utterance.announces id p) = 0 ∧ s'.tracks id p = s.tracks id p) ∨
    ((s.settling pass).countP (Utterance.announces id p) = 1 ∧
      s.tracks id p = false ∧ s'.tracks id p = true) := by
  cases h with
  | void _ keeps _ _ silent =>
    rw [silent]
    exact Or.inl ⟨rfl, Server.tracks_congr (keeps.session? id)⟩
  | live own live becomes tracked joins spawned announces words =>
    rename_i session t' new
    rw [words]
    by_cases same : id = pass.session
    · subst same
      have silent : (if pass.spawning then session.entry else []).countP
          (fun packet => decide (packet = p.announcement)) = 0 := by
        split
        · exact count_announcement_entry session p
        · rfl
      rw [countP_announces_settling p silent, Server.tracks_of_session own,
        Server.tracks_of_session becomes.self]
      by_cases hnew : p ∈ new
      · obtain ⟨now, before⟩ := (announces.new p).mp hnew
        refine Or.inr ⟨List.count_eq_one_of_mem announces.once hnew, ?_, ?_⟩
        · simpa [Session.sees, Tracked.contains_index] using before
        · simpa [Session.sees, Tracked.contains_index] using now
      · have kept : p ∈ t' ↔ p ∈ session.tracked :=
          ⟨fun now => by_contra fun before => hnew ((announces.new p).mpr ⟨now, before⟩),
            joins.grows p⟩
        refine Or.inl ⟨List.count_eq_zero.mpr hnew, ?_⟩
        rw [Bool.eq_iff_iff]
        simpa [Session.sees, Tracked.contains_index] using kept
    · have others : ∀ packets : List Packet,
          (packets.map (Utterance.mk (some pass.session) session.handle)).countP
            (Utterance.announces id p) = 0 := by
        intro packets
        refine List.countP_eq_zero.mpr fun u hu announced => ?_
        obtain ⟨packet, -, rfl⟩ := List.mem_map.mp hu
        have speaker : some pass.session = some id := (of_decide_eq_true announced).1
        exact same (Option.some.inj speaker).symm
      exact Or.inl ⟨others _, Server.tracks_congr (becomes.other same)⟩

/-- **A change announces a column** exactly if it adds it to those that the session tracks. -/
theorem Turn.announced (h : Turn acts ends g us g') (sound : g.Sound) (id : SessionId) (p : ChunkPos) :
    (us.countP (Utterance.announces id p) = 0 ∧
      (g'.server.tracks id p = true → g.server.tracks id p = true)) ∨
    (us.countP (Utterance.announces id p) = 1 ∧
      g.server.tracks id p = false ∧ g'.server.tracks id p = true) := by
  cases h with
  | aside h =>
    refine Or.inl ⟨countP_announces_of_chatter id p fun u hu => (Server.chatter_aside h u hu).1, ?_⟩
    refine Server.tracks_of_back fun hs' hp => ?_
    obtain ⟨session, hs, alike⟩ := h.quiet.session hs'
    exact ⟨session, hs, alike.tracked ▸ hp⟩
  | login named free =>
    refine Or.inl ⟨countP_announces_greeting _ _ _ _, Server.tracks_of_back fun {session'} hs' hp => ?_⟩
    rw [(g.server.accept_spec _ _).session?] at hs'
    split at hs'
    · cases hs'
      exact absurd hp Tracked.not_mem_empty
    · exact ⟨session', hs', hp⟩
  | setViewDistance act v =>
    refine Or.inl ⟨rfl, Server.tracks_of_back fun {session'} hs' hp => ?_⟩
    rw [Server.session?_update] at hs'
    split at hs'
    · obtain ⟨session, hs, rfl⟩ := Option.map_eq_some_iff.mp hs'
      exact ⟨session, hs, hp⟩
    · exact ⟨session', hs', hp⟩
  | finalize _ act => exact Or.inl ⟨rfl, (g.server.ends_finalize _).tracks⟩
  | remove _ act =>
    exact Or.inl ⟨countP_announces_of_chatter id p fun u hu => (Server.chatter_farewell _ u hu).1,
      (g.server.ends_removePlayer _).tracks⟩
  | look act own live fresh phase =>
    obtain ⟨t', hs, hm, -, -⟩ := looked live (sound.session own) phase
    rename_i sc
    have becomes := Server.becomes_absorb own sc
    refine Or.inl ⟨countP_announces_of_chatter id p fun u hu => (Server.chatter_phase _ _ _ u hu).1,
      becomes.tracks own fun q hq => ?_⟩
    rw [hs] at hq
    exact ((hm q).mp hq).1
  | fetch h =>
    obtain ⟨keeps, -⟩ := Server.column_spec h
    exact Or.inl ⟨rfl, fun h => by rwa [Server.tracks_congr (keeps.session? id)] at h⟩
  | edit p h => exact Or.inl ⟨rfl, fun h => h⟩
  | advance own act h =>
    have keeps := (Server.advance_spec h).keeps
    exact Or.inl ⟨rfl, fun h => by rwa [Server.tracks_congr (keeps.session? id)] at h⟩
  | settle own act idle h =>
    obtain ⟨-, settles⟩ := sound.settled own h
    rcases settles_announced settles id p with ⟨none, kept⟩ | one
    · exact Or.inl ⟨none, fun h => by rwa [← kept]⟩
    · exact Or.inr one

/-! ### The balance -/

/-- Where nothing of the column at `p` is said, it does not join those tracked. -/
theorem Turns.tracks (c : Turns acts ends g us g') (sound : g.Sound) {id : SessionId} {p : ChunkPos}
    (silent : us.countP (Utterance.announces id p) = 0) (h : g'.server.tracks id p = true) :
    g.server.tracks id p = true := by
  induction c with
  | refl => exact h
  | tail c d ih =>
    rw [List.countP_append, Nat.add_eq_zero_iff] at silent
    rcases d.announced (c.changes.sound sound) id p with ⟨-, back⟩ | ⟨one, -, -⟩
    · exact ih silent.1 (back h)
    · rw [silent.2] at one
      cases one

/-- **The balance of an action.** A column is announced when it joins those tracked, and only then. -/
theorem step_announced (sound : g.Sound) {a : Action} (hstep : g.step a = .ok g') (id : SessionId)
    (p : ChunkPos) :
    (a.words g).countP (Utterance.announces id p) + (g.server.tracks id p).toNat =
      (Step.leaves id p ⟨g, a, g'⟩).toNat + (g'.server.tracks id p).toNat := by
  -- Except at the end of a pass nothing is announced, so that no column may join.
  have balanced : ((a.words g).countP (Utterance.announces id p) = 0 ∧
        (g'.server.tracks id p = true → g.server.tracks id p = true)) ∨
      ((a.words g).countP (Utterance.announces id p) = 1 ∧
        g.server.tracks id p = false ∧ g'.server.tracks id p = true) := by
    have quiet (silent : (a.words g).countP (Utterance.announces id p) = 0) :
        g'.server.tracks id p = true → g.server.tracks id p = true := by
      obtain ⟨g'', hstep', c⟩ := step_turns sound a
      rw [hstep] at hstep'
      cases hstep'
      exact c.tracks sound silent
    by_cases settles : ∃ i, a = .settle i
    · obtain ⟨i, rfl⟩ := settles
      obtain ⟨g'', hstep', ⟨silent, rfl⟩ | turn⟩ := step_settle (fun _ => True) sound i
      · rw [hstep] at hstep'
        cases hstep'
        exact Or.inl ⟨by rw [silent]; rfl, fun h => h⟩
      · rw [hstep] at hstep'
        cases hstep'
        exact turn.announced sound id p
    · have silent : (a.words g).countP (Utterance.announces id p) = 0 := by
        cases admits : a.admits g with
        | true =>
          obtain ⟨login, handle, -, -, -, greeted, -⟩ := Action.admitted admits
          rw [greeted]
          exact countP_announces_greeting _ _ _ _
        | false =>
          have unsettled : ∀ i, a ≠ .settle i := fun i same => settles ⟨i, same⟩
          exact countP_announces_of_chatter id p (Action.words_chatter unsettled admits)
      exact Or.inl ⟨silent, quiet silent⟩
  unfold Step.leaves
  dsimp only
  rcases balanced with ⟨none, back⟩ | ⟨one, before, after⟩
  · rw [none]
    cases before : g.server.tracks id p <;> cases after : g'.server.tracks id p <;> simp_all
  · rw [one, before, after]
    rfl

/-- **The balance of a run.** -/
theorem run_announced (id : SessionId) (p : ChunkPos) : ∀ (actions : List Action) {g : Game},
    g.Sound → g.run actions = .ok g' →
      (g.transcript actions).countP (Utterance.announces id p) + (g.server.tracks id p).toNat =
        (g.history actions).countP (Step.leaves id p) + (g'.server.tracks id p).toNat
  | [], g, _, h => by cases h; rfl
  | a :: actions, g, sound, h => by
    obtain ⟨g₁, hstep, c⟩ := step_turns sound a
    have hrun : g₁.run actions = .ok g' := (Game.run_cons hstep actions).symm.trans h
    have first := step_announced sound hstep id p
    have rest := run_announced id p actions (c.changes.sound sound) hrun
    rw [Game.transcript_cons hstep, Game.history_cons hstep, List.countP_append, List.countP_cons]
    cases left : Step.leaves id p ⟨g, a, g₁⟩ <;> simp only [left, Bool.toNat_true, Bool.toNat_false,
      if_true, Bool.false_eq_true, if_false] at first ⊢ <;> omega

/-- All packets of columns go out in the name of a session, to its own client. -/
def Game.Delivered (us : List Utterance) (g : Game) : Prop :=
  ∀ u ∈ us, ∀ chunk, u.packet = .levelChunk chunk → ∃ id session, u.speaker = some id ∧
    g.server.session? id = some session ∧ session.handle = u.handle

theorem Turn.delivered (c : Turn acts ends g us g') (sound : g.Sound) :
    Game.Delivered us g := by
  intro u hu chunk column
  have shown : u.packet.isChatter = false := by rw [column]; rfl
  rcases c.kind with ⟨login, handle, rfl, -⟩ | ⟨i, pass, report, s, own, h, rfl, -⟩ | chatter
  · simp only [Server.greeting, List.mem_cons, List.not_mem_nil, or_false] at hu
    rcases hu with rfl | rfl <;> cases column
  · obtain ⟨-, settles⟩ := sound.settled own h
    cases settles with
    | void _ _ _ _ silent => rw [silent] at hu; cases hu
    | live own' live becomes tracked joins spawned announces words =>
      rename_i session t' new
      rw [words] at hu
      obtain ⟨packet, -, rfl⟩ := List.mem_map.mp hu
      exact ⟨pass.session, session, rfl, own', rfl⟩
  · rw [(chatter u hu).1] at shown
    cases shown

theorem Turns.delivered (c : Turns acts ends g us g') (sound : g.Sound) : Game.Delivered us g' := by
  have nothing : Game.Delivered [] g := fun u hu => absurd hu List.not_mem_nil
  refine c.invariant (P := Game.Delivered) ?_ sound nothing
  intro g g' us vs sound delivered d u hu chunk column
  have before : ∃ id session, u.speaker = some id ∧ g.server.session? id = some session ∧
      session.handle = u.handle := by
    rcases List.mem_append.mp hu with hu | hu
    · exact delivered u hu chunk column
    · exact d.delivered sound u hu chunk column
  obtain ⟨id, session, speaker, hs, handle⟩ := before
  obtain ⟨session', hs', lasts⟩ := Change.lasts ⟨vs, d⟩ sound hs
  exact ⟨id, session', speaker, hs', lasts.handle.trans handle⟩

/-- **No column is announced twice while it is tracked, or tracked without having been announced.**
In every world and for all sessions that begin fresh, after whatever was done to them and to anything
else, in any order, with other operations between the phases of a pass: what was sent is the
transcript; each packet of a column in it goes from a session to its own client; and for each session
and column the packets outnumber the times the column was given up by one if it is tracked, and by
none if it is not. -/
theorem announced_balance (s : Server)
    (fresh : ∀ id session, s.session? id = some session → session.Fresh) (actions : List Action) :
    let start : Game := { server := s }
    ∃ g, start.run actions = .ok g ∧
      g.server.sent = s.sent ++ (start.transcript actions).map Utterance.message ∧
      (∀ u ∈ start.transcript actions, ∀ chunk, u.packet = .levelChunk chunk →
        ∃ id session, u.speaker = some id ∧ g.server.session? id = some session ∧
          session.handle = u.handle) ∧
      ∀ id session, g.server.session? id = some session → ∀ p,
        (start.transcript actions).countP (Utterance.announces id p) =
          (start.history actions).countP (Step.leaves id p) + if session.sees p then 1 else 0 := by
  intro start
  have sound : start.Sound := sound_of_fresh fresh
  obtain ⟨g, hrun, c⟩ := run_turns sound actions
  refine ⟨g, hrun, run_sent sound hrun, c.delivered sound, ?_⟩
  intro id session hs p
  have untracked : start.server.tracks id p = false := by
    rw [Bool.eq_false_iff]
    intro tracked
    obtain ⟨session₀, hs₀, hp⟩ := Server.tracks_iff.mp tracked
    obtain ⟨handle, entityId, identity, group, position, viewDistance, rfl⟩ := fresh id session₀ hs₀
    exact absurd hp Tracked.not_mem_empty
  have balance := run_announced id p actions sound hrun
  rw [untracked, Server.tracks_of_session hs] at balance
  cases seen : session.sees p <;> simpa [seen] using balance

/-- Two passes that are under way at once both fetch the columns around a player, which are announced once.
Then it walks out of their sight and back, with the way back begun before anything is fetched: what it saw
is announced a second time, and what it passed by never. -/
theorem announced_balance_walk :
    let s := (Server.addSession (Server.create {} {} .standard)
      (Session.create ⟨1⟩ 1 default (Group.empty "member") Vec3.zero 1)).2
    let start : Game := { server := s }
    let fetches (i : Nat) : List Action := List.replicate 5 (.advance i)
    let actions : List Action :=
      [.refresh 0, .refresh 0] ++ fetches 0 ++ fetches 1 ++
        [.settle 1, .settle 0, .move 0 ⟨400, 0, 0⟩ Rotation.zero true, .move 0 Vec3.zero Rotation.zero true] ++
        fetches 0 ++ fetches 1 ++ [.settle 0, .settle 0]
    let announced (p : ChunkPos) := (start.transcript actions).countP (Utterance.announces 0 p)
    let left (p : ChunkPos) := (start.history actions).countP (Step.leaves 0 p)
    (∀ id session, s.session? id = some session → session.Fresh) ∧
      ∃ g session, start.run actions = .ok g ∧ g.server.session? 0 = some session ∧
        (∀ p, announced p = left p + if session.sees p then 1 else 0) ∧
        (session.sees ⟨0, 0⟩ = true ∧ left ⟨0, 0⟩ = 1 ∧ announced ⟨0, 0⟩ = 2) ∧
        session.sees ⟨25, 0⟩ = false ∧ left ⟨25, 0⟩ = 0 ∧ announced ⟨25, 0⟩ = 0 := by
  intro s start fetches actions announced left
  have fresh : ∀ id session, s.session? id = some session → session.Fresh := fun _ _ =>
    fresh_addSession (fun _ _ => fresh_create) (fresh_session ..)
  have reached : (start.run actions).toOption.any (fun g => decide ((g.server.session? 0).map
      (fun session => (session.sees ⟨0, 0⟩, session.sees ⟨25, 0⟩)) = some (true, false))) = true := by
    decide +kernel
  have near : left ⟨0, 0⟩ = 1 := by decide +kernel
  have far : left ⟨25, 0⟩ = 0 := by decide +kernel
  obtain ⟨g, hrun, -, -, balance⟩ := announced_balance s fresh actions
  obtain ⟨session, own, seen⟩ := Option.map_eq_some_iff.mp (Game.holds_of_run reached hrun)
  obtain ⟨here, there⟩ := Prod.mk.inj seen
  have count : ∀ p, announced p = left p + if session.sees p then 1 else 0 := balance 0 session own
  refine ⟨fresh, g, session, hrun, own, count, ⟨here, near, ?_⟩, there, far, ?_⟩
  · rw [count, near, here]
    rfl
  · rw [count, far, there]
    rfl

end BlockWorld
