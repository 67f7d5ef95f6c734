import BlockWorld.Server.Run
import BlockWorld.Proofs.Run

/-! # Operations with nothing in between

An operation that waits for a pass can be brought to its end at once: all that is wanted is fetched,
and the pass is settled. This too is a chain of changes, so it never overflows and keeps whatever
every change keeps.

* `Server.handlePackets`: one packet after the other, each dealt with completely.
* `advanceBy_changes`: several fetches for one pass; `complete_spawned`: the end of a spawn.
* `Goes.finish`: an operation and all of its pass; `handlePacket_changes`: a packet. -/

namespace BlockWorld

variable {acts : SessionId → Prop} {ends : Ending → Prop} {g : Game} {us : List Utterance}

namespace Server

/-- Deals with the packets one after the other, each completely, and keeps the outcomes. -/
def handlePackets (s : Server) :
    List (Handle × Packet) → Except Overflow (List (Handle × Outcome) × Server)
  | [] => .ok ([], s)
  | (handle, packet) :: rest => do
    let (outcome, s) ← s.handlePacket handle packet
    let (outcomes, s) ← s.handlePackets rest
    return ((handle, outcome) :: outcomes, s)

theorem handlePackets_cons {s s' s'' : Server} {handle : Handle} {packet : Packet} {outcome : Outcome}
    {rest : List (Handle × Packet)} {outcomes : List (Handle × Outcome)}
    (first : s.handlePacket handle packet = .ok (outcome, s'))
    (later : s'.handlePackets rest = .ok (outcomes, s'')) :
    s.handlePackets ((handle, packet) :: rest) = .ok ((handle, outcome) :: outcomes, s'') := by
  simp only [handlePackets, first, later, bind, Except.bind, pure, Except.pure]

/-- A fetch takes the first of the wanted columns, if there is one. -/
theorem advance_wanted {s s' : Server} {pass pass' : Pass} (h : s.advance pass = .ok (pass', s')) :
    pass'.wanted = pass.wanted.tail := by
  unfold advance at h
  split at h
  · rename_i none
    cases h
    rw [none]
    rfl
  · rename_i p wanted more
    obtain ⟨⟨f, s₁⟩, -, hrest⟩ := bind_eq_ok h
    cases hrest
    rw [more]
    rfl

end Server

/-- **Several fetches for the last of the passes** under way. -/
theorem advanceBy_changes (ends : Ending → Prop) : ∀ (n : Nat) {g : Game} {passes : List Pass}
    {pass : Pass}, g.Sound → g.passes = passes ++ [pass] → ∃ pass' s',
      g.server.advanceBy pass n = .ok (pass', s') ∧ pass'.wanted = pass.wanted.drop n ∧
        Changes (fun _ => True) ends g { g with server := s', passes := passes ++ [pass'] }
  | 0, g, passes, pass, _, last => by
    have same : g = { g with passes := passes ++ [pass] } := by rw [← last]
    exact ⟨pass, g.server, rfl, rfl, same ▸ .refl⟩
  | n + 1, g, passes, pass, sound, last => by
    have own : g.passes[passes.length]? = some pass := by simp [last]
    obtain ⟨pass₁, s₁, h₁⟩ := g.server.exists_advance pass
      (sound.wanted pass (List.mem_of_getElem? own))
    have set : g.passes.set passes.length pass₁ = passes ++ [pass₁] := by simp [last]
    have first : Change (fun _ => True) ends g { g with server := s₁, passes := passes ++ [pass₁] } :=
      set ▸ ⟨[], .advance g own trivial h₁⟩
    obtain ⟨pass₂, s₂, h₂, wanted, later⟩ := advanceBy_changes ends n (first.sound sound) rfl
    refine ⟨pass₂, s₂, ?_, ?_, .head first later⟩
    · simp only [Server.advanceBy, h₁, bind, Except.bind]
      exact h₂
    · rw [wanted, Server.advance_wanted h₁, List.drop_tail]

/-- Fetches change no session, nor do they change whose pass it is. -/
theorem advanceBy_keeps : ∀ (n : Nat) {s s' : Server} {pass pass' : Pass},
    s.advanceBy pass n = .ok (pass', s') →
      s.Keeps s' ∧ pass'.session = pass.session ∧ pass'.spawning = pass.spawning
  | 0, s, s', pass, pass', h => by
    cases h
    exact ⟨.refl s, rfl, rfl⟩
  | n + 1, s, s', pass, pass', h => by
    obtain ⟨⟨pass₁, s₁⟩, first, rest⟩ := bind_eq_ok h
    have advances := Server.advance_spec first
    obtain ⟨keeps, session, spawning⟩ := advanceBy_keeps n rest
    exact ⟨advances.keeps.trans keeps, session.trans advances.session,
      spawning.trans advances.spawning⟩

/-- **A player whose session lives enters the world** at the end of its spawn. -/
theorem complete_spawned (sound : g.Sound) {passes : List Pass} {pass : Pass} {session : Session}
    {report : Report} {s' : Server} (last : g.passes = passes ++ [pass])
    (own : g.server.session? pass.session = some session) (live : session.finalized = false)
    (h : g.server.complete pass = .ok (report, s')) : report.spawned = pass.spawning := by
  obtain ⟨pass₁, s₁, fetches, -, fetched⟩ :=
    advanceBy_changes (fun _ => True) pass.wanted.length sound last
  obtain ⟨keeps, same, spawning⟩ := advanceBy_keeps _ fetches
  have settles : s₁.settle pass₁ = .ok (report, s') := by
    simpa only [Server.complete, fetches, bind, Except.bind] using h
  have mine : (passes ++ [pass₁])[passes.length]? = some pass₁ := by simp
  obtain ⟨-, settled⟩ := (fetched.sound sound).settled mine settles
  cases settled with
  | void ended _ _ _ _ =>
    have finalized : session.finalized = true :=
      ended session (by rw [same, keeps.session?, own])
    rw [live] at finalized
    cases finalized
  | live _ _ _ _ _ spawned _ _ => rw [spawned, spawning]

/-- **An operation with all of its pass** succeeds, and is a chain of changes. -/
theorem Goes.finish {α : Type} {operation : Except Overflow (Progress α × Server)} (sound : g.Sound)
    (h : Goes acts ends g us operation) : ∃ a g',
      (do let (progress, s) ← operation; s.finish progress) = .ok (a, g'.server) ∧
        Changes (fun _ => True) ends g g' := by
  obtain ⟨progress, s, rfl, turns⟩ := h
  have started : Changes (fun _ => True) ends g (g.join progress s) :=
    turns.changes.mono (fun _ _ => trivial) fun _ h => h
  cases progress with
  | done a => exact ⟨a, _, rfl, started⟩
  | pending pass answer =>
    have last : (g.join (.pending pass answer) s).passes = g.passes ++ [pass] := rfl
    obtain ⟨pass', s', fetches, wanted, fetched⟩ := advanceBy_changes ends pass.wanted.length
      (started.sound sound) last
    have idle : pass'.wanted = [] := by rw [wanted, List.drop_length]
    have sound' := fetched.sound (started.sound sound)
    have own : (g.passes ++ [pass'])[g.passes.length]? = some pass' := by simp
    obtain ⟨report, s'', settled, -⟩ := sound'.settles own
    refine ⟨answer report, _, ?_, (started.trans fetched).tail ⟨_, .settle _ own trivial idle settled⟩⟩
    change s.advanceBy pass pass.wanted.length = _ at fetches
    simp only [Server.finish, Server.complete, fetches, settled, bind, Except.bind, pure, Except.pure]

/-- **A packet that is dealt with completely** is a chain of changes. -/
theorem handlePacket_changes (sound : g.Sound) (handle : Handle) (packet : Packet) :
    ∃ outcome g', g.server.handlePacket handle packet = .ok (outcome, g'.server) ∧
      Changes (fun _ => True) (· = .heard) g g' := by
  have dispatched : Goes (fun _ => True) (· = .heard) g _ _ :=
    goes_startDispatch (· = .heard) sound packet (g.server.bound? handle) (fun _ _ => trivial) handle
      fun _ => rfl
  exact dispatched.finish sound

/-! ### Events and ticks -/

/-- **An event that is dealt with completely** is a chain of changes. -/
theorem hear_changes (sound : g.Sound) (e : Event) :
    ∃ outcome g', g.server.hear e = .ok (outcome, g'.server) ∧
      Changes (fun _ => True) (· = .heard) g g' := by
  cases e with
  | connected handle => exact ⟨none, _, rfl, .single ⟨_, .aside g (.note _ _)⟩⟩
  | disconnected handle =>
    have lost : Turns (fun _ => True) (· = .heard) g _
        { g with server := (g.server.disconnect handle).2 } :=
      turns_disconnect handle (fun _ _ => trivial) fun _ => rfl
    exact ⟨none, _, rfl, lost.changes⟩
  | packet handle packet =>
    obtain ⟨outcome, g₁, dealt, changes⟩ := handlePacket_changes sound handle packet
    have heard : g.server.hear (.packet handle packet) =
        .ok (some outcome, g₁.server.closeRefused handle packet outcome) := by
      simp only [Server.hear, dealt, bind, Except.bind, pure, Except.pure]
    rw [heard]
    unfold Server.closeRefused
    split
    · exact ⟨_, _, rfl, changes.tail ⟨_, .aside g₁ (.close _ handle "Login rejected")⟩⟩
    · exact ⟨_, g₁, rfl, changes⟩

/-- **A server that takes up events and ticks** goes through a chain of changes. -/
theorem live_changes : ∀ (inputs : List Input) {g : Game}, g.Sound →
    ∃ outcomes g', g.server.live inputs = .ok (outcomes, g'.server) ∧
      Changes (fun _ => True) (· = .heard) g g'
  | [], g, _ => ⟨[], g, rfl, .refl⟩
  | .tick :: inputs, g, sound => by
    have ticked : Changes (fun _ => True) (· = .heard) g { g with server := g.server.tick.2 } :=
      turns_tick.changes
    obtain ⟨outcomes, g', lives, rest⟩ := live_changes inputs (ticked.sound sound)
    exact ⟨outcomes, g', lives, ticked.trans rest⟩
  | .event e :: inputs, g, sound => by
    obtain ⟨outcome, g₁, heard, first⟩ := hear_changes sound e
    obtain ⟨outcomes, g', lives, rest⟩ := live_changes inputs (first.sound sound)
    refine ⟨outcome :: outcomes, g', ?_, first.trans rest⟩
    simp only [Server.live, heard, lives, bind, Except.bind, pure, Except.pure]

namespace Server

variable {s s' : Server}

/-- Only a login is refused in such a way that its connection is closed, and a login waits for no
pass. -/
theorem startPacket_login {handle : Handle} {packet : Packet} (isLogin : packet.isLogin = true)
    {pass : Pass} {answer : Report → Outcome} :
    s.startPacket handle packet ≠ .ok (.pending pass answer, s') := by
  intro h
  cases packet with
  | login login =>
    unfold startPacket startDispatch at h
    split at h
    · rename_i handler routed
      cases handler <;> cases h
    · cases h
  | _ => cases isLogin

/-- **An event is dealt with** in the same way, whether the outcome is told or not. -/
theorem handleEvent_eq_hear (s : Server) (e : Event) : s.handleEvent e = (s.hear e).map Prod.snd := by
  cases e with
  | connected handle => rfl
  | disconnected handle => rfl
  | packet handle packet =>
    simp only [handleEvent, startEvent, hear, handlePacket]
    cases started : s.startPacket handle packet with
    | error e => rfl
    | ok r =>
      obtain ⟨progress, s₁⟩ := r
      cases progress with
      | done outcome => rfl
      | pending pass answer =>
        have other : packet.isLogin = false :=
          Bool.eq_false_iff.mpr fun isLogin => startPacket_login isLogin started
        have stays : ∀ s outcome, closeRefused s handle packet outcome = s := fun s outcome => by
          simp [closeRefused, other]
        simp only [bind, Except.bind, finish, pure, Except.pure, stays]
        cases s₁.complete pass <;> rfl

/-- Without ticks, the events are all there is. -/
theorem live_events (s : Server) (events : List Event) :
    (s.live (events.map .event)).map Prod.snd = s.serve events := by
  induction events generalizing s with
  | nil => rfl
  | cons e events ih =>
    simp only [List.map_cons, live, serve, List.foldlM_cons, handleEvent_eq_hear]
    cases s.hear e with
    | error e => rfl
    | ok r =>
      have rest : (r.2.live (events.map .event)).map Prod.snd = events.foldlM handleEvent r.2 := ih r.2
      simp only [bind, Except.bind, Except.map, ← rest]
      cases r.2.live (events.map .event) <;> rfl

theorem runTicking_events (s : Server) (events : List Event) :
    s.runTicking (events.map .event) = s.run events := by
  unfold runTicking run
  rw [← live_events]
  split
  · rfl
  · cases s.live (events.map .event) <;> rfl

end Server

end BlockWorld
