import BlockWorld.Proofs.Course

/-! # What a session sees of the world

A session that acts changes who watches, but all it looks at is which entities stand in a column. So
it does the same in two worlds that agree in that, whoever else watches there and whatever else was
fetched. A fetch looks at the border alone.

* `World.entitiesAt`: the entities of a column; nothing a session does changes them.
* `Agree`: two computations that go alike; `Agree.bind`: one after the other.
* `World.fetch_agree`: fetches in two worlds.
* `Scene.Twin`: scenes that a session cannot tell apart.
* `Course.phase_agree`, `Scene.subscribe_agree`: the two phases of a visibility pass. -/

namespace BlockWorld

/-! ### Computations that go alike -/

/-- Both fail for the same reason, or both give the same answer and related states. -/
inductive Agree {α σ : Type} (R : α → σ → σ → Prop) :
    Except Overflow (α × σ) → Except Overflow (α × σ) → Prop
  | ok {a : α} {s s' : σ} (h : R a s s') : Agree R (.ok (a, s)) (.ok (a, s'))
  | error (e : Overflow) : Agree R (.error e) (.error e)

namespace Agree

variable {α β γ σ τ : Type} {R : α → σ → σ → Prop} {R' : β → τ → τ → Prop}

theorem bind {x y : Except Overflow (α × σ)} {f g : α × σ → Except Overflow (β × τ)} (h : Agree R x y)
    (hf : ∀ a s s', R a s s' → Agree R' (f (a, s)) (g (a, s'))) : Agree R' (x >>= f) (y >>= g) := by
  cases h with
  | ok h => exact hf _ _ _ h
  | error e => exact .error e

/-- After a computation that concerns neither state. -/
theorem bind_same (x : Except Overflow γ) {f g : γ → Except Overflow (β × τ)}
    (hf : ∀ c, Agree R' (f c) (g c)) : Agree R' (x >>= f) (x >>= g) := by
  cases x with
  | error e => exact .error e
  | ok c => exact hf c

theorem map {R : σ → σ → Prop} {x y : Except Overflow (α × σ)} (h : Agree (fun _ => R) x y) (f : α → β) :
    Agree (fun _ => R) (x.map fun (a, s) => (f a, s)) (y.map fun (a, s) => (f a, s)) := by
  cases h with
  | ok h => exact .ok h
  | error e => exact .error e

/-- Both take the same branch. -/
theorem ite {c : Prop} [Decidable c] {x x' y y' : Except Overflow (α × σ)} (h : c → Agree R x y)
    (h' : ¬ c → Agree R x' y') : Agree R (if c then x else x') (if c then y else y') := by
  split
  · exact h ‹_›
  · exact h' ‹_›

theorem ok_ite {c : Prop} [Decidable c] {a a' b b' : α × σ} (h : c → Agree R (.ok a) (.ok b))
    (h' : ¬ c → Agree R (.ok a') (.ok b')) :
    Agree R (.ok (if c then a else a')) (.ok (if c then b else b')) := by
  split
  · exact h ‹_›
  · exact h' ‹_›

/-- Two computations that cannot fail give the same answer and related states. -/
theorem pair {x y : α × σ} (h : Agree R (.ok x) (.ok y)) : y.1 = x.1 ∧ R x.1 x.2 y.2 := by
  cases h with
  | ok h => exact ⟨rfl, h⟩

theorem of_ok {x y : Except Overflow (α × σ)} {a : α} {s : σ} (h : Agree R x y) (hx : x = .ok (a, s)) :
    ∃ s', y = .ok (a, s') ∧ R a s s' := by
  cases h with
  | ok h => cases hx; exact ⟨_, rfl, h⟩
  | error e => cases hx

end Agree

/-! ### The entities of a column -/

namespace World

variable {w w' : World} {p q : ChunkPos}

/-- The entities of the column at `p`; none, if it was never fetched. -/
def entitiesAt (w : World) (p : ChunkPos) : List Entity := ((w.column? p).map Column.entities).getD []

theorem entitiesAt_modify {f : Column → Column} (h : ∀ c, (f c).entities = c.entities) :
    (w.modify p f).entitiesAt q = w.entitiesAt q := by
  unfold entitiesAt
  rw [column?_modify]
  split
  · rename_i same
    subst same
    cases w.column? p <;> simp [h]
  · rfl

@[simp] theorem entitiesAt_addViewer {v : ViewerId} :
    (w.addViewer p v).entitiesAt q = w.entitiesAt q := entitiesAt_modify fun _ => rfl

@[simp] theorem entitiesAt_removeViewer {v : ViewerId} :
    (w.removeViewer p v).entitiesAt q = w.entitiesAt q := entitiesAt_modify fun _ => rfl

/-- A column that comes into being is empty, as it was before. -/
theorem entitiesAt_fetch {f : Fetch} (h : w.fetch p = .ok (f, w')) :
    w'.entitiesAt q = w.entitiesAt q := by
  rcases fetch_cases h with ⟨-, -, rfl⟩ | ⟨-, -, -, rfl⟩ | ⟨-, unloaded, -, rfl⟩
  · rfl
  · rfl
  · simp only [entitiesAt, column?_created]
    split
    · rename_i same
      subst same
      rw [column?_eq_none unloaded]
      rfl
    · rfl

/-- **In worlds with the same border** the same columns are provided. -/
theorem fetch_agree (border : w'.border = w.border) (p : ChunkPos) :
    (∃ e, w.fetch p = .error e ∧ w'.fetch p = .error e) ∨
      ∃ f f' w₁ w₁', w.fetch p = .ok (f, w₁) ∧ w'.fetch p = .ok (f', w₁') ∧
        f'.provided = f.provided := by
  rw [fetch_eq, fetch_eq, border]
  by_cases failing : Immeasurable w.border p
  · rw [if_pos failing, if_pos failing]
    exact Or.inl ⟨_, rfl, rfl⟩
  rw [if_neg failing, if_neg failing]
  refine Or.inr ?_
  by_cases inside : Inside w.border p
  · rw [if_pos inside, if_pos inside]
    split <;> split <;> exact ⟨_, _, _, _, rfl, rfl, rfl⟩
  · rw [if_neg inside, if_neg inside]
    exact ⟨_, _, _, _, rfl, rfl, rfl⟩

end World

/-! ### Scenes that cannot be told apart -/

namespace Scene

/-- To the session the scenes are the same: so far it has come to the same and said the same, and in
both it finds these entities. -/
structure Twin (entities : ChunkPos → List Entity) (sc sc' : Scene) : Prop where
  session : sc'.session = sc.session
  sent : sc'.sent = sc.sent
  here : ∀ p, sc.world.entitiesAt p = entities p
  there : ∀ p, sc'.world.entitiesAt p = entities p

variable {entities : ChunkPos → List Entity} {sc sc' : Scene}

theorem othersAt_eq (sc : Scene) (p : ChunkPos) : sc.othersAt p =
    ((sc.world.entitiesAt p).map Entity.uniqueId).filter (· != sc.session.entityId) := by
  unfold othersAt World.entitiesAt Column.othersThan
  cases sc.world.column? p <;> rfl

theorem Twin.drop (h : Twin entities sc sc') (p : ChunkPos) :
    Twin entities (sc.drop p) (sc'.drop p) where
  session := by rw [drop_session, drop_session, h.session]
  sent := by
    refine Array.toList_inj.mp ?_
    rw [drop_sent, drop_sent, othersAt_eq, othersAt_eq, h.session, h.sent, h.here, h.there]
  here q := by rw [drop_world, World.entitiesAt_removeViewer, h.here]
  there q := by rw [drop_world, World.entitiesAt_removeViewer, h.there]

theorem Twin.foldl_drop : ∀ (ps : List ChunkPos) {sc sc' : Scene}, Twin entities sc sc' →
    Twin entities (ps.foldl Scene.drop sc) (ps.foldl Scene.drop sc')
  | [], _, _, h => h
  | p :: ps, _, _, h => Twin.foldl_drop ps (h.drop p)

theorem cull_agree (h : Twin entities sc sc') : Agree (fun _ => Twin entities) sc.cull sc'.cull := by
  unfold cull
  rw [h.session]
  refine .bind_same _ fun ⟨dropped, kept⟩ => ?_
  have given_up : Twin entities
      (dropped.foldl Scene.drop { sc with session := sc.session.track kept })
      (dropped.foldl Scene.drop { sc' with session := sc.session.track kept }) :=
    .foldl_drop dropped ⟨rfl, h.sent, h.here, h.there⟩
  dsimp only
  split
  · exact .ok given_up
  · exact .ok ⟨given_up.session, given_up.sent, given_up.here, given_up.there⟩

theorem look_agree (h : Twin entities sc sc') : Agree (fun _ => Twin entities) sc.look sc'.look := by
  refine (cull_agree h).bind fun n sc₁ sc₁' h₁ => ?_
  dsimp only
  rw [h₁.session]
  exact .bind_same _ fun wanted => .ok h₁

theorem subscribeTo_agree (h : Twin entities sc sc') (p : ChunkPos) :
    Agree (fun _ => Twin entities) (sc.subscribeTo p) (sc'.subscribeTo p) := by
  unfold subscribeTo
  rw [h.session]
  refine .bind_same _ fun near => ?_
  split
  · exact .ok h
  · refine .ok ⟨rfl, by simp only [send, h.sent], fun q => ?_, fun q => ?_⟩
    · exact World.entitiesAt_addViewer.trans (h.here q)
    · exact World.entitiesAt_addViewer.trans (h.there q)

theorem subscribeAll_agree : ∀ (ps : List ChunkPos) {sc sc' : Scene}, Twin entities sc sc' →
    Agree (fun _ => Twin entities) (subscribeAll ps sc) (subscribeAll ps sc')
  | [], _, _, h => .ok h
  | p :: ps, _, _, h =>
    (subscribeTo_agree h p).bind fun _ _ _ h₁ =>
      (subscribeAll_agree ps h₁).bind fun _ _ _ h₂ => .ok h₂

/-- **The second phase** goes the same in twin scenes. -/
theorem subscribe_agree (h : Twin entities sc sc') (ps : List ChunkPos) :
    Agree (fun _ => Twin entities) (sc.subscribe ps) (sc'.subscribe ps) := by
  unfold subscribe
  rw [h.session]
  split
  · exact .ok h
  · refine (subscribeAll_agree ps h).bind fun n sc₁ sc₁' h₁ => ?_
    dsimp only
    split
    · exact .ok h₁
    · exact .ok ⟨h₁.session, h₁.sent, h₁.here, h₁.there⟩

end Scene

/-- **The first phase** goes the same in twin scenes. -/
theorem Course.phase_agree (course : Course) {entities : ChunkPos → List Entity} {sc sc' : Scene}
    (h : Scene.Twin entities sc sc') (live : sc.session.finalized = false) :
    Agree (fun _ => Scene.Twin entities) (course.phase sc) (course.phase sc') := by
  have live' : sc'.session.finalized = false := by rw [h.session, live]
  have before : Scene.Twin entities
      { sc with session := course.apply sc.session, sent := sc.sent ++ course.announce sc.session }
      { sc' with session := course.apply sc'.session, sent := sc'.sent ++ course.announce sc'.session } := by
    rw [h.session, h.sent]
    exact ⟨rfl, rfl, h.here, h.there⟩
  rw [course.phase_eq live, course.phase_eq live']
  exact (Scene.look_agree before).map some

end BlockWorld
