import BlockWorld.Proofs.Disc
import BlockWorld.Proofs.Tracked

/-! # Culling changes all or nothing

Culling goes over the tracked columns twice: it tests the distance of each, in an order that nobody
knows, and then it removes those that are too far, one after the other, in place. A distance that is
no word stops it. As no column is removed before all are tested, it stops with everything in place.

* `distanceSquared_subtract`, `distanceSquared_add`: the distances that are no words, and why.
* `InPlace`: a program on tracked columns; what it has changed when it stops stays changed.
* `Tracked.cullInPlace`: the two passes. `run_indexesOutOfRange`: the first one changes nothing.
* `run_cullInPlace`, `cull_eq_inPlace`: both passes, in any order; culling is these two passes.
* `cull_all_or_nothing`: when a distance is a word, when culling stops, and with what. -/

namespace BlockWorld

/-! ### Distances that are no words -/

namespace ChunkPos

variable {a b : ChunkPos}

/-- A difference that is no word. -/
theorem distanceSquared_subtract
    (h : ¬ ((-2147483648 ≤ a.x.toInt - b.x.toInt ∧ a.x.toInt - b.x.toInt ≤ 2147483647) ∧
      -2147483648 ≤ a.z.toInt - b.z.toInt ∧ a.z.toInt - b.z.toInt ≤ 2147483647)) :
    a.distanceSquared b = .error .subtract := by
  by_cases hx : -2147483648 ≤ a.x.toInt - b.x.toInt ∧ a.x.toInt - b.x.toInt ≤ 2147483647
  · have word := Checked.word32_of_fits .subtract hx.1 hx.2
    have none := Checked.word32_error .subtract fun hz => h ⟨hx, hz⟩
    simp only [distanceSquared, Checked.sub32, word, none, bind, Except.bind]
  · have none := Checked.word32_error .subtract hx
    simp only [distanceSquared, Checked.sub32, none, bind, Except.bind]

/-- The one corner in which the differences and their squares are words and the sum is not. -/
theorem distanceSquared_add (hx : a.x.toInt - b.x.toInt = -2147483648)
    (hz : a.z.toInt - b.z.toInt = -2147483648) : a.distanceSquared b = .error .add := by
  have word : Checked.word32 .subtract (-2147483648) = .ok (-2147483648) := rfl
  have square : Checked.mul64 (-2147483648 : Int32).toInt64 (-2147483648 : Int32).toInt64 =
      .ok 4611686018427387904 := rfl
  have sum : Checked.add64 4611686018427387904 4611686018427387904 = .error .add := rfl
  simp only [distanceSquared, Checked.sub32, hx, hz, word, square, sum, bind, Except.bind]

/-- A distance is a word exactly if the differences are, and not both are the least word. -/
theorem comparable_iff : a.Comparable b ↔ ∃ d, a.distanceSquared b = .ok d := by
  refine ⟨fun h => ⟨_, distanceSquared_eq h⟩, ?_⟩
  rintro ⟨d, hd⟩
  by_cases words : (-2147483648 ≤ a.x.toInt - b.x.toInt ∧ a.x.toInt - b.x.toInt ≤ 2147483647) ∧
      -2147483648 ≤ a.z.toInt - b.z.toInt ∧ a.z.toInt - b.z.toInt ≤ 2147483647
  · refine ⟨words.1, words.2, fun least => ?_⟩
    rw [distanceSquared_add least.1 least.2] at hd
    cases hd
  · rw [distanceSquared_subtract words] at hd
    cases hd

end ChunkPos

/-! ### The range test of many columns -/

section Split

variable {a : ChunkPos} {v : UInt32} {ps : List ChunkPos}

/-- Whatever is split, what is out of range is in the order of the list. -/
theorem splitByRange_sublist {inside outside : List ChunkPos}
    (h : splitByRange a v ps = .ok (inside, outside)) : outside.Sublist ps := by
  induction ps generalizing inside outside with
  | nil =>
    cases h
    exact List.Sublist.refl []
  | cons p ps ih =>
    rw [splitByRange] at h
    obtain ⟨near, -, h⟩ := bind_eq_ok h
    obtain ⟨⟨inside', outside'⟩, rest, h⟩ := bind_eq_ok h
    cases near with
    | true =>
      cases h
      exact (ih rest).cons p
    | false =>
      cases h
      exact (ih rest).cons_cons p

/-- A list cannot be split exactly if one of its columns cannot be tested. -/
theorem splitByRange_error_iff :
    (∃ e, splitByRange a v ps = .error e) ↔ ∃ p ∈ ps, ∃ e, inRange a p v = .error e := by
  induction ps with
  | nil =>
    constructor
    · rintro ⟨e, h⟩
      cases h
    · rintro ⟨p, hp, -⟩
      cases hp
  | cons p ps ih =>
    simp only [List.mem_cons, exists_eq_or_imp, ← ih, splitByRange]
    cases inRange a p v with
    | error e => exact ⟨fun _ => Or.inl ⟨e, rfl⟩, fun _ => ⟨e, rfl⟩⟩
    | ok near =>
      cases splitByRange a v ps with
      | error e => exact ⟨fun _ => Or.inr ⟨e, rfl⟩, fun _ => ⟨e, rfl⟩⟩
      | ok split =>
        -- Both tests succeed, so there is no error on either side.
        constructor
        · rintro ⟨e, h⟩
          cases near <;> cases h
        · rintro (⟨e, h⟩ | ⟨e, h⟩) <;> cases h

/-- With a view distance of zero everything is out of range. -/
theorem splitByRange_zero (a : ChunkPos) (ps : List ChunkPos) :
    splitByRange a 0 ps = .ok ([], ps) := by
  induction ps with
  | nil => rfl
  | cons p ps ih =>
    rw [splitByRange, ih]
    rfl

/-- Otherwise a column cannot be tested exactly if its distance is no word. -/
theorem inRange_error_iff {p : ChunkPos} (positive : v ≠ 0) :
    (∃ e, inRange a p v = .error e) ↔ ∃ e, a.distanceSquared p = .error e := by
  obtain ⟨r, hr, -⟩ := radiusSquared_eq v
  rw [inRange, if_neg positive, hr]
  cases a.distanceSquared p with
  | error e => exact ⟨fun _ => ⟨e, rfl⟩, fun _ => ⟨e, rfl⟩⟩
  | ok d => exact ⟨nofun, nofun⟩

end Split

/-! ### The two passes -/

/-- A program on tracked columns. What it has changed when it stops stays changed. -/
abbrev InPlace (α : Type) : Type := EStateM Overflow Tracked α

namespace Tracked

/-- The indexes of the columns that are out of range. -/
def indexesOutOfRange (a : ChunkPos) (v : UInt32) : List ChunkPos → InPlace (List Int64)
  | [] => pure []
  | p :: ps => do
    let near ← MonadExcept.ofExcept (inRange a p v)
    let indexes ← indexesOutOfRange a v ps
    return if near then indexes else p.index :: indexes

/-- Stops tracking what is kept under an index, and returns it. -/
def remove (index : Int64) : InPlace (Option ChunkPos) := do
  let t ← get
  match t.columns[index]? with
  | none => return none
  | some p => do
    set (t.erase p)
    return some p

def removeAll : List Int64 → InPlace (List ChunkPos)
  | [] => pure []
  | index :: indexes => do
    let removed ← remove index
    let others ← removeAll indexes
    return removed.toList ++ others

/-- Both passes over the tracked columns, in the order `entries`. -/
def cullInPlace (a : ChunkPos) (v : UInt32) (entries : List ChunkPos) : InPlace (List ChunkPos) := do
  let indexes ← indexesOutOfRange a v entries
  removeAll indexes

variable {a : ChunkPos} {v : UInt32} {t : Tracked} {entries : List ChunkPos}

/-- **The first pass** changes nothing, also when it stops. -/
theorem run_indexesOutOfRange (a : ChunkPos) (v : UInt32) (ps : List ChunkPos) (t : Tracked) :
    (indexesOutOfRange a v ps).run t =
      match splitByRange a v ps with
      | .ok (_, outside) => .ok (outside.map ChunkPos.index) t
      | .error e => .error e t := by
  induction ps with
  | nil => rfl
  | cons p ps ih =>
    rw [indexesOutOfRange, splitByRange, EStateM.run_bind]
    cases inRange a p v with
    | error e => rfl
    | ok near =>
      have tested : (MonadExcept.ofExcept (Except.ok near) : InPlace Bool).run t = .ok near t := rfl
      simp only [tested, EStateM.run_bind, ih]
      cases splitByRange a v ps with
      | error e => rfl
      | ok split => cases near <;> rfl

theorem run_remove {p : ChunkPos} (tracked : p ∈ t) :
    (remove p.index).run t = .ok (some p) (t.erase p) := by
  have kept : t.columns[p.index]? = some p := mem_iff_getElem?.mp tracked
  simp only [remove, EStateM.run_bind, EStateM.run_get, kept]
  rfl

/-- **The second pass** removes the columns whose indexes it is given. -/
theorem run_removeAll {ps : List ChunkPos} (distinct : ps.Nodup) (tracked : ∀ p ∈ ps, p ∈ t) :
    (removeAll (ps.map ChunkPos.index)).run t = .ok ps (ps.foldl erase t) := by
  induction ps generalizing t with
  | nil => rfl
  | cons p ps ih =>
    obtain ⟨other, distinct⟩ := List.nodup_cons.mp distinct
    have others : ∀ q ∈ ps, q ∈ t.erase p := fun q hq =>
      mem_erase.mpr ⟨fun same => other (same ▸ hq), tracked q (List.mem_cons_of_mem p hq)⟩
    rw [List.map_cons, removeAll, EStateM.run_bind, run_remove (tracked p List.mem_cons_self)]
    simp only [EStateM.run_bind, ih distinct others]
    rfl

/-- **Both passes**, whatever the order of the columns is: it stops in the first one or not at all. -/
theorem run_cullInPlace (order : entries.Perm t.toList) :
    (cullInPlace a v entries).run t =
      match splitByRange a v entries with
      | .ok (_, outside) => .ok outside (outside.foldl erase t)
      | .error e => .error e t := by
  rw [cullInPlace, EStateM.run_bind, run_indexesOutOfRange]
  cases split : splitByRange a v entries with
  | error e => rfl
  | ok parts =>
    -- what is out of range is a part of what is tracked, so the second pass finds all of it
    obtain ⟨inside, outside⟩ := parts
    have part := splitByRange_sublist split
    have distinct : outside.Nodup := part.nodup (order.nodup_iff.mpr t.nodup_toList)
    exact run_removeAll distinct fun p hp => mem_toList.mp (order.mem_iff.mp (part.subset hp))

/-- What a program in place returns and leaves, unless it stops. -/
def answer {α : Type} : EStateM.Result Overflow Tracked α → Except Overflow (α × Tracked)
  | .ok value t => .ok (value, t)
  | .error e _ => .error e

/-- Culling is both passes in the order of the indexes. -/
theorem cull_eq_inPlace (t : Tracked) (a : ChunkPos) (v : UInt32) :
    t.cull a v = answer ((cullInPlace a v t.toList).run t) := by
  rw [run_cullInPlace (List.Perm.refl t.toList), cull]
  cases splitByRange a v t.toList with
  | error e => rfl
  | ok parts => rfl

/-- Both passes stop exactly if the distance of a tracked column is no word. -/
theorem cullInPlace_error_iff (order : entries.Perm t.toList) (positive : v ≠ 0) :
    (∃ e t', (cullInPlace a v entries).run t = .error e t') ↔
      ∃ p ∈ t, ∃ e, a.distanceSquared p = .error e := by
  have split : (∃ e, splitByRange a v entries = .error e) ↔
      ∃ p ∈ t, ∃ e, a.distanceSquared p = .error e := by
    simp only [splitByRange_error_iff, inRange_error_iff positive, order.mem_iff, mem_toList]
  rw [← split, run_cullInPlace order]
  cases splitByRange a v entries with
  | error e => exact ⟨fun _ => ⟨e, rfl⟩, fun _ => ⟨e, t, rfl⟩⟩
  | ok parts => exact ⟨nofun, nofun⟩

theorem eq_of_cullInPlace_error {e : Overflow} {t' : Tracked} (order : entries.Perm t.toList)
    (h : (cullInPlace a v entries).run t = .error e t') : t' = t := by
  rw [run_cullInPlace order] at h
  cases split : splitByRange a v entries with
  | error e' =>
    rw [split] at h
    cases h
    rfl
  | ok parts =>
    rw [split] at h
    cases h

theorem foldl_erase_eq_empty (order : entries.Perm t.toList) : entries.foldl erase t = empty :=
  eq_empty fun p hp => by
    obtain ⟨kept, tracked⟩ := mem_foldl_erase.mp hp
    exact kept (order.mem_iff.mpr (mem_toList.mpr tracked))

/-- With a view distance of zero everything goes. -/
theorem run_cullInPlace_zero (order : entries.Perm t.toList) :
    (cullInPlace a 0 entries).run t = .ok entries empty := by
  rw [run_cullInPlace order, splitByRange_zero, ← foldl_erase_eq_empty order]

end Tracked

/-- **When a distance is a word, and culling all or nothing**: the squared distance between two columns
is exact if both differences are words, and not both the least one. In the latter case its sum
overflows, and in any other the subtraction does. Over tracked columns in any order, with a positive
view distance, culling stops exactly if the distance of one of them is no word. Whenever it stops, all
that was tracked still is. With a view distance of zero it does not stop, and nothing stays. -/
theorem cull_all_or_nothing (a : ChunkPos) :
    (∀ b : ChunkPos,
      let dx := a.x.toInt - b.x.toInt
      let dz := a.z.toInt - b.z.toInt
      let words := (-2147483648 ≤ dx ∧ dx ≤ 2147483647) ∧ -2147483648 ≤ dz ∧ dz ≤ 2147483647
      let corner := dx = -2147483648 ∧ dz = -2147483648
      (words ∧ ¬ corner → ∃ d, a.distanceSquared b = .ok d ∧ d.toInt = dx * dx + dz * dz) ∧
      (¬ words → a.distanceSquared b = .error .subtract) ∧
      (corner → a.distanceSquared b = .error .add)) ∧
    ∀ (t : Tracked) (v : UInt32),
      t.cull a v = Tracked.answer ((Tracked.cullInPlace a v t.toList).run t) ∧
      ∀ entries : List ChunkPos, entries.Perm t.toList →
        (0 < v → ((∃ e t', (Tracked.cullInPlace a v entries).run t = .error e t') ↔
          ∃ p ∈ t, ∃ e, a.distanceSquared p = .error e)) ∧
        (∀ e t', (Tracked.cullInPlace a v entries).run t = .error e t' → t' = t) ∧
        (v = 0 → (Tracked.cullInPlace a v entries).run t = .ok entries Tracked.empty) := by
  refine ⟨fun b => ?_, fun t v => ⟨t.cull_eq_inPlace a v, fun entries order => ?_⟩⟩
  · intro dx dz words corner
    refine ⟨fun h => ?_, ChunkPos.distanceSquared_subtract, fun h => ?_⟩
    · have comparable : a.Comparable b := ⟨h.1.1, h.1.2, h.2⟩
      exact ⟨_, ChunkPos.distanceSquared_eq comparable, ChunkPos.toInt_gapSquared comparable⟩
    · exact ChunkPos.distanceSquared_add h.1 h.2
  · refine ⟨fun positive => ?_, fun e t' => Tracked.eq_of_cullInPlace_error order, ?_⟩
    · exact Tracked.cullInPlace_error_iff order (UInt32.pos_iff_ne_zero.mp positive)
    · rintro rfl
      exact Tracked.run_cullInPlace_zero order

/-- A viewer in one corner of the plane that tracks a column there, one too far away, and one whose
distance is no word. -/
theorem cull_all_or_nothing_corner :
    let a : ChunkPos := ⟨-2147483648, -2147483648⟩
    let t := (((Tracked.empty.insert a).2.insert ⟨-2147483648, 0⟩).2.insert ⟨0, 0⟩).2
    a.distanceSquared ⟨0, 0⟩ = .error .add ∧
      ∃ e, (Tracked.cullInPlace a 2 t.toList.reverse).run t = .error e t := by
  intro a t
  obtain ⟨distance, culls⟩ := cull_all_or_nothing a
  have corner : a.distanceSquared ⟨0, 0⟩ = .error .add := (distance ⟨0, 0⟩).2.2 (by decide)
  obtain ⟨stops, unchanged, -⟩ := (culls t 2).2 t.toList.reverse (List.reverse_perm t.toList)
  obtain ⟨e, t', run⟩ := (stops (by decide)).mpr
    ⟨⟨0, 0⟩, Tracked.mem_insert.mpr (Or.inl rfl), .add, corner⟩
  exact ⟨corner, e, (unchanged e t' run) ▸ run⟩

end BlockWorld
