import BlockWorld.Proofs.Scene

/-! # The disc of a view distance, in order

The columns in view are listed nearest first, and the list is made for every anchor whose disc lies in
the plane. Where a bound of the square around the disc is not a word, listing fails.

* `ChunkPos.Precedes`: the order of a disc, in exact arithmetic; `nearestFirst_eq_lt`: it is the one
  by which discs are listed.
* `chunksInRange_ordered`: a listed disc is in order.
* `interval_error`, `square_error`: bounds that are no words.
* `chunksInRange_exact`: what is listed, in which order, and when. -/

namespace BlockWorld

open Std

/-! ### The order of a disc -/

/-- In the disc around `a` the column `p` comes before `q`: it is nearer, or equally near and its `x` is
smaller, or its `z` where `x` is the same. -/
def ChunkPos.Precedes (a p q : ChunkPos) : Prop :=
  a.gapSquared p < a.gapSquared q ∨
    a.gapSquared p = a.gapSquared q ∧
      (p.x.toInt < q.x.toInt ∨ p.x.toInt = q.x.toInt ∧ p.z.toInt < q.z.toInt)

theorem nearestFirst_eq_lt {a p q : ChunkPos} : nearestFirst a p q = .lt ↔ a.Precedes p q := by
  have byPosition : compare p q = .lt ↔ p.x < q.x ∨ p.x = q.x ∧ p.z < q.z := by
    show (compare p.x q.x).then (compare p.z q.z) = .lt ↔ _
    rw [Ordering.then_eq_lt, Std.compare_eq_lt, Std.compare_eq_iff_eq, Std.compare_eq_lt]
  show (compare (a.gapSquared p) (a.gapSquared q)).then (compare p q) = .lt ↔ _
  rw [Ordering.then_eq_lt, Std.compare_eq_lt, Std.compare_eq_iff_eq, byPosition, Int32.lt_iff_toInt_lt,
    Int32.lt_iff_toInt_lt, ← Int32.toInt_inj]
  exact Iff.rfl

theorem ChunkPos.Precedes.ne {a p q : ChunkPos} (h : a.Precedes p q) : p ≠ q := by
  rintro rfl
  rcases h with h | ⟨-, h | ⟨-, h⟩⟩ <;> exact lt_irrefl _ h

/-- A list in the order of a disc has every column once. -/
theorem nodup_of_precedes {a : ChunkPos} {ps : List ChunkPos} (h : ps.Pairwise a.Precedes) :
    ps.Nodup := h.imp ChunkPos.Precedes.ne

/-- **A listed disc is in order.** -/
theorem chunksInRange_ordered {a : ChunkPos} {v : UInt32} {ps : List ChunkPos}
    (h : chunksInRange a v = .ok ps) : ps.Pairwise a.Precedes := by
  obtain ⟨candidates, -, h⟩ := bind_eq_ok h
  obtain ⟨⟨inside, outside⟩, -, h⟩ := bind_eq_ok h
  cases h
  have listed : (ExtTreeSet.ofList inside (nearestFirst a)).toList.Pairwise
      fun p q => nearestFirst a p q = .lt := ExtTreeSet.ordered_toList
  exact listed.imp nearestFirst_eq_lt.mp

/-! ### Bounds that are no words -/

theorem Checked.word32_error (op : Overflow) {n : Int} (h : ¬ (-2147483648 ≤ n ∧ n ≤ 2147483647)) :
    word32 op n = .error op := by
  simp [word32, h]

theorem interval_error {c r : Int32} (hr : 0 ≤ r.toInt)
    (h : ¬ (-2147483648 ≤ c.toInt - r.toInt ∧ c.toInt + r.toInt ≤ 2147483647)) :
    ∃ e, interval c r = .error e := by
  have le := c.toInt_lt
  have ge := c.le_toInt
  by_cases low : -2147483648 ≤ c.toInt - r.toInt
  · have hlow := Checked.word32_of_fits .subtract low (by omega)
    have hhigh := Checked.word32_error .add (n := c.toInt + r.toInt) (by omega)
    exact ⟨.add, by simp only [interval, Checked.sub32, Checked.add32, hlow, hhigh, bind, Except.bind]⟩
  · have hlow := Checked.word32_error .subtract (n := c.toInt - r.toInt) (by omega)
    exact ⟨.subtract, by simp only [interval, Checked.sub32, hlow, bind, Except.bind]⟩

/-- A square that does not fit the plane cannot be listed. -/
theorem square_error {a : ChunkPos} {v : UInt32} (h : ¬ a.Inland v) : ∃ e, square a v = .error e := by
  have hr := toInt_reach v
  have positive : 0 ≤ (clampViewDistance v).toInt32.toInt := by omega
  by_cases hx : -2147483648 ≤ a.x.toInt - (clampViewDistance v).toInt32.toInt ∧
      a.x.toInt + (clampViewDistance v).toInt32.toInt ≤ 2147483647
  · have hz : ¬ (-2147483648 ≤ a.z.toInt - (clampViewDistance v).toInt32.toInt ∧
        a.z.toInt + (clampViewDistance v).toInt32.toInt ≤ 2147483647) := by
      intro hz
      rw [hr] at hx hz
      exact h ⟨hx, hz⟩
    obtain ⟨xs, hxs, -⟩ := interval_spec hx.1 hx.2 positive
    obtain ⟨e, hzs⟩ := interval_error positive hz
    exact ⟨e, by simp only [square, hxs, hzs, bind, Except.bind]⟩
  · obtain ⟨e, hxs⟩ := interval_error positive hx
    exact ⟨e, by simp only [square, hxs, bind, Except.bind]⟩

/-! ### What is listed -/

theorem toNat_clampViewDistance (v : UInt32) :
    ((clampViewDistance v).toNat : Int) = min (v.toNat : Int) 64 := by
  have h : (clampViewDistance v).toNat = min v.toNat 64 := UInt32.toNat_min v maxViewDistance
  omega

/-- A column in view is close enough for its distance to be computed. -/
theorem InView.comparable {a p : ChunkPos} {v : UInt32} (h : InView a v p) : a.Comparable p := by
  have small := clampViewDistance_le v
  obtain ⟨hx, hz⟩ := h.near
  rw [abs_le] at hx hz
  exact ⟨⟨by omega, by omega⟩, ⟨by omega, by omega⟩, by omega⟩

/-- With a view distance of zero the square is the anchor alone. -/
theorem inland_zero (a : ChunkPos) : a.Inland 0 := by
  have radius := toNat_clampViewDistance 0
  have hx := a.x.toInt_lt
  have hx' := a.x.le_toInt
  have hz := a.z.toInt_lt
  have hz' := a.z.le_toInt
  have zero : (clampViewDistance 0).toNat = 0 := by simpa using radius
  exact ⟨⟨by omega, by omega⟩, by omega, by omega⟩

/-- **A disc is listed exactly, and in order.** If the bounds of the square around it are words, the
list holds the columns of the whole plane that are at most as far from the anchor as the view distance
says, or 64 if it says more, nearest first and each once, and all of them pass the range test. If a
bound is not a word, listing fails. A view distance of zero has an empty disc around every anchor. -/
theorem chunksInRange_exact (a : ChunkPos) (v : UInt32) :
    let r : Int := min v.toNat 64
    let fits : Prop := (-2147483648 ≤ a.x.toInt - r ∧ a.x.toInt + r ≤ 2147483647) ∧
      -2147483648 ≤ a.z.toInt - r ∧ a.z.toInt + r ≤ 2147483647
    (fits → ∃ ps, chunksInRange a v = .ok ps ∧ ps.Pairwise a.Precedes ∧ ps.Nodup ∧
      (∀ p, p ∈ ps ↔ 0 < v ∧ a.gapSquared p ≤ r * r) ∧ ∀ p ∈ ps, inRange a p v = .ok true) ∧
    (¬ fits → ∃ e, chunksInRange a v = .error e) ∧
    (v = 0 → chunksInRange a v = .ok []) := by
  intro r fits
  have radius : ((clampViewDistance v).toNat : Int) = r := toNat_clampViewDistance v
  have inland : fits ↔ a.Inland v := by
    refine ⟨fun h => ⟨?_, ?_⟩, fun h => ⟨?_, ?_⟩⟩
    · rw [radius]; exact h.1
    · rw [radius]; exact h.2
    · rw [← radius]; exact h.x
    · rw [← radius]; exact h.z
  have listed : a.Inland v → ∃ ps, chunksInRange a v = .ok ps ∧ ∀ p, p ∈ ps ↔ InView a v p :=
    mem_chunksInRange
  refine ⟨fun h => ?_, fun h => ?_, ?_⟩
  · obtain ⟨ps, hps, inView⟩ := listed (inland.mp h)
    have ordered := chunksInRange_ordered hps
    refine ⟨ps, hps, ordered, nodup_of_precedes ordered, fun p => ?_, fun p hp => ?_⟩
    · rw [inView, InView, radius, UInt32.pos_iff_ne_zero]
    · have view : InView a v p := (inView p).mp hp
      rw [inRange_eq view.comparable, decide_eq_true view]
  · obtain ⟨e, he⟩ := square_error (inland.not.mp h)
    exact ⟨e, by simp only [chunksInRange, he, bind, Except.bind]⟩
  · rintro rfl
    obtain ⟨ps, hps, inView⟩ := listed (inland_zero a)
    have none : ps = [] := List.eq_nil_iff_forall_not_mem.mpr fun p hp => ((inView p).mp hp).1 rfl
    rw [hps, none]

/-- In a corner of the plane a disc of radius 2 still fits, and one of radius 3 does not. -/
theorem chunksInRange_exact_corner :
    (∃ ps, chunksInRange ⟨2147483645, -2147483646⟩ 2 = .ok ps ∧ ⟨2147483647, -2147483646⟩ ∈ ps ∧
      ⟨2147483646, -2147483648⟩ ∉ ps) ∧
    ∃ e, chunksInRange ⟨2147483645, -2147483646⟩ 3 = .error e := by
  obtain ⟨inside, -, -⟩ := chunksInRange_exact ⟨2147483645, -2147483646⟩ 2
  obtain ⟨-, beyond, -⟩ := chunksInRange_exact ⟨2147483645, -2147483646⟩ 3
  obtain ⟨ps, hps, -, -, inView, -⟩ := inside (by decide +kernel)
  refine ⟨⟨ps, hps, (inView _).mpr (by decide +kernel), fun far => ?_⟩, beyond (by decide +kernel)⟩
  exact absurd ((inView _).mp far) (by decide +kernel)

end BlockWorld
