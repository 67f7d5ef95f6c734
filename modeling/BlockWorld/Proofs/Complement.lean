import BlockWorld.Proofs.Culling
import Mathlib.Data.List.Sort

/-! # What is dropped and what is missing

A visibility pass goes over the plane twice. It drops the tracked columns that are out of range, and
it lists the columns in range that are not tracked; one goes by the columns under their indexes, the
other by positions. Together they leave nothing to do: with what is missing inserted, exactly the disc
is tracked.

* `cull_spec`: culling, also with a view distance of zero, where no distance is computed.
* `missing_congr`: what is missing depends on what is tracked in view only.
* `positions_eq_mergeSort`: the tracked positions in order.
* `Tracked.Turnover`, `exists_turnover`: what is dropped, kept and missing, unless something overflows.
* `Tracked.Settled`, `Turnover.settled`: nothing is left to do, as once what is missing is there.
* `cull_missing_complementary`: both together, and that indexes and positions say the same. -/

namespace BlockWorld

open Std

namespace Tracked

variable {a : ChunkPos} {v : UInt32} {t t' : Tracked} {ps : List ChunkPos}

/-! ### Culling -/

theorem inRange_spec {p : ChunkPos} (near : v ≠ 0 → a.Comparable p) :
    inRange a p v = .ok (decide (InView a v p)) := by
  by_cases zero : v = 0
  · subst zero
    have unseen : ¬ InView a 0 p := fun view => view.1 rfl
    rw [decide_eq_false unseen]
    rfl
  · exact inRange_eq (near zero) v

/-- Only columns in view pass the range test. -/
theorem inRange_true_iff {p : ChunkPos} : inRange a p v = .ok true ↔ InView a v p := by
  constructor
  · intro test
    have near : v ≠ 0 → a.Comparable p := fun positive => by
      rw [inRange, if_neg positive] at test
      obtain ⟨d, hd, -⟩ := bind_eq_ok test
      exact ChunkPos.comparable_iff.mpr ⟨d, hd⟩
    rw [inRange_spec near, Except.ok.injEq, decide_eq_true_iff] at test
    exact test
  · intro view
    rw [inRange_eq view.comparable, decide_eq_true view]

/-- **Culling** returns what is out of view and keeps the rest. Without a view distance it computes no
distance. -/
theorem cull_spec (near : v ≠ 0 → ∀ p ∈ t, a.Comparable p) :
    t.cull a v = .ok (t.outside a v, (t.outside a v).foldl erase t) := by
  by_cases zero : v = 0
  · subst zero
    have all : t.outside a 0 = t.toList :=
      List.filter_eq_self.mpr fun p _ => decide_eq_true fun view => view.1 rfl
    rw [cull, splitByRange_zero, all]
    rfl
  · exact cull_eq v (near zero)

theorem nodup_outside (t : Tracked) (a : ChunkPos) (v : UInt32) : (t.outside a v).Nodup :=
  t.nodup_toList.filter _

/-! ### What is missing -/

/-- What is missing depends on what is tracked in view only. -/
theorem missing_congr (inland : a.Inland v) (same : ∀ p, InView a v p → (p ∈ t ↔ p ∈ t')) :
    t.missing a v = t'.missing a v := by
  obtain ⟨disc, hdisc, inDisc⟩ := mem_chunksInRange inland
  have lists : (disc.filter fun p => !t.contains p.index) =
      disc.filter fun p => !t'.contains p.index := by
    refine List.filter_congr fun p hp => ?_
    rw [contains_index, contains_index, decide_eq_decide.mpr (same p ((inDisc p).mp hp))]
  rw [missing, missing, hdisc]
  exact congrArg Except.ok lists

theorem missing_sublist {disc wanted : List ChunkPos} (hdisc : chunksInRange a v = .ok disc)
    (h : t.missing a v = .ok wanted) : wanted.Sublist disc := by
  rw [missing, hdisc] at h
  cases h
  exact List.filter_sublist

/-! ### Positions in order -/

/-- **The tracked positions in order** are any list of them, sorted. -/
theorem positions_eq_mergeSort (distinct : ps.Nodup) (same : ∀ p, p ∈ t ↔ p ∈ ps) :
    t.positions = ps.mergeSort fun p q => (compare p q).isLE := by
  have ascending : t.positions.Pairwise fun p q => compare p q = .lt := ExtTreeSet.ordered_toList
  have once : t.positions.Nodup := ascending.imp fun {p q} before same => by
    have self : compare q q = .eq := ReflCmp.compare_self
    rw [same, self] at before
    cases before
  have total : ∀ p q : ChunkPos, ((compare p q).isLE || (compare q p).isLE) = true := fun p q => by
    have turned : (compare p q).isGE = (compare q p).isLE := OrientedCmp.isGE_eq_isLE
    rw [← turned]
    cases compare p q <;> rfl
  have sorted := List.pairwise_mergeSort (fun _ _ _ => TransCmp.isLE_trans) total ps
  have members : t.positions.Perm (ps.mergeSort fun p q => (compare p q).isLE) := by
    refine List.Perm.trans ?_ (List.mergeSort_perm ps _).symm
    exact (List.perm_ext_iff_of_nodup once distinct).mpr fun p => mem_positions.trans (same p)
  refine members.eq_of_pairwise (fun p q _ _ before after => ?_) (ascending.imp fun before => ?_) sorted
  · exact LawfulEqCmp.eq_of_compare (OrientedCmp.isLE_antisymm before after)
  · exact Ordering.isLE_of_eq_lt before

/-! ### Inserting -/

/-- Tracks all columns of a list. -/
def insertAll (t : Tracked) (ps : List ChunkPos) : Tracked := ps.foldl (fun t p => (t.insert p).2) t

theorem mem_insertAll {p : ChunkPos} : p ∈ t.insertAll ps ↔ p ∈ ps ∨ p ∈ t := by
  induction ps generalizing t with
  | nil => exact ⟨Or.inr, Or.rec nofun id⟩
  | cons q ps ih =>
    rw [insertAll, List.foldl_cons, ← insertAll, ih, mem_insert, List.mem_cons]
    tauto

/-! ### What changes for a viewer -/

/-- A viewer at `a` with the disc `disc` drops `dropped` of the tracked columns and keeps `kept`, and
`wanted` is missing. -/
structure Turnover (t : Tracked) (a : ChunkPos) (v : UInt32) (dropped : List ChunkPos) (kept : Tracked)
    (disc wanted : List ChunkPos) : Prop where
  listed : chunksInRange a v = .ok disc
  cull : t.cull a v = .ok (dropped, kept)
  dropped_once : dropped.Nodup
  mem_dropped : ∀ p, p ∈ dropped ↔ p ∈ t.positions ∧ inRange a p v = .ok false
  mem_kept : ∀ p, p ∈ kept.positions ↔ p ∈ t.positions ∧ inRange a p v = .ok true
  missing : t.missing a v = .ok wanted
  missing_kept : kept.missing a v = .ok wanted
  wanted_new : ∀ p ∈ wanted, p ∉ t.positions
  wanted_sublist : wanted.Sublist disc

/-- Nothing is left to do for a viewer at `a` with the disc `disc`: exactly that is tracked. -/
structure Settled (t : Tracked) (a : ChunkPos) (v : UInt32) (disc : List ChunkPos) : Prop where
  positions : t.positions = disc.mergeSort fun p q => (compare p q).isLE
  cull : t.cull a v = .ok ([], t)
  missing : t.missing a v = .ok []

/-- There is a turnover wherever the distances can be computed. -/
theorem exists_turnover (near : v ≠ 0 → ∀ p ∈ t, a.Comparable p) (inland : a.Inland v) :
    ∃ dropped kept disc wanted, t.Turnover a v dropped kept disc wanted := by
  obtain ⟨disc, listed, inDisc⟩ := mem_chunksInRange inland
  obtain ⟨wanted, missing, inWanted⟩ := t.missing_spec inland
  have tested : ∀ {p}, p ∈ t → inRange a p v = .ok (decide (InView a v p)) :=
    fun tracked => inRange_spec fun positive => near positive _ tracked
  -- culling takes nothing away that is in view, so the same columns are missing after it
  refine ⟨t.outside a v, (t.outside a v).foldl erase t, disc, wanted,
    { listed
      cull := cull_spec near
      dropped_once := t.nodup_outside a v
      mem_dropped := fun p => ?_
      mem_kept := fun p => ?_
      missing
      missing_kept := ?_
      wanted_new := fun p hp tracked => ((inWanted p).mp hp).2 (mem_positions.mp tracked)
      wanted_sublist := missing_sublist listed missing }⟩
  · rw [mem_outside, mem_positions]
    refine and_congr_right fun tracked => ?_
    rw [tested tracked, Except.ok.injEq, decide_eq_false_iff_not]
  · rw [mem_positions, mem_positions, mem_cull]
    refine and_congr_right fun tracked => ?_
    rw [tested tracked, Except.ok.injEq, decide_eq_true_iff]
  · rw [← missing]
    exact missing_congr inland fun p view => by rw [mem_cull, and_iff_left view]

/-- Where exactly what is in view is tracked, nothing is left to do. -/
theorem settled_of_view {disc : List ChunkPos} (inland : a.Inland v)
    (listed : chunksInRange a v = .ok disc) (exact : ∀ p, p ∈ t ↔ InView a v p) :
    t.Settled a v disc := by
  obtain ⟨disc', listed', inDisc⟩ := mem_chunksInRange inland
  cases listed.symm.trans listed'
  obtain ⟨wanted, missing, inWanted⟩ := t.missing_spec inland
  have nothing : wanted = [] := List.eq_nil_iff_forall_not_mem.mpr fun p hp =>
    ((inWanted p).mp hp).2 ((exact p).mpr ((inWanted p).mp hp).1)
  have none : t.outside a v = [] := List.eq_nil_iff_forall_not_mem.mpr fun p hp =>
    (mem_outside.mp hp).2 ((exact p).mp (mem_outside.mp hp).1)
  have cull := cull_spec (t := t) (v := v) fun _ p hp => ((exact p).mp hp).comparable
  rw [none] at cull
  exact ⟨positions_eq_mergeSort (nodup_of_precedes (chunksInRange_ordered listed))
    fun p => (exact p).trans (inDisc p).symm, cull, nothing ▸ missing⟩

/-- **Once all that was missing is inserted**, nothing is left to do. -/
theorem Turnover.settled {dropped disc wanted loaded : List ChunkPos} {kept : Tracked}
    (turnover : t.Turnover a v dropped kept disc wanted) (inland : a.Inland v)
    (complete : ∀ p, p ∈ loaded ↔ p ∈ wanted) : (kept.insertAll loaded).Settled a v disc := by
  obtain ⟨wanted', missing, inWanted⟩ := t.missing_spec inland
  cases turnover.missing.symm.trans missing
  refine settled_of_view inland turnover.listed fun p => ?_
  have kept : p ∈ kept ↔ p ∈ t ∧ InView a v p := by
    rw [← mem_positions, turnover.mem_kept, mem_positions, inRange_true_iff]
  rw [mem_insertAll, complete, inWanted, kept]
  by_cases tracked : p ∈ t
  · simp only [tracked, not_true_eq_false, and_false, true_and, false_or]
  · simp only [tracked, not_false_eq_true, and_true, false_and, or_false]

end Tracked

/-- **What is dropped and what is missing complement each other.** Over any tracked columns whose
distances from the anchor are words, and a square around it whose bounds are, a pass drops every
tracked column out of range once and keeps the others; the same columns are missing before that and
after, in the order of the disc, and none of them is tracked. Once they are inserted, in any order,
exactly the disc is tracked, and another pass drops nothing and misses nothing. And of any tracked
columns, something is kept under the index of a position exactly if the position is listed. -/
theorem cull_missing_complementary {t : Tracked} {a : ChunkPos} {v : UInt32}
    (distances : 0 < v → ∀ p ∈ t.positions, ∃ d, a.distanceSquared p = .ok d)
    (bounds : ∃ ps, square a v = .ok ps) :
    (∃ dropped kept disc wanted, t.Turnover a v dropped kept disc wanted ∧
      ∀ loaded, (∀ p, p ∈ loaded ↔ p ∈ wanted) → (kept.insertAll loaded).Settled a v disc) ∧
    ∀ (s : Tracked) (p : ChunkPos), s.contains p.index = true ↔ p ∈ s.positions := by
  have near : v ≠ 0 → ∀ p ∈ t, a.Comparable p := fun positive p hp =>
    ChunkPos.comparable_iff.mpr
      (distances (UInt32.pos_iff_ne_zero.mpr positive) p (Tracked.mem_positions.mpr hp))
  have inland : a.Inland v := by
    by_contra beyond
    obtain ⟨e, he⟩ := square_error beyond
    obtain ⟨ps, hps⟩ := bounds
    rw [he] at hps
    cases hps
  obtain ⟨dropped, kept, disc, wanted, turnover⟩ := Tracked.exists_turnover near inland
  exact ⟨⟨dropped, kept, disc, wanted, turnover, fun _ => turnover.settled inland⟩,
    fun _ _ => Tracked.mem_positions.symm⟩

/-- A viewer in a corner of the plane, with one column in range and one out of it, both tracked. -/
theorem cull_missing_complementary_corner :
    let a : ChunkPos := ⟨2147483645, -2147483646⟩
    let t := ((Tracked.empty.insert ⟨2147483647, -2147483646⟩).2.insert ⟨0, -2147483648⟩).2
    ∃ dropped kept disc wanted, t.Turnover a 2 dropped kept disc wanted ∧
      (kept.insertAll wanted.reverse).Settled a 2 disc := by
  intro a t
  have distances : ∀ p ∈ t.positions, ∃ d, a.distanceSquared p = .ok d := by
    intro p hp
    rcases Tracked.mem_insert.mp (Tracked.mem_positions.mp hp) with rfl | hp
    · exact ⟨_, ChunkPos.distanceSquared_eq ⟨by decide, by decide, by decide⟩⟩
    · rcases Tracked.mem_insert.mp hp with rfl | hp
      · exact ⟨_, ChunkPos.distanceSquared_eq ⟨by decide, by decide, by decide⟩⟩
      · exact absurd hp Tracked.not_mem_empty
  obtain ⟨ps, bounds, -⟩ := square_spec (a := a) (v := 2) ⟨by decide +kernel, by decide +kernel⟩
  obtain ⟨⟨dropped, kept, disc, wanted, turnover, settled⟩, -⟩ :=
    cull_missing_complementary (fun _ => distances) ⟨ps, bounds⟩
  exact ⟨dropped, kept, disc, wanted, turnover, settled wanted.reverse fun _ => List.mem_reverse⟩

end BlockWorld
