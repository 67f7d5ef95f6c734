import BlockWorld.Tracked
import BlockWorld.Proofs.Range

/-! # Tracked columns as a set of positions

A column is kept under its index, and an index belongs to one position only. So the tracked columns
are a set of positions: `p ∈ t` says that something is kept under the index of `p`, and then it is
`p` itself.

* `ChunkPos.toBitVec_index`, `ChunkPos.index_injective`: the index is the two words side by side.
* `mem_insert`, `mem_erase`, `mem_toList`, `mem_positions`: the operations on the set.
* `cull_eq`, `missing_spec`: what is dropped and kept, what is in view and not tracked. -/

namespace BlockWorld

open Std

/-! ### The index -/

theorem ChunkPos.toBitVec_index (p : ChunkPos) :
    p.index.toBitVec = p.x.toBitVec ++ p.z.toBitVec := by
  have h : p.index.toBitVec =
      (p.x.toBitVec.signExtend 64 <<< 32) ||| p.z.toBitVec.setWidth 64 := by simp [index]
  rw [h]
  ext i hi
  rw [BitVec.getElem_append]
  by_cases h32 : i < 32
  · simp [h32, BitVec.getElem_setWidth, BitVec.getLsbD_eq_getElem]
  · have hx : i - 32 < 32 := by omega
    have hz : p.z.toBitVec.getLsbD i = false := BitVec.getLsbD_of_ge _ _ (by omega)
    simp [h32, BitVec.getElem_setWidth, BitVec.getElem_signExtend, hx, hz]

theorem ChunkPos.index_injective {p q : ChunkPos} (h : p.index = q.index) : p = q := by
  have hb : p.x.toBitVec ++ p.z.toBitVec = q.x.toBitVec ++ q.z.toBitVec := by
    rw [← toBitVec_index, ← toBitVec_index, h]
  have hx := congrArg (BitVec.extractLsb' 32 32) hb
  have hz := congrArg (BitVec.extractLsb' 0 32) hb
  rw [BitVec.extractLsb'_append_eq_left, BitVec.extractLsb'_append_eq_left] at hx
  rw [BitVec.extractLsb'_append_eq_right, BitVec.extractLsb'_append_eq_right] at hz
  cases p; cases q
  simp only [ChunkPos.mk.injEq]
  exact ⟨Int32.toBitVec_inj.mp hx, Int32.toBitVec_inj.mp hz⟩

/-- The values of a map are the second halves of its entries. -/
theorem values_eq_map_toList {α β : Type} {cmp : α → α → Ordering} [TransCmp cmp]
    (t : ExtTreeMap α β cmp) : t.values = t.toList.map Prod.snd := by
  rcases t with ⟨⟨t⟩⟩
  induction t using Quotient.ind with | _ t
  show t.inner.values = (DTreeMap.Internal.Impl.Const.toList t.inner).map Prod.snd
  rw [DTreeMap.Internal.Impl.values_eq_map_snd,
    DTreeMap.Internal.Impl.Const.toList_eq_toListModel_map, List.map_map]
  rfl

theorem mem_values_iff {α β : Type} {cmp : α → α → Ordering} [TransCmp cmp] [LawfulEqCmp cmp]
    {t : ExtTreeMap α β cmp} {b : β} : b ∈ t.values ↔ ∃ a : α, t[a]? = some b := by
  rw [values_eq_map_toList, List.mem_map]
  constructor
  · rintro ⟨⟨a, c⟩, h, rfl⟩
    exact ⟨a, ExtTreeMap.mem_toList_iff_getElem?_eq_some.mp h⟩
  · rintro ⟨a, h⟩
    exact ⟨(a, b), ExtTreeMap.mem_toList_iff_getElem?_eq_some.mpr h, rfl⟩

namespace Tracked

variable {t : Tracked} {p q : ChunkPos}

/-- `p` is tracked. -/
instance : Membership ChunkPos Tracked := ⟨fun t p => t.contains p.index = true⟩

instance : Decidable (p ∈ t) := inferInstanceAs (Decidable (t.contains p.index = true))

theorem mem_def : p ∈ t ↔ t.contains p.index = true := Iff.rfl

theorem contains_index : t.contains p.index = decide (p ∈ t) := by
  rw [Bool.eq_iff_iff, decide_eq_true_iff, mem_def]

/-- What is kept under the index of `p` is `p`. -/
theorem mem_iff_getElem? : p ∈ t ↔ t.columns[p.index]? = some p := by
  rw [mem_def, contains, ExtTreeMap.contains_eq_isSome_getElem?, Option.isSome_iff_exists]
  constructor
  · rintro ⟨q, hq⟩
    rw [hq, ChunkPos.index_injective (t.index_eq hq)]
  · intro h; exact ⟨p, h⟩

theorem mem_toList : p ∈ t.toList ↔ p ∈ t := by
  rw [toList, mem_values_iff, mem_iff_getElem?]
  constructor
  · rintro ⟨i, hi⟩; rw [t.index_eq hi]; exact hi
  · intro h; exact ⟨_, h⟩

/-- Every tracked column is listed once. -/
theorem nodup_toList (t : Tracked) : t.toList.Nodup := by
  have keyed : t.toList.map ChunkPos.index = t.columns.keys := by
    rw [toList, values_eq_map_toList, List.map_map, ← ExtTreeMap.map_fst_toList_eq_keys]
    refine List.map_congr_left ?_
    rintro ⟨i, p⟩ kept
    exact t.index_eq (ExtTreeMap.mem_toList_iff_getElem?_eq_some.mp kept)
  have apart : (t.toList.map ChunkPos.index).Nodup := by
    rw [keyed]
    exact ExtTreeMap.nodup_keys
  exact List.Pairwise.of_map ChunkPos.index (fun p q other same => other (congrArg _ same)) apart

theorem not_mem_empty : p ∉ Tracked.empty := by simp [mem_def, Tracked.empty, contains]

/-- Where nothing is tracked, nothing is kept. -/
theorem eq_empty (h : ∀ p, p ∉ t) : t = Tracked.empty := by
  have nothing : t.columns = ∅ := by
    refine ExtTreeMap.ext_getElem? fun i => ?_
    rw [ExtTreeMap.getElem?_empty]
    refine Option.eq_none_iff_forall_ne_some.mpr fun p kept => ?_
    have own : t.columns[p.index]? = some p := by rw [t.index_eq kept]; exact kept
    exact h p (mem_iff_getElem?.mpr own)
  cases t
  cases nothing
  rfl

theorem mem_insert : q ∈ (t.insert p).2 ↔ q = p ∨ q ∈ t := by
  unfold insert
  split
  · rename_i h
    constructor
    · exact Or.inr
    · rintro (rfl | hq)
      · exact h
      · exact hq
  · simp only [mem_def, contains, ExtTreeMap.contains_insert, Bool.or_eq_true, beq_iff_eq,
      Std.compare_eq_iff_eq]
    constructor
    · rintro (h | h)
      · exact Or.inl (ChunkPos.index_injective h).symm
      · exact Or.inr h
    · rintro (rfl | h)
      · exact Or.inl rfl
      · exact Or.inr h

theorem mem_erase : q ∈ t.erase p ↔ q ≠ p ∧ q ∈ t := by
  simp only [mem_def, contains, erase, ExtTreeMap.contains_erase, Bool.and_eq_true, bne_iff_ne, ne_eq,
    Std.compare_eq_iff_eq]
  constructor
  · rintro ⟨h, hq⟩
    exact ⟨fun e => h (by rw [e]), hq⟩
  · rintro ⟨h, hq⟩
    exact ⟨fun e => h (ChunkPos.index_injective e).symm, hq⟩

theorem mem_foldl_erase : ∀ {ps : List ChunkPos} {t : Tracked},
    q ∈ ps.foldl Tracked.erase t ↔ q ∉ ps ∧ q ∈ t
  | [], t => by simp
  | p :: ps, t => by
    rw [List.foldl_cons, mem_foldl_erase, mem_erase, List.mem_cons]
    tauto

theorem mem_positions : p ∈ t.positions ↔ p ∈ t := by
  rw [positions, ExtTreeSet.mem_toList, ExtTreeSet.mem_ofList, List.contains_iff_mem, mem_toList]

/-! ### The two lists of a visibility pass -/

/-- The tracked columns that are out of view. -/
def outside (t : Tracked) (a : ChunkPos) (v : UInt32) : List ChunkPos :=
  t.toList.filter (¬ InView a v ·)

theorem mem_outside {a : ChunkPos} {v : UInt32} : p ∈ t.outside a v ↔ p ∈ t ∧ ¬ InView a v p := by
  simp [outside, mem_toList]

/-- **Culling** returns the tracked columns that are out of view and keeps the others. -/
theorem cull_eq {a : ChunkPos} (v : UInt32) (h : ∀ p ∈ t, a.Comparable p) :
    t.cull a v = .ok (t.outside a v, (t.outside a v).foldl erase t) := by
  rw [cull, splitByRange_eq v fun p hp => h p (mem_toList.mp hp)]
  rfl

theorem mem_cull {a : ChunkPos} {v : UInt32} :
    p ∈ (t.outside a v).foldl erase t ↔ p ∈ t ∧ InView a v p := by
  rw [mem_foldl_erase, mem_outside]
  tauto

/-- **What is missing** is in view and not tracked. -/
theorem missing_spec (t : Tracked) {a : ChunkPos} {v : UInt32} (h : a.Inland v) :
    ∃ ps, t.missing a v = .ok ps ∧ ∀ p, p ∈ ps ↔ InView a v p ∧ p ∉ t := by
  obtain ⟨disc, hdisc, hmem⟩ := mem_chunksInRange h
  refine ⟨disc.filter fun p => !t.contains p.index, ?_, fun p => ?_⟩
  · rw [missing, hdisc]; rfl
  · simp [hmem, mem_def]

end Tracked

end BlockWorld
