import BlockWorld.Proofs.Tracked

/-! # The index as a number

Read as a number, the index of a column is `2 ^ 32 * x + z`, where `z` is read without its sign. So `x` is
what is left of it after a shift by half its width, `z` is its lower half, and every word of 64 bits is the
index of some column.

* `ChunkPos.toInt_index`: the number.
* `ChunkPos.ofIndex`: the column that a word is the index of; `ofIndex_index`, `index_ofIndex`: there and
  back.
* `Tracked.contains_iff`: what is kept under an index.
* `index_bijective`: words and columns correspond to each other. -/

namespace BlockWorld

/-! ### Halves of words -/

/-- A word read without its sign. -/
theorem toNat_toUInt32_eq (w : Int32) : (w.toUInt32.toNat : Int) = w.toInt % 4294967296 := by
  have h1 : w.toInt = Int.bmod w.toUInt32.toNat 4294967296 := w.toBitVec.toInt_eq_toNat_bmod
  have h2 : (Int.bmod w.toUInt32.toNat 4294967296) % 4294967296 = w.toUInt32.toNat % 4294967296 :=
    Int.bmod_emod
  have h3 : w.toUInt32.toNat < 4294967296 := w.toUInt32.toNat_lt
  rw [h1, h2]
  omega

/-- A word shifted right by half its width is a quotient, rounded down. -/
theorem toInt_shiftRight_half (i : Int64) : (i >>> 32).toInt = i.toInt / 4294967296 := by
  rw [← Int64.toInt_toBitVec, Int64.toBitVec_shiftRight]
  have : (32 : Int64).toBitVec.smod 64 = 32#64 := by decide
  rw [this, BitVec.sshiftRight_eq', BitVec.toInt_sshiftRight, Int.shiftRight_eq_div_pow]
  rfl

/-- The lower half of a word is the one word of half the width that leaves the same remainder. -/
theorem toInt32_eq_iff {i : Int64} {w : Int32} :
    i.toInt32 = w ↔ i.toInt % 4294967296 = w.toInt % 4294967296 := by
  have h1 : i.toInt32.toInt % 4294967296 = i.toInt % 4294967296 := by
    rw [Int64.toInt_toInt32]
    exact Int.bmod_emod
  constructor
  · rintro rfl
    exact h1.symm
  · intro h
    have h2 := i.toInt32.le_toInt
    have h3 := i.toInt32.toInt_lt
    have h4 := w.le_toInt
    have h5 := w.toInt_lt
    exact Int32.toInt_inj.mp (by omega)

/-! ### There and back -/

namespace ChunkPos

/-- **The index as a number.** -/
theorem toInt_index (p : ChunkPos) :
    p.index.toInt = 4294967296 * p.x.toInt + p.z.toInt % 4294967296 := by
  have h : p.index.toInt = (p.x.toBitVec ++ p.z.toBitVec).toInt := by
    rw [← toBitVec_index, Int64.toInt_toBitVec]
  rw [h, BitVec.toInt_append, ← toNat_toUInt32_eq]
  rfl

/-- The upper half is `x`. -/
theorem shiftRight_index (p : ChunkPos) : p.index >>> 32 = p.x.toInt64 := by
  have h := p.toInt_index
  apply Int64.toInt_inj.mp
  rw [toInt_shiftRight_half, Int32.toInt_toInt64]
  omega

/-- The lower half is `z`. -/
theorem toInt32_index (p : ChunkPos) : p.index.toInt32 = p.z := by
  have h := p.toInt_index
  apply toInt32_eq_iff.mpr
  omega

/-- The column that a word is the index of: its upper half and its lower half. -/
def ofIndex (i : Int64) : ChunkPos := ⟨(i >>> 32).toInt32, i.toInt32⟩

theorem ofIndex_index (p : ChunkPos) : ofIndex p.index = p := by
  have h : (p.x.toInt64).toInt32 = p.x := by
    apply toInt32_eq_iff.mpr
    rw [Int32.toInt_toInt64]
  unfold ofIndex
  rw [shiftRight_index, toInt32_index, h]

theorem index_ofIndex (i : Int64) : (ofIndex i).index = i := by
  have h1 := (ofIndex i).toInt_index
  have h2 : (ofIndex i).z.toInt % 4294967296 = i.toInt % 4294967296 :=
    (toInt32_eq_iff.mp (rfl : i.toInt32 = (ofIndex i).z)).symm
  -- A quotient by `2 ^ 32` fits a word of half the width, so nothing is cut off.
  have h3 : (ofIndex i).x.toInt = i.toInt / 4294967296 := by
    have h4 : i.toInt / 4294967296 % 4294967296 = (ofIndex i).x.toInt % 4294967296 := by
      rw [← toInt_shiftRight_half]
      exact toInt32_eq_iff.mp rfl
    have h5 := i.le_toInt
    have h6 := i.toInt_lt
    have h7 := (ofIndex i).x.le_toInt
    have h8 := (ofIndex i).x.toInt_lt
    omega
  apply Int64.toInt_inj.mp
  omega

end ChunkPos

/-! ### Tracking keys -/

/-- Something is kept under a word if the column that it is the index of is tracked. -/
theorem Tracked.contains_iff (t : Tracked) (i : Int64) :
    t.contains i = true ↔ ChunkPos.ofIndex i ∈ t.positions := by
  rw [mem_positions, mem_def, ChunkPos.index_ofIndex]

/-- **Indexes and columns correspond to each other.** For all coordinates, of any sign and magnitude: the
index of a column shifted right by 32, with its sign, is `x`, and the lower 32 bits of it are `z`; every
word of 64 bits is the index of exactly one column. So two columns have one index only if they are one
column, and whoever tracks columns keeps something under a word just if exactly one tracked column has
that index. -/
theorem index_bijective :
    (∀ p : ChunkPos, p.index >>> 32 = p.x.toInt64 ∧ p.index.toInt32 = p.z) ∧
    (∀ i : Int64, ∃! p : ChunkPos, p.index = i) ∧
    (∀ p q : ChunkPos, p.index = q.index ↔ p = q) ∧
    ∀ (t : Tracked) (i : Int64), t.contains i = true ↔ ∃! p, p ∈ t.positions ∧ p.index = i := by
  refine ⟨fun p => ⟨p.shiftRight_index, p.toInt32_index⟩, fun i => ?_, fun p q => ?_, fun t i => ?_⟩
  · refine ⟨ChunkPos.ofIndex i, ChunkPos.index_ofIndex i, ?_⟩
    rintro p rfl
    exact p.ofIndex_index.symm
  · constructor
    · exact ChunkPos.index_injective
    · rintro rfl
      rfl
  · rw [t.contains_iff]
    constructor
    · intro tracked
      refine ⟨ChunkPos.ofIndex i, ⟨tracked, ChunkPos.index_ofIndex i⟩, ?_⟩
      rintro p ⟨-, rfl⟩
      exact p.ofIndex_index.symm
    · rintro ⟨p, ⟨tracked, rfl⟩, -⟩
      rw [p.ofIndex_index]
      exact tracked

/-- With the sign of `z`, both would have the index `-1`. -/
example : (ChunkPos.mk 0 (-1)).index = 4294967295 ∧ (ChunkPos.mk (-1) (-1)).index = -1 := by decide

end BlockWorld
