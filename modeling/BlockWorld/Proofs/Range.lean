import BlockWorld.Session.Basic
import Mathlib.Algebra.Order.Ring.Abs
import Mathlib.Tactic.Linarith
import Mathlib.Tactic.NormNum

/-! # View discs in exact arithmetic

The range test and the disc are computed on words, every step checked. Near the origin no step fails,
and what comes out is the disc of plane geometry.

* `ChunkPos.Within r p`: both coordinates of `p` are at most `r` in absolute value.
* `InView a v p`: `p` lies in the disc around `a`, over the integers.
* `anchorOf_within`: a column that a point lies in is within `2 ^ 27`.
* `distanceSquared_eq`, `inRange_eq`: distance and range test, where the differences fit.
* `mem_chunksInRange`: the listed disc has exactly the columns in view. -/

namespace BlockWorld

open Std

/-! ### Bounds -/

/-- Both coordinates are at most `r` in absolute value. -/
def ChunkPos.Within (r : Int) (p : ChunkPos) : Prop :=
  (-r ≤ p.x.toInt ∧ p.x.toInt ≤ r) ∧ (-r ≤ p.z.toInt ∧ p.z.toInt ≤ r)

/-- A bound for every column that a point lies in, `2 ^ 27`. -/
abbrev anchorBound : Int := 134217728

/-- A bound for every column that can come into view, `2 ^ 28`. -/
abbrev columnBound : Int := 268435456

/-- A word shifted right by four is one sixteenth of it. -/
theorem toInt_shiftRight_four (w : Int32) : (w >>> 4).toInt = w.toInt / 16 := by
  rw [← Int32.toInt_toBitVec, Int32.toBitVec_shiftRight]
  have : (4 : Int32).toBitVec.smod 32 = 4#32 := by decide
  rw [this, BitVec.sshiftRight_eq', BitVec.toInt_sshiftRight, Int.shiftRight_eq_div_pow]
  rfl

/-- Whatever word a block coordinate is converted into, the coordinate of its column is bounded. -/
theorem toInt_shiftRight_bounds (w : Int32) :
    -anchorBound ≤ (w >>> chunkShift).toInt ∧ (w >>> chunkShift).toInt ≤ anchorBound := by
  have h := toInt_shiftRight_four w
  have h1 := w.le_toInt
  have h2 := w.toInt_lt
  unfold chunkShift anchorBound
  omega

theorem anchorOf_within (position : Vec3) : (anchorOf position).Within anchorBound :=
  ⟨toInt_shiftRight_bounds (floorWord position.x), toInt_shiftRight_bounds (floorWord position.z)⟩

/-! ### Distance -/

/-- Both differences fit a word, and not both are the least word. -/
structure ChunkPos.Comparable (a b : ChunkPos) : Prop where
  x : -2147483648 ≤ a.x.toInt - b.x.toInt ∧ a.x.toInt - b.x.toInt ≤ 2147483647
  z : -2147483648 ≤ a.z.toInt - b.z.toInt ∧ a.z.toInt - b.z.toInt ≤ 2147483647
  least : ¬ (a.x.toInt - b.x.toInt = -2147483648 ∧ a.z.toInt - b.z.toInt = -2147483648)

theorem ChunkPos.comparable_of_within {a b : ChunkPos} (ha : a.Within anchorBound)
    (hb : b.Within columnBound) : a.Comparable b := by
  obtain ⟨⟨h1, h2⟩, h3, h4⟩ := ha
  obtain ⟨⟨h5, h6⟩, h7, h8⟩ := hb
  unfold anchorBound at *
  unfold columnBound at *
  exact ⟨⟨by omega, by omega⟩, ⟨by omega, by omega⟩, by omega⟩

/-- The square of a word, as a bounded integer. -/
theorem sq_le_of_word {d : Int} (h : -2147483648 ≤ d ∧ d ≤ 2147483647) :
    d * d ≤ 4611686018427387904 ∧ (d ≠ -2147483648 → d * d ≤ 4611686014132420609) := by
  refine ⟨by nlinarith [h.1, h.2], fun hd => ?_⟩
  have : -2147483647 ≤ d := by omega
  nlinarith [h.2]

theorem ChunkPos.gapSquared_eq (a b : ChunkPos) : a.gapSquared b =
    (a.x.toInt - b.x.toInt) * (a.x.toInt - b.x.toInt) +
      (a.z.toInt - b.z.toInt) * (a.z.toInt - b.z.toInt) := rfl

theorem ChunkPos.gapSquared_nonneg (a b : ChunkPos) : 0 ≤ a.gapSquared b := by
  rw [gapSquared_eq]
  nlinarith [mul_self_nonneg (a.x.toInt - b.x.toInt), mul_self_nonneg (a.z.toInt - b.z.toInt)]

theorem ChunkPos.Comparable.gapSquared_lt {a b : ChunkPos} (h : a.Comparable b) :
    a.gapSquared b ≤ 9223372036854775807 := by
  obtain ⟨hx1, hx2⟩ := sq_le_of_word h.x
  obtain ⟨hz1, hz2⟩ := sq_le_of_word h.z
  have hl := h.least
  rw [gapSquared_eq]
  by_cases hx : a.x.toInt - b.x.toInt = -2147483648
  · have := hz2 (fun hz => hl ⟨hx, hz⟩)
    omega
  · have := hx2 hx
    omega

/-- **Where the differences fit, the distance is exact.** -/
theorem ChunkPos.distanceSquared_eq {a b : ChunkPos} (h : a.Comparable b) :
    a.distanceSquared b = .ok (Int64.ofInt (a.gapSquared b)) := by
  have hx := Checked.word32_of_fits .subtract h.x.1 h.x.2
  have hz := Checked.word32_of_fits .subtract h.z.1 h.z.2
  have ex := Checked.toInt_of_word32 hx
  have ez := Checked.toInt_of_word32 hz
  have hgap := h.gapSquared_lt
  have hxx := sq_le_of_word h.x
  have hzz := sq_le_of_word h.z
  have px := mul_self_nonneg (a.x.toInt - b.x.toInt)
  have pz := mul_self_nonneg (a.z.toInt - b.z.toInt)
  rw [gapSquared_eq] at hgap
  have exx := Checked.word64_of_fits .multiply
    (n := (a.x.toInt - b.x.toInt) * (a.x.toInt - b.x.toInt)) (by omega) (by omega)
  have ezz := Checked.word64_of_fits .multiply
    (n := (a.z.toInt - b.z.toInt) * (a.z.toInt - b.z.toInt)) (by omega) (by omega)
  simp only [ChunkPos.distanceSquared, Checked.sub32, hx, hz, bind, Except.bind, Checked.mul64,
    Int32.toInt_toInt64, ex, ez, exx, ezz, Checked.add64, Checked.toInt_of_word64 exx,
    Checked.toInt_of_word64 ezz]
  exact Checked.word64_of_fits .add (by omega) hgap

theorem ChunkPos.toInt_gapSquared {a b : ChunkPos} (h : a.Comparable b) :
    (Int64.ofInt (a.gapSquared b)).toInt = a.gapSquared b := by
  have lo := a.gapSquared_nonneg b
  have hi := h.gapSquared_lt
  exact Int64.toInt_ofInt_of_le (by omega) (by omega)

/-! ### The range test -/

theorem clampViewDistance_le (v : UInt32) : (clampViewDistance v).toNat ≤ 64 := by
  show (if v ≤ 64 then v else 64).toNat ≤ 64
  split
  · rename_i h; exact UInt32.le_iff_toNat_le.mp h
  · decide

/-- `p` is in view from `a` at view distance `v`: the view distance is positive, and the squared
distance is at most its square. A view distance above 64 counts as 64. -/
def InView (a : ChunkPos) (v : UInt32) (p : ChunkPos) : Prop :=
  v ≠ 0 ∧ a.gapSquared p ≤ (clampViewDistance v).toNat * (clampViewDistance v).toNat

instance (a : ChunkPos) (v : UInt32) : DecidablePred (InView a v) := fun p => by
  unfold InView; infer_instance

/-- In each coordinate a column in view differs by at most the radius. -/
theorem InView.near {a p : ChunkPos} {v : UInt32} (h : InView a v p) :
    |a.x.toInt - p.x.toInt| ≤ (clampViewDistance v).toNat ∧
      |a.z.toInt - p.z.toInt| ≤ (clampViewDistance v).toNat := by
  have hgap := h.2
  rw [ChunkPos.gapSquared_eq] at hgap
  have px := mul_self_nonneg (a.x.toInt - p.x.toInt)
  have pz := mul_self_nonneg (a.z.toInt - p.z.toInt)
  have hx : (a.x.toInt - p.x.toInt) ^ 2 ≤ ((clampViewDistance v).toNat : Int) ^ 2 := by
    rw [sq, sq]; omega
  have hz : (a.z.toInt - p.z.toInt) ^ 2 ≤ ((clampViewDistance v).toNat : Int) ^ 2 := by
    rw [sq, sq]; omega
  exact ⟨abs_le_of_sq_le_sq hx (by omega), abs_le_of_sq_le_sq hz (by omega)⟩

theorem InView.within {a p : ChunkPos} {v : UInt32} (h : InView a v p)
    (ha : a.Within anchorBound) : p.Within columnBound := by
  have hv := clampViewDistance_le v
  obtain ⟨hx, hz⟩ := h.near
  rw [abs_le] at hx hz
  obtain ⟨⟨h5, h6⟩, h7, h8⟩ := ha
  unfold anchorBound at *
  unfold columnBound
  exact ⟨⟨by omega, by omega⟩, by omega, by omega⟩

/-- The radius of a view distance as a long word. -/
theorem toInt_radius (v : UInt32) :
    (clampViewDistance v).toUInt64.toInt64.toInt = (clampViewDistance v).toNat := by
  have h := clampViewDistance_le v
  rw [← Int64.toInt_toBitVec]
  have e : (clampViewDistance v).toUInt64.toInt64.toBitVec = (clampViewDistance v).toUInt64.toBitVec :=
    rfl
  rw [e, BitVec.toInt_eq_toNat_of_lt]
  · simp
  · simp; omega

theorem radiusSquared_eq (v : UInt32) : ∃ r, radiusSquared v = .ok r ∧
    r.toInt = (clampViewDistance v).toNat * (clampViewDistance v).toNat := by
  have h := clampViewDistance_le v
  have hr : ((clampViewDistance v).toNat : Int) * (clampViewDistance v).toNat ≤ 4096 := by
    have : (clampViewDistance v).toNat * (clampViewDistance v).toNat ≤ 64 * 64 :=
      Nat.mul_le_mul h h
    exact_mod_cast this
  have hp := mul_self_nonneg ((clampViewDistance v).toNat : Int)
  have fits := Checked.word64_of_fits .multiply
    (n := ((clampViewDistance v).toNat : Int) * (clampViewDistance v).toNat) (by omega) (by omega)
  refine ⟨_, ?_, Checked.toInt_of_word64 fits⟩
  simp only [radiusSquared, Checked.mul64, toInt_radius, fits]

/-- **Where the differences fit, the range test is exact.** -/
theorem inRange_eq {a p : ChunkPos} (h : a.Comparable p) (v : UInt32) :
    inRange a p v = .ok (decide (InView a v p)) := by
  unfold inRange
  by_cases hv : v = 0
  · simp [hv, InView]
  · obtain ⟨r, hr, hrv⟩ := radiusSquared_eq v
    rw [if_neg hv, ChunkPos.distanceSquared_eq h, hr]
    simp only [bind, Except.bind, pure, Except.pure, InView, ne_eq, hv, not_false_eq_true, true_and,
      Int64.le_iff_toInt_le, ChunkPos.toInt_gapSquared h, hrv]

/-- To split by range is to filter by what is in view. -/
theorem splitByRange_eq {a : ChunkPos} (v : UInt32) : ∀ {ps : List ChunkPos},
    (∀ p ∈ ps, a.Comparable p) →
      splitByRange a v ps = .ok (ps.filter (InView a v ·), ps.filter (¬ InView a v ·))
  | [], _ => rfl
  | p :: ps, h => by
    have ih := splitByRange_eq v (fun q hq => h q (List.mem_cons_of_mem p hq))
    rw [splitByRange, inRange_eq (h p List.mem_cons_self), ih]
    by_cases hp : InView a v p <;> simp [bind, Except.bind, pure, Except.pure, hp]

/-! ### The disc -/

/-- The square around `a` that contains its disc fits the plane. -/
structure ChunkPos.Inland (a : ChunkPos) (v : UInt32) : Prop where
  x : -2147483648 ≤ a.x.toInt - (clampViewDistance v).toNat ∧
    a.x.toInt + (clampViewDistance v).toNat ≤ 2147483647
  z : -2147483648 ≤ a.z.toInt - (clampViewDistance v).toNat ∧
    a.z.toInt + (clampViewDistance v).toNat ≤ 2147483647

theorem ChunkPos.Within.inland {a : ChunkPos} (h : a.Within anchorBound) (v : UInt32) :
    a.Inland v := by
  have hv := clampViewDistance_le v
  obtain ⟨⟨h1, h2⟩, h3, h4⟩ := h
  unfold anchorBound at *
  exact ⟨⟨by omega, by omega⟩, by omega, by omega⟩

theorem toInt_reach (v : UInt32) :
    (clampViewDistance v).toInt32.toInt = (clampViewDistance v).toNat := by
  have h := clampViewDistance_le v
  rw [← Int32.toInt_toBitVec]
  have e : (clampViewDistance v).toInt32.toBitVec = (clampViewDistance v).toBitVec := rfl
  rw [e, BitVec.toInt_eq_toNat_of_lt]
  · simp
  · simp; omega

/-- The interval around `c` holds the words at a distance of at most `r`. -/
theorem interval_spec {c r : Int32} (lo : -2147483648 ≤ c.toInt - r.toInt)
    (hi : c.toInt + r.toInt ≤ 2147483647) (hr : 0 ≤ r.toInt) : ∃ ws, interval c r = .ok ws ∧
      ∀ w, w ∈ ws ↔ c.toInt - r.toInt ≤ w.toInt ∧ w.toInt ≤ c.toInt + r.toInt := by
  have hlo := Checked.word32_of_fits .subtract lo (by omega)
  have hhi := Checked.word32_of_fits .add (n := c.toInt + r.toInt) (by omega) hi
  have elo := Checked.toInt_of_word32 hlo
  have ehi := Checked.toInt_of_word32 hhi
  have eq : interval c r = .ok ((List.range (c.toInt + r.toInt - (c.toInt - r.toInt) + 1).toNat).map
      fun (i : Nat) => Int32.ofInt (c.toInt - r.toInt + i)) := by
    simp only [interval, Checked.sub32, Checked.add32, hlo, hhi, bind, Except.bind, pure,
      Except.pure, elo, ehi]
  refine ⟨_, eq, fun w => ?_⟩
  simp only [List.mem_map, List.mem_range]
  constructor
  · rintro ⟨i, hi', rfl⟩
    rw [Int32.toInt_ofInt_of_le (by omega) (by omega)]
    omega
  · rintro ⟨h1, h2⟩
    have back : c.toInt - r.toInt + ((w.toInt - (c.toInt - r.toInt)).toNat : Int) = w.toInt := by
      omega
    refine ⟨(w.toInt - (c.toInt - r.toInt)).toNat, by omega, ?_⟩
    rw [back]
    exact Int32.ofInt_toInt w

/-- The square around `a` holds the columns that differ by at most the radius in each coordinate. -/
theorem square_spec {a : ChunkPos} {v : UInt32} (h : a.Inland v) : ∃ ps, square a v = .ok ps ∧
    ∀ p, p ∈ ps ↔ |a.x.toInt - p.x.toInt| ≤ (clampViewDistance v).toNat ∧
      |a.z.toInt - p.z.toInt| ≤ (clampViewDistance v).toNat := by
  have hr := toInt_reach v
  obtain ⟨xs, hxs, mxs⟩ := interval_spec (c := a.x) (r := (clampViewDistance v).toInt32)
    (by rw [hr]; exact h.x.1) (by rw [hr]; exact h.x.2) (by omega)
  obtain ⟨zs, hzs, mzs⟩ := interval_spec (c := a.z) (r := (clampViewDistance v).toInt32)
    (by rw [hr]; exact h.z.1) (by rw [hr]; exact h.z.2) (by omega)
  rw [hr] at mxs mzs
  refine ⟨xs.flatMap fun x => zs.map fun z => ⟨x, z⟩, ?_, fun p => ?_⟩
  · simp only [square, hxs, hzs, bind, Except.bind, pure, Except.pure]
  · simp only [List.mem_flatMap, List.mem_map, abs_le]
    constructor
    · rintro ⟨x, hx, z, hz, rfl⟩
      have h1 := (mxs x).mp hx
      have h2 := (mzs z).mp hz
      dsimp only
      omega
    · rintro ⟨hx, hz⟩
      have hxs : p.x ∈ xs := (mxs p.x).mpr ⟨by omega, by omega⟩
      have hzs : p.z ∈ zs := (mzs p.z).mpr ⟨by omega, by omega⟩
      exact ⟨p.x, hxs, p.z, hzs, rfl⟩

/-- **The listed disc holds exactly the columns in view.** -/
theorem mem_chunksInRange {a : ChunkPos} {v : UInt32} (h : a.Inland v) :
    ∃ ps, chunksInRange a v = .ok ps ∧ ∀ p, p ∈ ps ↔ InView a v p := by
  have hv := clampViewDistance_le v
  obtain ⟨candidates, hsq, hmem⟩ := square_spec h
  have hcomp : ∀ p ∈ candidates, a.Comparable p := by
    intro p hp
    have hnear := (hmem p).mp hp
    rw [abs_le, abs_le] at hnear
    exact ⟨⟨by omega, by omega⟩, ⟨by omega, by omega⟩, by omega⟩
  refine ⟨(ExtTreeSet.ofList (candidates.filter (InView a v ·)) (nearestFirst a)).toList, ?_,
    fun p => ?_⟩
  · simp only [chunksInRange, hsq, splitByRange_eq v hcomp, bind, Except.bind, pure, Except.pure]
  · rw [ExtTreeSet.mem_toList, ExtTreeSet.mem_ofList, List.contains_iff_mem, List.mem_filter]
    constructor
    · rintro ⟨-, hp⟩; simpa using hp
    · intro hp
      exact ⟨(hmem p).mpr hp.near, by simpa using hp⟩

end BlockWorld
