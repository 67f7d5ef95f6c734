import BlockWorld.World.Basic
import BlockWorld.Proofs.Range

/-! # Who watches which column

A world is looked at through three questions: is a column provided (`Provides`), was it ever fetched
(`Loaded`), does a viewer watch it (`Watched`). The lemmas say how each operation of the world
changes the answers.

* `watched_addViewer`, `watched_removeViewer`: the only two operations that change who watches.
* `Inside`, `Immeasurable`, `provides_eq`: what a border lets in, as numbers, and where the comparison fails.
* `fetch_eq`, `fetch_cases`: what a fetch answers and leaves, in each case.
* `exists_fetch`, `fetch_spec`: a fetch near the origin succeeds, and loads what the border lets in. -/

namespace BlockWorld.World

open Std

/-- The border lets the column at `p` in. -/
def Provides (w : World) (p : ChunkPos) : Prop := w.provides p = .ok true

/-- The column at `p` was fetched before. -/
def Loaded (w : World) (p : ChunkPos) : Prop := p ∈ w.columns

/-- `v` is among the viewers of the column at `p`. -/
def Watched (w : World) (p : ChunkPos) (v : ViewerId) : Prop :=
  ∃ c, w.column? p = some c ∧ c.hasViewer v = true

variable {w : World} {p q : ChunkPos} {u v : ViewerId}

theorem not_watched_empty : ¬ (⟨none, ∅⟩ : World).Watched p v := by
  rintro ⟨c, hc, -⟩
  simp [column?] at hc

theorem loaded_iff : w.Loaded p ↔ ∃ c, w.column? p = some c :=
  ExtTreeMap.mem_iff_isSome_getElem?.trans Option.isSome_iff_exists

theorem Loaded.column (h : w.Loaded p) : ∃ c, w.column? p = some c := loaded_iff.mp h

/-- The border alone decides what is provided. -/
theorem provides_congr {w' : World} (h : w'.border = w.border) : w'.Provides p ↔ w.Provides p := by
  simp only [Provides, provides, h]

/-! ### Changing one column -/

@[simp] theorem border_modify (f : Column → Column) : (w.modify p f).border = w.border := rfl

@[simp] theorem border_addViewer : (w.addViewer p v).border = w.border := rfl

@[simp] theorem border_removeViewer : (w.removeViewer p v).border = w.border := rfl

theorem column?_modify (f : Column → Column) :
    (w.modify p f).column? q = if p = q then (w.column? p).map f else w.column? q := by
  simp only [column?, modify, ExtTreeMap.getElem?_modify, Std.compare_eq_iff_eq]

@[simp] theorem loaded_modify (f : Column → Column) : (w.modify p f).Loaded q ↔ w.Loaded q :=
  ExtTreeMap.mem_modify

@[simp] theorem loaded_addViewer : (w.addViewer p v).Loaded q ↔ w.Loaded q := loaded_modify _

@[simp] theorem loaded_removeViewer : (w.removeViewer p v).Loaded q ↔ w.Loaded q := loaded_modify _

/-- A change that keeps the viewers of each column keeps who watches. -/
theorem watched_modify {f : Column → Column} (h : ∀ c, (f c).viewers = c.viewers) :
    (w.modify p f).Watched q u ↔ w.Watched q u := by
  simp only [Watched, column?_modify, Column.hasViewer]
  by_cases hpq : p = q
  · subst hpq
    cases hc : w.column? p <;> simp [h]
  · simp [hpq]

theorem hasViewer_addViewer {c : Column} :
    (c.addViewer v).hasViewer u = true ↔ u = v ∨ c.hasViewer u = true := by
  rw [Column.hasViewer, Column.addViewer, ExtTreeSet.contains_insert, Bool.or_eq_true, beq_iff_eq,
    Std.compare_eq_iff_eq, Column.hasViewer, eq_comm]

theorem hasViewer_removeViewer {c : Column} :
    (c.removeViewer v).hasViewer u = true ↔ u ≠ v ∧ c.hasViewer u = true := by
  rw [Column.hasViewer, Column.removeViewer, ExtTreeSet.contains_erase, Bool.and_eq_true,
    bne_iff_ne, ne_eq, Std.compare_eq_iff_eq, Column.hasViewer, ne_eq, eq_comm]

theorem watched_addViewer :
    (w.addViewer p v).Watched q u ↔ w.Watched q u ∨ (w.Loaded p ∧ q = p ∧ u = v) := by
  simp only [Watched, addViewer, column?_modify]
  by_cases hpq : p = q
  · subst hpq
    cases hc : w.column? p with
    | none =>
      have unloaded : ¬ w.Loaded p := by
        intro h
        obtain ⟨c, hc'⟩ := h.column
        rw [hc] at hc'
        cases hc'
      simp [unloaded]
    | some c =>
      have loaded : w.Loaded p := loaded_iff.mpr ⟨c, hc⟩
      simp only [if_true, Option.map_some, Option.some.injEq, exists_eq_left', hasViewer_addViewer,
        loaded, true_and]
      exact or_comm
  · simp [hpq, Ne.symm hpq]

theorem watched_removeViewer :
    (w.removeViewer p v).Watched q u ↔ w.Watched q u ∧ ¬ (q = p ∧ u = v) := by
  simp only [Watched, removeViewer, column?_modify]
  by_cases hpq : p = q
  · subst hpq
    cases hc : w.column? p with
    | none => simp
    | some c =>
      simp only [if_true, Option.map_some, Option.some.injEq, exists_eq_left', true_and,
        hasViewer_removeViewer]
      exact and_comm
  · simp [hpq, Ne.symm hpq]

/-! ### The border -/

/-- The absolute value of a word, which only the least word does not have. -/
theorem abs32_eq (c : Int32) : Checked.abs32 c =
    if c = Int32.minValue then .error .negate else .ok (Int32.ofInt |c.toInt|) := by
  have hmin : c = Int32.minValue ↔ c.toInt = -2147483648 := Int32.toInt_inj.symm
  have h1 := c.le_toInt
  have h2 := c.toInt_lt
  unfold Checked.abs32 Checked.neg32 Checked.word32
  simp only [hmin]
  by_cases hneg : c < 0
  · have h3 : c.toInt < 0 := Int32.lt_iff_toInt_lt.mp hneg
    rw [if_pos hneg, abs_of_neg h3]
    by_cases h4 : c.toInt = -2147483648
    · rw [if_neg (by omega), if_pos h4]
    · rw [if_pos (by omega), if_neg h4]
  · have h3 : ¬ c.toInt < 0 := fun h => hneg (Int32.lt_iff_toInt_lt.mpr h)
    rw [if_neg hneg, if_neg (by omega), abs_of_nonneg (by omega), Int32.ofInt_toInt]

/-- A word is below the absolute value of another just if it is as a number. -/
theorem lt_abs_iff {b c : Int32} (h : c ≠ Int32.minValue) :
    b < Int32.ofInt |c.toInt| ↔ b.toInt < |c.toInt| := by
  have hmin : c.toInt ≠ -2147483648 := fun h' => h (Int32.toInt_inj.mp h')
  have h1 := c.le_toInt
  have h2 := c.toInt_lt
  have h3 : |c.toInt| ≤ 2147483647 := abs_le.mpr ⟨by omega, by omega⟩
  have h4 := abs_nonneg c.toInt
  rw [Int32.lt_iff_toInt_lt, Int32.toInt_ofInt_of_le (by omega) (by omega)]

/-- Both coordinates are at most the border in absolute value. -/
def Inside : Option Int32 → ChunkPos → Prop
  | none, _ => True
  | some b, p => |p.x.toInt| ≤ b.toInt ∧ |p.z.toInt| ≤ b.toInt

/-- A coordinate is compared with the border that has no absolute value among the words: `x`, or `z` where
`x` is not beyond the border. -/
def Immeasurable : Option Int32 → ChunkPos → Prop
  | none, _ => False
  | some b, p => p.x = Int32.minValue ∨ (|p.x.toInt| ≤ b.toInt ∧ p.z = Int32.minValue)

instance : (border : Option Int32) → (p : ChunkPos) → Decidable (Inside border p)
  | none, _ => .isTrue trivial
  | some b, p => inferInstanceAs (Decidable (|p.x.toInt| ≤ b.toInt ∧ |p.z.toInt| ≤ b.toInt))

instance : (border : Option Int32) → (p : ChunkPos) → Decidable (Immeasurable border p)
  | none, _ => .isFalse id
  | some b, p =>
    inferInstanceAs (Decidable (p.x = Int32.minValue ∨ (|p.x.toInt| ≤ b.toInt ∧ p.z = Int32.minValue)))

/-- **What the border says of a position.** -/
theorem provides_eq (w : World) (p : ChunkPos) : w.provides p =
    if Immeasurable w.border p then .error .negate else .ok (decide (Inside w.border p)) := by
  unfold provides
  cases w.border with
  | none => rfl
  | some b =>
    simp only [Immeasurable, Inside, abs32_eq]
    by_cases hx : p.x = Int32.minValue
    · simp [hx, bind, Except.bind]
    have hbx := lt_abs_iff (b := b) hx
    by_cases hxb : |p.x.toInt| ≤ b.toInt
    · by_cases hz : p.z = Int32.minValue
      · simp [hx, hz, hxb, hbx, bind, Except.bind]
      · have hbz := lt_abs_iff (b := b) hz
        simp [hx, hz, hxb, hbx, hbz, bind, Except.bind, pure, Except.pure, ← decide_not]
    · simp [hx, hxb, hbx, bind, Except.bind, pure, Except.pure]

/-- Where `x` is beyond the border, `z` is not looked at. -/
example : (World.mk (some 2) ∅).provides ⟨3, Int32.minValue⟩ = .ok false ∧
    (World.mk (some 2) ∅).provides ⟨2, Int32.minValue⟩ = .error .negate := by decide

/-- The least word is beyond every border. -/
theorem ne_minValue_of_abs_le {b c : Int32} (h : |c.toInt| ≤ b.toInt) : c ≠ Int32.minValue := by
  rintro rfl
  have h1 := b.toInt_lt
  have h2 : |Int32.minValue.toInt| = 2147483648 := by decide
  omega

/-- A position that the border lets in can be compared with it. -/
theorem Inside.measurable {border : Option Int32} (h : Inside border p) : ¬ Immeasurable border p := by
  cases border with
  | none => exact id
  | some b =>
    obtain ⟨hx, hz⟩ := h
    rintro (least | ⟨-, least⟩)
    · exact ne_minValue_of_abs_le hx least
    · exact ne_minValue_of_abs_le hz least

theorem provides_iff : w.Provides p ↔ Inside w.border p := by
  rw [Provides, provides_eq]
  constructor
  · intro h
    split at h
    · cases h
    · exact of_decide_eq_true (Except.ok.inj h)
  · intro h
    rw [if_neg h.measurable, decide_eq_true h]

/-- Near the origin the border test does not overflow. -/
theorem measurable_of_within (border : Option Int32) (h : p.Within columnBound) :
    ¬ Immeasurable border p := by
  have hmin : ∀ c : Int32, -columnBound ≤ c.toInt → c ≠ Int32.minValue := by
    rintro c hc rfl
    revert hc
    decide
  have hx := hmin p.x h.1.1
  have hz := hmin p.z h.2.1
  cases border with
  | none => exact id
  | some b => simp [Immeasurable, hx, hz]

/-! ### Fetches -/

/-- **What a fetch answers and does.** -/
theorem fetch_eq (w : World) (p : ChunkPos) : w.fetch p =
    if Immeasurable w.border p then .error .negate
    else if Inside w.border p then
      .ok (if p ∈ w.columns then (.found, w)
        else (.created, { w with columns := w.columns.insert p {} }))
    else .ok (.outside, w) := by
  unfold fetch
  rw [provides_eq]
  by_cases failing : Immeasurable w.border p
  · rw [if_pos failing, if_pos failing]
    rfl
  rw [if_neg failing, if_neg failing]
  by_cases inside : Inside w.border p
  · by_cases known : p ∈ w.columns
    · have h : w.columns.contains p = true := known
      simp [inside, known, h, bind, Except.bind, pure, Except.pure]
    · have h : ¬ w.columns.contains p = true := known
      simp [inside, known, h, bind, Except.bind, pure, Except.pure]
  · simp [inside, bind, Except.bind, pure, Except.pure]

theorem exists_fetch (w : World) (h : p.Within columnBound) : ∃ f w', w.fetch p = .ok (f, w') := by
  rw [fetch_eq, if_neg (measurable_of_within w.border h)]
  split
  · split <;> exact ⟨_, _, rfl⟩
  · exact ⟨_, _, rfl⟩

/-- **What came of a fetch that succeeds**, and what it leaves. -/
theorem fetch_cases {f : Fetch} {w' : World} (h : w.fetch p = .ok (f, w')) :
    (¬ w.Provides p ∧ f = .outside ∧ w' = w) ∨
    (w.Provides p ∧ w.Loaded p ∧ f = .found ∧ w' = w) ∨
    (w.Provides p ∧ ¬ w.Loaded p ∧ f = .created ∧
      w' = { w with columns := w.columns.insert p {} }) := by
  rw [fetch_eq] at h
  split at h
  · cases h
  rw [provides_iff]
  by_cases inside : Inside w.border p
  · rw [if_pos inside] at h
    by_cases known : p ∈ w.columns
    · rw [if_pos known] at h
      cases h
      exact Or.inr (Or.inl ⟨inside, known, rfl, rfl⟩)
    · rw [if_neg known] at h
      cases h
      exact Or.inr (Or.inr ⟨inside, known, rfl, rfl⟩)
  · rw [if_neg inside] at h
    cases h
    exact Or.inl ⟨inside, rfl, rfl⟩

theorem column?_created (w : World) (p q : ChunkPos) :
    column? { w with columns := w.columns.insert p {} } q =
      if p = q then some {} else w.column? q := by
  simp only [column?, ExtTreeMap.getElem?_insert, Std.compare_eq_iff_eq]

theorem column?_eq_none (h : ¬ w.Loaded p) : w.column? p = none := ExtTreeMap.getElem?_eq_none h

/-- A fetch of the column at `p` turned `w` into `w'`: the column is provided if the border lets it
in, and then it is loaded. -/
structure Fetches (w : World) (p : ChunkPos) (f : Fetch) (w' : World) : Prop where
  border : w'.border = w.border
  provided : f.provided = true ↔ w.Provides p
  loaded : ∀ q, w'.Loaded q ↔ w.Loaded q ∨ (q = p ∧ w.Provides p)
  watched : ∀ q u, w'.Watched q u ↔ w.Watched q u

/-- **A fetch that succeeds** loads what the border lets in and changes nothing else. -/
theorem fetch_spec {f : Fetch} {w' : World} (h : w.fetch p = .ok (f, w')) : w.Fetches p f w' := by
  rcases fetch_cases h with ⟨out, rfl, rfl⟩ | ⟨provided, loaded, rfl, rfl⟩ |
    ⟨provided, unloaded, rfl, rfl⟩
  · exact ⟨rfl, by simp [Fetch.provided, out], by simp [out], fun _ _ => Iff.rfl⟩
  · refine ⟨rfl, by simp [Fetch.provided, provided], fun q => ?_, fun _ _ => Iff.rfl⟩
    constructor
    · exact Or.inl
    · rintro (hq | ⟨rfl, -⟩)
      · exact hq
      · exact loaded
  · refine ⟨rfl, by simp [Fetch.provided, provided], fun q => ?_, fun q u => ?_⟩
    · simp only [Loaded, ExtTreeMap.mem_insert, Std.compare_eq_iff_eq, provided, and_true]
      rw [or_comm, eq_comm]
    · simp only [Watched, column?_created]
      by_cases hpq : p = q
      · subst hpq
        simp [column?_eq_none unloaded, Column.hasViewer]
      · simp [hpq]

end BlockWorld.World
