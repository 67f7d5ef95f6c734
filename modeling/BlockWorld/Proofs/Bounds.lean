import Mathlib.Data.List.Induction
import Mathlib.Data.List.Nodup
import BlockWorld.Attribute

/-! # A number that is set ends up within its bounds

A value is moved into the bounds of its attribute before it is stored, whatever was stored before: every
number, the infinities and both zeros too, ends up between them. A NaN lies beyond neither bound, so it
is not moved, and it is stored. The attribute is out of its bounds then, until a number is set.

* `compare_swap`, `compare_congr`: the order of floats that are no NaN, and equal ones in it.
* `clampToBounds_mem`, `clampToBounds_nan`: what is stored of a value.
* `AttributeEntry.put`, `put_inBounds`: what becomes of an attribute to which a value is set.
* `AttributeMap.entries_set`, `entries_setAll`: the attributes one by one.
* `assignAll_cases`: the last value that was set under its name decides on an attribute.
* `attribute_out_of_bounds`: an attribute that is set to NaN.
* `attributes_in_bounds_iff`: which attributes are within their bounds, after any calls. -/

namespace BlockWorld

open Float.Model

/-! ### The order of floats -/

/-- Two floats that are no NaN compare, and the other way round the other way. -/
theorem compare_swap {x y : UnpackedFloat} (hx : x.isNaN = false) (hy : y.isNaN = false) :
    ∃ o, x.compare y = some o ∧ y.compare x = some o.swap := by
  cases x with
  | notANumber => cases hx
  | infinity s =>
    cases y with
    | notANumber => cases hy
    | infinity t => cases s <;> cases t <;> exact ⟨_, rfl, rfl⟩
    | zero t => cases s <;> exact ⟨_, rfl, rfl⟩
    | finite t m e pos => cases s <;> exact ⟨_, rfl, rfl⟩
  | zero s =>
    cases y with
    | notANumber => cases hy
    | infinity t => cases t <;> exact ⟨_, rfl, rfl⟩
    | zero t => exact ⟨_, rfl, rfl⟩
    | finite t m e pos => cases t <;> exact ⟨_, rfl, rfl⟩
  | finite s m e pos =>
    cases y with
    | notANumber => cases hy
    | infinity t => cases t <;> exact ⟨_, rfl, rfl⟩
    | zero t => cases s <;> exact ⟨_, rfl, rfl⟩
    | finite t m' e' pos' =>
      have turned : ((compare e e').then (compare m m')).swap =
          (compare e' e).then (compare m' m) := by
        rw [Ordering.swap_then, ← Std.OrientedOrd.eq_swap, ← Std.OrientedOrd.eq_swap]
      cases s <;> cases t
      · exact ⟨_, rfl, by rw [turned]; rfl⟩
      · exact ⟨_, rfl, rfl⟩
      · exact ⟨_, rfl, rfl⟩
      · exact ⟨_, rfl, by rw [turned]; rfl⟩

/-- Floats that compare equal are the same, or both are zeros. -/
theorem eq_or_zero {x y : UnpackedFloat} (h : x.compare y = some .eq) :
    x = y ∨ ∃ s t, x = .zero s ∧ y = .zero t := by
  have same {e e' : Int} {m m' : Nat} (h : (compare e e').then (compare m m') = .eq) :
      e = e' ∧ m = m' := by
    obtain ⟨he, hm⟩ := Ordering.then_eq_eq.mp h
    exact ⟨Std.LawfulEqOrd.eq_of_compare he, Std.LawfulEqOrd.eq_of_compare hm⟩
  cases x with
  | notANumber => cases h
  | infinity s =>
    cases y with
    | infinity t => cases s <;> cases t <;> first | exact Or.inl rfl | cases h
    | notANumber => cases s <;> cases h
    | zero t => cases s <;> cases h
    | finite t m e pos => cases s <;> cases h
  | zero s =>
    cases y with
    | zero t => exact Or.inr ⟨s, t, rfl, rfl⟩
    | notANumber => cases h
    | infinity t => cases t <;> cases h
    | finite t m e pos => cases t <;> cases h
  | finite s m e pos =>
    cases y with
    | notANumber => cases s <;> cases h
    | infinity t => cases t <;> cases s <;> cases h
    | zero t => cases s <;> cases h
    | finite t m' e' pos' =>
      cases s <;> cases t
      · obtain ⟨rfl, rfl⟩ := same (Ordering.swap_eq_eq.mp (Option.some.inj h))
        exact Or.inl rfl
      · cases h
      · cases h
      · obtain ⟨rfl, rfl⟩ := same (Option.some.inj h)
        exact Or.inl rfl

/-- Floats that compare equal are in the same order to any other. -/
theorem compare_congr {x y : UnpackedFloat} (h : x.compare y = some .eq) (z : UnpackedFloat) :
    x.compare z = y.compare z ∧ z.compare x = z.compare y := by
  rcases eq_or_zero h with rfl | ⟨s, t, rfl, rfl⟩
  · exact ⟨rfl, rfl⟩
  · cases z with
    | notANumber => exact ⟨rfl, rfl⟩
    | infinity u => cases u <;> exact ⟨rfl, rfl⟩
    | zero u => exact ⟨rfl, rfl⟩
    | finite u m e pos => cases u <;> exact ⟨rfl, rfl⟩

section Order

variable {a b c : Float32}

theorem less_iff_compare : a < b ↔ a.toModel.unpack.compare b.toModel.unpack = some .lt :=
  decide_eq_true_iff.trans beq_iff_eq

theorem le_iff_compare :
    a ≤ b ↔ ∃ o, a.toModel.unpack.compare b.toModel.unpack = some o ∧ o.isLE = true :=
  decide_eq_true_iff.trans (Option.any_eq_true _ _)

theorem equal_iff_compare :
    (a == b) = true ↔ a.toModel.unpack.compare b.toModel.unpack = some .eq := by
  show (a.toModel.unpack.compare b.toModel.unpack == some .eq) = true ↔ _
  exact beq_iff_eq

/-- Of two numbers of which the first is not smaller, the second is at most the first. -/
theorem le_of_not_less (ha : a.isNaN = false) (hb : b.isNaN = false) (h : ¬ a < b) : b ≤ a := by
  obtain ⟨o, forth, back⟩ := compare_swap (x := a.toModel.unpack) (y := b.toModel.unpack) ha hb
  refine le_iff_compare.mpr ⟨_, back, ?_⟩
  cases o with
  | lt => exact absurd (less_iff_compare.mpr forth) h
  | eq => rfl
  | gt => rfl

/-- A number equals itself. -/
theorem number_equal_self (ha : a.isNaN = false) : (a == a) = true := by
  obtain ⟨o, forth, back⟩ := compare_swap (x := a.toModel.unpack) (y := a.toModel.unpack) ha ha
  have turned : some o = some o.swap := forth.symm.trans back
  cases o with
  | lt => cases turned
  | eq => exact equal_iff_compare.mpr forth
  | gt => cases turned

theorem number_le_self (ha : a.isNaN = false) : a ≤ a :=
  le_iff_compare.mpr ⟨.eq, equal_iff_compare.mp (number_equal_self ha), rfl⟩

/-- Floats that are equal lie between the same bounds. -/
theorem le_congr (h : (a == b) = true) : (c ≤ a ↔ c ≤ b) ∧ (a ≤ c ↔ b ≤ c) := by
  obtain ⟨right, left⟩ := compare_congr (equal_iff_compare.mp h) c.toModel.unpack
  rw [le_iff_compare, le_iff_compare, le_iff_compare, le_iff_compare, left, right]
  exact ⟨Iff.rfl, Iff.rfl⟩

/-- A NaN compares to no float. -/
theorem nan_compare (ha : a.isNaN = true) (b : Float32) :
    a.toModel.unpack.compare b.toModel.unpack = none ∧
      b.toModel.unpack.compare a.toModel.unpack = none := by
  have isNaN : a.toModel.unpack = .notANumber := by
    have isNaN : a.toModel.unpack.isNaN = true := ha
    cases h : a.toModel.unpack with
    | notANumber => rfl
    | infinity s => rw [h] at isNaN; cases isNaN
    | zero s => rw [h] at isNaN; cases isNaN
    | finite s m e pos => rw [h] at isNaN; cases isNaN
  rw [isNaN]
  refine ⟨rfl, ?_⟩
  cases b.toModel.unpack with
  | notANumber => rfl
  | infinity s => cases s <;> rfl
  | zero s => rfl
  | finite s m e pos => cases s <;> rfl

/-- A NaN is beyond no bound, within none, and equals no float. -/
theorem nan_unordered (ha : a.isNaN = true) (b : Float32) :
    (¬ a < b ∧ ¬ b < a) ∧ ¬ b ≤ a ∧ (b == a) = false := by
  obtain ⟨forth, back⟩ := nan_compare ha b
  rw [less_iff_compare, less_iff_compare, le_iff_compare, ← Bool.not_eq_true, equal_iff_compare,
    forth, back]
  exact ⟨⟨nofun, nofun⟩, nofun, nofun⟩

end Order

/-! ### What is stored of a value -/

section Clamp

variable {value min max : Float32}

/-- A number is moved into the bounds. -/
theorem clampToBounds_mem (hmin : min.isNaN = false) (hmax : max.isNaN = false)
    (ordered : min ≤ max) (number : value.isNaN = false) :
    min ≤ clampToBounds value min max ∧ clampToBounds value min max ≤ max := by
  unfold clampToBounds
  by_cases below : value < min
  · rw [if_pos below]
    exact ⟨number_le_self hmin, ordered⟩
  · rw [if_neg below]
    by_cases above : max < value
    · rw [if_pos above]
      exact ⟨ordered, number_le_self hmax⟩
    · rw [if_neg above]
      exact ⟨le_of_not_less number hmin below, le_of_not_less hmax number above⟩

theorem clampToBounds_number (hmin : min.isNaN = false) (hmax : max.isNaN = false)
    (number : value.isNaN = false) : (clampToBounds value min max).isNaN = false := by
  unfold clampToBounds
  split
  · exact hmin
  · split
    · exact hmax
    · exact number

/-- A NaN stays where it is. -/
theorem clampToBounds_nan (nan : value.isNaN = true) : clampToBounds value min max = value := by
  unfold clampToBounds
  rw [if_neg (nan_unordered nan min).1.1, if_neg (nan_unordered nan max).1.2]

end Clamp

/-- A call that sets a value to the attribute of a name. -/
structure AttributeCall where
  name : String
  value : Float32

namespace AttributeEntry

variable {e : AttributeEntry} {value : Float32}

/-- The value of the attribute lies between its bounds. -/
structure InBounds (e : AttributeEntry) : Prop where
  min_le : e.min ≤ e.current
  le_max : e.current ≤ e.max

instance (e : AttributeEntry) : Decidable e.InBounds :=
  decidable_of_iff (e.min ≤ e.current ∧ e.current ≤ e.max)
    ⟨fun h => ⟨h.1, h.2⟩, fun h => ⟨h.min_le, h.le_max⟩⟩

/-- The bounds of the attribute are numbers, the lower one at most the upper one. -/
structure Proper (e : AttributeEntry) : Prop where
  min_number : e.min.isNaN = false
  max_number : e.max.isNaN = false
  ordered : e.min ≤ e.max

/-- All that is no value of the attribute: the name, the bounds and the default. -/
def frame (e : AttributeEntry) : String × Float32 × Float32 × Float32 :=
  (e.name, e.min, e.max, e.default)

/-- The attribute after `value` is set to it. -/
def put (value : Float32) (e : AttributeEntry) : AttributeEntry :=
  if e.current != clampToBounds value e.min e.max then
    { e with current := clampToBounds value e.min e.max }
  else e

/-- The attribute after a call that sets a value, to it or to another. -/
def assign (e : AttributeEntry) (call : AttributeCall) : AttributeEntry :=
  if e.name == call.name then e.put call.value else e

/-- The attribute after calls that set values. -/
def assignAll (e : AttributeEntry) (calls : List AttributeCall) : AttributeEntry :=
  calls.foldl assign e

/-- The value that calls set last to the attribute `name`. -/
def lastSet (name : String) (calls : List AttributeCall) : Option Float32 :=
  (calls.reverse.find? (·.name == name)).map (·.value)

@[simp] theorem frame_put (value : Float32) (e : AttributeEntry) : (e.put value).frame = e.frame := by
  unfold put
  split
  · rfl
  · rfl

@[simp] theorem frame_assign (e : AttributeEntry) (call : AttributeCall) :
    (e.assign call).frame = e.frame := by
  unfold assign
  split
  · exact frame_put call.value e
  · rfl

/-- No call changes what is no value. -/
@[simp] theorem frame_assignAll (e : AttributeEntry) (calls : List AttributeCall) :
    (e.assignAll calls).frame = e.frame := by
  induction calls generalizing e with
  | nil => rfl
  | cons call calls ih => exact (ih (e.assign call)).trans (frame_assign e call)

theorem frame_inj {e' : AttributeEntry} (same : e'.frame = e.frame) :
    e'.name = e.name ∧ e'.min = e.min ∧ e'.max = e.max ∧ e'.default = e.default := by
  simpa only [frame, Prod.mk.injEq] using same

theorem Proper.of_frame {e' : AttributeEntry} (same : e'.frame = e.frame) (h : e.Proper) :
    e'.Proper := by
  obtain ⟨-, hmin, hmax, -⟩ := frame_inj same
  exact ⟨hmin ▸ h.min_number, hmax ▸ h.max_number, hmin ▸ hmax ▸ h.ordered⟩

/-- **A number that is set** is within the bounds, whatever was stored before. -/
theorem put_inBounds (proper : e.Proper) (number : value.isNaN = false) :
    (e.put value).InBounds ∧ ((e.put value).current == clampToBounds value e.min e.max) = true := by
  have mem := clampToBounds_mem proper.min_number proper.max_number proper.ordered number
  have stored := clampToBounds_number proper.min_number proper.max_number number
  unfold put
  -- a value that is not stored equals the current one, which lies between the same bounds then
  by_cases unequal : (e.current != clampToBounds value e.min e.max) = true
  · rw [if_pos unequal]
    exact ⟨⟨mem.1, mem.2⟩, number_equal_self stored⟩
  · rw [if_neg unequal]
    have equal : (e.current == clampToBounds value e.min e.max) = true := by
      simpa only [bne, Bool.not_eq_true', Bool.not_eq_false] using unequal
    obtain ⟨lower, upper⟩ := le_congr (c := e.min) equal
    exact ⟨⟨lower.mpr mem.1, (le_congr equal).2.mpr mem.2⟩, equal⟩

/-- A NaN that is set is stored, and out of the bounds. -/
theorem put_nan (nan : value.isNaN = true) :
    (e.put value).current = value ∧ ¬ (e.put value).InBounds := by
  have unequal : (e.current != value) = true := by
    rw [bne, (nan_unordered nan e.current).2.2]
    rfl
  unfold put
  rw [clampToBounds_nan nan, if_pos unequal]
  exact ⟨rfl, fun h => (nan_unordered nan e.min).2.1 h.min_le⟩

theorem lastSet_concat (name : String) (calls : List AttributeCall) (call : AttributeCall) :
    lastSet name (calls ++ [call]) =
      if name == call.name then some call.value else lastSet name calls := by
  rw [lastSet, List.reverse_append, List.reverse_singleton, List.singleton_append, List.find?_cons,
    BEq.comm]
  cases name == call.name with
  | true => rfl
  | false => rfl

/-- **The last value that was set** decides on an attribute. -/
theorem assignAll_cases (e : AttributeEntry) (calls : List AttributeCall) :
    (lastSet e.name calls = none ∧ e.assignAll calls = e) ∨
      ∃ (value : Float32) (e' : AttributeEntry), lastSet e.name calls = some value ∧ e'.frame = e.frame ∧
        e.assignAll calls = e'.put value := by
  -- by the last call: it sets the attribute, or nothing has changed since the calls before it
  induction calls using List.reverseRecOn with
  | nil => exact Or.inl ⟨rfl, rfl⟩
  | append_singleton calls call ih =>
    have name : (e.assignAll calls).name = e.name := congrArg Prod.fst (frame_assignAll e calls)
    rw [assignAll, List.foldl_append, List.foldl_cons, List.foldl_nil, ← assignAll, lastSet_concat,
      assign, name]
    by_cases own : (e.name == call.name) = true
    · rw [if_pos own, if_pos own]
      exact Or.inr ⟨call.value, e.assignAll calls, rfl, frame_assignAll e calls, rfl⟩
    · rw [if_neg own, if_neg own]
      exact ih

/-- An attribute is within its bounds after calls exactly if the last value that was set to it is a
number. It is that number then, moved into the bounds. -/
theorem assignAll_inBounds_iff (proper : e.Proper) (initially : e.InBounds)
    (calls : List AttributeCall) :
    ((e.assignAll calls).InBounds ↔
        ∀ value, lastSet e.name calls = some value → value.isNaN = false) ∧
      match lastSet e.name calls with
      | none => (e.assignAll calls).current = e.current
      | some value =>
        if value.isNaN then (e.assignAll calls).current = value
        else ((e.assignAll calls).current == clampToBounds value e.min e.max) = true := by
  rcases e.assignAll_cases calls with ⟨unset, same⟩ | ⟨value, e', set, frame, same⟩
  · rw [unset, same]
    exact ⟨⟨fun _ => nofun, fun _ => initially⟩, rfl⟩
  · obtain ⟨-, hmin, hmax, -⟩ : e'.name = e.name ∧ e'.min = e.min ∧ e'.max = e.max ∧
        e'.default = e.default := by simpa only [AttributeEntry.frame, Prod.mk.injEq] using frame
    rw [set, same]
    cases nan : value.isNaN with
    | true =>
      obtain ⟨stored, out⟩ := put_nan (e := e') nan
      refine ⟨⟨fun h => absurd h out, fun h => ?_⟩, ?_⟩
      · exact absurd (h value rfl) (by rw [nan]; decide)
      · simpa only [nan, if_true] using stored
    | false =>
      obtain ⟨within, stored⟩ := put_inBounds (proper.of_frame frame) nan
      refine ⟨⟨fun _ _ h => Option.some.inj h ▸ nan, fun _ => within⟩, ?_⟩
      rw [hmin, hmax] at stored
      simpa only [nan, Bool.false_eq_true, if_false] using stored

end AttributeEntry

/-! ### The attributes of a player -/

namespace AttributeMap

variable {m : AttributeMap}

/-- The attributes after calls that set values. -/
def setAll (m : AttributeMap) (calls : List AttributeCall) : AttributeMap :=
  calls.foldl (fun m call => (m.set call.name call.value).2) m

def names (m : AttributeMap) : List String := m.entries.map (·.name)

theorem modifyFirst_eq_map {es : List AttributeEntry} (distinct : (es.map (·.name)).Nodup)
    (name : String) (f : AttributeEntry → AttributeEntry) :
    modifyFirst name f es = es.map fun e => if e.name == name then f e else e := by
  induction es with
  | nil => rfl
  | cons e es ih =>
    obtain ⟨fresh, distinct⟩ := List.nodup_cons.mp distinct
    rw [modifyFirst, List.map_cons]
    by_cases own : (e.name == name) = true
    · have others : es.map (fun e => if e.name == name then f e else e) = es := by
        refine (List.map_congr_left fun e' he' => ?_).trans (List.map_id es)
        refine if_neg fun same => fresh ?_
        exact List.mem_map.mpr ⟨e', he', (eq_of_beq same).trans (eq_of_beq own).symm⟩
      rw [if_pos own, if_pos own, others]
    · rw [if_neg own, if_neg own, ih distinct]

theorem entry?_eq_some {e : AttributeEntry} {name : String} (found : m.entry? name = some e) :
    e ∈ m.entries ∧ e.name = name :=
  ⟨List.mem_of_find?_eq_some found,
    eq_of_beq (List.find?_some (p := fun e : AttributeEntry => e.name == name) found)⟩

/-- The entry that is found under a name is the only one of that name. -/
theorem eq_entry {e e' : AttributeEntry} {name : String} (distinct : m.names.Nodup)
    (found : m.entry? name = some e) (he' : e' ∈ m.entries) (same : (e'.name == name) = true) :
    e' = e :=
  List.inj_on_of_nodup_map distinct he' (entry?_eq_some found).1
    ((eq_of_beq same).trans (entry?_eq_some found).2.symm)

/-- A call changes the attribute that it names. -/
theorem entries_set (distinct : m.names.Nodup) (call : AttributeCall) :
    (m.set call.name call.value).2.entries = m.entries.map (·.assign call) := by
  have unchanged (same : ∀ e ∈ m.entries, e.assign call = e) :
      m.entries = m.entries.map (·.assign call) :=
    ((List.map_congr_left same).trans (List.map_id m.entries)).symm
  rw [set]
  cases found : m.entry? call.name with
  | none =>
    refine unchanged fun e he => if_neg ?_
    exact List.find?_eq_none.mp found e he
  | some e =>
    by_cases unequal : (e.current != clampToBounds call.value e.min e.max) = true
    · simp only [if_pos unequal]
      rw [modifyFirst_eq_map distinct]
      refine List.map_congr_left fun e' he' => ?_
      by_cases own : (e'.name == call.name) = true
      · rw [if_pos own, AttributeEntry.assign, if_pos own, AttributeEntry.put,
          eq_entry distinct found he' own, if_pos unequal]
      · rw [if_neg own, AttributeEntry.assign, if_neg own]
    · simp only [if_neg unequal]
      refine unchanged fun e' he' => ?_
      by_cases own : (e'.name == call.name) = true
      · rw [AttributeEntry.assign, if_pos own, AttributeEntry.put,
          eq_entry distinct found he' own, if_neg unequal]
      · exact if_neg own

/-- Calls change the attributes one by one, each by the calls that name it. -/
theorem entries_setAll (distinct : m.names.Nodup) (calls : List AttributeCall) :
    (m.setAll calls).entries = m.entries.map (·.assignAll calls) := by
  induction calls generalizing m with
  | nil => exact (List.map_id m.entries).symm
  | cons call calls ih =>
    have entries := entries_set distinct call
    have names : (m.set call.name call.value).2.names = m.names := by
      rw [AttributeMap.names, entries, List.map_map]
      exact List.map_congr_left fun e _ => congrArg Prod.fst (e.frame_assign call)
    have rest := ih (m := (m.set call.name call.value).2) (by rw [names]; exact distinct)
    rw [entries, List.map_map] at rest
    exact rest

/-- A call tells whether there is an attribute of the name, and changes nothing if there is none. -/
theorem set_known_iff (m : AttributeMap) (name : String) (value : Float32) :
    ((m.set name value).1 = true ↔ name ∈ m.names) ∧
      (name ∉ m.names → m.set name value = (false, m)) := by
  rw [set]
  cases found : m.entry? name with
  | none =>
    have unknown : name ∉ m.names := fun known => by
      obtain ⟨e, he, rfl⟩ := List.mem_map.mp known
      exact List.find?_eq_none.mp found e he (beq_self_eq_true e.name)
    exact ⟨⟨nofun, fun known => absurd known unknown⟩, fun _ => rfl⟩
  | some e =>
    have known : name ∈ m.names := List.mem_map.mpr ⟨e, entry?_eq_some found⟩
    refine ⟨⟨fun _ => known, fun _ => ?_⟩, fun unknown => absurd known unknown⟩
    dsimp only
    split
    · rfl
    · rfl

end AttributeMap

/-- **Health that is not a number**: a NaN is stored as the health, and that is neither at least the
lower bound nor at most the upper one. -/
theorem attribute_out_of_bounds :
    let m := AttributeMap.playerDefaults.setAll [⟨AttributeName.health, 0 / 0⟩]
    ¬ (∀ e ∈ m.entries, e.InBounds) ∧
      ∃ e ∈ m.entries, e.name = AttributeName.health ∧ ¬ e.min ≤ e.current ∧ ¬ e.current ≤ e.max := by
  decide +kernel

/-- The bounds of the attributes of a player are numbers, and each starts at its default, between
them. -/
theorem playerDefaults_proper :
    ∀ e ∈ AttributeMap.playerDefaults.entries,
      e.Proper ∧ e.InBounds ∧ e.current = e.default := by
  have proper : ∀ e ∈ AttributeMap.playerDefaults.entries,
      (e.min.isNaN = false ∧ e.max.isNaN = false ∧ e.min ≤ e.max) ∧
        e.InBounds ∧ e.current = e.default := by decide +kernel
  intro e he
  obtain ⟨⟨hmin, hmax, ordered⟩, initially, initial⟩ := proper e he
  exact ⟨⟨hmin, hmax, ordered⟩, initially, initial⟩

/-- **Attributes within their bounds**: after any calls that set values to the attributes of a player, the
names, their order, the bounds and the defaults are those at the start. An attribute is within its
bounds exactly if the last value that was set to it, if any, is a number. It is that value then, moved
into the bounds; a NaN is stored as it is, and an attribute that no call names is at its default. The
next call tells whether it names an attribute, and changes nothing if it does not. -/
theorem attributes_in_bounds_iff (calls : List AttributeCall) :
    let m := AttributeMap.playerDefaults.setAll calls
    (m.entries.map fun e => (e.name, e.min, e.max, e.default)) =
        (AttributeMap.playerDefaults.entries.map fun e => (e.name, e.min, e.max, e.default)) ∧
      (∀ e ∈ m.entries,
        (e.InBounds ↔
          ∀ value, AttributeEntry.lastSet e.name calls = some value → value.isNaN = false) ∧
        match AttributeEntry.lastSet e.name calls with
        | none => e.current = e.default
        | some value =>
          if value.isNaN then e.current = value
          else (e.current == clampToBounds value e.min e.max) = true) ∧
      ∀ name value,
        ((m.set name value).1 = true ↔ name ∈ AttributeMap.playerDefaults.names) ∧
          (name ∉ AttributeMap.playerDefaults.names → m.set name value = (false, m)) := by
  intro m
  have distinct : AttributeMap.playerDefaults.names.Nodup := by decide
  have entries := AttributeMap.entries_setAll distinct calls
  have frames : m.entries.map (·.frame) = AttributeMap.playerDefaults.entries.map (·.frame) := by
    rw [entries, List.map_map]
    exact List.map_congr_left fun e _ => e.frame_assignAll calls
  have names : m.names = AttributeMap.playerDefaults.names := by
    have names := congrArg (List.map Prod.fst) frames
    rwa [List.map_map, List.map_map] at names
  refine ⟨frames, ?_, fun name value => ?_⟩
  · intro e' he'
    rw [entries] at he'
    obtain ⟨e, he, rfl⟩ := List.mem_map.mp he'
    obtain ⟨proper, initially, initial⟩ := playerDefaults_proper e he
    obtain ⟨name, hmin, hmax, default⟩ := AttributeEntry.frame_inj (e.frame_assignAll calls)
    obtain ⟨within, value⟩ := AttributeEntry.assignAll_inBounds_iff proper initially calls
    rw [name, hmin, hmax, default, ← initial]
    exact ⟨within, value⟩
  · rw [← names]
    exact AttributeMap.set_known_iff m name value

end BlockWorld
