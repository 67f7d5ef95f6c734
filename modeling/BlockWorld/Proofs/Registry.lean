import Mathlib.Data.List.Nodup
import BlockWorld.Registry
import BlockWorld.Proofs.Tracked

/-! # The two indexes of the registry

A registry finds its members by name and by handle. As long as each member stands under its own name
and its own handle, the two indexes hold the same members, and no two of them share a name or a
handle.

* `Registry.Paired`: the two indexes hold the same members.
* `refusal?_eq_none_iff`, `refusal?_of_free`: a registration is not refused if name and handle are free and
  there is room.
* `Paired.bind`, `Paired.unbind`: registering and taking out keep the indexes paired.
* `length_players`, `size_bind_le`: how many members there are; `Shrinks`: nobody was registered.
* `mem_players`, `Paired.nodup_names`, `Paired.nodup_handles`: the list of members.
* `Paired.byName?_eq_some_iff`, `Paired.byHandle?_eq_some_iff`, `Paired.size_eq`: both indexes lead to the
  members and are of one size. -/

namespace BlockWorld.Registry

open Std

/-- Every member stands under its own name and its own handle, in both indexes. -/
structure Paired (r : Registry) : Prop where
  name : ∀ {name m}, r.byName? name = some m → m.name = name ∧ r.byHandle? m.handle = some m
  handle : ∀ {handle m}, r.byHandle? handle = some m → m.handle = handle ∧ r.byName? m.name = some m

variable {r : Registry} {m m' : Member} {name : String} {handle : Handle}

theorem paired_empty : (Registry.mk ∅ ∅).Paired := by
  refine ⟨fun h => ?_, fun h => ?_⟩ <;> simp [byName?, byHandle?] at h

/-! ### Looking up -/

theorem byName?_bind (name' : String) : (r.bind name handle m).byName? name' =
    if name = name' then some m else r.byName? name' := by
  simp only [byName?, bind, ExtTreeMap.getElem?_insert, Std.compare_eq_iff_eq]

theorem byHandle?_bind (handle' : Handle) : (r.bind name handle m).byHandle? handle' =
    if handle = handle' then some m else r.byHandle? handle' := by
  simp only [byHandle?, bind, ExtTreeMap.getElem?_insert, Std.compare_eq_iff_eq]

/-- A registry in which nobody is found is empty. -/
theorem eq_empty (named : ∀ name, r.byName? name = none) (bound : ∀ handle, r.byHandle? handle = none) :
    r = {} := by
  cases r
  congr 1
  · exact ExtTreeMap.ext_getElem? fun name => (named name).trans ExtTreeMap.getElem?_empty.symm
  · exact ExtTreeMap.ext_getElem? fun handle => (bound handle).trans ExtTreeMap.getElem?_empty.symm

theorem refusal?_eq_none {limit : Nat} (h : r.refusal? name handle limit = none) :
    r.byName? name = none ∧ r.byHandle? handle = none ∧ r.size < limit := by
  unfold refusal? at h
  split at h
  · cases h
  · rename_i hn
    split at h
    · cases h
    · rename_i hh
      split at h
      · cases h
      · rename_i hl
        have freeName : r.byName? name = none := by
          rw [byName?, ← Option.isNone_iff_eq_none]
          rw [ExtTreeMap.contains_eq_isSome_getElem?] at hn
          simpa using hn
        have freeHandle : r.byHandle? handle = none := by
          rw [byHandle?, ← Option.isNone_iff_eq_none]
          rw [ExtTreeMap.contains_eq_isSome_getElem?] at hh
          simpa using hh
        exact ⟨freeName, freeHandle, by omega⟩

/-- A bound member is taken out of both indexes. -/
theorem unbind_of_bound (h : r.byName? m.name = some m) :
    r.unbind m = ⟨r.byName.erase m.name, r.byHandle.erase m.handle⟩ := by
  have : r.isBound m = true := by simp [isBound, h]
  rw [unbind, if_pos this]

/-- Nothing changes if the name is bound to nobody, or to another session. -/
theorem unbind_of_not_bound (h : ∀ m', r.byName? m.name = some m' → m'.session ≠ m.session) :
    r.unbind m = r := by
  have : ¬ r.isBound m = true := by
    intro hb
    obtain ⟨m', hm', he⟩ := (Option.any_eq_true _ _).mp hb
    exact h m' hm' (by simpa using he)
  rw [unbind, if_neg this]

theorem byName?_unbind (h : r.byName? m.name = some m) (name' : String) :
    (r.unbind m).byName? name' = if m.name = name' then none else r.byName? name' := by
  simp only [unbind_of_bound h, byName?, ExtTreeMap.getElem?_erase, Std.compare_eq_iff_eq]

theorem byHandle?_unbind (h : r.byName? m.name = some m) (handle' : Handle) :
    (r.unbind m).byHandle? handle' = if m.handle = handle' then none else r.byHandle? handle' := by
  simp only [unbind_of_bound h, byHandle?, ExtTreeMap.getElem?_erase, Std.compare_eq_iff_eq]

/-! ### How many there are -/

theorem length_players (r : Registry) : r.players.length = r.size := by
  rw [players, values_eq_map_toList, List.length_map, ExtTreeMap.length_toList, size]

theorem size_bind_le : (r.bind name handle m).size ≤ r.size + 1 := ExtTreeMap.size_insert_le

/-- From `r` to `r'` nobody was registered. -/
structure Shrinks (r r' : Registry) : Prop where
  size : r'.size ≤ r.size
  byHandle : ∀ {handle m}, r'.byHandle? handle = some m → r.byHandle? handle = some m

theorem Shrinks.refl (r : Registry) : r.Shrinks r := ⟨le_rfl, fun h => h⟩

theorem Shrinks.trans {r' r'' : Registry} (h : r.Shrinks r') (h' : r'.Shrinks r'') : r.Shrinks r'' :=
  ⟨h'.size.trans h.size, fun hm => h.byHandle (h'.byHandle hm)⟩

theorem shrinks_unbind (r : Registry) (m : Member) : r.Shrinks (r.unbind m) := by
  unfold unbind
  split
  · refine ⟨ExtTreeMap.size_erase_le, fun {handle m'} hm => ?_⟩
    simp only [byHandle?, ExtTreeMap.getElem?_erase] at hm
    split at hm
    · cases hm
    · exact hm
  · exact .refl r

/-- What stands against a registration under a free handle: the name, or else the number of members. -/
theorem refusal?_of_free (h : r.byHandle? handle = none) (name : String) (limit : Nat) :
    r.refusal? name handle limit =
      if (r.byName? name).isSome then some .nameTaken
      else if limit ≤ r.players.length then some .full else none := by
  have unbound : r.byHandle.contains handle = false := by
    rw [ExtTreeMap.contains_eq_isSome_getElem?, Option.isSome_eq_false_iff, Option.isNone_iff_eq_none]
    exact h
  rw [refusal?, unbound, ExtTreeMap.contains_eq_isSome_getElem?, length_players]
  rfl

theorem refusal?_eq_none_iff : r.refusal? name handle limit = none ↔
    r.byName? name = none ∧ r.byHandle? handle = none ∧ r.size < limit := by
  refine ⟨refusal?_eq_none, ?_⟩
  rintro ⟨named, bound, room⟩
  rw [refusal?_of_free bound, named, length_players, if_neg (by simp), if_neg (by omega)]

/-! ### Paired indexes -/

namespace Paired

/-- Two members under one handle are one. -/
theorem eq_of_handle (h : r.Paired) {name name' : String} (hm : r.byName? name = some m)
    (hm' : r.byName? name' = some m') (same : m.handle = m'.handle) : m = m' := by
  have h₁ := (h.name hm).2
  have h₂ := (h.name hm').2
  rw [same, h₂] at h₁
  exact (Option.some.inj h₁).symm

/-- Registering a member under a free name and a free handle. -/
theorem bind (h : r.Paired) (hn : r.byName? m.name = none) (hh : r.byHandle? m.handle = none) :
    (r.bind m.name m.handle m).Paired := by
  refine ⟨?_, ?_⟩
  · intro name m' hm
    rw [byName?_bind] at hm
    rw [byHandle?_bind]
    split at hm
    · rename_i same
      cases hm
      exact ⟨same, if_pos rfl⟩
    · obtain ⟨hname, hhandle⟩ := h.name hm
      have apart : m.handle ≠ m'.handle := by
        intro same
        rw [same, hhandle] at hh
        cases hh
      exact ⟨hname, by rw [if_neg apart, hhandle]⟩
  · intro handle m' hm
    rw [byHandle?_bind] at hm
    rw [byName?_bind]
    split at hm
    · rename_i same
      cases hm
      exact ⟨same, if_pos rfl⟩
    · obtain ⟨hhandle, hname⟩ := h.handle hm
      have apart : m.name ≠ m'.name := by
        intro same
        rw [same, hname] at hn
        cases hn
      exact ⟨hhandle, by rw [if_neg apart, hname]⟩

/-- Taking out a member that is registered. -/
theorem unbind (h : r.Paired) (hm : r.byName? m.name = some m) : (r.unbind m).Paired := by
  refine ⟨?_, ?_⟩
  · intro name m' hm'
    rw [byName?_unbind hm] at hm'
    rw [byHandle?_unbind hm]
    split at hm'
    · cases hm'
    · rename_i hne
      obtain ⟨hname, hhandle⟩ := h.name hm'
      have apart : m.handle ≠ m'.handle := by
        intro same
        have one : m = m' := h.eq_of_handle hm hm' same
        exact hne (by rw [one, hname])
      exact ⟨hname, by rw [if_neg apart, hhandle]⟩
  · intro handle m' hm'
    rw [byHandle?_unbind hm] at hm'
    rw [byName?_unbind hm]
    split at hm'
    · cases hm'
    · rename_i hne
      obtain ⟨hhandle, hname⟩ := h.handle hm'
      have apart : m.name ≠ m'.name := by
        intro same
        rw [same, hname] at hm
        cases hm
        exact hne hhandle
      exact ⟨hhandle, by rw [if_neg apart, hname]⟩

end Paired

/-! ### The members -/

theorem mem_players : m ∈ r.players ↔ ∃ name, r.byName? name = some m := mem_values_iff

theorem Paired.mem_players (h : r.Paired) : m ∈ r.players ↔ r.byName? m.name = some m := by
  rw [Registry.mem_players]
  constructor
  · rintro ⟨name, hm⟩
    rw [(h.name hm).1, hm]
  · exact fun hm => ⟨_, hm⟩

theorem mem_peers : m' ∈ r.peers m ↔ m' ∈ r.players ∧ m'.session ≠ m.session := by
  rw [peers, List.mem_filter, bne_iff_ne]

/-- **No two members share a name.** -/
theorem Paired.nodup_names (h : r.Paired) : (r.players.map Member.name).Nodup := by
  have distinct := ExtTreeMap.distinct_keys_toList (t := r.byName)
  rw [players, values_eq_map_toList, List.map_map, List.Nodup, List.pairwise_map]
  refine distinct.imp_of_mem ?_
  intro a b ha hb hab same
  have hma : r.byName? a.1 = some a.2 := ExtTreeMap.mem_toList_iff_getElem?_eq_some.mp ha
  have hmb : r.byName? b.1 = some b.2 := ExtTreeMap.mem_toList_iff_getElem?_eq_some.mp hb
  have sameName : a.1 = b.1 := by rw [← (h.name hma).1, ← (h.name hmb).1]; exact same
  exact hab (Std.compare_eq_iff_eq.mpr sameName)

/-- No member is listed twice. -/
theorem Paired.nodup_players (h : r.Paired) : r.players.Nodup := h.nodup_names.of_map

/-- **No two members share a handle.** -/
theorem Paired.nodup_handles (h : r.Paired) : (r.players.map Member.handle).Nodup :=
  h.nodup_players.map_on fun _ ha _ hb same =>
    h.eq_of_handle (h.mem_players.mp ha) (h.mem_players.mp hb) same

/-! ### The indexes are of one size -/

/-- The handles that lead to someone are the handles of the members. -/
theorem Paired.perm_handles (h : r.Paired) : (r.players.map Member.handle).Perm r.byHandle.keys := by
  refine (List.perm_ext_iff_of_nodup h.nodup_handles ExtTreeMap.nodup_keys).mpr fun handle => ?_
  rw [List.mem_map, ExtTreeMap.mem_keys, ExtTreeMap.mem_iff_isSome_getElem?, Option.isSome_iff_exists]
  constructor
  · rintro ⟨m, hm, rfl⟩
    exact ⟨m, (h.name (h.mem_players.mp hm)).2⟩
  · rintro ⟨m, hm⟩
    obtain ⟨same, named⟩ := h.handle hm
    exact ⟨m, h.mem_players.mpr named, same⟩

theorem Paired.size_eq (h : r.Paired) : r.byHandle.size = r.byName.size := by
  have count := h.perm_handles.length_eq
  rw [List.length_map, length_players, ExtTreeMap.length_keys] at count
  exact count.symm

theorem Paired.byHandle?_eq_some_iff (h : r.Paired) :
    r.byHandle? handle = some m ↔ m ∈ r.players ∧ m.handle = handle := by
  rw [h.mem_players]
  constructor
  · intro hm
    obtain ⟨same, named⟩ := h.handle hm
    exact ⟨named, same⟩
  · rintro ⟨named, rfl⟩
    exact (h.name named).2

/-- The members with a handle are what the handle leads to. -/
theorem Paired.filter_handle (h : r.Paired) (handle : Handle) :
    r.players.filter (·.handle == handle) = (r.byHandle? handle).toList := by
  have same : (r.players.filter (·.handle == handle)).Perm (r.byHandle? handle).toList := by
    refine (List.perm_ext_iff_of_nodup (h.nodup_players.filter _) ?_).mpr fun m => ?_
    · cases r.byHandle? handle with
      | none => exact List.nodup_nil
      | some m => exact List.nodup_singleton m
    · rw [List.mem_filter, beq_iff_eq, Option.mem_toList, h.byHandle?_eq_some_iff]
  cases leads : r.byHandle? handle with
  | none =>
    rw [leads] at same
    exact List.perm_nil.mp same
  | some m =>
    rw [leads] at same
    exact List.perm_singleton.mp same

theorem Paired.byName?_eq_some_iff (h : r.Paired) :
    r.byName? name = some m ↔ m ∈ r.players ∧ m.name = name := by
  rw [h.mem_players]
  constructor
  · intro hm
    have same := (h.name hm).1
    rw [same]
    exact ⟨hm, rfl⟩
  · rintro ⟨named, rfl⟩
    exact named

end BlockWorld.Registry
